/-
The contracts of the feedback plane.

A reading is a float as it comes from a sensor, a policy or a controller; what is kept is finite,
and a finite float is the rational it denotes.
-/
import Rosclaw.Lib.Dict
import Rosclaw.Lib.Double
import Rosclaw.Lib.Text

namespace Rosclaw.Feedback

/-! ### Signal mappings -/

abbrev Readings := Dict PyStr PyFloat

abbrev Signals := Dict PyStr ℚ

def finite? : PyFloat → Option ℚ
  | .finite q => some q
  | _ => none

def finiteOrZero (values : Readings) : Signals := values.mapVals fun _ x => (finite? x).getD 0

def allFinite (values : Readings) : Bool := values.entries.all fun e => (finite? e.2).isSome

/-- `_immutable_floats`; the error is the text of the `ValueError`. -/
def immutableFloats (values : Readings) (label : String) : Except PyStr Signals :=
  if allFinite values then .ok (finiteOrZero values)
  else .error (PyStr.ofString label ++ " must contain only finite values")

def Signals.readings (s : Signals) : Readings := s.mapVals fun _ q => .finite q

def Signals.json (s : Signals) : PyVal :=
  .dict ((s.entries.insertionSort fun e e' => e.1.le e'.1 = true).map fun e =>
    (e.1, .float (.finite e.2)))

/-! ### Hashes -/

/-- The form `sha256:` and 64 hexadecimal digits. -/
def isSha256 (s : PyStr) : Bool :=
  s.startsWith "sha256:" && (s.codes.drop 7).length = 64
    && (s.codes.drop 7).all fun c => (48 ≤ c && c ≤ 57) || (97 ≤ c && c ≤ 102)

structure Platform where
  sqrt : ℚ → ℚ
  /-- `"sha256:" + sha256(json.dumps(value, ...)).hexdigest()` -/
  digest : PyVal → PyStr
  hex : ∀ v, isSha256 (digest v) = true

/-- `canonical_hash`: with `allow_nan=False` a float that is not finite raises. -/
def canonicalHash (os : Platform) (v : PyVal) : Option PyStr := v.canon.map os.digest

/-! ### The loop -/

inductive FallbackMode
  | basePolicyOnly | disableResidual | freezeAndStabilize
deriving DecidableEq, Repr

def FallbackMode.value : FallbackMode → PyStr
  | .basePolicyOnly => "base_policy_only"
  | .disableResidual => "disable_residual"
  | .freezeAndStabilize => "freeze_and_stabilize"

/-- `FeedbackLoopSpec`, with the checks of `__post_init__`. -/
structure FeedbackLoopSpec where
  loopId : PyStr
  bodyHash : PyStr
  controllerHash : PyStr
  referenceSignals : List PyStr
  observationSignals : List PyStr
  outputLimits : Signals
  rateHz : ℚ
  deadlineMs : ℚ
  maxObservationAgeMs : ℚ
  fallbackStaleObservation : FallbackMode
  fallbackDeadlineMiss : FallbackMode
  fallbackUnsafeProjection : FallbackMode
  schemaVersion : PyStr
  named : loopId.isBlank = false
  hashes : isSha256 bodyHash = true ∧ isSha256 controllerHash = true
  rate : 1 ≤ rateHz ∧ rateHz ≤ 1000
  deadline : 0 < deadlineMs ∧ deadlineMs ≤ 1000 / rateHz
  age : 0 < maxObservationAgeMs
  references : referenceSignals ≠ [] ∧ referenceSignals.Nodup
  observations : observationSignals ≠ [] ∧ observationSignals.Nodup
  outputs : outputLimits.entries ≠ []
  limits : ∀ k limit, outputLimits.get? k = some limit → 0 < limit

namespace FeedbackLoopSpec

variable (spec : FeedbackLoopSpec)

def periodNs : Int := Double.nearest (1000000000 / spec.rateHz)

/-- `int(self.spec.deadline_ms * 1_000_000.0)`. -/
def deadlineNs : Int := ⌊spec.deadlineMs * 1000000⌋

/-- `int(self.spec.max_observation_age_ms * 1_000_000.0)`. -/
def maxAgeNs : Int := ⌊spec.maxObservationAgeMs * 1000000⌋

def toDict : PyVal :=
  .dict [("schema_version", .str spec.schemaVersion), ("loop_id", .str spec.loopId),
    ("body_hash", .str spec.bodyHash), ("controller_hash", .str spec.controllerHash),
    ("reference_signals", .list (spec.referenceSignals.map .str)),
    ("observation_signals", .list (spec.observationSignals.map .str)),
    ("output_limits", spec.outputLimits.json), ("rate_hz", .float (.finite spec.rateHz)),
    ("deadline_ms", .float (.finite spec.deadlineMs)),
    ("max_observation_age_ms", .float (.finite spec.maxObservationAgeMs)),
    ("fallback_stale_observation", .str spec.fallbackStaleObservation.value),
    ("fallback_deadline_miss", .str spec.fallbackDeadlineMiss.value),
    ("fallback_unsafe_projection", .str spec.fallbackUnsafeProjection.value)]

end FeedbackLoopSpec

/-! ### What a tick reads and makes -/

/-- `FeedbackInput`; the phase is not checked. -/
structure FeedbackInput where
  timestampNs : Int
  observationTimestampNs : Int
  phase : PyFloat
  reference : Signals
  actual : Signals
  baseAction : Signals

def FeedbackInput.make (timestampNs observationTimestampNs : Int) (phase : PyFloat)
    (reference actual baseAction : Readings) : Except PyStr FeedbackInput :=
  (immutableFloats reference "reference").bind fun reference =>
    (immutableFloats actual "actual").bind fun actual =>
      (immutableFloats baseAction "base action").map fun baseAction =>
        ⟨timestampNs, observationTimestampNs, phase, reference, actual, baseAction⟩

structure ErrorState where
  value : Signals
  derivative : Signals
  integral : Signals
  timestampNs : Int

def ErrorState.rms (os : Platform) (e : ErrorState) : ℚ :=
  if e.value.entries.isEmpty then 0
  else os.sqrt ((e.value.values.map fun x => x * x).sum / e.value.entries.length)

/-- `ResidualCommand`, of finite values. -/
structure ResidualCommand where
  sequence : Nat
  timestampNs : Int
  validUntilNs : Int
  baseActionHash : PyStr
  raw : Signals
  projected : Signals
  reasons : List PyStr
  saturationCount : Nat
  deadlineMet : Bool
  fallback : Option FallbackMode

/-- `ResidualCommand(...)`: the hash of the base action is checked. -/
def ResidualCommand.make (c : ResidualCommand) : Except PyStr ResidualCommand :=
  if isSha256 c.baseActionHash then .ok c
  else .error "base_action_hash must be a sha256: content hash"

def ResidualCommand.commandHash (os : Platform) (c : ResidualCommand) : Option PyStr :=
  canonicalHash os (.dict [("schema_version", .str "rosclaw.feedback.residual_command.v1"),
    ("sequence", .int c.sequence), ("timestamp_ns", .int c.timestampNs),
    ("valid_until_ns", .int c.validUntilNs), ("base_action_hash", .str c.baseActionHash),
    ("raw", c.raw.json), ("projected", c.projected.json),
    ("reasons", .list (c.reasons.map .str)), ("saturation_count", .int c.saturationCount),
    ("deadline_met", .bool c.deadlineMet),
    ("fallback", c.fallback.elim .none fun mode => .str mode.value)])

end Rosclaw.Feedback
