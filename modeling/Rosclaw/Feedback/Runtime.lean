/-
The synchronous runtime of the feedback plane: projector, estimator, tick and receipt.

A tick checks its input, asks the controller for a residual and projects it; whatever is wrong on
the way, the residual is replaced by a fallback.  `none` stands for an exception that leaves a
tick, or the receipt.

* `buildReceipt` — the summary of the retained ticks.
-/
import Rosclaw.Feedback.Contracts

namespace Rosclaw.Feedback

structure Loop where
  os : Platform
  spec : FeedbackLoopSpec
  /-- `absolute_action_bounds` of the projector -/
  bounds : Dict PyStr (ℚ × ℚ)
  ordered : ∀ k b, bounds.get? k = some b → b.1 < b.2
  capacity : Nat
  room : 0 < capacity
  controllerType : PyStr
  /-- `config_dict()` of the controller -/
  config : PyVal

/-! ### The projector -/

/-- An `Exception` of the controller, or of what is done with its answer. -/
inductive Exn
  | valueError | typeError
  | other (name : PyStr)
deriving DecidableEq

def Exn.name : Exn → PyStr
  | .valueError => "ValueError"
  | .typeError => "TypeError"
  | .other name => name

/-- A key of an answer; of one that is no string, what `str` makes of it. -/
inductive RawKey
  | str (s : PyStr)
  | other (text : PyStr)

/-- A value of an answer: `float` of it is a float, or raises. -/
inductive RawValue
  | number (x : PyFloat)
  | raises (e : Exn)

/-- What the controller does when it is asked; an answer that is no mapping raises when it is
projected. -/
inductive Answer
  | raises (e : Exn)
  | mapping (entries : List (RawKey × RawValue))

/-- An entry of an answer that can be projected, with the limit of its output. -/
structure Entry where
  key : PyStr
  limit : ℚ
  value : ℚ

def sift (spec : FeedbackLoopSpec) :
    List (RawKey × RawValue) → Except Exn (List RawKey × List Entry)
  | [] => .ok ([], [])
  | (.other text, _) :: rest => (sift spec rest).map fun p => (.other text :: p.1, p.2)
  | (.str key, value) :: rest =>
      match spec.outputLimits.get? key, value with
      | none, _ => (sift spec rest).map fun p => (.str key :: p.1, p.2)
      | some _, .raises e => .error e
      | some limit, .number x =>
          (sift spec rest).map fun p =>
            match finite? x with
            | none => (.str key :: p.1, p.2)
            | some value => (p.1, ⟨key, limit, value⟩ :: p.2)

/-- `",".join(sorted(keys))`: a key that is no string is not joined. -/
def joinKeys : List RawKey → Except Exn (List PyStr)
  | [] => .ok []
  | .str s :: rest => (joinKeys rest).map (s :: ·)
  | .other _ :: _ => .error .typeError

def commaSeparated (keys : List PyStr) : PyStr :=
  (keys.intersperse (PyStr.ofString ",")).foldl (· ++ ·) ""

/-- The values of an answer that are finite; only the errors of `float` are expected. -/
def safeRaw : List (RawKey × RawValue) → Except Exn Signals
  | [] => .ok ∅
  | (key, value) :: rest =>
      match value with
      | .raises (.other name) => .error (.other name)
      | .raises _ => safeRaw rest
      | .number x =>
          (safeRaw rest).map fun safe =>
            match finite? x, key with
            | none, _ => safe
            | some q, .str s => safe.set s q
            | some q, .other text => safe.set text q

/-- The residual between the limits of its output, and then between those of the action. -/
def bounded (limit : ℚ) (bounds : Option (ℚ × ℚ)) (base value : ℚ) : ℚ :=
  bounds.elim (max (-limit) (min limit value)) fun b =>
    max (b.1 - base) (min (b.2 - base) (max (-limit) (min limit value)))

/-- The variables of the loop of `project`. -/
structure Projecting where
  raw : Signals
  projected : Signals
  reasons : List PyStr
  saturationCount : Nat

/-- One round of the loop of `project`. -/
def Projecting.step (l : Loop) (base : Signals) (p : Projecting) (e : Entry) : Projecting :=
  let residual := bounded e.limit (l.bounds.get? e.key) ((base.get? e.key).getD 0) e.value
  let saturated : Bool := (1 / 1000000000000000 : ℚ) < |residual - e.value|
  { raw := p.raw.set e.key e.value
    projected := p.projected.set e.key residual
    reasons := if saturated then p.reasons ++ ["saturated:" ++ e.key] else p.reasons
    saturationCount := if saturated then p.saturationCount + 1 else p.saturationCount }

/-- `canonical_hash({"action": ...})`. -/
def baseActionHash (l : Loop) (base : Signals) : Option PyStr :=
  canonicalHash l.os (.dict [("action", base.json)])

section Projector

variable (l : Loop) (sequence : Nat) (timestampNs : Int) (base : Signals)

/-- `fallback`, for a raw command whose values are finite. -/
def fallback (raw : Signals) (reason : PyStr) (mode : FallbackMode) (deadlineMet : Bool)
    (projectedOverride : Option Signals) : Option ResidualCommand :=
  (baseActionHash l base).bind fun hash =>
    (ResidualCommand.make
      { sequence
        timestampNs
        validUntilNs := timestampNs + l.spec.periodNs
        baseActionHash := hash
        raw
        projected :=
          if mode = .freezeAndStabilize then projectedOverride.getD ∅ else ∅
        reasons := [reason]
        saturationCount := 0
        deadlineMet
        fallback := some mode }).toOption

def project (raw : List (RawKey × RawValue)) : Except Exn ResidualCommand :=
  match baseActionHash l base with
  | none => .error .valueError
  | some hash =>
      (sift l.spec raw).bind fun p =>
        if p.1.isEmpty then
          let done := p.2.foldl (Projecting.step l base) ⟨∅, ∅, [], 0⟩
          (ResidualCommand.make
            { sequence
              timestampNs
              validUntilNs := timestampNs + l.spec.periodNs
              baseActionHash := hash
              raw := done.raw
              projected := done.projected
              reasons := done.reasons
              saturationCount := done.saturationCount
              deadlineMet := true
              fallback := none }).mapError fun _ => .valueError
        else
          (joinKeys p.1).bind fun keys =>
            (safeRaw raw).bind fun safe =>
              (fallback l sequence timestampNs base safe
                ("unsafe_projection:" ++ commaSeparated (PyStr.sortedSet keys))
                l.spec.fallbackUnsafeProjection true none).elim (.error .valueError) .ok

end Projector

/-! ### The estimator -/

/-- `FeedbackStateEstimator`: the error and the timestamp of the last update, and the integral. -/
structure Estimator where
  previous : Option (Signals × Int)
  integral : Signals

def FeedbackLoopSpec.signals (spec : FeedbackLoopSpec) (f : PyStr → ℚ) : Signals :=
  ⟨spec.referenceSignals.map fun s => (s, f s), by
    rw [List.map_map]
    exact (List.map_id _).symm ▸ spec.references.2⟩

def Signals.at (s : Signals) (key : PyStr) : ℚ := (s.get? key).getD 0

/-- `reset`. -/
def Estimator.new (spec : FeedbackLoopSpec) : Estimator := ⟨none, spec.signals fun _ => 0⟩

def integralLimit : ℚ := 10

def Estimator.update (spec : FeedbackLoopSpec) (est : Estimator) (reference actual : Signals)
    (timestampNs : Int) : Except Exn (ErrorState × Estimator) :=
  if spec.referenceSignals.any fun s => !reference.contains s || !actual.contains s then
    .error .valueError
  else
    let error := spec.signals fun s => reference.at s - actual.at s
    match est.previous with
    | none =>
        .ok (⟨error, spec.signals fun _ => 0, est.integral, timestampNs⟩,
          ⟨some (error, timestampNs), est.integral⟩)
    | some (previous, previousNs) =>
        let dt : ℚ := (timestampNs - previousNs : Int) / 1000000000
        if dt ≤ 0 then .error .valueError
        else
          let derivative := spec.signals fun s => (error.at s - previous.at s) / dt
          let integral := spec.signals fun s =>
            max (-integralLimit)
              (min integralLimit
                (est.integral.at s + 1 / 2 * (error.at s + previous.at s) * dt))
          .ok (⟨error, derivative, integral, timestampNs⟩, ⟨some (error, timestampNs), integral⟩)

/-! ### A tick -/

/-- The arguments of a tick, what the controller answers if it is asked, and how long it takes by
the clock. -/
structure TickInput where
  timestampNs : Int
  observationTimestampNs : Int
  phase : PyFloat
  reference : Readings
  actual : Readings
  baseAction : Readings
  answer : Answer
  clockNs : Int

/-- `FeedbackTickRecord`; an error that was not computed is NaN, `none` here. -/
structure TickRecord where
  input : FeedbackInput
  errorRms : Option ℚ
  commandHash : PyStr
  latencyNs : Int
  deadlineMet : Bool
  staleObservation : Bool
  saturationCount : Nat
  residualNorm : ℚ
  correctionApplied : Bool
  safetyProjectionApplied : Bool
  reasons : List PyStr

/-- `FeedbackRuntime`. -/
structure Runtime where
  sequence : Nat
  estimator : Estimator
  records : List TickRecord
  lastSafeProjected : Signals

/-- `reset`. -/
def Runtime.new (l : Loop) : Runtime := ⟨0, .new l.spec, [], ∅⟩

def TickInput.sample (t : TickInput) : Option (FeedbackInput × Option PyStr) :=
  match FeedbackInput.make t.timestampNs t.observationTimestampNs t.phase t.reference t.actual
      t.baseAction with
  | .ok input => some (input, none)
  | .error text =>
      (FeedbackInput.make t.timestampNs t.observationTimestampNs
        (.finite ((finite? t.phase).getD 0)) (finiteOrZero t.reference).readings
        (finiteOrZero t.actual).readings (finiteOrZero t.baseAction).readings).toOption.map
          fun input => (input, some ("invalid_input:" ++ text))

def TickInput.ageNs (t : TickInput) : Int := t.timestampNs - t.observationTimestampNs

def TickInput.stale (l : Loop) (t : TickInput) : Bool := t.ageNs < 0 || l.spec.maxAgeNs < t.ageNs

def TickInput.elapsedNs (t : TickInput) : Int := max 0 t.clockNs

/-- `0.0 <= phase <= 1.0`. -/
def inUnit (phase : PyFloat) : Bool := (PyFloat.finite 0).le phase && phase.le (.finite 1)

/-- What is decided before the deadline is looked at. -/
structure Attempt where
  command : ResidualCommand
  estimator : Estimator
  error : Option ErrorState

section Tick

variable (l : Loop) (rt : Runtime) (t : TickInput) (input : FeedbackInput)

/-- The fallback after an exception of the controller, or on the way to it and from it. -/
def controllerInvalid (e : Exn) (estimator : Estimator) (error : Option ErrorState) :
    Option Attempt :=
  (fallback l rt.sequence t.timestampNs input.baseAction ∅ ("controller_invalid:" ++ e.name)
    l.spec.fallbackUnsafeProjection true none).map fun command => ⟨command, estimator, error⟩

/-- The `try` block of `tick`. -/
def consult : Option Attempt :=
  if l.spec.observationSignals.any fun s => !input.actual.contains s then
    controllerInvalid l rt t input .valueError rt.estimator none
  else
    match rt.estimator.update l.spec input.reference input.actual t.timestampNs with
    | .error e => controllerInvalid l rt t input e rt.estimator none
    | .ok (error, estimator) =>
        if inUnit t.phase then
          match t.answer with
          | .raises e => controllerInvalid l rt t input e estimator (some error)
          | .mapping raw =>
              match project l rt.sequence t.timestampNs input.baseAction raw with
              | .error e => controllerInvalid l rt t input e estimator (some error)
              | .ok command => some ⟨command, estimator, some error⟩
        else controllerInvalid l rt t input .valueError estimator (some error)

def attempt (invalidReason : Option PyStr) : Option Attempt :=
  match invalidReason with
  | some reason =>
      (fallback l rt.sequence t.timestampNs input.baseAction ∅ reason
        l.spec.fallbackUnsafeProjection true none).map fun command => ⟨command, rt.estimator, none⟩
  | none =>
      if t.stale l then
        (fallback l rt.sequence t.timestampNs input.baseAction ∅
          ("stale_observation:" ++ PyStr.ofInt t.ageNs) l.spec.fallbackStaleObservation true
          none).map fun command => ⟨command, rt.estimator, none⟩
      else consult l rt t input

/-- The command of the tick, and what is kept as the last safe residual. -/
def meetDeadline (command : ResidualCommand) : Option (ResidualCommand × Signals) :=
  if l.spec.deadlineNs < t.elapsedNs then
    (fallback l rt.sequence t.timestampNs input.baseAction command.raw
      ("deadline_miss:" ++ PyStr.ofInt t.elapsedNs) l.spec.fallbackDeadlineMiss false
      (if l.spec.fallbackDeadlineMiss = .freezeAndStabilize then some rt.lastSafeProjected
        else none)).map fun command => (command, rt.lastSafeProjected)
  else if command.fallback = none then some (command, command.projected)
  else some (command, rt.lastSafeProjected)

def residualValues (command : ResidualCommand) : List ℚ :=
  (PyStr.sortedSet l.spec.outputLimits.keys).map fun s => (command.projected.get? s).getD 0

def record (command : ResidualCommand) (error : Option ErrorState) : Option TickRecord :=
  (command.commandHash l.os).map fun hash =>
    { input
      errorRms := error.map (·.rms l.os)
      commandHash := hash
      latencyNs := t.elapsedNs
      deadlineMet := command.deadlineMet
      staleObservation := t.stale l
      saturationCount := command.saturationCount
      residualNorm := l.os.sqrt ((residualValues l command).map fun x => x * x).sum
      correctionApplied := (residualValues l command).any fun x => 0 < |x|
      safetyProjectionApplied := command.saturationCount ≠ 0 || command.fallback.isSome
      reasons := command.reasons }

def retained (records : List TickRecord) : List TickRecord :=
  if l.capacity < records.length then records.tail else records

def tick : Option (Runtime × ResidualCommand) :=
  t.sample.bind fun s =>
    (attempt l rt t s.1 s.2).bind fun a =>
      (meetDeadline l rt t s.1 a.command).bind fun d =>
        (record l t s.1 d.1 a.error).map fun r =>
          (⟨rt.sequence + 1, a.estimator, retained l (rt.records ++ [r]), d.2⟩, d.1)

end Tick

def run (l : Loop) : Runtime → List TickInput → Option (Runtime × List ResidualCommand)
  | rt, [] => some (rt, [])
  | rt, t :: ts =>
      (tick l rt t).bind fun p => (run l p.1 ts).map fun q => (q.1, p.2 :: q.2)

end Rosclaw.Feedback
