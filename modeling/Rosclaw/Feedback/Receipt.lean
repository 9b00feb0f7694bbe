/-
The receipt of a feedback loop: the summary of the ticks that were retained.

* `mean`, `percentile`, `wrap64` — the numerics of the summary;
* `traceHash`, `signalsHash`, `snapshotHash` — the hashes, which refuse what JSON has no form for.
-/
import Rosclaw.Feedback.Runtime

namespace Rosclaw.Feedback

/-- `np.mean`, of a list that is not empty; NaN is `none`. -/
def mean (xs : List (Option ℚ)) : Option ℚ :=
  if xs.all Option.isSome then some ((xs.filterMap id).sum / xs.length) else none

/-- `np.percentile`: between the two values around the position. -/
def percentile (xs : List ℚ) (p : ℚ) : ℚ :=
  let sorted := xs.insertionSort fun x y => x ≤ y
  let position := ((xs.length - 1 : ℕ) : ℚ) * p / 100
  let below := ⌊position⌋₊
  let low := sorted.getD below 0
  low + (sorted.getD (below + 1) low - low) * (position - below)

def inInt64 (n : Int) : Bool := -2 ^ 63 ≤ n && n < 2 ^ 63

def wrap64 (n : Int) : Int := (n + 2 ^ 63) % 2 ^ 64 - 2 ^ 63

/-- `round(x)`: the nearest whole number, and of two the even one. -/
def roundInt (x : ℚ) : Int := if x < 0 then -Double.nearest (-x) else Double.nearest x

structure FeedbackReceipt where
  loopId : PyStr
  loopSpecHash : PyStr
  controllerHash : PyStr
  controllerSnapshotHash : PyStr
  bodyHash : PyStr
  actionId : PyStr
  referenceHash : PyStr
  observationHash : PyStr
  traceHash : PyStr
  samples : Nat
  /-- `None`, NaN or a number -/
  initialErrorRms : Option (Option ℚ)
  finalErrorRms : Option (Option ℚ)
  deadlineMissCount : Nat
  staleObservationCount : Nat
  saturationCount : Nat
  latencyP50Ms : ℚ
  latencyP99Ms : ℚ
  jitterP99Ms : ℚ
  observationAgeMaxMs : ℚ
  droppedFrameCount : Int
  correctionApplied : Bool
  safetyProjectionApplied : Bool
  strictReplay : Bool
  evidenceDomain : PyStr

section Receipt

variable (l : Loop) (records : List TickRecord)

def specHash : Option PyStr := canonicalHash l.os l.spec.toDict

/-- `reference_hash` and `observation_hash`. -/
def signalsHash (name : String) (f : FeedbackInput → Signals) : Option PyStr :=
  canonicalHash l.os (.dict [(name, .list (records.map fun r => (f r.input).json))])

def snapshotHash (specHash : PyStr) : Option PyStr :=
  canonicalHash l.os (.dict [("schema_version", .str "rosclaw.feedback.controller_snapshot.v1"),
    ("controller_id", .str (l.spec.loopId ++ ":controller")),
    ("controller_type", .str l.controllerType), ("body_hash", .str l.spec.bodyHash),
    ("loop_spec_hash", .str specHash), ("config", l.config)])

def TickRecord.json (r : TickRecord) : PyVal :=
  .dict [("timestamp_ns", .int r.input.timestampNs),
    ("observation_timestamp_ns", .int r.input.observationTimestampNs),
    ("phase", .float r.input.phase), ("reference", r.input.reference.json),
    ("actual", r.input.actual.json), ("base_action", r.input.baseAction.json),
    ("error_rms", r.errorRms.elim .none fun q => .float (.finite q)),
    ("command_hash", .str r.commandHash)]

def traceHash (specHash : PyStr) : Option PyStr :=
  canonicalHash l.os (.dict [("loop_spec_hash", .str specHash),
    ("ticks", .list (records.map TickRecord.json))])

/-- The error before and after the corrections; without a correction, of the first and of the last
fifth of the ticks. -/
def errorRange : Option (Option ℚ) × Option (Option ℚ) :=
  let indices := (List.range records.length).filter fun i =>
    (records[i]?).any TickRecord.correctionApplied
  match indices.head?, indices.getLast? with
  | some first, some last =>
      let window := max 1 (min 50 (indices.length / 5))
      let errorAt (i : Nat) : Option ℚ := (records[i]?).bind TickRecord.errorRms
      let finiteOr (values : List (Option ℚ)) (i : Nat) : List (Option ℚ) :=
        if (values.filter Option.isSome).isEmpty then [errorAt i] else values.filter Option.isSome
      let before := ((records.take first).drop (first - window)).map TickRecord.errorRms
      let after := ((records.take (last + 1)).drop (max first (last + 1 - window))).map
        TickRecord.errorRms
      (some (mean (finiteOr before first)), some (mean (finiteOr after last)))
  | _, _ =>
      let errors := (records.map TickRecord.errorRms).filter Option.isSome
      let window := max 1 ((errors.length + 4) / 5)
      if errors.isEmpty then (none, none)
      else (some (mean (errors.take window)),
        some (mean (errors.drop (errors.length - window))))

/-- `np.diff` of the timestamps. -/
def intervalsNs : List Int :=
  ((records.zip records.tail).map fun p =>
    wrap64 (p.2.input.timestampNs - p.1.input.timestampNs))

def buildReceipt (rt : Runtime) (actionId : PyStr) (strictReplay : Bool) (evidenceDomain : PyStr) :
    Option FeedbackReceipt :=
  let records := rt.records
  -- the timestamps become 64-bit integers
  if records.isEmpty || !records.all fun r => inInt64 r.input.timestampNs then none
  else
    (specHash l).bind fun specHash =>
      (signalsHash l records "reference" (·.reference)).bind fun referenceHash =>
        (signalsHash l records "actual" (·.actual)).bind fun observationHash =>
          (snapshotHash l specHash).bind fun snapshotHash =>
            (traceHash l records specHash).map fun traceHash =>
              { loopId := l.spec.loopId
                loopSpecHash := specHash
                controllerHash := l.spec.controllerHash
                controllerSnapshotHash := snapshotHash
                bodyHash := l.spec.bodyHash
                actionId
                referenceHash
                observationHash
                traceHash
                samples := records.length
                initialErrorRms := (errorRange records).1
                finalErrorRms := (errorRange records).2
                deadlineMissCount := records.countP fun r => !r.deadlineMet
                staleObservationCount := records.countP (·.staleObservation)
                saturationCount := (records.map (·.saturationCount)).sum
                latencyP50Ms := percentile (records.map fun r => r.latencyNs / 1000000) 50
                latencyP99Ms := percentile (records.map fun r => r.latencyNs / 1000000) 99
                jitterP99Ms :=
                  if (intervalsNs records).isEmpty then 0
                  else percentile ((intervalsNs records).map fun n =>
                    (wrap64 |wrap64 (n - l.spec.periodNs)| : ℚ) / 1000000) 99
                observationAgeMaxMs :=
                  ((records.map fun r =>
                    ((r.input.timestampNs - r.input.observationTimestampNs : Int) : ℚ)
                      / 1000000).max?).getD 0
                droppedFrameCount :=
                  ((intervalsNs records).map fun n =>
                    max 0 (roundInt ((n : ℚ) / l.spec.periodNs) - 1)).sum
                correctionApplied := records.any (·.correctionApplied)
                safetyProjectionApplied := records.any (·.safetyProjectionApplied)
                strictReplay
                evidenceDomain }

end Receipt

end Rosclaw.Feedback
