/-
The action effect gate (`twintouch/effect_gate.py`).

* `evaluateEffect` — the servo telemetry and the camera are asked whether one body did what
  it was told, and the receipt has the verdict;
* `PhysicalActionEffectReceipt.validate` — what a receipt may not say.
The floats are the elements of an ordered field; `Floats` has the two functions on them.
-/
import Mathlib.Algebra.Order.Field.Basic
import Mathlib.Data.Fintype.Option
import Rosclaw.Lib.Dict

namespace Rosclaw.EffectGate

inductive Effect
  | confirmed | noEffect | wrongBodyEffect | internalOnly | externalOnly | unknown
deriving DecidableEq, Repr

def Effect.text : Effect → String
  | .confirmed => "EFFECT_CONFIRMED"
  | .noEffect => "NO_EFFECT"
  | .wrongBodyEffect => "WRONG_BODY_EFFECT"
  | .internalOnly => "INTERNAL_ONLY"
  | .externalOnly => "EXTERNAL_ONLY"
  | .unknown => "UNKNOWN"

def commandMove : String := "move"
def commandHold : String := "hold"

variable {R : Type*} [Field R] [LinearOrder R]

structure EffectThresholds (R : Type*) [Field R] where
  minPositionDeltaRaw : Int := 8
  holdToleranceRaw : Int := 15
  minVisualMoveM : R := 8 / 1000

structure JointCommand (R : Type*) where
  actionId : String
  bodyId : String
  commandType : String
  targets : Dict String Int
  issuedAtS : R
  windowS : R

inductive CommandViolation
  /-- `command_type ... unknown` -/
  | commandType (got : String)
  /-- `targets missing` -/
  | targets
  /-- `window_s must be positive` -/
  | window
deriving DecidableEq, Repr

def JointCommand.validate (c : JointCommand R) : List CommandViolation :=
  (if c.commandType ≠ commandMove ∧ c.commandType ≠ commandHold then
    [.commandType c.commandType] else []) ++
  (if c.targets.keys = [] then [.targets] else []) ++
  (if c.windowS ≤ 0 then [.window] else [])

structure TelemetryPoint (R : Type*) where
  tsS : R
  angleActual : Dict String (Option Int)

/-- `point.angle_actual.get(joint)`. -/
def TelemetryPoint.reading (p : TelemetryPoint R) (joint : String) : Option Int :=
  (p.angleActual.get? joint).join

structure VisualSample (R : Type*) where
  ok : Bool
  centroid3d : Option (R × R × R)

def VisualSample.seen (s : VisualSample R) : Option (R × R × R) :=
  if s.ok then s.centroid3d else none

/-- `math.dist` and `round(x, 5)`. -/
structure Floats (R : Type*) where
  dist : R × R × R → R × R × R → R
  round5 : R → R

def displacement (fl : Floats R) (a b : VisualSample R) : Option R :=
  a.seen.bind fun p => b.seen.map fun q => fl.dist p q

structure PhysicalActionEffectReceipt (R : Type*) where
  actionId : String
  bodyId : String
  commandType : String
  commandedJoints : List String
  internalDeltaMaxRaw : Option Int
  internalFollowed : Option Bool
  externalDisplacementM : Option R
  externalMoved : Option Bool
  otherBodyDisplacementM : Option R
  otherBodyMoved : Option Bool
  verdict : Effect
  reasons : List String

def PhysicalActionEffectReceipt.validate (r : PhysicalActionEffectReceipt R) : List String :=
  (if r.verdict = .confirmed then
    (if r.internalFollowed ≠ some true then
      ["EFFECT_CONFIRMED requires internal_followed=True"] else []) ++
    (if r.commandType = commandMove ∧ r.externalMoved ≠ some true then
      ["move EFFECT_CONFIRMED requires external_moved=True"] else []) ++
    (if r.commandType = commandHold ∧ r.externalMoved ≠ some false then
      ["hold EFFECT_CONFIRMED requires external_moved=False"] else [])
   else []) ++
  (if r.verdict = .noEffect ∧ r.internalFollowed = some true then
    ["NO_EFFECT contradicts internal_followed=True"] else []) ++
  (if r.verdict = .wrongBodyEffect ∧ r.otherBodyMoved ≠ some true then
    ["WRONG_BODY_EFFECT requires other_body_moved=True"] else [])

/-! ## The internal channel -/

/-- `telemetry[0]` and `telemetry[-1]` of a window with two points. -/
def window : List (TelemetryPoint R) → Option (TelemetryPoint R × TelemetryPoint R)
  | before :: p :: ps => some (before, (p :: ps).getLast (List.cons_ne_nil p ps))
  | _ => none

/-- `deltas`: joints that cannot be read before and after are left out. -/
def deltas (joints : List String) (before after : TelemetryPoint R) : List (String × Int) :=
  joints.filterMap fun joint =>
    (before.reading joint).bind fun b => (after.reading joint).map fun a => (joint, a - b)

def deltaMax (ds : List (String × Int)) : Int :=
  (ds.map fun d => |d.2|).foldr max 0

/-- `followed_joints` takes the joint; its reading before is `b`. -/
def follows (th : EffectThresholds R) (target b delta : Int) : Bool :=
  let direction : Int := if target > b then 1 else if target < b then -1 else 0
  if direction ≠ 0 ∧ delta * direction ≥ th.minPositionDeltaRaw then true
  else if direction = 0 then true  -- already at target, wherever the joint went since
  else false

def followedJoints (th : EffectThresholds R) (targets : Dict String Int)
    (before : TelemetryPoint R) (ds : List (String × Int)) : List (String × Int) :=
  ds.filter fun d => ((before.reading d.1).bind fun b =>
    (targets.get? d.1).map fun target => follows th target b d.2).getD false

/-- `internal_delta_max`, `internal_followed` and the reasons. -/
def internal (th : EffectThresholds R) (c : JointCommand R) (telemetry : List (TelemetryPoint R)) :
    Option Int × Option Bool × List String :=
  match window telemetry with
  | none => (none, none, ["telemetry window missing — internal channel unknown"])
  | some (before, after) =>
    let ds := deltas c.targets.keys before after
    let most := deltaMax ds
    if ds = [] then (none, none, ["no commanded joint has before/after telemetry"])
    else if c.commandType = commandMove then
      if followedJoints th c.targets before ds ≠ [] then (some most, some true, [])
      else (some most, some false, [s!"no commanded joint followed (max |delta| {most} raw)"])
    else if most ≤ th.holdToleranceRaw then (some most, some true, [])
    else (some most, some false,
      [s!"hold drifted {most} raw > tolerance {th.holdToleranceRaw}"])

/-! ## The verdict -/

def verdictOf (move : Bool) (followed moved other : Option Bool) : Effect × List String :=
  match followed, moved with
  | some followed, some moved =>
    if !followed && other = some true then
      (.wrongBodyEffect, ["this body static while the other body moved"])
    else if move then
      match followed, moved with
      | true, true => (.confirmed, [])
      | true, false =>
        (.internalOnly, ["servo followed but camera saw no change in this body"])
      | false, true =>
        (.externalOnly, ["camera saw this body move without servo following (disturbed?)"])
      | false, false => (.noEffect, ["command issued; neither channel shows an effect"])
    else
      match followed, moved with
      | true, false => (.confirmed, [])
      | true, true => (.externalOnly,
        ["servo held but camera saw this body move (mount shift / external push)"])
      | false, true => (.noEffect, ["hold failed: both channels agree the body moved"])
      | false, false => (.internalOnly, ["servo drifted but camera saw this body static"])
  | followed, _ =>
    if followed = some false ∧ other = some true then
      (.wrongBodyEffect, ["own visual missing but wrong-body motion is explicit"])
    else (.unknown, [])

/-- What `evaluate_effect` is given besides the thresholds. -/
structure Trial (R : Type*) where
  command : JointCommand R
  telemetry : List (TelemetryPoint R)
  visualBefore : VisualSample R
  visualAfter : VisualSample R
  otherBefore : VisualSample R
  otherAfter : VisualSample R

def evaluateEffect (fl : Floats R) (thresholds : Option (EffectThresholds R)) (t : Trial R) :
    PhysicalActionEffectReceipt R :=
  let th := thresholds.getD {}
  let channel := internal th t.command t.telemetry
  let extDisp := displacement fl t.visualBefore t.visualAfter
  let otherDisp := displacement fl t.otherBefore t.otherAfter
  let externalMoved := extDisp.map fun d => decide (th.minVisualMoveM ≤ d)
  let otherMoved := otherDisp.map fun d => decide (th.minVisualMoveM ≤ d)
  let verdict := verdictOf (t.command.commandType = commandMove) channel.2.1 externalMoved otherMoved
  { actionId := t.command.actionId
    bodyId := t.command.bodyId
    commandType := t.command.commandType
    commandedJoints := t.command.targets.keys
    internalDeltaMaxRaw := channel.1
    internalFollowed := channel.2.1
    externalDisplacementM := extDisp.map fl.round5
    externalMoved := externalMoved
    otherBodyDisplacementM := otherDisp.map fl.round5
    otherBodyMoved := otherMoved
    verdict := verdict.1
    reasons := channel.2.2 ++
      (if extDisp = none then ["own-body visual unknown — external channel unknown"] else []) ++
      (if otherDisp = none then ["other-body visual unknown — attribution unknown"] else []) ++
      verdict.2 }

structure BimanualEffectGateVerdict (R : Type*) where
  proceed : Bool
  violations : List String
  leftReceipt : PhysicalActionEffectReceipt R
  rightReceipt : PhysicalActionEffectReceipt R

def sideViolations (side : String) (r : PhysicalActionEffectReceipt R) : List String :=
  if r.verdict = .confirmed then []
  else
    let reasons := if r.reasons = [] then "no reason" else String.intercalate "; " r.reasons
    s!"{side}: {r.verdict.text} ({reasons})" ::
      if r.verdict = .wrongBodyEffect then
        [s!"{side}: command affected the WRONG body — identity fault, stop the line"]
      else []

def bimanualEffectGate (left right : PhysicalActionEffectReceipt R) :
    BimanualEffectGateVerdict R :=
  let violations := sideViolations "left" left ++ sideViolations "right" right
  { proceed := violations.isEmpty
    violations := violations
    leftReceipt := left
    rightReceipt := right }

end Rosclaw.EffectGate
