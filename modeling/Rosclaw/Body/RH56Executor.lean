/-
One step of an RH56 hand (`body/execution/rh56_executor.py`).

Positions and setpoints are registers, so integers; a text that a transport error carries is kept.
-/
import Rosclaw.Body.TransportProfile

namespace Rosclaw.RH56

/-- What the step reads of an `ActionExecutionRequest`; the floats are finite. -/
structure ActionExecutionRequest where
  values : List ℚ
  speed : Int
  forceLimitG : ℚ
  validUntilMonotonicNs : Int

structure StepOptions where
  maxStepDeltaRaw : Option PyFloat := none
  holdToleranceRaw : Option (List PyFloat) := none

structure Bus (R : Type*) where
  /-- When the validity of the request is looked at. -/
  checkedAt : Int
  /-- The first `read_state`, or the text of its `TransportIOError`. -/
  state : Except String (RH56Feedback Int R)
  /-- `read_angle_setpoints`. -/
  setpoints : Except String (List Int)
  /-- When the command is handed over. -/
  writtenAt : Int
  write : Except String Bool
  /-- The second `read_state`. -/
  after : Except String (RH56Feedback Int R)
  forward : checkedAt ≤ writtenAt

/-- A call of `write_position`. -/
structure Command where
  positions : List Int
  speed : Int
  forceLimit : Int
  issuedAt : Int
deriving DecidableEq, Repr

inductive SafetyError
  /-- `stale_action: request validity window expired` -/
  | stale
  /-- `actuator_count_mismatch: ... values for ... actuators` -/
  | actuatorCount (values actuators : Nat)
  /-- `hold_tolerance_count_mismatch: ... values for ... actuators` -/
  | holdTolerance (values actuators : Nat)
  /-- `step_delta_exceeded: actuator ... delta ... > ...` -/
  | stepDelta (actuator : Nat) (delta : Int) (limit : PyFloat)
deriving DecidableEq, Repr

inductive Outcome (R : Type*)
  /-- `ExecutorSafetyError` -/
  | safety (e : SafetyError)
  /-- `ExecutorCommunicationError` -/
  | communication (message : String) (commandSent driverAcknowledged : Bool)
  /-- `OverflowError: int too large to convert to float` -/
  | overflow
  | done (acknowledged : Bool) (feedback : RH56Feedback Int R)

variable {R : Type*} (profile : ValidProfile) (request : ActionExecutionRequest)
  (options : StepOptions)

/-- The target is more than the limit away from the position, if there are both. -/
def exceeds (limit : Option PyFloat) (position : Option Int) (target : Int) : Option (Int × PyFloat) :=
  limit.bind fun limit => position.bind fun p =>
    if limit.lt (.finite |((target - p : Int) : ℚ)|) then some (|target - p|, limit) else none

/-- `abs(target - float(position)) <= tolerance`; a number too large for a float raises. -/
def inBand (target position : Int) (tolerance : PyFloat) : Option Bool :=
  (PyFloat.ofInt? position).bind fun p => (PyFloat.ofInt? target).map fun t =>
    (t.sub p).abs.le tolerance

/-- The setpoint that is kept for an actuator: there is one, and the target is in the band about the
position. -/
def kept (setpoint position : Option Int) (tolerance : Option PyFloat) (target : Int) :
    Option (Option Int) :=
  match setpoint, position, tolerance with
  | some s, some p, some tolerance =>
    (inBand target p tolerance).map fun inside => if inside then some s else none
  | _, _, _ => some none

/-- One round of the loop: the value that is sent for an actuator. -/
def targetOf (current : RH56Feedback Int R) (setpoints : List Int) (i : Nat) (value : ℚ) :
    Except (Outcome R) Int :=
  let target := profile.clampPosition value
  let tolerance := options.holdToleranceRaw.bind fun hold => hold[i]?
  match exceeds options.maxStepDeltaRaw current.position[i]? target with
  | some (delta, limit) => .error (.safety (.stepDelta i delta limit))
  | none =>
    match kept setpoints[i]? current.position[i]? tolerance target with
    | none => .error .overflow
    | some setpoint => .ok (setpoint.getD target)

def targetsFrom (current : RH56Feedback Int R) (setpoints : List Int) :
    Nat → List ℚ → Except (Outcome R) (List Int)
  | _, [] => .ok []
  | i, value :: values =>
    (targetOf profile options current setpoints i value).bind fun target =>
      (targetsFrom current setpoints (i + 1) values).map (target :: ·)

/-- `read_feedback`. -/
def readFeedback (state : Except String (RH56Feedback Int R)) :
    Except String (RH56Feedback Int R) :=
  state.mapError fun exc => "feedback_read_failed: " ++ exc

/-- The setpoints are read if there is a hold band, which has a tolerance for each actuator. -/
def readSetpoints (bus : Bus R) : Except (Outcome R) (List Int) :=
  match options.holdToleranceRaw with
  | none => .ok []
  | some hold =>
    if hold.length ≠ profile.command.actuatorCount then
      .error (.safety (.holdTolerance hold.length profile.command.actuatorCount))
    else bus.setpoints.mapError fun exc =>
      .communication ("setpoint_read_failed: " ++ exc) false false

/-- What the command will be, or how the call ends before there is one. -/
def prepare (bus : Bus R) : Except (Outcome R) (List Int) :=
  if bus.checkedAt > request.validUntilMonotonicNs then .error (.safety .stale)
  else if request.values.length ≠ profile.command.actuatorCount then
    .error (.safety (.actuatorCount request.values.length profile.command.actuatorCount))
  else
    ((readFeedback bus.state).mapError fun message => .communication message false false).bind
      fun current => (readSetpoints profile options bus).bind fun setpoints =>
        targetsFrom profile options current setpoints 0 request.values

def executeStep (bus : Bus R) : Outcome R × List Command :=
  match prepare profile request options bus with
  | .error outcome => (outcome, [])
  | .ok targets =>
    let command : Command :=
      ⟨targets, request.speed, PyFloat.truncate request.forceLimitG, bus.writtenAt⟩
    match bus.write with
    | .error exc => (.communication ("command_send_failed: " ++ exc) false false, [command])
    | .ok acknowledged =>
      match readFeedback bus.after with
      | .error message =>
        (.communication ("post_dispatch_feedback_failed: " ++ message) true acknowledged, [command])
      | .ok feedback => (.done acknowledged feedback, [command])

end Rosclaw.RH56
