/-
The feedback of one step (`integrations/lerobot/execution/feedback_verifier.py`), and what the
single-step executor makes of it (`integrations/lerobot/execution/executor.py`).
Floats are the elements of an ordered field; a reading that is NaN is `none`.
-/
import Mathlib.Algebra.Order.Field.Basic
import Mathlib.Data.Int.Bitwise
import Rosclaw.Body.TransportProfile

namespace Rosclaw.Lerobot

open RH56

variable {R : Type*} [Field R] [LinearOrder R]

/-! ## The verifier -/

structure ActuatorCalibration where
  positionToleranceRaw : Int := 25

structure FeedbackCalibration (R : Type*) [Field R] where
  forceHardLimitG : R := 300
  temperatureWarningC : R := 55
  temperatureStopC : R := 60

structure RH56Calibration (R : Type*) [Field R] where
  actuators : Dict String ActuatorCalibration := ∅
  feedback : FeedbackCalibration R := {}

/-- `position_tolerance`. -/
def RH56Calibration.positionTolerance (c : RH56Calibration R) (name : String) : Int :=
  ((c.actuators.get? name).map (·.positionToleranceRaw)).getD 25

structure FeedbackVerifier (R : Type*) [Field R] where
  profile : TransportProfile
  calibration : Option (RH56Calibration R)

namespace FeedbackVerifier

variable (v : FeedbackVerifier R)

def names : List String := v.profile.actionOrder

def tolerance (name : String) : Int := (v.calibration.map (·.positionTolerance name)).getD 25

def hardLimit : R := (v.calibration.map (·.feedback.forceHardLimitG)).getD 300

def stopC : R := (v.calibration.map (·.feedback.temperatureStopC)).getD 60

def warnC : R := (v.calibration.map (·.feedback.temperatureWarningC)).getD 55

end FeedbackVerifier

inductive Detail (R : Type*)
  /-- `position_dim:...` -/
  | positionDim (name : String)
  /-- `position_error:...=...>...` -/
  | positionError (name : String) (error : R) (tolerance : Int)
  /-- `force_hard_limit:...=...>...` -/
  | forceHardLimit (name : String) (force limit : R)
  /-- `force_soft_limit:...=...>...` -/
  | forceSoftLimit (name : String) (force limit : R)
  /-- `temperature_stop:...=...>=...` -/
  | temperatureStop (name : String) (temp limit : R)
  /-- `temperature_warning:...=...>=...` -/
  | temperatureWarning (name : String) (temp limit : R)
  /-- `status_protection:...=0x...(...)` -/
  | statusProtection (name : String) (status : Int) (active : List String)

def statusProtectionMask : Int := Int.lor (Int.lor 0x04 0x08) 0x10

/-- `_PROTECTION_NAMES`. -/
def protectionNames : List (Int × String) :=
  [(0x04, "current_protection"), (0x08, "force_protection"), (0x10, "temp_protection")]

abbrev Sample (R : Type*) : Type _ := RH56Feedback (Option R) (Option R)

/-- The reading of an actuator: there is none past the end of the list, and NaN is none. -/
def reading (readings : List (Option R)) (i : Nat) : Option R := readings[i]?.join

/-- What a check says of one actuator. -/
abbrev Check (R : Type*) : Type _ := Bool × List (Detail R)

namespace FeedbackVerifier

variable (v : FeedbackVerifier R) (target : List R) (feedback : Sample R) (forceLimitG : R)

def checkPosition (name : String) (i : Nat) : Check R :=
  match target[i]?, feedback.position[i]? with
  | some t, some (some p) =>
    let error := |p - t|
    if error > v.tolerance name then (false, [.positionError name error (v.tolerance name)])
    else (true, [])
  | some _, some none => (true, [])  -- a comparison with NaN is false
  | _, _ => (false, [.positionDim name])

def checkForce (name : String) (i : Nat) : Check R :=
  match reading feedback.forceG i with
  | some force =>
    if force > v.hardLimit then (false, [.forceHardLimit name force v.hardLimit])
    else if force > forceLimitG then (true, [.forceSoftLimit name force forceLimitG])
    else (true, [])
  | none => (true, [])

def checkTemperature (name : String) (i : Nat) : Check R :=
  match reading feedback.temperatureC i with
  | some temp =>
    if temp ≥ v.stopC then (false, [.temperatureStop name temp v.stopC])
    else if temp ≥ v.warnC then (true, [.temperatureWarning name temp v.warnC])
    else (true, [])
  | none => (true, [])

def checkStatus (name : String) (i : Nat) : Check R :=
  match feedback.statusBits[i]? with
  | some status =>
    if Int.land status statusProtectionMask ≠ 0 then
      (false, [.statusProtection name status
        ((protectionNames.filter fun e => Int.land status e.1 ≠ 0).map Prod.snd)])
    else (true, [])
  | none => (true, [])

end FeedbackVerifier

structure FeedbackVerification (R : Type*) where
  positionReached : Bool := false
  forceSafe : Bool := true
  temperatureSafe : Bool := true
  faultFree : Bool := true
  details : List (Detail R) := []

/-- A loop over the actuators. -/
def checkAll (names : List String) (check : String → Nat → Check R) : Check R :=
  let checks := names.zipIdx.map fun e => check e.1 e.2
  (checks.all (·.1), checks.flatMap (·.2))

namespace FeedbackVerifier

variable (v : FeedbackVerifier R)

def verify (target : List R) (feedback : Sample R) (forceLimitG : R) : FeedbackVerification R :=
  let position := checkAll v.names (v.checkPosition target feedback)
  let force := checkAll v.names (v.checkForce feedback forceLimitG)
  let temperature := checkAll v.names (v.checkTemperature feedback)
  let status := checkAll v.names (checkStatus feedback)
  { positionReached := position.1
    forceSafe := force.1
    temperatureSafe := temperature.1
    faultFree := status.1
    details := position.2 ++ force.2 ++ temperature.2 ++ status.2 }

def isStepOk (verification : FeedbackVerification R) : Bool :=
  verification.positionReached && verification.forceSafe && verification.temperatureSafe &&
    verification.faultFree

end FeedbackVerifier

/-! ## The executor -/

inductive Status
  | completed | blocked | fault | staleAction | aborted
deriving DecidableEq, Repr

inductive CommandDelivery
  | notDispatched | protocolAcknowledged | deliveryInferred | rejected | uncertain
deriving DecidableEq, Repr

structure ActionExecutionResult (R : Type*) where
  status : Status
  commandSent : Bool := false
  commandAcknowledged : Bool := false
  commandDelivery : CommandDelivery := .notDispatched
  target : List R := []
  actual : List (Option R) := []
  /-- NaN where there is no position. -/
  positionError : List (Option R) := []
  force : List (Option R) := []
  current : List (Option R) := []
  temperature : List (Option R) := []
  statusBits : List Int := []
  verification : FeedbackVerification R := {}
  errorCode : Option String := none

/-- What ends a step before its command. -/
inductive Stop
  /-- The modes of executor and transport do not match: `RUNTIME_ACTION_GATEWAY_REQUIRED`. -/
  | mode
  /-- `not_armed` -/
  | notArmed
  /-- A trip of the watchdog; an abort of the operator is told apart. -/
  | trip (code : String)
  /-- The code of a `PermitError`. -/
  | permit (code : String)
  /-- The observation is too old. -/
  | stale

/-- What `execute_step` of the body executor ends in. -/
inductive StepOutcome (R : Type*)
  /-- `ExecutorSafetyError`, by the code of its message -/
  | safety (code : String)
  /-- `ExecutorCommunicationError` -/
  | communication (commandSent driverAcknowledged : Bool)
  | done (acknowledged : Bool) (feedback : Sample R)

def Stop.result : Stop → ActionExecutionResult R
  | .mode => { status := .blocked, errorCode := some "RUNTIME_ACTION_GATEWAY_REQUIRED" }
  | .notArmed => { status := .blocked, errorCode := some "not_armed" }
  | .trip code =>
    { status := if code = "operator_abort" then .aborted else .fault, errorCode := some code }
  | .permit code => { status := .blocked, errorCode := some code }
  | .stale => { status := .staleAction, errorCode := some "stale_action" }

/-- `_command_delivery`; `last` is the transport's `last_command_delivery`. -/
def commandDelivery (acknowledged : Bool) (last : CommandDelivery) : CommandDelivery :=
  if acknowledged then .protocolAcknowledged
  else if last = .deliveryInferred then .deliveryInferred
  else if last = .rejected then .rejected
  else .uncertain

/-- What the feedback of a command that was sent makes of the step. -/
def verifyStep (v : FeedbackVerifier R) (values : List R) (forceLimitG : R)
    (acknowledged : Bool) (last : CommandDelivery) (feedback : Sample R) :
    ActionExecutionResult R :=
  let delivery := commandDelivery acknowledged last
  let verification := v.verify values feedback forceLimitG
  let ok := FeedbackVerifier.isStepOk verification &&
    (acknowledged || delivery = .deliveryInferred)
  { status := if ok then .completed else .fault
    commandSent := true
    commandAcknowledged := acknowledged
    commandDelivery := delivery
    target := values
    actual := feedback.position
    positionError := values.zipIdx.map fun e =>
      (reading feedback.position e.2).map fun p => |p - e.1|
    force := feedback.forceG
    current := feedback.currentMa
    temperature := feedback.temperatureC
    statusBits := feedback.statusBits
    verification := verification }

/-- `execute_candidate`, with what stops it before the command, what the executor of the body
answers, and how the transport has delivered. -/
def executeCandidate (v : FeedbackVerifier R) (values : List R) (forceLimitG : R)
    (stop : Option Stop) (step : StepOutcome R) (last : CommandDelivery) :
    ActionExecutionResult R :=
  match stop with
  | some stop => stop.result
  | none =>
    match step with
    | .safety code => { status := .blocked, errorCode := some code }
    | .communication commandSent driverAcknowledged =>
      { status := .fault, errorCode := some "communication_lost", commandSent := commandSent
        commandAcknowledged := driverAcknowledged }
    | .done acknowledged feedback => verifyStep v values forceLimitG acknowledged last feedback

end Rosclaw.Lerobot
