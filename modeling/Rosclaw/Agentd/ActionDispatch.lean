/-
The dispatch of an approved action (`agentd/action_dispatch.py`, `agentd/events.py`,
`agentd/sim_executor.py`, `agentd/action_channel.py`).

The grant is verified, and spent, before the first point at which the handler can be
suspended: the journal takes its lock without waiting, so only the channels suspend.  What a
channel answers is data.  The texts of the outcomes are left out.
-/
import Rosclaw.Agentd.ActionTxn
import Rosclaw.Operator.ExactAction

namespace Rosclaw.Admission

open Approvals

/-! ### The journal -/

/-- A row of `agent_events`. -/
structure AgentEvent where
  missionId : PyStr
  sequence : Nat
  eventType : PyStr
  payload : PyVal

def eventsOf (journal : List AgentEvent) (missionId : PyStr) : List AgentEvent :=
  journal.filter fun e => e.missionId = missionId

/-- `SELECT COALESCE(MAX(sequence), 0)`. -/
def latestSequence (journal : List AgentEvent) (missionId : PyStr) : Nat :=
  ((eventsOf journal missionId).map AgentEvent.sequence).foldr max 0

def appendEvent (journal : List AgentEvent) (missionId eventType : PyStr) (payload : PyVal) :
    List AgentEvent :=
  journal ++ [⟨missionId, latestSequence journal missionId + 1, eventType, payload⟩]

/-- `_emit`; an event that the journal does not take is dropped. -/
def emit (taken : Bool) (journal : List AgentEvent) (missionId eventType : PyStr)
    (payload : PyVal) : List AgentEvent :=
  if taken then appendEvent journal missionId eventType payload else journal

/-- `replay` from the start, at most `limit` events; the rows of a mission are stored in the
order of their sequence numbers. -/
def replay (journal : List AgentEvent) (missionId : PyStr) (limit : Nat) : List AgentEvent :=
  (eventsOf journal missionId).take limit

/-! ### The channels -/

/-- What `request_action` returns. -/
structure HandlerOutcome where
  terminalReceipt : Bool := false
  evidenceRef : Option PyStr := none
  errorCode : Option PyStr := none

structure ChannelCall where
  capabilityId : PyStr
  arguments : List (PyStr × PyVal)
  mode : Mode
  grantId : PyStr

inductive Stage
  /-- the consent plane is asked for the proposal that the operator has decided -/
  | proposal (proposalId actionId : PyStr)
  /-- and for the receipt of its action -/
  | actionReceipt (actionId : PyStr)
  /-- the simulator with this identity runs the action -/
  | sim (identity : PyStr) (call : ChannelCall)
  /-- the daemon is asked for a proposal -/
  | real (call : ChannelCall)
  /-- the daemon runs the action -/
  | nonreal (call : ChannelCall)

/-- The call of an execution channel; the consent plane only reads. -/
def Stage.call? : Stage → Option ChannelCall
  | .sim _ call | .real call | .nonreal call => some call
  | .proposal .. | .actionReceipt .. => none

/-- A receipt as the daemon returns it; absent fields read as `UNKNOWN`. -/
structure DaemonReceipt where
  actionId : Option PyStr := none
  finalState : PyStr := "UNKNOWN"
  trustLevel : PyStr := "UNKNOWN"

inductive Answer
  /-- any exception that is not the channel's own, and the cancellation of the call -/
  | raised
  /-- the channel's own error -/
  | refused
  /-- the state of the proposal -/
  | proposal (state : PyStr)
  | actionReceipt (receipt : DaemonReceipt)
  /-- the simulator has run the action -/
  | simCompleted (actionId receiptId : PyStr)
  /-- the daemon has taken the action as a proposal -/
  | realProposed (requestId actionId state : PyStr)
  /-- the action has ended in the scheduler of the daemon -/
  | finished (actionId state trustLevel : PyStr)

inductive Next
  | waits (stage : Stage)
  | returns (outcome : HandlerOutcome)
  | raises

/-- `f"receipt://{id}"`. -/
def receiptRef (id : PyStr) : PyStr := "receipt://" ++ id

/-- `final_state == "COMPLETED" and trust not in ("UNKNOWN", "")`. -/
def DaemonReceipt.verified (r : DaemonReceipt) : Bool :=
  r.finalState = "COMPLETED" ∧ r.trustLevel ≠ "UNKNOWN" ∧ r.trustLevel ≠ ""

/-- `_verify_outcome`: `state == "FINISHED"`, and the trust that the mode asks for. -/
def verifyOutcome (mode : Mode) (state trustLevel : PyStr) : Bool :=
  state = "FINISHED" ∧ trustLevel = if mode = .simulation then "SIMULATED" else "VERIFIED"

def simPayload (actionId receiptId : PyStr) : PyVal :=
  .dict [("receipt_id", .str receiptId), ("action_id", .str actionId),
    ("final_state", .str "COMPLETED"), ("trust_level", .str "SIMULATED"), ("verified", .bool true),
    ("evidence_domain", .str "simulation"), ("usable_for_real_execution", .bool false)]

def daemonPayload (actionId finalState trustLevel : PyStr) (verified : Bool) : PyVal :=
  .dict [("action_id", .str actionId), ("final_state", .str finalState),
    ("trust_level", .str trustLevel), ("verified", .bool verified)]

/-- What `request_action` makes of the answer of the channel, and the journal after it; an
answer that is not of the channel is not one of its answers and raises. -/
def advance (taken : Bool) (journal : List AgentEvent) (missionId : PyStr) :
    Stage → Answer → Next × List AgentEvent
  | _, .raised => (.raises, journal)
  | _, .refused => (.returns {}, journal)
  | .proposal _ actionId, .proposal state =>
      if state ≠ "TERMINAL" then (.returns {}, journal)
      else if actionId.isEmpty then (.returns {}, journal)
      else (.waits (.actionReceipt actionId), journal)
  | .actionReceipt actionId, .actionReceipt r =>
      if r.trustLevel = "SYNTHETIC" then (.returns {}, journal)
      else if r.actionId ≠ none ∧ r.actionId ≠ some actionId then (.returns {}, journal)
      else (.returns { terminalReceipt := r.verified, evidenceRef := some (receiptRef actionId) },
        emit taken journal missionId "receipt.received"
          (daemonPayload actionId r.finalState r.trustLevel r.verified))
  | .sim .., .simCompleted actionId receiptId =>
      (.returns { terminalReceipt := true, evidenceRef := some (receiptRef receiptId) },
        emit taken journal missionId "receipt.received" (simPayload actionId receiptId))
  | .real _, .realProposed .. => (.returns {}, journal)
  | .nonreal call, .finished actionId state trustLevel =>
      let verified := verifyOutcome call.mode state trustLevel
      (.returns (if verified then
          { terminalReceipt := true, evidenceRef := some (receiptRef actionId) } else {}),
        emit taken journal missionId "receipt.received"
          (daemonPayload actionId state trustLevel verified))
  | _, _ => (.raises, journal)

/-! ### `request_action` -/

/-- The payload of the decision that `execute` builds. -/
structure ActionRequest where
  grantId : PyStr
  capabilityId : PyStr
  arguments : List (PyStr × PyVal)
  executorIdentity : PyStr

/-- What the process has at hand: the connection to the daemon, which gives both its channels,
the simulators by identity, and the hash of the body. -/
structure Channels where
  daemonClient : Bool
  simExecutors : List PyStr
  currentBodyHash : PyStr

/-- The simulator that is to run the action, which has to be found before the grant is spent;
the outcome if there is none. -/
def simChannel (C : Channels) (r : ActionRequest) (mode : Mode) :
    Except HandlerOutcome (Option PyStr) :=
  if C.daemonClient = false ∧ mode = .simulation then
    if r.executorIdentity.isEmpty then
      match C.simExecutors with
      | [identity] => .ok (some identity)
      | _ => .ok none
    else if r.executorIdentity ∈ C.simExecutors then .ok (some r.executorIdentity)
    else .error { errorCode := some "EXECUTOR_FOR_BODY_UNAVAILABLE" }
  else .ok none

/-- The card of the grant, with its proposal and action at the daemon. -/
def grantedCard (b : Broker) (grantId : PyStr) : Option ApprovalRequest :=
  (b.grants.get? grantId).bind fun row => (b.requests.get? row.requestId).map RequestRow.request

def stageFor (C : Channels) (b : Broker) (r : ActionRequest) (mode : Mode) (sim : Option PyStr) :
    Option Stage :=
  let call : ChannelCall := ⟨r.capabilityId, r.arguments, mode, r.grantId⟩
  if C.daemonClient then
    match (grantedCard b r.grantId).filter fun card => !card.daemonProposalId.isEmpty with
    | some card => some (.proposal card.daemonProposalId card.daemonActionId)
    | none => if mode = .real then some (.real call) else some (.nonreal call)
  else sim.map fun identity => .sim identity call

/-- `request_action` up to the channel. -/
def requestAction (H : Host) (C : Channels) (b : Broker) (r : ActionRequest) (mode : Mode)
    (principal now : PyStr) : Except HandlerOutcome (Option Stage) × Broker :=
  match simChannel C r mode with
  | .error outcome => (.error outcome, b)
  | .ok sim =>
      match b.verify H r.grantId principal C.currentBodyHash mode .low
          (b.actionIntentForGrant H r.grantId) now with
      | (.error _, b) => (.error {}, b)
      | (.ok _, b) => (.ok (stageFor C b r mode sim), b)

end Rosclaw.Admission
