/-
Executor results and execution receipts (`kernel/contracts.py`).

`ActionExecutionResult` is what an executor hands to the gateway, and
`ExecutionReceipt` the evidence-bearing outcome of one action.  A receipt carries
the proof that its evidence domain is the one of its execution mode, which is the
check of `ExecutionReceipt.__post_init__`.
-/
import Rosclaw.Kernel.Contracts

namespace Rosclaw

structure StateTransition where
  state : ActionState
  atTime : DateTime
  reason : PyStr := ""

def StateTransition.toDict (t : StateTransition) : PyVal :=
  .dict [("state", .str t.state.value), ("at", .str t.atTime.isoformat), ("reason", .str t.reason)]

/-- Executor-to-gateway result.  The evidence level and domain are `none` where
the executor reported a value the enumeration does not have; the outer `none` of
the domain is an executor that reported no domain. -/
structure ActionExecutionResult where
  finalState : ActionState
  evidenceLevel : Option EvidenceLevel
  evidenceDomain : Option (Option EvidenceDomain) := none
  policyDecision : List (PyStr × PyVal) := []
  authorizationDecision : List (PyStr × PyVal) := []
  simulationResult : Option (List (PyStr × PyVal)) := none
  dispatchResult : List (PyStr × PyVal) := []
  driverAck : Option (List (PyStr × PyVal)) := none
  observations : List PyVal := []
  verificationResult : PyVal := .none
  artifacts : List PyVal := []
  errors : List PyVal := []
  acknowledgementStage : Option AcknowledgementStage := none

def optionalDict : Option (List (PyStr × PyVal)) → PyVal
  | none => .none
  | some kvs => .dict kvs

/-- Evidence-bearing outcome of one `ActionEnvelope`. -/
structure ExecutionReceipt where
  actionId : PyStr
  traceId : PyVal
  mode : ExecutionMode
  bodyId : PyStr
  bodySnapshotHash : PyStr
  capabilityId : PyStr
  finalState : ActionState
  evidenceLevel : EvidenceLevel
  evidenceDomain : EvidenceDomain
  policyDecision : List (PyStr × PyVal) := []
  authorizationDecision : List (PyStr × PyVal) := []
  resourceLease : PyVal := .none
  simulationResult : PyVal := .none
  dispatchResult : List (PyStr × PyVal) := []
  driverAck : PyVal := .none
  acknowledgementStage : AcknowledgementStage := .requestAccepted
  observations : List PyVal := []
  verificationResult : PyVal := .none
  artifacts : List PyVal := []
  errors : List PyVal := []
  transitions : List StateTransition := []
  startedAt : DateTime
  finishedAt : DateTime
  domain_eq : evidenceDomain = evidenceDomainForMode mode

/-- `evidence in {PHYSICALLY_OBSERVED, TASK_VERIFIED}`. -/
def EvidenceLevel.isObserved : EvidenceLevel → Bool
  | .physicallyObserved | .taskVerified => true
  | _ => false

/-- The trust fields of a receipt, which the daemon recomputes when it reads one
back: both read off the mode, the final state and the evidence level. -/
def receiptVerified (mode : ExecutionMode) (evidence : EvidenceLevel) : Bool :=
  mode ≠ .fixture && evidence.isObserved

def receiptTrustLevel (mode : ExecutionMode) (evidence : EvidenceLevel) : String :=
  match mode with
  | .fixture => "SYNTHETIC"
  | .replay => "RECORDED"
  | .simulation => "SIMULATED"
  | _ => if receiptVerified mode evidence then "VERIFIED" else "UNVERIFIED"

def receiptUsable (mode : ExecutionMode) (state : ActionState) (evidence : EvidenceLevel) : Bool :=
  mode = .real && state = .completed && receiptVerified mode evidence

namespace ExecutionReceipt

def verified (r : ExecutionReceipt) : Bool := receiptVerified r.mode r.evidenceLevel

/-- A generic action receipt is never sufficient promotion evidence. -/
def validForPromotion (_ : ExecutionReceipt) : Bool := false

def trustLevel (r : ExecutionReceipt) : String := receiptTrustLevel r.mode r.evidenceLevel

def usableForRealExecution (r : ExecutionReceipt) : Bool :=
  receiptUsable r.mode r.finalState r.evidenceLevel

def entries (r : ExecutionReceipt) : List (PyStr × PyVal) :=
  [("schema_version", .str RECEIPT_SCHEMA_VERSION), ("action_id", .str r.actionId),
    ("trace_id", r.traceId), ("mode", .str r.mode.value), ("execution_mode", .str r.mode.value),
    ("body_id", .str r.bodyId), ("body_snapshot_hash", .str r.bodySnapshotHash),
    ("capability_id", .str r.capabilityId), ("policy_decision", .dict r.policyDecision),
    ("authorization_decision", .dict r.authorizationDecision),
    ("resource_lease", r.resourceLease), ("simulation_result", r.simulationResult),
    ("dispatch_result", .dict r.dispatchResult), ("driver_ack", r.driverAck),
    ("acknowledgement_stage", .str r.acknowledgementStage.value),
    ("observations", .list r.observations), ("verification_result", r.verificationResult),
    ("final_state", .str r.finalState.value), ("evidence_level", .str r.evidenceLevel.value),
    ("evidence_domain", .str r.evidenceDomain.value), ("verified", .bool r.verified),
    ("valid_for_promotion", .bool r.validForPromotion), ("trust_level", .str r.trustLevel),
    ("usable_for_real_execution", .bool r.usableForRealExecution),
    ("artifacts", .list r.artifacts), ("errors", .list r.errors),
    ("transitions", .list (r.transitions.map StateTransition.toDict)),
    ("started_at", .str r.startedAt.isoformat), ("finished_at", .str r.finishedAt.isoformat)]

def toDict (r : ExecutionReceipt) : PyVal := .dict r.entries

end ExecutionReceipt

end Rosclaw
