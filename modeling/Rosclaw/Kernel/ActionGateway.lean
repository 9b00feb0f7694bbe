/-
The action gateway (`kernel/action_gateway.py`) and the body leases it takes
(`kernel/resource_manager.py`), as the values they compute and the tables they
keep.  The order in which several submissions interleave is the business of the
control plane; here are the pieces each of them runs.
-/
import Rosclaw.Kernel.Receipt
import Rosclaw.Lib.Dict

namespace Rosclaw

/-- What a stretch of code reads from outside: the successive answers of the wall
clock and of `uuid4().hex`, and the URI of a receipt file in a directory. -/
structure Readings where
  clock : Nat → DateTime
  uuid : Nat → PyStr
  fileUri : PyStr → PyStr := id

/-- The readings after the first `n` of them. -/
def Readings.after (r : Readings) (n : Nat) : Readings :=
  { r with clock := fun k => r.clock (n + k), uuid := fun k => r.uuid (n + k) }

/-! ### Receipts of refused actions -/

/-- `action.parent_trace_id or f"trace_{uuid.uuid4().hex[:24]}"`. -/
def traceOf (a : ActionEnvelope) (r : Readings) : PyVal :=
  if a.parentTraceId.truthy then a.parentTraceId
  else .str ("trace_" ++ ⟨(r.uuid 0).codes.take 24⟩)

def errorEntry (code : String) (message : PyStr) : PyVal :=
  .dict [("code", .str code), ("message", .str message)]

def refusalEvidence : ExecutionMode → EvidenceLevel
  | .fixture => .synthetic
  | _ => .requested

/-- `_failure_receipt`, with its optional arguments already defaulted. -/
def failureReceiptWith (a : ActionEnvelope) (state : ActionState) (code : String) (message : PyStr)
    (traceId : PyVal) (startedAt : DateTime) (transitions : List StateTransition)
    (resourceLease : PyVal) (r : Readings) : ExecutionReceipt where
  actionId := a.actionId
  traceId := traceId
  mode := a.executionMode
  bodyId := a.bodyId
  bodySnapshotHash := a.bodySnapshotHash
  capabilityId := a.capabilityId
  finalState := state
  evidenceLevel := refusalEvidence a.executionMode
  evidenceDomain := evidenceDomainForMode a.executionMode
  acknowledgementStage := .requestAccepted
  resourceLease := resourceLease
  errors := [errorEntry code message]
  transitions := transitions ++ [⟨state, r.clock 0, code⟩]
  startedAt := startedAt
  finishedAt := r.clock 1
  domain_eq := rfl

/-- `_failure_receipt` without its optional arguments. -/
def failureReceipt (a : ActionEnvelope) (state : ActionState) (code : String) (message : PyStr)
    (r : Readings) : ExecutionReceipt :=
  failureReceiptWith a state code message (traceOf a r) (r.clock 1) [⟨.proposed, r.clock 0, ""⟩]
    .none { r with clock := fun k => if k = 0 then r.clock 2 else r.clock 3 }

/-! ### The stages of `_execute` -/

/-- The local variables of `_execute`. -/
structure Execution where
  action : ActionEnvelope
  traceId : PyVal
  startedAt : DateTime
  transitions : List StateTransition

namespace Execution

def start (a : ActionEnvelope) (r : Readings) : Execution where
  action := a
  traceId := traceOf a r
  startedAt := r.clock 0
  transitions := [⟨.proposed, r.clock 1, "action_submitted"⟩,
    ⟨.requestAccepted, r.clock 2, "request_accepted"⟩]

def push (e : Execution) (state : ActionState) (t : DateTime) (reason : PyStr) : Execution :=
  { e with transitions := e.transitions ++ [⟨state, t, reason⟩] }

def fail (e : Execution) (state : ActionState) (code : String) (message : PyStr) (r : Readings)
    (resourceLease : PyVal := .none) : ExecutionReceipt :=
  failureReceiptWith e.action state code message e.traceId e.startedAt e.transitions resourceLease r

/-- The refusals of `_execute`, in order, up to the request for the body lease. -/
def check (py : Builtins) (e : Execution) (hasExecutor : Bool) (r : Readings) :
    Except ExecutionReceipt Execution :=
  let a := e.action
  let real := a.executionMode = .real
  let approvalId : PyStr :=
    if a.authorization.approvalId.truthy then py.str a.authorization.approvalId else ""
  if (a.executionMode = .shadow ∨ real) ∧ a.bodySnapshotHash.codes = [] then
    .error (e.fail .blocked "BODY_SNAPSHOT_REQUIRED"
      "Shadow and real actions require an immutable body snapshot hash." r)
  else if real ∧ a.authorization.approved = false then
    .error ((e.push .authorizationRequired (r.clock 2) "real_execution_requires_approval").fail
      .blocked "AUTHORIZATION_REQUIRED"
      "Real execution requires an approved AuthorizationContext." r)
  else if real ∧ (a.authorization.principalId.isBlank = true ∨ approvalId.isBlank = true) then
    .error ((e.push .authorizationRequired (r.clock 2) "authorization_evidence_incomplete").fail
      .blocked "AUTHORIZATION_EVIDENCE_INVALID"
      "Real execution requires a principal_id and approval_id." r)
  else if real ∧ a.capabilityId ∉ a.authorization.scopes ∧ ("*" : PyStr) ∉ a.authorization.scopes
  then
    .error ((e.push .authorizationRequired (r.clock 2) "capability_scope_not_approved").fail
      .blocked "AUTHORIZATION_SCOPE_MISMATCH"
      ("Approval '" ++ py.str a.authorization.approvalId ++
        "' does not include capability scope '" ++ a.capabilityId ++ "'.") r)
  else if hasExecutor = false then
    .error (e.fail .failed "EXECUTOR_UNAVAILABLE"
      ("No executor registered for capability '" ++ a.capabilityId ++ "' in mode " ++
        (a.executionMode.value ++ "." : String)) r)
  else if a.deadlineAt.instant ≤ (r.clock 2).instant then
    .error (e.fail .timedOut "ACTION_DEADLINE_EXPIRED" "Action deadline expired before execution."
      (r.after 3))
  else
    .ok ((e.push .grounded (r.clock 3) "executor_resolved").push .waitingResource (r.clock 4)
      a.bodyId)

/-- The checks of `_execute` do not change the action. -/
theorem action_of_check {py : Builtins} {e e' : Execution} {hasExecutor : Bool}
    {r : Readings} (h : e.check py hasExecutor r = .ok e') : e'.action = e.action := by
  unfold check at h
  dsimp only at h
  repeat' split at h
  all_goals cases h
  all_goals rfl

end Execution

/-! ### Evidence -/

def EvidenceLevel.rank : EvidenceLevel → Nat
  | .synthetic => 0
  | .requested => 1
  | .dispatchConfirmed => 2
  | .driverConfirmed => 3
  | .physicallyObserved => 4
  | .taskVerified => 5

def meetsEvidenceRequirement (actual required : EvidenceLevel) : Bool :=
  required.rank ≤ actual.rank

/-- What the gateway goes on with: the state, the evidence and the errors. -/
structure Outcome where
  finalState : ActionState
  evidence : EvidenceLevel
  errors : List PyVal

/-- An unusable evidence report makes the action `FAILED`. -/
def Outcome.distrust (o : Outcome) (code : String) (message : PyStr) : Outcome :=
  ⟨.failed, .requested, o.errors ++ [errorEntry code message]⟩

def checkLevel (result : ActionExecutionResult) : Outcome :=
  match result.evidenceLevel with
  | some e => ⟨result.finalState, e, result.errors⟩
  | none => Outcome.distrust ⟨result.finalState, .requested, result.errors⟩
      "INVALID_EVIDENCE_LEVEL" "Executor returned an unknown evidence level."

/-- The evidence domain the executor reported has to be the one of the mode. -/
def checkDomain (a : ActionEnvelope) (result : ActionExecutionResult) (o : Outcome) : Outcome :=
  let expected := evidenceDomainForMode a.executionMode
  match result.evidenceDomain with
  | none => o
  | some none => o.distrust "INVALID_EVIDENCE_DOMAIN" "Executor returned an unknown evidence domain."
  | some (some d) =>
    if d = expected then o
    else o.distrust "EVIDENCE_DOMAIN_MISMATCH"
      ("Executor evidence domain does not match action execution mode; expected " ++
        (expected.value ++ "." : String))

/-- A fixture proves nothing, so it is never `COMPLETED`. -/
def checkFixture (a : ActionEnvelope) (o : Outcome) : Outcome :=
  if a.executionMode = .fixture then
    { o with
      evidence := .synthetic
      finalState := if o.finalState = .completed then .degraded else o.finalState }
  else o

/-- `COMPLETED` needs the evidence the action requires. -/
def checkRequirement (a : ActionEnvelope) (o : Outcome) : Outcome :=
  let required := a.verificationPolicy.requiredEvidence
  if a.executionMode ≠ .fixture ∧ o.finalState = .completed ∧
      meetsEvidenceRequirement o.evidence required = false then
    { o with
      finalState := if a.verificationPolicy.failClosed then .failed else .degraded
      errors := o.errors ++ [errorEntry "VERIFICATION_REQUIREMENT_NOT_MET"
        ("Executor produced " ++ (o.evidence.value ++ "; action requires " ++ required.value ++ "."
          : String))] }
  else o

/-- The state, evidence and errors of the receipt of an executed action. -/
def normalise (a : ActionEnvelope) (result : ActionExecutionResult) : Outcome :=
  checkRequirement a (checkFixture a (checkDomain a result (checkLevel result)))

def driverAcknowledgementStage (result : ActionExecutionResult) : Option AcknowledgementStage :=
  let accepted : AcknowledgementStage → Bool := fun s =>
    s = .protocolAcknowledged || s = .deliveryInferred
  match result.acknowledgementStage.filter accepted with
  | some s => some s
  | none =>
    match result.driverAck with
    | none | some [] => none
    | some kvs =>
      let ack : PyVal := .dict kvs
      let parsed := match ack.get "stage" with
        | .str s => (AcknowledgementStage.ofText s.upper).filter accepted
        | _ => none
      match parsed, ack.get "acknowledged", ack.get "delivery_inferred" with
      | some s, _, _ => some s
      | none, .bool true, _ => some .protocolAcknowledged
      | none, _, .bool true => some .deliveryInferred
      | none, _, _ => none

/-- `d.get(key) is True`. -/
def isTrue (kvs : List (PyStr × PyVal)) (key : String) : Bool :=
  match (PyVal.dict kvs).get key with
  | .bool true => true
  | _ => false

def acknowledgementStageOf (result : ActionExecutionResult) (evidence : EvidenceLevel) :
    AcknowledgementStage :=
  match evidence, driverAcknowledgementStage result, result.acknowledgementStage with
  | .taskVerified, _, _ => .taskVerified
  | .physicallyObserved, _, _ => .effectObserved
  | _, some s, _ => s
  | _, none, some s => s
  | _, none, none =>
    if isTrue result.dispatchResult "accepted" then .commandDispatched else .requestAccepted

def evidenceTransitions (result : ActionExecutionResult) (evidence : EvidenceLevel)
    (r : Readings) : List StateTransition :=
  let acknowledgement := driverAcknowledgementStage result
  let when (b : Bool) (k : Nat) (s : ActionState) (reason : String) : List StateTransition :=
    if b then [⟨s, r.clock k, reason⟩] else []
  when (isTrue result.policyDecision "allowed") 0 .policyValidated "policy_allowed" ++
  when (isTrue (result.simulationResult.getD []) "has_physics") 1 .simulationValidated
    "physics_simulation_completed" ++
  when (isTrue result.authorizationDecision "authorized") 2 .authorized "authorization_granted" ++
  when (isTrue result.dispatchResult "accepted") 3 .commandDispatched "command_dispatched" ++
  when (acknowledgement = some .protocolAcknowledged) 4 .protocolAcknowledged
    "protocol_acknowledged" ++
  when (acknowledgement = some .deliveryInferred) 4 .deliveryInferred "delivery_inferred" ++
  when evidence.isObserved 5 .effectObserved "effect_observed" ++
  when (evidence = .taskVerified) 6 .taskVerified "predicate_verified"

/-- The executor's authorization decision, with the provenance of the action. -/
def authorizationDecisionOf (a : ActionEnvelope) (result : ActionExecutionResult) :
    List (PyStr × PyVal) :=
  if a.authorization.provenance.1.truthy then
    PyVal.setEntry "provenance" a.authorization.provenance result.authorizationDecision
  else result.authorizationDecision

/-! ### Body leases -/

/-- Exclusive ownership of one named physical resource. -/
structure ResourceLease where
  leaseId : PyStr
  resourceId : PyStr
  actionId : PyStr
  acquiredAt : DateTime

def ResourceLease.toDict (l : ResourceLease) : PyVal :=
  .dict [("lease_id", .str l.leaseId), ("resource_id", .str l.resourceId),
    ("action_id", .str l.actionId), ("acquired_at", .str l.acquiredAt.isoformat),
    ("exclusive", .bool true)]

abbrev ResourceManager := Dict PyStr ResourceLease

namespace ResourceManager

/-- `acquire`, at a moment at which the lock is free; `none` while it is held. -/
def acquire (m : ResourceManager) (resourceId actionId : PyStr) (r : Readings) :
    Option (ResourceLease × ResourceManager) :=
  match m.get? resourceId with
  | some _ => none
  | none =>
    let lease := ⟨"lease_" ++ r.uuid 0, resourceId, actionId, r.clock 0⟩
    some (lease, m.set resourceId lease)

def release (m : ResourceManager) (lease : ResourceLease) : ResourceManager :=
  match m.get? lease.resourceId with
  | some active => if active.leaseId = lease.leaseId then m.erase lease.resourceId else m
  | none => m

end ResourceManager

/-! ### The receipt of an executed action -/

/-- `_persist_receipt` adds the URI of the stored receipt to the artifacts. -/
def persistArtifacts (result : ActionExecutionResult) (directory : Option PyStr) (r : Readings) :
    List PyVal :=
  match directory with
  | none => result.artifacts
  | some dir =>
    if dir.codes = [] then result.artifacts
    else if result.artifacts.any (PyVal.pyEq (.str (r.fileUri dir))) then result.artifacts
    else result.artifacts ++ [.str (r.fileUri dir)]

/-- The receipt `_execute` builds from what the executor returned. -/
def Execution.assemble (e : Execution) (lease : ResourceLease) (result : ActionExecutionResult)
    (directory : Option PyStr) (r : Readings) : ExecutionReceipt :=
  let a := e.action
  let o := normalise a result
  { actionId := a.actionId
    traceId := e.traceId
    mode := a.executionMode
    bodyId := a.bodyId
    bodySnapshotHash := a.bodySnapshotHash
    capabilityId := a.capabilityId
    finalState := o.finalState
    evidenceLevel := o.evidence
    evidenceDomain := evidenceDomainForMode a.executionMode
    policyDecision := result.policyDecision
    authorizationDecision := authorizationDecisionOf a result
    resourceLease := lease.toDict
    simulationResult := optionalDict result.simulationResult
    dispatchResult := result.dispatchResult
    driverAck := optionalDict result.driverAck
    acknowledgementStage := acknowledgementStageOf result o.evidence
    observations := result.observations
    verificationResult := result.verificationResult
    artifacts := persistArtifacts result directory r
    errors := o.errors
    transitions := e.transitions ++ evidenceTransitions result o.evidence r ++
      [⟨o.finalState, r.clock 7, "executor_completed"⟩]
    startedAt := e.startedAt
    finishedAt := r.clock 8
    domain_eq := rfl }

/-! ### The tables of the gateway -/

/-- Registered executors, terminal receipts and, for the action ids being executed,
the event that is set at their end.  Events are numbered in order of their creation. -/
structure Gateway where
  executors : List (PyStr × ExecutionMode)
  receipts : Dict PyStr ExecutionReceipt := Dict.empty
  inflight : Dict PyStr Nat := Dict.empty
  waiters : Nat := 0

namespace Gateway

def getReceipt (g : Gateway) (actionId : PyStr) : Option ExecutionReceipt :=
  g.receipts.get? actionId

/-- Discard one terminal receipt, unless the action is being executed. -/
def discardReceipt (g : Gateway) (actionId : PyStr) : Gateway :=
  if g.inflight.contains actionId then g else { g with receipts := g.receipts.erase actionId }

def enter (g : Gateway) (actionId : PyStr) : Gateway :=
  { g with inflight := g.inflight.set actionId g.waiters, waiters := g.waiters + 1 }

def leave (g : Gateway) (actionId : PyStr) : Gateway :=
  { g with inflight := g.inflight.erase actionId }

/-- `_receipts[action_id] = receipt`. -/
def store (g : Gateway) (actionId : PyStr) (receipt : ExecutionReceipt) : Gateway :=
  { g with receipts := g.receipts.set actionId receipt }

/-- Record a rejection made before executor dispatch; an action that already has
a receipt keeps it. -/
def reject (g : Gateway) (a : ActionEnvelope) (code : String) (message : PyStr)
    (state : ActionState) (r : Readings) : ExecutionReceipt × Gateway :=
  match g.receipts.get? a.actionId with
  | some existing => (existing, g)
  | none =>
    let receipt := failureReceipt a state code message r
    (receipt, g.store a.actionId receipt)

def hasExecutor (g : Gateway) (a : ActionEnvelope) : Bool :=
  g.executors.contains (a.capabilityId, a.executionMode)

end Gateway

/-! ### Final states -/

/-- The states a daemon accepts as the outcome of a stored receipt. -/
def ActionState.isTerminal : ActionState → Bool
  | .completed | .blocked | .failed | .cancelled | .timedOut | .degraded => true
  | _ => false

end Rosclaw
