/-
The only way to an action (`agentd/pi_bridge/action_admission.py`): a request is proposed,
an operator or the policy decides its card, and `execute` takes the decided action to a
channel.

Between two points at which a handler can be suspended nothing else runs.  `propose` is
suspended only while the daemon makes a proposal, `execute` only while a channel works.  The
checks of `propose` on the context lease, on the body and on the schema of the arguments are
data of the call: what they give, or how they refuse.
-/
import Rosclaw.Agentd.ActionDispatch

namespace Rosclaw.Admission

open Approvals

/-! ### The environment -/

structure Mission where
  ownerPrincipal : PyStr
  mode : Mode
  bodyId : PyStr
  effectiveBodyHash : PyStr
  contextRevision : Int

structure Binding where
  bindingId : PyStr
  missionId : PyStr

structure WriterLease where
  leaseId : PyStr
  piSessionId : PyStr
  ownerPid : Int
  ownerUid : Int
  expiresAt : PyStr

structure Descriptor where
  version : PyStr
  source : PyStr
  source_nonempty : source.isEmpty = false
  physicalAction : Bool
  executionClass : PyStr
  sideEffectClass : PyStr
  supportedModes : List Mode
  riskTier : RiskTier
  quarantined : Bool

structure Environment extends Channels where
  bodyId : PyStr
  missions : Dict PyStr Mission := ∅
  bindings : Dict PyStr Binding := ∅
  writers : Dict PyStr WriterLease := ∅
  catalog : Dict PyStr Descriptor := ∅

/-- `writer_of`; a lease that has expired is none. -/
def Environment.writerOf (E : Environment) (missionId now : PyStr) : Option WriterLease :=
  (E.writers.get? missionId).filter fun lease => !lease.expiresAt.lt now

/-! ### Refusals -/

structure ToolBridgeError where
  code : PyStr
  message : PyStr

/-- `if not p: raise ToolBridgeError(code, message)`. -/
def require (p : Prop) [Decidable p] (code message : PyStr) : Except ToolBridgeError Unit :=
  if p then .ok () else .error ⟨code, message⟩

/-- `if x is None: raise ToolBridgeError(code, message)`. -/
def found {α : Type} (x : Option α) (code message : PyStr) : Except ToolBridgeError α :=
  match x with
  | some a => .ok a
  | none => .error ⟨code, message⟩

section Bind

variable {α β ε : Type} {a : α} {code message : PyStr}

theorem bind_eq_ok {e : Except ε β} {k : β → Except ε α} :
    (e >>= k) = .ok a ↔ ∃ b, e = .ok b ∧ k b = .ok a := by
  cases e with
  | error e => simp [bind, Except.bind]
  | ok b => simp [bind, Except.bind]

theorem require_eq_ok {p : Prop} [Decidable p] {u : Unit} : require p code message = .ok u ↔ p := by
  by_cases h : p <;> simp [require, h]

theorem found_eq_ok {x : Option α} : found x code message = .ok a ↔ x = some a := by
  cases x <;> simp [found]

end Bind

/-- The context of a request, as the caller states it. -/
structure ActionRequestContext where
  piSessionId : PyStr
  missionId : PyStr
  contextRevision : Int
  bodyHash : PyStr
  mode : PyStr
  idempotencyKey : PyStr
  contextLeaseId : PyStr

structure Caller where
  pid : Option Int
  uid : Option Int

/-- `_validate_session_and_caller`: the writer lease that the caller holds, and the mission. -/
def validateSessionAndCaller (E : Environment) (ctx : ActionRequestContext) (caller : Caller)
    (now : PyStr) : Except ToolBridgeError (Mission × WriterLease) := do
  require (ctx.piSessionId.isEmpty = false ∧ ctx.missionId.isEmpty = false)
    "REQUEST_CONTEXT_REQUIRED" "session/mission required (fail closed)"
  require (ctx.bodyHash.isEmpty = false) "BODY_HASH_REQUIRED"
    "body_hash is required for actions (fail closed; empty ≠ match)"
  require (ctx.idempotencyKey.isEmpty = false) "IDEMPOTENCY_KEY_REQUIRED"
    "idempotency_key is required (fail closed)"
  require (ctx.mode.isEmpty = false) "REQUEST_CONTEXT_REQUIRED" "mode required"
  let binding ← found (E.bindings.get? ctx.piSessionId) "SESSION_UNBOUND"
    "pi session has no active binding (fail closed)"
  require (binding.missionId = ctx.missionId) "MISSION_MISMATCH"
    ("bound mission is " ++ binding.missionId ++ ", not " ++ ctx.missionId)
  let mission ← found (E.missions.get? ctx.missionId) "MISSION_NOT_FOUND" "unknown mission"
  let writer ← found ((E.writerOf ctx.missionId now).filter fun lease =>
      lease.piSessionId = ctx.piSessionId) "WRITER_LEASE_REQUIRED"
    "this session does not hold the writer lease (fail closed)"
  let pid ← found caller.pid "CALLER_IDENTITY_REQUIRED"
    "caller pid/uid required — no anonymous action path (fail closed)"
  let uid ← found caller.uid "CALLER_IDENTITY_REQUIRED"
    "caller pid/uid required — no anonymous action path (fail closed)"
  require (writer.ownerUid = uid ∧ writer.ownerPid = pid) "CALLER_MISMATCH"
    ("caller pid " ++ .ofInt pid ++ "/uid " ++ .ofInt uid ++ " is not the writer process (pid " ++
      .ofInt writer.ownerPid ++ ") — fail closed")
  require (Mode.value mission.mode = ctx.mode) "MODE_MISMATCH"
    ("mission mode is " ++ Mode.value mission.mode ++ ", not " ++ ctx.mode)
  return (mission, writer)

/-! ### The service -/

/-- A handler of `propose` that waits for the daemon, with what it has read. -/
structure Proposing where
  key : PyStr
  txn : ActionTxn
  approvalId : PyStr

/-- A handler of `execute` that waits for its channel. -/
structure Executing where
  approvalId : PyStr
  txnId : PyStr
  missionId : PyStr
  grantId : PyStr
  capabilityId : PyStr
  stage : Stage

/-- A call of a channel that has been made, for which card and key. -/
structure Called where
  approvalId : PyStr
  key : PyStr
  stage : Stage

structure Service where
  env : Environment
  broker : Broker
  txns : Txns := ∅
  journal : List AgentEvent := []
  proposing : List Proposing := []
  executing : List Executing := []
  /-- the cards that have been made, with their keys -/
  cards : List (PyStr × PyStr) := []
  /-- what `propose` has returned: key, transaction and card -/
  returned : List (PyStr × PyStr × PyStr) := []
  called : List Called := []

def Service.restarted (s : Service) : Service := { s with proposing := [], executing := [] }

/-! ### `propose` -/

structure ProposalInput where
  ctx : ActionRequestContext
  caller : Caller
  capabilityId : PyStr
  expectedEffect : PyStr
  /-- the risk that the model reports, if it is a tier -/
  riskTier : Option RiskTier
  /-- the context hash, or how the context lease refuses -/
  context : Except ToolBridgeError PyStr
  /-- the normalized arguments, or how the body or the schema refuses -/
  arguments : Except ToolBridgeError (List (PyStr × PyVal))
  /-- ids that are made in the call -/
  txnId : PyStr
  approvalId : PyStr
  now : PyStr
  /-- `now` and the time to live of the approval -/
  expiresAt : PyStr
  /-- the id of the grant, if the policy decides instead of the operator -/
  policyGrant : Option PyStr
  /-- whether the journal takes the event of the request -/
  taken : Bool

/-- How `propose` is interrupted between its statements. -/
inductive Interruption
  | none
  /-- an exception after the insert of the transaction -/
  | raisesBeforeCard
  | crashesBeforeCard
  | crashesAfterCard
deriving DecidableEq, Repr

inductive ProposeReply
  | proposed (txnId approvalId displayHash : PyStr)
  | replayed (txnId approvalId displayHash : PyStr)
  | refused (e : ToolBridgeError)
  | transitionError (e : TxnError)
  /-- any other exception -/
  | raised

def requestHashOf (H : Host) (capabilityId : PyStr) (arguments : List (PyStr × PyVal))
    (ctx : ActionRequestContext) : PyStr :=
  H.sha256Hex (.dict [("arguments", .dict arguments), ("body_hash", .str ctx.bodyHash),
    ("capability_id", .str capabilityId), ("context_revision", .int ctx.contextRevision),
    ("mission_id", .str ctx.missionId), ("mode", .str ctx.mode)])

def authoritativeRisk (d : Descriptor) : Option RiskTier → RiskTier
  | some r => if d.riskTier.order < r.order then r else d.riskTier
  | none => d.riskTier

def exactActionOf (H : Host) (p : ProposalInput) (mission : Mission) (d : Descriptor)
    (contextHash : PyStr) (arguments : List (PyStr × PyVal)) : ExactAction :=
  .build H
    { capabilityId := p.capabilityId
      capabilityVersion := d.version
      capabilitySource := d.source
      normalizedArguments := arguments
      argumentsHash := ""
      authoritativeRiskTier := authoritativeRisk d p.riskTier
      sideEffectClass := d.sideEffectClass
      missionId := p.ctx.missionId
      mode := mission.mode
      bodyId := mission.bodyId
      bodyHash := p.ctx.bodyHash
      contextRevision := p.ctx.contextRevision
      contextHash
      expectedEffect := p.expectedEffect
      -- `sim_executor_identity_for`: the source of the capability
      executorIdentity := d.source
      createdAt := p.now
      expiresAt := p.expiresAt
      actionIntentHash := "" }

/-- The row that `create` inserts. -/
def newTxn (H : Host) (p : ProposalInput) (exact : ExactAction) : ActionTxn where
  txnId := p.txnId
  idempotencyKey := p.ctx.idempotencyKey
  requestHash := requestHashOf H p.capabilityId exact.normalizedArguments p.ctx
  piSessionId := p.ctx.piSessionId
  missionId := p.ctx.missionId
  contextLeaseId := p.ctx.contextLeaseId
  contextRevision := p.ctx.contextRevision
  bodyHash := p.ctx.bodyHash
  mode := p.ctx.mode
  capabilityId := p.capabilityId
  argumentsHash := exact.argumentsHash
  riskTier := exact.authoritativeRiskTier.value
  createdAt := p.now
  expiresAt := p.expiresAt

/-- The card that `request_approval` makes. -/
def cardOf (E : Environment) (p : ProposalInput) (mission : Mission) (exact : ExactAction) :
    ApprovalRequest where
  requestId := p.approvalId
  missionId := p.ctx.missionId
  principal := mission.ownerPrincipal
  bodyId := E.bodyId
  effectiveBodyHash := E.currentBodyHash
  mode := mission.mode
  actionDisplay :=
    { title := exact.title
      summary := if p.expectedEffect.isEmpty then p.capabilityId else p.expectedEffect
      riskTier := exact.authoritativeRiskTier
      expectedEffect := p.expectedEffect
      parameters := exact.normalizedArguments }
  contextId := "ctx_" ++ p.ctx.missionId
  contextRevision := p.ctx.contextRevision
  createdAt := p.now
  expiresAt := p.expiresAt
  exactActionJson := .value exact.toDict

/-- The checks of `propose`, up to the transaction: the mission and the exact action. -/
def checkProposal (H : Host) (E : Environment) (p : ProposalInput) :
    Except ToolBridgeError (Mission × ExactAction) := do
  require (p.capabilityId.isBlank = false) "INVALID_ARGUMENTS"
    "capability_id and arguments required (fail closed)"
  let (mission, _) ← validateSessionAndCaller E p.ctx p.caller p.now
  let contextHash ← p.context
  let d ← found (E.catalog.get? p.capabilityId) "CAPABILITY_UNKNOWN"
    ("capability " ++ p.capabilityId.quoted ++ " not in ToolCatalog (fail closed)")
  require (d.physicalAction = true) "NOT_ACTIONABLE"
    ("capability " ++ p.capabilityId ++ " is " ++ d.executionClass ++
      ", not PHYSICAL_ACTION — only action-class capabilities may be proposed")
  require (d.quarantined = false) "CAPABILITY_QUARANTINED"
    ("capability " ++ p.capabilityId ++ " is quarantined")
  require (mission.mode ∈ d.supportedModes) "MODE_FORBIDDEN"
    ("capability " ++ p.capabilityId ++ " does not support mode " ++ Mode.value mission.mode)
  let arguments ← p.arguments
  return (mission, exactActionOf H p mission d contextHash arguments)

namespace Service

def replayCard (H : Host) (s : Service) (txn : ActionTxn) : ProposeReply :=
  if txn.state ∉ [TxnState.awaitingOperator, .approved, .dispatching, .receiptPending, .completed]
  then .refused ⟨"TXN_STATE_INVALID",
    "txn " ++ txn.txnId ++ " in " ++ txn.state.value ++ " without approval"⟩
  else match s.broker.getRequest txn.approvalId with
    | .error _ => .raised
    | .ok none => .refused ⟨"APPROVAL_NOT_FOUND", "txn approval missing"⟩
    | .ok (some row) => match Approvals.displayHash H row.request with
      | .error _ => .raised
      | .ok hash => .replayed txn.txnId row.request.requestId hash

def withBroker (s : Service) (broker : Broker) : Service := { s with broker }

/-- The card as the daemon's proposal, if there is one, has changed it. -/
def linkCard (b : Broker) (approvalId : PyStr) : Option ProposalLink → Broker
  | none => b
  | some link => match b.requests.get? approvalId with
    | none => b
    | some row => b.linkRequest approvalId row (link.apply row.request)

/-- The policy decides the card, if the card is that of a simulation. -/
def policyDecide (H : Host) (s : Service) (approvalId : PyStr) (policyGrant : Option PyStr)
    (now : PyStr) : Except BrokerError (Option MissionGrant) × Service :=
  match (s.broker.requests.get? approvalId).filter fun row => row.request.mode = .simulation,
      policyGrant with
  | some row, some grantId =>
      match s.broker.decide H approvalId row.request.principal true (some "policy:POLICY_AUTO")
          grantId now with
      | (.error e, broker) => (.error e, { s with broker })
      | (.ok grant, broker) =>
          (.ok grant,
            { s with
              broker
              journal := appendEvent s.journal row.request.missionId "approval.decided"
                (.dict [("request_id", .str approvalId), ("approved", .bool true),
                  ("grant_id", .str grantId), ("decided_by", .str "policy:POLICY_AUTO")]) })
  | _, _ => (.ok none, s)

def return_ (s : Service) (key txnId approvalId displayHash : PyStr) : ProposeReply × Service :=
  (.proposed txnId approvalId displayHash,
    { s with returned := s.returned ++ [(key, txnId, approvalId)] })

/-- The card is attached to the transaction, if the transaction was proposed when it was read. -/
def attachCard (s : Service) (p : Proposing) (displayHash now : PyStr) :
    Except TxnError ActionTxn × Txns :=
  if p.txn.state = .proposed then
    s.txns.transition p.txn.txnId .awaitingOperator { approvalId := p.approvalId, displayHash } now
  else (.ok p.txn, s.txns)

/-- `propose` once `request_approval` is over. -/
def attach (H : Host) (s : Service) (p : Proposing) (link : Option ProposalLink)
    (policyGrant : Option PyStr) (now : PyStr) : ProposeReply × Service :=
  let s := s.withBroker (linkCard s.broker p.approvalId link)
  match s.broker.getRequest p.approvalId with
  | .error _ => (.raised, s)
  | .ok none =>
      (.refused ⟨"APPROVAL_CARD_MISSING", "approval card was not created (fail closed)"⟩, s)
  | .ok (some row) =>
      match Approvals.displayHash H row.request with
      | .error _ => (.raised, s)
      | .ok hash =>
          match s.attachCard p hash now with
          | (.error e, _) => (.transitionError e, s)
          | (.ok txn, txns) =>
              match { s with txns }.policyDecide H p.approvalId policyGrant now with
              | (.error _, s) => (.raised, s)
              | (.ok _, s) => s.return_ p.key txn.txnId p.approvalId hash

def askCard (s : Service) (key : PyStr) (card : ApprovalRequest) (taken : Bool) : Service :=
  { s with
    broker := s.broker.createRequest card
    journal := emit taken s.journal card.missionId "approval.requested"
      (.dict [("request_id", .str card.requestId),
        ("risk_tier", .str card.actionDisplay.riskTier.value),
        ("title", .str card.actionDisplay.title), ("summary", .str card.actionDisplay.summary)])
    cards := s.cards ++ [(key, card.requestId)] }

/-- `propose` for a transaction without a card. -/
def proposeCard (H : Host) (s : Service) (p : ProposalInput) (txn : ActionTxn)
    (card : ApprovalRequest) : Interruption → Option ProposeReply × Service
  | .raisesBeforeCard => (some .raised, s)
  | .crashesBeforeCard => (none, s.restarted)
  | .crashesAfterCard => (none, (s.askCard txn.idempotencyKey card p.taken).restarted)
  | .none =>
      let waiting : Proposing := ⟨txn.idempotencyKey, txn, card.requestId⟩
      let s := s.askCard txn.idempotencyKey card p.taken
      if s.env.daemonClient = true ∧ card.mode = .real then
        (none, { s with proposing := s.proposing ++ [waiting] })
      else
        let r := s.attach H waiting none p.policyGrant p.now
        (some r.1, r.2)

/-- `propose`; no reply when the handler waits for the daemon, or the process dies. -/
def propose (H : Host) (s : Service) (p : ProposalInput) (interruption : Interruption) :
    Option ProposeReply × Service :=
  match checkProposal H s.env p with
  | .error e => (some (.refused e), s)
  | .ok (mission, exact) =>
      match s.txns.create (newTxn H p exact) with
      | (.conflict existing, _) => (some (.refused ⟨"IDEMPOTENCY_CONFLICT",
          "idempotency_key reused with a different request hash (existing txn " ++ existing ++
            ")"⟩), s)
      | (.existing txn, _) =>
          if txn.approvalId.isEmpty then
            s.proposeCard H p txn (cardOf s.env p mission exact) interruption
          else
            match s.replayCard H txn with
            | .replayed txnId approvalId hash =>
                (some (.replayed txnId approvalId hash),
                  { s with returned := s.returned ++
                      [(txn.idempotencyKey, txnId, approvalId)] })
            | reply => (some reply, s)
      | (.created txn, txns) =>
          { s with txns }.proposeCard H p txn (cardOf s.env p mission exact) interruption

/-! ### `decision_status` -/

def decline (s : Service) (approvalId now : PyStr) : Service :=
  match s.txns.byApproval approvalId with
  | none => s
  | some txn =>
      if txn.state = .awaitingOperator then
        { s with txns := (s.txns.transition txn.txnId .declined {} now).2 }
      else s

def decisionStatus (s : Service) (approvalId now : PyStr) : Service :=
  match s.broker.getRequest approvalId with
  | .ok (some row) =>
      if row.status ≠ .pending ∧ row.status ≠ .approved then s.decline approvalId now else s
  | _ => s

end Service

/-! ### `execute` -/

/-- What the checks of `execute` have read. -/
structure Cleared where
  stored : ApprovalRequest
  mission : Mission
  grantId : PyStr
  txn : ActionTxn
  exact : ExactAction

def clearGrant (b : Broker) (approvalId now : PyStr) : Except ToolBridgeError PyStr := do
  let (grantId, row) ← found (b.grantOf approvalId) "GRANT_MISSING"
    ("no grant bound to approval " ++ approvalId ++ " (fail closed; no global scan)")
  require (row.consumed = false) "GRANT_CONSUMED" "grant already consumed (single-use)"
  require (row.revoked = false) "GRANT_REVOKED" "grant was revoked"
  require (row.expiresAt.isEmpty = true ∨ row.expiresAt.lt now = false) "GRANT_EXPIRED"
    "grant expired before execute (TOCTOU)"
  return grantId

def clearTxn (txns : Txns) (ctx : ActionRequestContext) (stored : ApprovalRequest)
    (approvalId now : PyStr) : Except ToolBridgeError ActionTxn := do
  let txn ← found (txns.byApproval approvalId) "LEGACY_TXN_UNEXECUTABLE"
    ("approval " ++ approvalId ++ " has no ActionTxn — legacy cards are " ++
      "read-only and cannot execute (fail closed)")
  require (txn.missionId = ctx.missionId ∧ stored.missionId = ctx.missionId) "CHAIN_MISMATCH"
    ("approval/txn mission != request mission (" ++ ctx.missionId ++ ")")
  require (txn.piSessionId = ctx.piSessionId) "CHAIN_MISMATCH"
    "txn session != request session — cross-session replay refused"
  require (txn.approvalId.isEmpty = true ∨ txn.approvalId = approvalId) "CHAIN_MISMATCH"
    "txn approval binding mismatch"
  require (txn.bodyHash.isEmpty = true ∨ ctx.bodyHash.isEmpty = true ∨ txn.bodyHash = ctx.bodyHash)
    "CHAIN_MISMATCH" "txn body hash != request body hash"
  require (txn.mode = ctx.mode) "CHAIN_MISMATCH" "txn mode != request mode"
  require (txn.expiresAt.isEmpty = true ∨ txn.expiresAt.lt now = false) "TXN_EXPIRED"
    ("txn " ++ txn.txnId ++ " expired at " ++ txn.expiresAt)
  return txn

/-- `display_hash_for`, which raises for a text that cannot be read. -/
def shownHash (H : Host) (card : ApprovalRequest) : Except ToolBridgeError PyStr :=
  (displayHash H card).mapError fun _ => ⟨"ValueError", "exact_action_json is corrupt"⟩

/-- The exact action of the card, whose hashes hold and which is that of the transaction. -/
def clearExact (H : Host) (E : Environment) (ctx : ActionRequestContext) (stored : ApprovalRequest)
    (txn : ActionTxn) (now : PyStr) : Except ToolBridgeError ExactAction := do
  let exact ← found (ExactAction.ofJson stored.exactActionJson) "EXACT_ACTION_INVALID"
    "approval card has no exact action contract (fail closed)"
  require (argumentsHash H exact.normalizedArguments = exact.argumentsHash) "CHAIN_MISMATCH"
    "exact action arguments_hash recompute failed"
  require (exact.intentHash H = exact.actionIntentHash) "CHAIN_MISMATCH"
    "exact action intent hash recompute failed"
  require (exact.argumentsHash = txn.argumentsHash) "CHAIN_MISMATCH"
    "exact arguments_hash != txn arguments_hash"
  require (exact.capabilityId = txn.capabilityId) "CHAIN_MISMATCH"
    "exact capability != txn capability"
  require (exact.missionId = stored.missionId ∧ exact.missionId = ctx.missionId) "CHAIN_MISMATCH"
    "exact mission != approval mission"
  require (exact.mode = stored.mode ∧ Mode.value exact.mode = ctx.mode) "CHAIN_MISMATCH"
    "exact mode != approval mode"
  require (exact.contextRevision = stored.contextRevision) "CHAIN_MISMATCH"
    "exact context revision != approval revision"
  require (stored.effectiveBodyHash.isEmpty = true ∨ exact.bodyHash = stored.effectiveBodyHash)
    "CHAIN_MISMATCH" "exact body hash != approval body hash"
  let hash ← shownHash H stored
  require (txn.displayHash.isEmpty = true ∨ hash = txn.displayHash) "CHAIN_MISMATCH"
    "display hash recompute != txn display hash"
  let d ← found (E.catalog.get? exact.capabilityId) "CAPABILITY_UNKNOWN"
    ("capability " ++ exact.capabilityId ++ " left the catalog after approval")
  require (d.version = exact.capabilityVersion ∧ d.source = exact.capabilitySource)
    "CHAIN_MISMATCH" "capability version/source drifted after approval — re-propose"
  require (now.lt exact.expiresAt = true) "EXACT_ACTION_EXPIRED"
    ("exact action expired at " ++ exact.expiresAt ++ " — re-propose")
  require (now.lt stored.expiresAt = true) "GRANT_EXPIRED" "approval expired before execute"
  require (exact.capabilityId.isEmpty = false) "CAPABILITY_MISSING"
    "approval card lost its capability binding (fail closed)"
  return exact

/-- The checks of `execute` on an approved card. -/
def clear (H : Host) (s : Service) (ctx : ActionRequestContext) (stored : ApprovalRequest)
    (approvalId now : PyStr) : Except ToolBridgeError Cleared := do
  require (stored.contextRevision = ctx.contextRevision) "CONTEXT_REVISION_MISMATCH"
    ("card revision " ++ .ofInt stored.contextRevision ++ " != current request revision " ++
      .ofInt ctx.contextRevision ++
      " — context changed after approval; re-propose with fresh context")
  let mission ← found (s.env.missions.get? stored.missionId) "MISSION_NOT_FOUND"
    "mission gone after approval"
  require (mission.contextRevision = stored.contextRevision) "CONTEXT_NOT_FRESH"
    ("context revision moved to " ++ .ofInt mission.contextRevision ++
      " after approval (card has " ++ .ofInt stored.contextRevision ++ ") — re-propose required")
  require (mission.effectiveBodyHash.isEmpty = true ∨ stored.effectiveBodyHash.isEmpty = true ∨
      mission.effectiveBodyHash = stored.effectiveBodyHash) "BODY_HASH_MISMATCH"
    "body changed after approval — re-propose required"
  require (mission.mode = stored.mode) "MODE_MISMATCH"
    ("mode changed to " ++ Mode.value mission.mode ++ " after approval — re-propose")
  let grantId ← clearGrant s.broker approvalId now
  let txn ← clearTxn s.txns ctx stored approvalId now
  let exact ← clearExact H s.env ctx stored txn now
  return ⟨stored, mission, grantId, txn, exact⟩

/-- The result of `execute`. -/
structure Executed where
  txnId : PyStr
  approvalId : PyStr
  grantId : PyStr
  actionId : PyStr
  receiptId : PyStr
  capabilityId : PyStr
  executed : Bool
  terminalReceipt : Bool
  evidenceRef : Option PyStr
  errorCode : Option PyStr

inductive ExecuteReply
  | executed (r : Executed)
  | declined (approvalId txnId : PyStr)
  | refused (e : ToolBridgeError)
  | transitionError (e : TxnError)
  | raised

/-- `v == s` for a text. -/
def isText (v : PyVal) (s : PyStr) : Bool :=
  match v with
  | .str t => t = s
  | _ => false

def isTrue : PyVal → Bool
  | .bool b => b
  | _ => false

/-- The event says that the action of the receipt is completed and verified. -/
def confirms (receiptId : PyStr) (e : AgentEvent) : Bool :=
  e.eventType = "receipt.received" &&
    (if (e.payload.get "receipt_id").truthy then isText (e.payload.get "receipt_id") receiptId
      else isText (e.payload.get "action_id") receiptId) &&
    isText (e.payload.get "final_state") "COMPLETED" && isTrue (e.payload.get "verified")

/-- `str(payload.get("action_id") or "")`. -/
def actionIdOf (H : Host) (e : AgentEvent) : PyStr :=
  if (e.payload.get "action_id").truthy then H.str (e.payload.get "action_id") else ""

def receiptAction (H : Host) (journal : List AgentEvent) (missionId receiptId : PyStr) : PyStr :=
  match (replay journal missionId 50).find? (confirms receiptId) with
  | some e => actionIdOf H e
  | none => ""

def HandlerOutcome.receiptId (o : HandlerOutcome) : PyStr :=
  match o.evidenceRef with
  | some ref => if PyStr.startsWith ref "receipt://" then ref.removePrefix "receipt://" else ""
  | none => ""

def Executing.result (w : Executing) (outcome : HandlerOutcome) (actionId : PyStr)
    (executed : Bool) : Executed where
  txnId := w.txnId
  approvalId := w.approvalId
  grantId := w.grantId
  actionId := actionId
  receiptId := outcome.receiptId
  capabilityId := w.capabilityId
  executed := executed
  terminalReceipt := outcome.terminalReceipt
  evidenceRef := outcome.evidenceRef
  errorCode := if executed then none else outcome.errorCode.or (some "ACTION_FAILED")

namespace Service

def settle (s : Service) (w : Executing) (outcome : HandlerOutcome) (actionId : PyStr)
    (executed : Bool) (now : PyStr) : ExecuteReply × Service :=
  if executed then
    match s.txns.transition w.txnId .receiptPending
        { actionId, receiptId := outcome.receiptId } now with
    | (.error e, txns) => (.transitionError e, { s with txns })
    | (.ok _, txns) =>
        match txns.transition w.txnId .completed {} now with
        | (.error e, txns) => (.transitionError e, { s with txns })
        | (.ok _, txns) => (.executed (w.result outcome actionId executed), { s with txns })
  else
    match s.txns.transition w.txnId .failed {} now with
    | (.error e, txns) => (.transitionError e, { s with txns })
    | (.ok _, txns) => (.executed (w.result outcome actionId executed), { s with txns })

def confirmedAction (H : Host) (s : Service) (missionId : PyStr) (outcome : HandlerOutcome) :
    PyStr :=
  if outcome.terminalReceipt = true ∧ outcome.receiptId.isEmpty = false then
    receiptAction H s.journal missionId outcome.receiptId
  else ""

/-- `execute` from the outcome of the dispatch on. -/
def finish (H : Host) (s : Service) (w : Executing) (outcome : HandlerOutcome) (now : PyStr) :
    ExecuteReply × Service :=
  let actionId := s.confirmedAction H w.missionId outcome
  s.settle w outcome actionId (outcome.terminalReceipt && !actionId.isEmpty) now

/-- The transaction, dispatching; the card is approved, and its transaction follows. -/
def dispatching (s : Service) (txn : ActionTxn) (grantId now : PyStr) :
    Except TxnError ActionTxn × Txns :=
  if txn.state = .awaitingOperator then
    match s.txns.transition txn.txnId .approved {} now with
    | (.error e, txns) => (.error e, txns)
    | (.ok txn, txns) => txns.transition txn.txnId .dispatching { grantId } now
  else s.txns.transition txn.txnId .dispatching { grantId } now

def dispatch (H : Host) (s : Service) (approvalId : PyStr) (c : Cleared) (now : PyStr)
    (taken : Bool) : Option ExecuteReply × Service :=
  let w (stage : Stage) : Executing :=
    ⟨approvalId, c.txn.txnId, c.stored.missionId, c.grantId, c.exact.capabilityId, stage⟩
  match requestAction H s.env.toChannels s.broker
      ⟨c.grantId, c.exact.capabilityId, c.exact.normalizedArguments, c.exact.executorIdentity⟩
      c.mission.mode c.mission.ownerPrincipal now with
  | (.error outcome, broker) =>
      let r := { s with broker }.finish H (w (.proposal "" "")) outcome now
      (some r.1, r.2)
  | (.ok stage?, broker) =>
      let journal := emit taken s.journal c.stored.missionId "grant.consumed"
        (.dict [("grant_id", .str c.grantId), ("public_hash", .str
          (((broker.grants.get? c.grantId).map fun row => row.grant.publicHash).getD ""))])
      match stage? with
      | none =>
          let r := { s with broker, journal }.finish H (w (.proposal "" "")) {} now
          (some r.1, r.2)
      | some stage =>
          (none, { s with
            broker, journal
            executing := s.executing ++ [w stage]
            called := s.called ++ [⟨approvalId, c.txn.idempotencyKey, stage⟩] })

/-- `execute`; no reply while the channel works. -/
def execute (H : Host) (s : Service) (approvalId : PyStr) (ctx : ActionRequestContext)
    (caller : Caller) (now : PyStr) (taken : Bool) : Option ExecuteReply × Service :=
  match s.broker.getRequest approvalId with
  | .error _ => (some .raised, s)
  | .ok none => (some (.refused ⟨"APPROVAL_NOT_FOUND", "unknown approval_id"⟩), s)
  | .ok (some row) =>
      match validateSessionAndCaller s.env ctx caller now with
      | .error e => (some (.refused e), s)
      | .ok _ =>
          if row.status = .pending then
            (some (.refused ⟨"APPROVAL_PENDING", "operator has not decided yet"⟩), s)
          else if row.status ≠ .approved then
            (some (.declined approvalId
              (((s.txns.byApproval approvalId).map ActionTxn.txnId).getD "")),
              s.decline approvalId now)
          else
            match clear H s ctx row.request approvalId now with
            | .error e => (some (.refused e), s)
            | .ok c =>
                match s.dispatching c.txn c.grantId now with
                | (.error e, txns) => (some (.transitionError e), { s with txns })
                | (.ok _, txns) => { s with txns }.dispatch H approvalId c now taken

def answer (H : Host) (s : Service) (i : Nat) (w : Executing) (a : Answer) (now : PyStr)
    (taken : Bool) : Option ExecuteReply × Service :=
  let s := { s with executing := s.executing.eraseIdx i }
  match advance taken s.journal w.missionId w.stage a with
  | (.raises, journal) => (some .raised, { s with journal })
  | (.waits stage, journal) =>
      (none, { s with journal, executing := s.executing ++ [{ w with stage }] })
  | (.returns outcome, journal) =>
      let r := { s with journal }.finish H w outcome now
      (some r.1, r.2)

end Service

end Rosclaw.Admission
