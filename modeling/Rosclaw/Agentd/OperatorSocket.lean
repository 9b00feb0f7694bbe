/-
The operator's socket of agentd: who may decide a card (`agentd/operator_socket.py`,
`agentd/service.py`, `contracts/operator/decision.py`).

A card with a daemon proposal is decided by a receipt that the daemon has signed, any other
card by a signature of operatord under the key pinned for its enrollment.  The identity of
the daemon is asked for once in a process and kept; while it is being asked for, the handler
is suspended and other requests run.

* `DecisionReceipt`, `checkReceipt` — the receipt, and what `verify_decision_receipt` compares;
* `decision_honoured` — a request is handled as it should be exactly when `Faultless` holds of
  it, in every reachable state;
* `declined_receipt_mints` — a receipt that declines mints a grant.
-/
import Rosclaw.Lib.Machine
import Rosclaw.Operator.Broker

namespace Rosclaw.OperatorSocket

open Approvals Option

/-! ### Decision receipts -/

def PROTOCOL_VERSION_RECEIPT : PyStr := "decision-receipt/1"

structure DecisionReceipt where
  proposalId : PyStr
  decision : PyStr
  operatorEnrollmentId : PyStr
  operatorPrincipal : PyStr
  humanConfirmationMethod : PyStr
  challengeNonce : PyStr
  decidedAt : PyStr
  expiresAt : PyStr
  daemonInstanceId : PyStr
  daemonKeyId : PyStr
  agentRequestId : PyStr
  missionId : PyStr
  executionMode : PyStr
  capabilityId : PyStr
  canonicalArgsHash : PyStr
  displayHash : PyStr
  signatureB64 : PyStr

/-- `data[key]`; a missing key raises `KeyError`. -/
def item (data : List (PyStr × PyVal)) (key : String) : Except PyStr PyVal :=
  match data.find? fun e => e.1 = (key : PyStr) with
  | some e => .ok e.2
  | none => .error (PyStr.quoted key)

/-- `f"{v!r}"`. -/
def reprOf (H : Host) : PyVal → PyStr
  | .str s => s.quoted
  | v => H.repr v

def differing (name x y : PyStr) : List PyStr := if x ≠ y then [name] else []

namespace DecisionReceipt

/-- `from_dict`, or the text of its exception. -/
def fromDict (H : Host) (data : List (PyStr × PyVal)) : Except PyStr DecisionReceipt := do
  let optional (key : String) : PyStr := H.str (PyVal.getEntry key (.str "") data)
  if optional "protocol_version" ≠ PROTOCOL_VERSION_RECEIPT then
    throw ("unsupported receipt protocol " ++
      reprOf H (PyVal.getEntry "protocol_version" .none data))
  return {
    proposalId := H.str (← item data "proposal_id")
    decision := (H.str (← item data "decision")).upper
    operatorEnrollmentId := H.str (← item data "operator_enrollment_id")
    operatorPrincipal := H.str (← item data "operator_principal")
    humanConfirmationMethod := optional "human_confirmation_method"
    challengeNonce := H.str (← item data "challenge_nonce")
    decidedAt := H.str (← item data "decided_at")
    expiresAt := H.str (← item data "expires_at")
    daemonInstanceId := H.str (← item data "daemon_instance_id")
    daemonKeyId := H.str (← item data "daemon_key_id")
    agentRequestId := optional "agent_request_id"
    missionId := optional "mission_id"
    executionMode := optional "execution_mode"
    capabilityId := optional "capability_id"
    canonicalArgsHash := optional "canonical_args_hash"
    displayHash := optional "display_hash"
    signatureB64 := optional "signature_b64" }

def signingPayload (r : DecisionReceipt) : PyVal :=
  .dict [("protocol_version", .str PROTOCOL_VERSION_RECEIPT), ("proposal_id", .str r.proposalId),
    ("agent_request_id", .str r.agentRequestId), ("mission_id", .str r.missionId),
    ("execution_mode", .str r.executionMode), ("capability_id", .str r.capabilityId),
    ("canonical_args_hash", .str r.canonicalArgsHash), ("display_hash", .str r.displayHash),
    ("decision", .str r.decision), ("operator_enrollment_id", .str r.operatorEnrollmentId),
    ("operator_principal", .str r.operatorPrincipal),
    ("human_confirmation_method", .str r.humanConfirmationMethod),
    ("challenge_nonce", .str r.challengeNonce), ("decided_at", .str r.decidedAt),
    ("expires_at", .str r.expiresAt), ("daemon_instance_id", .str r.daemonInstanceId),
    ("daemon_key_id", .str r.daemonKeyId)]

def receiptId (H : Host) (r : DecisionReceipt) : PyStr :=
  (H.sha256Hex (.dict [("proposal_id", .str r.proposalId),
    ("challenge_nonce", .str r.challengeNonce)]) : PyStr).take 24

def mismatches (r : DecisionReceipt) (card : ApprovalRequest) (displayHash : PyStr) : List PyStr :=
  differing "proposal_id" r.proposalId card.daemonProposalId ++
  differing "agent_request_id" r.agentRequestId card.requestId ++
  differing "mission_id" r.missionId card.missionId ++
  differing "execution_mode" r.executionMode (Mode.value card.mode) ++
  differing "capability_id" r.capabilityId card.daemonCapabilityId ++
  differing "canonical_args_hash" r.canonicalArgsHash card.daemonActionIntentHash ++
  differing "display_hash" r.displayHash displayHash

end DecisionReceipt

def join : List PyStr → PyStr
  | [] => ""
  | [x] => x
  | x :: xs => x ++ ", " ++ join xs

/-- What the daemon answers to `daemon.identity`. -/
structure DaemonIdentity where
  daemonKeyId : PyStr
  daemonInstanceId : PyStr
  publicKeyPem : PyStr
deriving DecidableEq

/-! ### Replies -/

inductive Exception
  | py (e : PyError)
  | broker (e : BrokerError)

/-- The answer to a request; what is raised is answered as an error, too. -/
inductive Reply
  | rejected (error : PyStr)
  | raised (e : Exception)
  | applied (approved : Bool) (grantId : Option PyStr) (principal profile : PyStr)

/-- `not response["ok"]`. -/
def Reply.isRejection : Reply → Bool
  | rejected _ | raised _ => true
  | applied .. => false

/-- The parameters of `approvals.apply_decision`. -/
structure DecisionRequest where
  requestId : PyStr
  displayHash : PyStr
  approve : Bool
  decisionReceipt : PyVal
  nonce : PyStr
  decidedAt : PyStr
  enrollmentId : PyStr
  operatorPublicKeyPem : PyStr
  operatorSignature : PyStr

def DecisionRequest.ofParams (H : Host) (params : PyVal) : DecisionRequest :=
  let text (key : String) : PyStr := H.str (params.getD key (.str ""))
  { requestId := text "request_id"
    displayHash := text "display_hash"
    approve := (params.get "approve").truthy
    decisionReceipt := params.get "decision_receipt"
    nonce := text "nonce"
    decidedAt := text "decided_at"
    enrollmentId := text "enrollment_id"
    operatorPublicKeyPem := text "operator_public_key_pem"
    operatorSignature := text "operator_signature" }

def DecisionRequest.signingPayload (r : DecisionRequest) (approve : Bool) : PyVal :=
  .dict [("request_id", .str r.requestId), ("display_hash", .str r.displayHash),
    ("approve", .bool approve), ("nonce", .str r.nonce), ("decided_at", .str r.decidedAt),
    ("enrollment_id", .str r.enrollmentId)]

/-! ### The service -/

/-- A row of `decision_receipts`. -/
structure ReceiptRow where
  receiptId : PyStr
  proposalId : PyStr
  challengeNonce : PyStr
  decision : PyStr

/-- An event `approval.decided` of a mission. -/
structure DecidedEvent where
  missionId : PyStr
  requestId : PyStr
  approved : Bool
  grantId : Option PyStr

/-- What is stored: the broker, the receipts that have been applied, the pinned keys of
operatord by enrollment, and the events. -/
structure Store where
  broker : Broker
  decisionReceipts : List ReceiptRow := []
  operatordKeys : Dict PyStr PyStr := ∅
  decided : List DecidedEvent := []

/-- A handler that waits for the identity of the daemon. -/
structure Waiting where
  principal : PyStr
  request : DecisionRequest
  card : ApprovalRequest
  receipt : DecisionReceipt

structure Service where
  store : Store
  daemonClient : Bool
  identityCache : Option DaemonIdentity := none
  daemon : Option DaemonIdentity := none
  waiting : List Waiting := []

def utcnow (now : DateTime) : PyStr := now.utcText

/-- What `verify_decision_receipt` compares before it looks for a replay. -/
def checkReceipt (H : Host) (identity : Option DaemonIdentity) (receipt : DecisionReceipt)
    (card : ApprovalRequest) (now : DateTime) : Except Reply Unit := do
  let refuse (error : PyStr) : Except Reply Unit := throw (.rejected ("receipt rejected: " ++ error))
  match identity with
  | none => refuse "daemon identity unavailable — cannot verify receipt"
  | some identity =>
      if receipt.daemonKeyId ≠ identity.daemonKeyId then
        refuse "receipt signed by an unknown daemon key"
      else if receipt.daemonInstanceId ≠ identity.daemonInstanceId then
        refuse "receipt belongs to a different daemon generation"
      else if receipt.signatureB64.isEmpty then refuse "receipt signature invalid"
      else if receipt.signingPayload.encodable = false then throw (.raised (.py .valueError))
      else if H.verifyB64 identity.publicKeyPem receipt.signingPayload receipt.signatureB64 = false
      then refuse "receipt signature invalid"
      else match displayHash H card with
        | .error e => throw (.raised (.py e))
        | .ok hash =>
            if receipt.mismatches card hash ≠ [] then
              refuse ("receipt fields do not match the local card: " ++
                join (receipt.mismatches card hash))
            else match DateTime.parseUtc (some 0) receipt.expiresAt with
              | none => refuse "receipt expires_at is not ISO-8601"
              | some expires =>
                  if expires.instant ≤ now.instant then refuse "receipt expired" else pure ()

def answer (p : Reply × Service) : Option Reply × Service := (some p.1, p.2)

namespace Service

/-- `authorization_profile`. -/
def profile (s : Service) : PyStr := if s.daemonClient then "OPERATORD_BACKED" else "DEV_SIM_ONLY"

def withBroker (s : Service) (broker : Broker) : Service := { s with store.broker := broker }

/-- The unique columns of `decision_receipts` have the receipt already. -/
def replayed (H : Host) (s : Service) (receipt : DecisionReceipt) : Bool :=
  s.store.decisionReceipts.any fun row =>
    row.receiptId = receipt.receiptId H ∨ row.challengeNonce = receipt.challengeNonce

/-- `_record_decision_receipt`. -/
def recordReceipt (H : Host) (s : Service) (receipt : DecisionReceipt) : Service :=
  { s with store.decisionReceipts := s.store.decisionReceipts ++
      [⟨receipt.receiptId H, receipt.proposalId, receipt.challengeNonce, receipt.decision⟩] }

/-- `decide_approval` for operatord, and the answer of `_apply_decision`. -/
def decideApproval (H : Host) (s : Service) (requestId principal : PyStr) (approve : Bool)
    (grantId : PyStr) (now : DateTime) : Reply × Service :=
  match s.store.broker.decide H requestId principal approve none grantId (utcnow now) with
  | (.error e, broker) => (.raised (.broker e), s.withBroker broker)
  | (.ok grant, broker) =>
      let grantId := grant.map MissionGrant.grantId
      (.applied approve grantId principal s.profile,
        { s with
          store.broker := broker
          store.decided := s.store.decided ++
            ((broker.requests.get? requestId).map fun row =>
              ⟨row.request.missionId, requestId, approve, grantId⟩).toList })

/-- `verify_operatord_signature`: the refusal if there is one, and the service with the key
pinned. -/
def verifyOperatordSignature (H : Host) (s : Service) (enrollmentId publicKeyPem : PyStr)
    (payload : PyVal) (signature : PyStr) : Option PyStr × Service :=
  match s.store.operatordKeys.get? enrollmentId with
  | none =>
      (if H.verifyB64 publicKeyPem payload signature then none
        else some "operatord signature invalid",
        { s with store.operatordKeys := s.store.operatordKeys.set enrollmentId publicKeyPem })
  | some pinned =>
      (if pinned ≠ publicKeyPem then
          some ("operatord public key changed for this enrollment — " ++
            "possible impersonation or reinstall; refusing")
        else if H.verifyB64 pinned payload signature then none
        else some "operatord signature invalid", s)

/-- The pending card of the request, when the request shows its hash. -/
def shownCard (H : Host) (s : Service) (r : DecisionRequest) : Except Reply ApprovalRequest :=
  match s.store.broker.pending? r.requestId with
  | none => .error (.rejected "unknown_or_decided request_id")
  | some card =>
      match displayHash H card with
      | .error e => .error (.raised (.py e))
      | .ok expected =>
          if r.displayHash.isEmpty ∨ r.displayHash ≠ expected then
            .error (.rejected "display_hash_mismatch")
          else .ok card

def presentedReceipt (H : Host) (r : DecisionRequest) : Except Reply DecisionReceipt :=
  match r.decisionReceipt with
  | .dict data => (DecisionReceipt.fromDict H data).mapError fun e =>
      .rejected ("receipt rejected: invalid receipt: " ++ e)
  | _ => .error (.rejected
      "daemon-backed cards require a daemon-signed decision_receipt (DecisionReceiptV1)")

/-- `_apply_decision` from the identity of the daemon on. -/
def applyReceipt (H : Host) (s : Service) (w : Waiting) (identity : Option DaemonIdentity)
    (grantId : PyStr) (now : DateTime) : Reply × Service :=
  match checkReceipt H identity w.receipt w.card now with
  | .error reply => (reply, s)
  | .ok () =>
      if s.replayed H w.receipt then
        (.rejected
          "receipt rejected: receipt replay — this challenge nonce was already applied", s)
      else
        (s.recordReceipt H w.receipt).decideApproval H w.request.requestId w.principal
          w.request.approve grantId now

/-- `_apply_decision` for a card without a daemon proposal. -/
def applySignature (H : Host) (s : Service) (principal : PyStr) (r : DecisionRequest)
    (grantId : PyStr) (now : DateTime) : Reply × Service :=
  let payload := r.signingPayload r.approve
  if payload.encodable = false then (.raised (.py .valueError), s)
  else
    match s.verifyOperatordSignature H r.enrollmentId r.operatorPublicKeyPem payload
        r.operatorSignature with
    | (some error, s) => (.rejected ("operator signature check failed: " ++ error), s)
    | (none, s) => s.decideApproval H r.requestId principal r.approve grantId now

/-- `_apply_decision`; no reply when the handler has to wait for the identity of the
daemon. -/
def applyDecision (H : Host) (s : Service) (principal : PyStr) (r : DecisionRequest)
    (grantId : PyStr) (now : DateTime) : Option Reply × Service :=
  match s.shownCard H r with
  | .error reply => (some reply, s)
  | .ok card =>
      if card.daemonProposalId.isEmpty then
        answer (s.applySignature H principal r grantId now)
      else
        match presentedReceipt H r with
        | .error reply => (some reply, s)
        | .ok receipt =>
            let w : Waiting := ⟨principal, r, card, receipt⟩
            if s.daemonClient = true ∧ s.identityCache = none then
              (none, { s with waiting := s.waiting ++ [w] })
            else
              answer (s.applyReceipt H w s.identityCache grantId now)

/-- `approvals.apply_revoke`. -/
def applyRevoke (H : Host) (s : Service) (principal : PyStr) (params : PyVal) : Service :=
  let text (key : String) : PyStr := H.str (params.getD key (.str ""))
  let grantId := text "grant_id"
  let payload : PyVal := .dict [("action", .str "revoke"), ("grant_id", .str grantId),
    ("nonce", .str (text "nonce")), ("decided_at", .str (text "decided_at")),
    ("enrollment_id", .str (text "operator_enrollment_id"))]
  if grantId.isEmpty ∨ payload.encodable = false then s
  else
    match s.verifyOperatordSignature H (text "operator_enrollment_id")
        (text "operator_public_key_pem") payload (text "operator_signature") with
    | (some _, s) => s
    | (none, s) => s.withBroker (s.store.broker.revoke grantId principal).2

end Service

/-! ### The machine -/

inductive Label
  /-- a request `approvals.apply_decision` of a peer -/
  | applyDecision (principal : PyStr) (params : PyVal) (grantId : PyStr) (now : DateTime)
  /-- a suspended handler goes on; whether the daemon has answered -/
  | resume (i : Nat) (answered : Bool) (grantId : PyStr) (now : DateTime)
  | applyRevoke (principal : PyStr) (params : PyVal)
  | createRequest (request : ApprovalRequest)
  /-- the daemon has made a proposal for a card that has none -/
  | linkProposal (requestId : PyStr) (link : ProposalLink)
  /-- the policy decides a card -/
  | policyDecide (requestId principal : PyStr) (grantId : PyStr) (now : DateTime)
  | cancelRequest (requestId principal : PyStr)
  /-- a grant is verified, and spent -/
  | verifyGrant (grantId principal bodyHash : PyStr) (mode : Mode) (riskTier : RiskTier)
      (actionIntent : Option PyStr) (now : DateTime)
  /-- the daemon starts, as a new generation -/
  | daemonStarts (identity : DaemonIdentity)
  /-- agentd starts again on its store -/
  | restart (daemonClient : Bool)

namespace Service

def asked (s : Service) (answered : Bool) : Option DaemonIdentity :=
  if answered then s.daemon else none

def resumed (s : Service) (i : Nat) (answered : Bool) : Service :=
  { s with
    identityCache := (s.asked answered).or s.identityCache
    waiting := s.waiting.eraseIdx i }

def resume (H : Host) (s : Service) (i : Nat) (w : Waiting) (answered : Bool) (grantId : PyStr)
    (now : DateTime) : Reply × Service :=
  (s.resumed i answered).applyReceipt H w (s.asked answered) grantId now

end Service

/-- One step, and the reply to the request if it is answered; ids that are made in the step
are new. -/
def respond (H : Host) (s : Service) : Label → Option (Option Reply × Service)
  | .applyDecision principal params grantId now =>
      if s.store.broker.grants.contains grantId then none
      else some (s.applyDecision H principal (.ofParams H params) grantId now)
  | .resume i answered grantId now =>
      if s.store.broker.grants.contains grantId then none
      else (s.waiting[i]?).map fun w => answer (s.resume H i w answered grantId now)
  | .applyRevoke principal params => some (none, s.applyRevoke H principal params)
  | .createRequest request =>
      if s.store.broker.requests.contains request.requestId then none
      else some (none, s.withBroker (s.store.broker.createRequest request))
  | .linkProposal requestId link =>
      match s.store.broker.requests.get? requestId with
      | none => none
      | some row =>
          if row.request.daemonProposalId.isEmpty then
            some (none, s.withBroker
              (s.store.broker.linkRequest requestId row (link.apply row.request)))
          else none
  | .policyDecide requestId principal grantId now =>
      if s.store.broker.grants.contains grantId then none
      else some (none, s.withBroker (s.store.broker.decide H requestId principal true
        (some "policy:POLICY_AUTO") grantId (utcnow now)).2)
  | .cancelRequest requestId principal =>
      some (none, s.withBroker (s.store.broker.cancelRequest requestId principal).2)
  | .verifyGrant grantId principal bodyHash mode riskTier actionIntent now =>
      some (none, s.withBroker (s.store.broker.verify H grantId principal bodyHash mode riskTier
        actionIntent (utcnow now)).2)
  | .daemonStarts identity => some (none, { s with daemon := some identity })
  | .restart daemonClient =>
      some (none, { s with daemonClient, identityCache := none, waiting := [] })

def operatorSocket (H : Host) : Machine Service Label where
  Init s := ∃ policyHash daemonClient, s = ⟨⟨⟨policyHash, ∅, ∅, []⟩, [], ∅, []⟩, daemonClient, none,
    none, []⟩
  step s l := (respond H s l).map Prod.snd

variable {H : Host} {s s' : Service}

/-! ### What a grant should rest on -/

/-- The fields of the receipt are those of the card. -/
structure DecisionReceipt.Matches (r : DecisionReceipt) (card : ApprovalRequest)
    (displayHash : PyStr) : Prop where
  proposalId : r.proposalId = card.daemonProposalId
  agentRequestId : r.agentRequestId = card.requestId
  missionId : r.missionId = card.missionId
  executionMode : r.executionMode = Mode.value card.mode
  capabilityId : r.capabilityId = card.daemonCapabilityId
  canonicalArgsHash : r.canonicalArgsHash = card.daemonActionIntentHash
  displayHash : r.displayHash = displayHash

variable {card : ApprovalRequest} {now : DateTime} {r : DecisionRequest} {reply : Reply}

theorem DecisionReceipt.mismatches_eq_nil {r : DecisionReceipt} {hash : PyStr} :
    r.mismatches card hash = [] ↔ r.Matches card hash := by
  have hfield : ∀ name x y : PyStr, differing name x y = [] ↔ x = y := by
    intro name x y
    by_cases h : x = y <;> simp [differing, h]
  simp only [mismatches, List.append_eq_nil_iff, hfield]
  constructor
  · rintro ⟨⟨⟨⟨⟨⟨h₁, h₂⟩, h₃⟩, h₄⟩, h₅⟩, h₆⟩, h₇⟩
    exact ⟨h₁, h₂, h₃, h₄, h₅, h₆, h₇⟩
  · rintro ⟨h₁, h₂, h₃, h₄, h₅, h₆, h₇⟩
    exact ⟨⟨⟨⟨⟨⟨h₁, h₂⟩, h₃⟩, h₄⟩, h₅⟩, h₆⟩, h₇⟩

/-- The daemon with this identity has signed the receipt. -/
structure SignedBy (H : Host) (identity : DaemonIdentity) (receipt : DecisionReceipt) : Prop where
  keyId : receipt.daemonKeyId = identity.daemonKeyId
  instanceId : receipt.daemonInstanceId = identity.daemonInstanceId
  signature :
    H.verifyB64 identity.publicKeyPem receipt.signingPayload receipt.signatureB64 = true

def SignedNow (H : Host) (s : Service) (receipt : DecisionReceipt) : Prop :=
  ∃ identity, s.daemon = some identity ∧ SignedBy H identity receipt

/-- The request presents a receipt of the running daemon that accepts the card, has not
expired and has not been applied. -/
structure Accepted (H : Host) (s : Service) (r : DecisionRequest) (card : ApprovalRequest)
    (now : DateTime) (receipt : DecisionReceipt) : Prop where
  presented : Service.presentedReceipt H r = .ok receipt
  signed : SignedNow H s receipt
  accept : receipt.decision = "ACCEPT"
  fields : ∃ hash, displayHash H card = .ok hash ∧ receipt.Matches card hash
  unexpired : ∃ expires, DateTime.parseUtc (some 0) receipt.expiresAt = some expires ∧
    now.instant < expires.instant
  unapplied : ∀ row ∈ s.store.decisionReceipts, row.challengeNonce ≠ receipt.challengeNonce

/-- The operator has signed the approval of the card, under the key that is pinned. -/
structure Signed (H : Host) (s' : Service) (r : DecisionRequest) (card : ApprovalRequest) :
    Prop where
  shown : displayHash H card = .ok r.displayHash
  signature : ∃ pem, s'.store.operatordKeys.get? r.enrollmentId = some pem ∧
    H.verifyB64 pem (r.signingPayload true) r.operatorSignature = true

def Consented (H : Host) (s s' : Service) (r : DecisionRequest) (card : ApprovalRequest)
    (now : DateTime) : Prop :=
  r.approve = true ∧
    (card.daemonProposalId.isEmpty = true → Signed H s' r card) ∧
    (card.daemonProposalId.isEmpty = false → ∃ receipt, Accepted H s r card now receipt)

/-- A request was handled as it should: grants are made for its card only, with consent, and
a rejection has stored nothing. -/
def Honoured (H : Host) (s : Service) (r : DecisionRequest) (now : DateTime) (reply : Reply)
    (s' : Service) : Prop :=
  (∀ id, s.store.broker.Mints s'.store.broker id → id = r.requestId ∧
    ∃ row, s.store.broker.requests.get? id = some row ∧ Consented H s s' r row.request now) ∧
  (reply.isRejection = true → s'.store = s.store)

/-! ### When a request is handled as it should -/

/-- A receipt that passes the checks finds its card open, and if the request asks for a grant,
accepts it and is signed by the running daemon. -/
def ReceiptFaultless (H : Host) (s : Service) (w : Waiting) (identity : Option DaemonIdentity)
    (now : DateTime) : Prop :=
  checkReceipt H identity w.receipt w.card now = .ok () → s.replayed H w.receipt = false →
    s.store.broker.Open w.request.requestId (utcnow now) ∧
      (w.request.approve = true → w.receipt.decision = "ACCEPT" ∧ SignedNow H s w.receipt)

/-- A signature under a key that is not pinned is right, and one that is right finds its card
open. -/
def SignatureFaultless (H : Host) (s : Service) (r : DecisionRequest) (now : DateTime) : Prop :=
  (r.signingPayload r.approve).encodable = true →
    (s.store.operatordKeys.get? r.enrollmentId = none →
      H.verifyB64 r.operatorPublicKeyPem (r.signingPayload r.approve) r.operatorSignature = true) ∧
    (H.verifyB64 r.operatorPublicKeyPem (r.signingPayload r.approve) r.operatorSignature = true →
      (∀ pinned, s.store.operatordKeys.get? r.enrollmentId = some pinned →
        pinned = r.operatorPublicKeyPem) →
      s.store.broker.Open r.requestId (utcnow now))

def RequestFaultless (H : Host) (s : Service) (principal : PyStr) (r : DecisionRequest)
    (now : DateTime) : Prop :=
  ∀ card, s.shownCard H r = .ok card →
    (card.daemonProposalId.isEmpty = true → SignatureFaultless H s r now) ∧
    (card.daemonProposalId.isEmpty = false → ∀ receipt, Service.presentedReceipt H r = .ok receipt →
      ¬ (s.daemonClient = true ∧ s.identityCache = none) →
      ReceiptFaultless H s ⟨principal, r, card, receipt⟩ s.identityCache now)

def Faultless (H : Host) (s : Service) : Label → Prop
  | .applyDecision principal params _ now =>
      RequestFaultless H s principal (.ofParams H params) now
  | .resume i answered _ now =>
      ∀ w, s.waiting[i]? = some w → ReceiptFaultless H s w (s.asked answered) now
  | _ => True

def request? (H : Host) (s : Service) : Label → Option (DecisionRequest × DateTime)
  | .applyDecision _ params _ now => some (.ofParams H params, now)
  | .resume i _ _ now => (s.waiting[i]?).map fun w => (w.request, now)
  | _ => none

/-! ### The decision of a card -/

theorem checkReceipt_ok {identity : Option DaemonIdentity} {receipt : DecisionReceipt}
    (h : checkReceipt H identity receipt card now = .ok ()) :
    (∃ d, identity = some d ∧ SignedBy H d receipt) ∧
    (∃ hash, displayHash H card = .ok hash ∧ receipt.Matches card hash) ∧
    ∃ expires, DateTime.parseUtc (some 0) receipt.expiresAt = some expires ∧
      now.instant < expires.instant := by
  unfold checkReceipt at h
  split at h
  · cases h
  · next identity =>
    split at h
    · cases h
    · next hkey =>
      split at h
      · cases h
      · next hinstance =>
        split at h
        · cases h
        · split at h
          · cases h
          · split at h
            · cases h
            · next hsignature =>
              split at h
              · cases h
              · next hash hhash =>
                split at h
                · cases h
                · next hmatches =>
                  split at h
                  · cases h
                  · next expires hexpires =>
                    split at h
                    · cases h
                    · next hlt =>
                      rw [ne_eq, not_not] at hkey hinstance hmatches
                      exact ⟨⟨identity, rfl, hkey, hinstance, by simpa using hsignature⟩,
                        ⟨hash, hhash, DecisionReceipt.mismatches_eq_nil.mp hmatches⟩,
                        expires, hexpires, by omega⟩

section Decide

variable {requestId principal grantId : PyStr} {approve : Bool} {now : DateTime}

theorem broker_decideApproval :
    (s.decideApproval H requestId principal approve grantId now).2.store.broker =
      (s.store.broker.decide H requestId principal approve none grantId (utcnow now)).2 := by
  unfold Service.decideApproval
  split
  · next h => rw [h]; rfl
  · next h => rw [h]

theorem keys_decideApproval :
    (s.decideApproval H requestId principal approve grantId now).2.store.operatordKeys =
      s.store.operatordKeys := by
  unfold Service.decideApproval
  split <;> rfl

theorem receipts_decideApproval :
    (s.decideApproval H requestId principal approve grantId now).2.store.decisionReceipts =
      s.store.decisionReceipts := by
  unfold Service.decideApproval
  split <;> rfl

theorem waiting_decideApproval :
    (s.decideApproval H requestId principal approve grantId now).2.waiting = s.waiting := by
  unfold Service.decideApproval
  split <;> rfl

theorem isRejection_decideApproval :
    (s.decideApproval H requestId principal approve grantId now).1.isRejection = true ↔
      ¬ s.store.broker.Open requestId (utcnow now) := by
  by_cases hopen : s.store.broker.Open requestId (utcnow now)
  · obtain ⟨row, -, hdecide⟩ := Broker.decide_of_open H principal grantId approve none hopen
    unfold Service.decideApproval
    rw [hdecide]
    cases approve <;> simp [Reply.isRejection, hopen]
  · obtain ⟨e, he, -⟩ := Broker.decide_of_not_open H principal grantId approve none hopen
    unfold Service.decideApproval
    split
    · simp [Reply.isRejection, hopen]
    · next h =>
      rw [h] at he
      cases he

end Decide

theorem honoured_of_store_eq (h : s'.store = s.store) : Honoured H s r now reply s' := by
  refine ⟨?_, fun _ => h⟩
  rintro id ⟨g, row, hrow, -, hnew⟩
  rw [h] at hrow
  exact absurd hrow hnew

/-- What a suspended handler has read still stands. -/
structure Held (H : Host) (s : Service) (w : Waiting) : Prop where
  presented : Service.presentedReceipt H w.request = .ok w.receipt
  linked : w.card.daemonProposalId.isEmpty = false
  card : ∃ row, s.store.broker.requests.get? w.request.requestId = some row ∧ row.request = w.card

section Receipt

variable {w : Waiting} {identity : Option DaemonIdentity} {grantId : PyStr} {now : DateTime}

theorem accepted_of_checks (hpresented : Service.presentedReceipt H w.request = .ok w.receipt)
    (hcheck : checkReceipt H identity w.receipt w.card now = .ok ())
    (hnew : s.replayed H w.receipt = false) (haccept : w.receipt.decision = "ACCEPT")
    (hsigned : SignedNow H s w.receipt) : Accepted H s w.request w.card now w.receipt := by
  obtain ⟨-, hfields, hexpires⟩ := checkReceipt_ok hcheck
  refine ⟨hpresented, hsigned, haccept, hfields, hexpires, ?_⟩
  intro row hrow hnonce
  simp only [Service.replayed, List.any_eq_false, decide_eq_true_eq, not_or] at hnew
  exact (hnew row hrow).2 hnonce

variable (identity now) in
/-- **A receipt is applied as it should be** exactly when the condition holds of it. -/
theorem honoured_applyReceipt (hw : Held H s w)
    (hfresh : s.store.broker.grants.get? grantId = none) :
    Honoured H s w.request now (s.applyReceipt H w identity grantId now).1
      (s.applyReceipt H w identity grantId now).2 ↔ ReceiptFaultless H s w identity now := by
  obtain ⟨row, hrow, hcard⟩ := hw.card
  unfold Service.applyReceipt
  split
  · next reply hcheck =>
    refine iff_of_true (honoured_of_store_eq rfl) ?_
    intro hok
    rw [hcheck] at hok
    cases hok
  · next hcheck =>
    split
    · next hreplayed =>
      refine iff_of_true (honoured_of_store_eq rfl) ?_
      intro _ hnew
      rw [hreplayed] at hnew
      cases hnew
    · next hnew =>
      rw [Bool.not_eq_true] at hnew
      have hbroker : (s.recordReceipt H w.receipt).store.broker = s.store.broker := rfl
      constructor
      · intro h _ _
        -- a refusal would have left the receipt behind
        have hopen : s.store.broker.Open w.request.requestId (utcnow now) := by
          by_contra hopen
          have hstore := h.2 (isRejection_decideApproval.mpr (hbroker ▸ hopen))
          have hlen := congrArg (fun st => st.decisionReceipts.length) hstore
          simp [receipts_decideApproval, Service.recordReceipt] at hlen
        refine ⟨hopen, ?_⟩
        intro happrove
        have hmints := Broker.mints_decide H w.principal _ none hopen hfresh
        rw [← hbroker] at hmints
        rw [happrove] at h
        rw [← broker_decideApproval] at hmints
        obtain ⟨-, row', hrow', -, -, hconsented⟩ := h.1 _ hmints
        rw [hrow, some_inj] at hrow'
        subst hrow'
        obtain ⟨receipt, hreceipt⟩ := hconsented (hcard ▸ hw.linked)
        have heq := hreceipt.presented
        rw [hw.presented] at heq
        cases heq
        exact ⟨hreceipt.accept, hreceipt.signed⟩
      · intro h
        obtain ⟨hopen, haccept⟩ := h hcheck hnew
        refine ⟨?_, ?_⟩
        · intro id hmints
          rw [broker_decideApproval, hbroker] at hmints
          obtain ⟨rfl, happrove, -⟩ := Broker.decide_mints hmints
          obtain ⟨hdecision, hsigned⟩ := haccept happrove
          refine ⟨rfl, row, hrow, happrove, ?_, ?_⟩
          · intro hempty
            rw [hcard, hw.linked] at hempty
            cases hempty
          · intro _
            rw [hcard]
            exact ⟨w.receipt, accepted_of_checks hw.presented hcheck hnew hdecision hsigned⟩
        · intro hrejection
          exact absurd hopen (hbroker ▸ isRejection_decideApproval.mp hrejection)

end Receipt

section Signature

variable {card : ApprovalRequest} {r : DecisionRequest} {principal grantId : PyStr} {now : DateTime}

theorem shownCard_ok (h : s.shownCard H r = .ok card) :
    (∃ row, s.store.broker.requests.get? r.requestId = some row ∧ row.status = .pending ∧
      row.request = card) ∧ displayHash H card = .ok r.displayHash := by
  unfold Service.shownCard at h
  split at h
  · cases h
  · next card' hpending =>
    split at h
    · cases h
    · next expected hexpected =>
      split at h
      · cases h
      · next hshown =>
        cases h
        push Not at hshown
        obtain ⟨row, hrow, hstatus⟩ := bind_eq_some_iff.mp hpending
        split at hstatus
        · next hpending' =>
          exact ⟨⟨row, hrow, hpending', some_inj.mp hstatus⟩, hshown.2 ▸ hexpected⟩
        · cases hstatus

variable {pem pinned : PyStr}

/-- A decision under a right signature is honoured exactly when the card is open: a pending
card that has expired is marked so. -/
theorem honoured_decideApproval (s₁ : Service) (hshown : s.shownCard H r = .ok card)
    (hunlinked : card.daemonProposalId.isEmpty = true) (hbroker : s₁.store.broker = s.store.broker)
    (hkey : s₁.store.operatordKeys.get? r.enrollmentId = some pem)
    (hsignature : H.verifyB64 pem (r.signingPayload r.approve) r.operatorSignature = true) :
    Honoured H s r now (s₁.decideApproval H r.requestId principal r.approve grantId now).1
      (s₁.decideApproval H r.requestId principal r.approve grantId now).2 ↔
        s.store.broker.Open r.requestId (utcnow now) := by
  obtain ⟨⟨row, hrow, hpending, rfl⟩, hhash⟩ := shownCard_ok hshown
  constructor
  · intro h
    by_contra hopen
    have hstore := h.2 (isRejection_decideApproval.mpr (hbroker ▸ hopen))
    have hexpired : row.request.expiresAt.lt (utcnow now) = true := by
      by_contra hexpires
      exact hopen ⟨row, hrow, hpending, by simpa using hexpires⟩
    have hrequests := congrArg (fun st => st.broker.requests.get? r.requestId) hstore
    simp only [broker_decideApproval, hbroker,
      Broker.decide_of_expired hrow hpending hexpired] at hrequests
    rw [Broker.setStatus, Dict.get?_set_self, hrow, some_inj] at hrequests
    rw [← hrequests] at hpending
    cases hpending
  · intro hopen
    refine ⟨?_, ?_⟩
    · intro id hmints
      rw [broker_decideApproval, hbroker] at hmints
      obtain ⟨rfl, happrove, -⟩ := Broker.decide_mints hmints
      refine ⟨rfl, row, hrow, happrove, ?_, ?_⟩
      · intro _
        refine ⟨hhash, pem, ?_, happrove ▸ hsignature⟩
        rw [keys_decideApproval, hkey]
      · intro hlinked
        rw [hunlinked] at hlinked
        cases hlinked
    · intro hrejection
      exact absurd hopen (hbroker ▸ isRejection_decideApproval.mp hrejection)

def Service.pin (s : Service) (enrollmentId publicKeyPem : PyStr) : Service :=
  { s with store.operatordKeys := s.store.operatordKeys.set enrollmentId publicKeyPem }

theorem applySignature_of_new (hkey : s.store.operatordKeys.get? r.enrollmentId = none)
    (hencodable : (r.signingPayload r.approve).encodable = true) :
    s.applySignature H principal r grantId now =
      if H.verifyB64 r.operatorPublicKeyPem (r.signingPayload r.approve) r.operatorSignature then
        (s.pin r.enrollmentId r.operatorPublicKeyPem).decideApproval H r.requestId principal
          r.approve grantId now
      else (.rejected ("operator signature check failed: " ++ "operatord signature invalid"),
        s.pin r.enrollmentId r.operatorPublicKeyPem) := by
  simp only [Service.applySignature, hencodable, Service.verifyOperatordSignature, hkey,
    Bool.true_eq_false, if_false]
  by_cases hsignature : H.verifyB64 r.operatorPublicKeyPem (r.signingPayload r.approve)
      r.operatorSignature = true
  · simp only [hsignature, if_true]
    rfl
  · simp only [hsignature, if_false, Bool.false_eq_true]
    rfl

variable (H principal grantId now) in
theorem applySignature_of_pinned (hkey : s.store.operatordKeys.get? r.enrollmentId = some pinned)
    (hencodable : (r.signingPayload r.approve).encodable = true) :
    (pinned = r.operatorPublicKeyPem ∧
      H.verifyB64 r.operatorPublicKeyPem (r.signingPayload r.approve) r.operatorSignature = true ∧
      s.applySignature H principal r grantId now =
        s.decideApproval H r.requestId principal r.approve grantId now) ∨
    (¬ (pinned = r.operatorPublicKeyPem ∧
      H.verifyB64 r.operatorPublicKeyPem (r.signingPayload r.approve) r.operatorSignature = true) ∧
      (s.applySignature H principal r grantId now).2 = s) := by
  simp only [Service.applySignature, hencodable, Service.verifyOperatordSignature, hkey,
    Bool.true_eq_false, if_false]
  by_cases hpinned : pinned = r.operatorPublicKeyPem
  · subst hpinned
    by_cases hsignature : H.verifyB64 r.operatorPublicKeyPem (r.signingPayload r.approve)
        r.operatorSignature = true
    · simp [hsignature]
    · simp [hsignature]
  · simp [hpinned]

/-- **A signature is applied as it should be** exactly when the condition holds of it. -/
theorem honoured_applySignature (hshown : s.shownCard H r = .ok card)
    (hunlinked : card.daemonProposalId.isEmpty = true) :
    Honoured H s r now (s.applySignature H principal r grantId now).1
      (s.applySignature H principal r grantId now).2 ↔ SignatureFaultless H s r now := by
  by_cases hencodable : (r.signingPayload r.approve).encodable = true
  · rcases hkey : s.store.operatordKeys.get? r.enrollmentId with _ | pinned
    · rw [applySignature_of_new hkey hencodable]
      by_cases hsignature : H.verifyB64 r.operatorPublicKeyPem (r.signingPayload r.approve)
          r.operatorSignature = true
      · have hpin : (s.pin r.enrollmentId r.operatorPublicKeyPem).store.operatordKeys.get?
            r.enrollmentId = some r.operatorPublicKeyPem := Dict.get?_set_self _ _ _
        rw [if_pos hsignature, honoured_decideApproval (s.pin _ _) hshown hunlinked rfl hpin hsignature]
        constructor
        · intro hopen _
          exact ⟨fun _ => hsignature, fun _ _ => hopen⟩
        · intro h
          refine (h hencodable).2 hsignature ?_
          intro pinned hpinned
          rw [hkey] at hpinned
          cases hpinned
      · rw [if_neg hsignature]
        refine iff_of_false ?_ fun h => hsignature ((h hencodable).1 hkey)
        -- the key of a signature that is wrong stays pinned
        intro h
        have hkeys := congrArg (fun st => st.operatordKeys.get? r.enrollmentId) (h.2 rfl)
        simp only [Service.pin, Dict.get?_set_self, hkey] at hkeys
        cases hkeys
    · rcases applySignature_of_pinned H principal grantId now hkey hencodable with ⟨rfl, hsignature, heq⟩ | ⟨hwrong, heq⟩
      · rw [heq, honoured_decideApproval s hshown hunlinked rfl hkey hsignature]
        constructor
        · intro hopen _
          refine ⟨?_, fun _ _ => hopen⟩
          intro hnone
          rw [hkey] at hnone
          cases hnone
        · intro h
          refine (h hencodable).2 hsignature ?_
          intro pinned hpinned
          rw [hkey, some_inj] at hpinned
          exact hpinned.symm
      · refine iff_of_true (honoured_of_store_eq (by rw [heq])) ?_
        intro _
        refine ⟨?_, ?_⟩
        · intro hnone
          rw [hkey] at hnone
          cases hnone
        · intro hsignature hpinned
          exact absurd ⟨hpinned pinned hkey, hsignature⟩ hwrong
  · refine iff_of_true (honoured_of_store_eq ?_) fun h => absurd h hencodable
    simp only [Service.applySignature, hencodable, if_true]

end Signature

/-! ### Suspended handlers -/

def AllHeld (H : Host) (s : Service) : Prop := ∀ w ∈ s.waiting, Held H s w

theorem AllHeld.mono (h : AllHeld H s) (hbroker : s.store.broker.KeepsLinked s'.store.broker)
    (hwaiting : ∀ w ∈ s'.waiting, w ∈ s.waiting) : AllHeld H s' := by
  intro w hw
  obtain ⟨hpresented, hlinked, row, hrow, hcard⟩ := h w (hwaiting w hw)
  obtain ⟨row', hrow', hsame⟩ := hbroker _ row hrow (hcard ▸ hlinked)
  exact ⟨hpresented, hlinked, row', hrow', hsame.trans hcard⟩

section Steps

variable {w : Waiting} {r : DecisionRequest} {identity : Option DaemonIdentity}
  {principal grantId : PyStr} {now : DateTime}

theorem keepsLinked_decideApproval {requestId : PyStr} {approve : Bool} : s.store.broker.KeepsLinked
      (s.decideApproval H requestId principal approve grantId now).2.store.broker := by
  rw [broker_decideApproval]
  exact Broker.keepsLinked_decide

theorem keepsLinked_applyReceipt :
    s.store.broker.KeepsLinked (s.applyReceipt H w identity grantId now).2.store.broker ∧
      (s.applyReceipt H w identity grantId now).2.waiting = s.waiting := by
  unfold Service.applyReceipt
  split
  · exact ⟨.refl, rfl⟩
  · split
    · exact ⟨.refl, rfl⟩
    · exact ⟨keepsLinked_decideApproval (s := s.recordReceipt H w.receipt), waiting_decideApproval⟩

variable (H s) in
theorem verifyOperatordSignature_frame (enrollmentId pem : PyStr) (payload : PyVal)
    (signature : PyStr) :
    (s.verifyOperatordSignature H enrollmentId pem payload signature).2.store.broker =
        s.store.broker ∧
      (s.verifyOperatordSignature H enrollmentId pem payload signature).2.waiting = s.waiting := by
  unfold Service.verifyOperatordSignature
  split <;> exact ⟨rfl, rfl⟩

theorem keepsLinked_applySignature :
    s.store.broker.KeepsLinked (s.applySignature H principal r grantId now).2.store.broker ∧
      (s.applySignature H principal r grantId now).2.waiting = s.waiting := by
  simp only [Service.applySignature]
  have hframe := verifyOperatordSignature_frame H s r.enrollmentId r.operatorPublicKeyPem
    (r.signingPayload r.approve) r.operatorSignature
  split
  · exact ⟨.refl, rfl⟩
  · split
    · next h =>
      rw [h] at hframe
      exact ⟨hframe.1 ▸ .refl, hframe.2⟩
    · next s₁ h =>
      rw [h] at hframe
      refine ⟨?_, waiting_decideApproval.trans hframe.2⟩
      show s.store.broker.KeepsLinked
        (s₁.decideApproval H r.requestId principal r.approve grantId now).2.store.broker
      rw [← hframe.1]
      exact keepsLinked_decideApproval

theorem allHeld_applyDecision (h : AllHeld H s) :
    AllHeld H (s.applyDecision H principal r grantId now).2 := by
  unfold Service.applyDecision
  split
  · exact h
  · next card hshown =>
    split
    · exact h.mono keepsLinked_applySignature.1 fun w hw => keepsLinked_applySignature.2 ▸ hw
    · next hlinked =>
      rw [Bool.not_eq_true] at hlinked
      split
      · exact h
      · next receipt hpresented =>
        split
        · obtain ⟨⟨row, hrow, -, hcard⟩, -⟩ := shownCard_ok hshown
          intro w hw
          rcases List.mem_append.mp hw with hw | hw
          · exact ⟨(h w hw).presented, (h w hw).linked, (h w hw).card⟩
          · rw [List.mem_singleton] at hw
            subst hw
            exact ⟨hpresented, hlinked, row, hrow, hcard⟩
        · exact h.mono keepsLinked_applyReceipt.1 fun w hw => keepsLinked_applyReceipt.2 ▸ hw

theorem allHeld_applyRevoke {params : PyVal} (h : AllHeld H s) :
    AllHeld H (s.applyRevoke H principal params) := by
  have hframe := verifyOperatordSignature_frame H s
  simp only [Service.applyRevoke]
  split
  · exact h
  · split
    · next h' =>
      refine h.mono ?_ ?_
      · have := (congrArg (fun p => p.2.store.broker) h').symm.trans (hframe _ _ _ _).1
        exact this ▸ .refl
      · have := (congrArg (fun p => p.2.waiting) h').symm.trans (hframe _ _ _ _).2
        exact fun w hw => this ▸ hw
    · next s₁ h' =>
      refine h.mono ?_ ?_
      · have := (congrArg (fun p => p.2.store.broker) h').symm.trans (hframe _ _ _ _).1
        intro id row hrow _
        refine ⟨row, ?_, rfl⟩
        show (s₁.store.broker.revoke _ principal).2.requests.get? id = some row
        rw [Broker.revoke_requests]
        exact this ▸ hrow
      · have := (congrArg (fun p => p.2.waiting) h').symm.trans (hframe _ _ _ _).2
        exact fun w hw => this ▸ hw

theorem allHeld_step {l : Label} {reply : Option Reply} (h : AllHeld H s)
    (hstep : respond H s l = some (reply, s')) : AllHeld H s' := by
  unfold respond at hstep
  split at hstep
  case h_1 principal params grantId now =>
    split at hstep
    · cases hstep
    · rw [some_inj] at hstep
      have hheld : AllHeld H (s.applyDecision H principal (.ofParams H params) grantId now).2 :=
        allHeld_applyDecision h
      rwa [hstep] at hheld
  case h_2 i answered grantId now =>
    split at hstep
    · cases hstep
    · obtain ⟨w, -, hstep⟩ := map_eq_some_iff.mp hstep
      cases hstep
      refine h.mono (keepsLinked_applyReceipt (s := s.resumed i answered)).1 ?_
      intro w' hw'
      show w' ∈ s.waiting
      rw [Service.resume] at hw'
      rw [keepsLinked_applyReceipt.2] at hw'
      exact List.mem_of_mem_eraseIdx hw'
  case h_3 principal params =>
    cases hstep
    exact allHeld_applyRevoke h
  case h_4 request =>
    split at hstep
    · cases hstep
    · next hnew =>
      cases hstep
      rw [Bool.not_eq_true, Dict.contains, isSome_eq_false_iff, isNone_iff_eq_none] at hnew
      exact h.mono (Broker.keepsLinked_createRequest hnew) fun w hw => hw
  case h_5 requestId link =>
    split at hstep
    · cases hstep
    · next row hrow =>
      split at hstep
      · next hunlinked =>
        cases hstep
        refine h.mono (Broker.keepsLinked_of_set hrow rfl ?_) fun w hw => hw
        intro hlinked
        rw [hunlinked] at hlinked
        cases hlinked
      · cases hstep
  case h_6 requestId principal grantId now =>
    split at hstep
    · cases hstep
    · cases hstep
      exact h.mono Broker.keepsLinked_decide fun w hw => hw
  case h_7 requestId principal =>
    cases hstep
    exact h.mono Broker.keepsLinked_cancelRequest fun w hw => hw
  case h_8 grantId principal bodyHash mode riskTier actionIntent now =>
    cases hstep
    refine h.mono ?_ fun w hw => hw
    intro id row hrow _
    refine ⟨row, ?_, rfl⟩
    show (s.store.broker.verify H _ _ _ _ _ _ _).2.requests.get? id = some row
    rw [Broker.verify_requests, hrow]
  case h_9 identity =>
    cases hstep
    exact h.mono .refl fun w hw => hw
  case h_10 daemonClient =>
    cases hstep
    refine h.mono .refl ?_
    intro w hw
    cases hw

theorem allHeld_of_reachable (h : (operatorSocket H).Reachable s) : AllHeld H s := by
  refine h.invariant (P := AllHeld H) ?_ ?_
  · rintro s ⟨policyHash, daemonClient, rfl⟩
    intro w hw
    cases hw
  · intro s l s' hs _ hstep
    obtain ⟨⟨reply, s₁⟩, hrespond, rfl⟩ := map_eq_some_iff.mp hstep
    exact allHeld_step hs hrespond

end Steps

/-! ### Every request -/

theorem honoured_congr {s₁ : Service} (h : Honoured H s₁ r now reply s')
    (hstore : s₁.store = s.store) (hdaemon : s₁.daemon = s.daemon) :
    Honoured H s r now reply s' := by
  refine ⟨?_, fun hrejection => (h.2 hrejection).trans hstore⟩
  intro id hmints
  obtain ⟨hid, row, hrow, happrove, hsigned, haccepted⟩ := h.1 id (hstore ▸ hmints)
  refine ⟨hid, row, hstore ▸ hrow, happrove, hsigned, ?_⟩
  intro hlinked
  obtain ⟨receipt, hreceipt⟩ := haccepted hlinked
  refine ⟨receipt, hreceipt.presented, ?_, hreceipt.accept, hreceipt.fields, hreceipt.unexpired,
    hstore ▸ hreceipt.unapplied⟩
  obtain ⟨identity, hidentity, hby⟩ := hreceipt.signed
  exact ⟨identity, hdaemon ▸ hidentity, hby⟩

/-- **In every reachable state** a request that is answered is handled as it should be —
grants only with consent, no trace of a rejection — exactly when it is faultless. -/
theorem decision_honoured (H : Host) {s s' : Service} (hs : (operatorSocket H).Reachable s)
    {l : Label} {r : DecisionRequest} {now : DateTime} (hr : request? H s l = some (r, now))
    {reply : Reply} (hstep : respond H s l = some (some reply, s')) :
    Honoured H s r now reply s' ↔ Faultless H s l := by
  have hnew : ∀ {grantId : PyStr}, ¬ s.store.broker.grants.contains grantId = true →
      s.store.broker.grants.get? grantId = none := by
    intro grantId h
    rwa [Bool.not_eq_true, Dict.contains, Option.isSome_eq_false_iff, Option.isNone_iff_eq_none] at h
  cases l with
  | applyDecision principal params grantId now' =>
    cases hr
    simp only [respond] at hstep
    split at hstep
    · cases hstep
    · next hfresh =>
      rw [Option.some_inj] at hstep
      show _ ↔ RequestFaultless H s principal (.ofParams H params) now
      unfold Service.applyDecision at hstep
      split at hstep
      · next reply' hrefused =>
        cases hstep
        refine iff_of_true (honoured_of_store_eq rfl) ?_
        intro card hshown
        rw [hrefused] at hshown
        cases hshown
      · next card hshown =>
        have honly : ∀ card', s.shownCard H (.ofParams H params) = .ok card' → card' = card := by
          intro card' hcard'
          rw [hshown] at hcard'
          cases hcard'
          rfl
        split at hstep
        · next hunlinked =>
          cases hstep
          rw [honoured_applySignature hshown hunlinked]
          constructor
          · intro h card' hcard'
            obtain rfl := honly card' hcard'
            refine ⟨fun _ => h, ?_⟩
            intro hlinked
            rw [hunlinked] at hlinked
            cases hlinked
          · intro h
            exact (h card hshown).1 hunlinked
        · next hlinked =>
          rw [Bool.not_eq_true] at hlinked
          split at hstep
          · next reply' hrefused =>
            cases hstep
            refine iff_of_true (honoured_of_store_eq rfl) ?_
            intro card' hcard'
            obtain rfl := honly card' hcard'
            refine ⟨?_, ?_⟩
            · intro hunlinked
              rw [hlinked] at hunlinked
              cases hunlinked
            · intro _ receipt hpresented
              rw [hrefused] at hpresented
              cases hpresented
          · next receipt hpresented =>
            split at hstep
            · cases hstep
            · next hnosuspend =>
              cases hstep
              obtain ⟨⟨row, hrow, -, hcard⟩, -⟩ := shownCard_ok hshown
              rw [honoured_applyReceipt _ _ (w := ⟨principal, .ofParams H params, card, receipt⟩)
                ⟨hpresented, hlinked, row, hrow, hcard⟩ (hnew hfresh)]
              constructor
              · intro h card' hcard'
                obtain rfl := honly card' hcard'
                refine ⟨?_, ?_⟩
                · intro hunlinked
                  rw [hlinked] at hunlinked
                  cases hunlinked
                · intro _ receipt' hpresented' _
                  rw [hpresented] at hpresented'
                  cases hpresented'
                  exact h
              · intro h
                exact (h card hshown).2 hlinked receipt hpresented hnosuspend
  | resume i answered grantId now' =>
    obtain ⟨w, hw, hwr⟩ := Option.map_eq_some_iff.mp hr
    cases hwr
    simp only [respond] at hstep
    split at hstep
    · cases hstep
    · next hfresh =>
      rw [hw, Option.map_some, Option.some_inj] at hstep
      cases hstep
      have hheld := allHeld_of_reachable hs w (List.mem_of_getElem? hw)
      have hiff := honoured_applyReceipt (s := s.resumed i answered) (s.asked answered) now
        ⟨hheld.presented, hheld.linked, hheld.card⟩ (hnew hfresh)
      have hsame : Honoured H s w.request now (s.resume H i w answered grantId now).1
          (s.resume H i w answered grantId now).2 ↔
          Honoured H (s.resumed i answered) w.request now (s.resume H i w answered grantId now).1
            (s.resume H i w answered grantId now).2 :=
        ⟨fun h => honoured_congr h rfl rfl, fun h => honoured_congr h rfl rfl⟩
      refine hsame.trans (hiff.trans ?_)
      constructor
      · intro h w' hw'
        rw [hw, Option.some_inj] at hw'
        subst hw'
        exact h
      · intro h
        exact h w hw
  | _ => cases hr

/-- A card for a turn of the arm, without and with a proposal of the daemon. -/
def sampleCard (proposalId : PyStr) : ApprovalRequest :=
  { requestId := "appr_1"
    missionId := "mission_1"
    principal := "user:local:1000"
    bodyId := "arm"
    effectiveBodyHash := "body"
    mode := if proposalId.isEmpty then .simulation else .real
    actionDisplay := { title := "arm.turn", summary := "turn the arm" }
    contextId := "ctx_mission_1"
    contextRevision := 1
    createdAt := "2026-01-01T00:00:00+00:00"
    expiresAt := "2026-01-01T00:10:00+00:00"
    daemonProposalId := proposalId
    daemonCapabilityId := if proposalId.isEmpty then "" else "arm.turn"
    daemonActionIntentHash := if proposalId.isEmpty then "" else "args" }

def signedParams : PyVal :=
  .dict [("request_id", .str "appr_1"), ("display_hash", .str "0000000000000000"),
    ("approve", .bool true), ("nonce", .str "n1"), ("decided_at", .str "t"),
    ("enrollment_id", .str "op_1"), ("operator_public_key_pem", .str "key"),
    ("operator_signature", .str "signed:key")]

def sampleNow : DateTime := (DateTime.parse (some 0) "2026-01-01T00:01:00Z").getD default

/-- A card with a right signature, under a key that has not been seen. -/
theorem decision_honoured_signed : ∃ s s' grantId,
    respond sampleHost s (.applyDecision "user:local:1000" signedParams "grant_1" sampleNow) =
      some (some (.applied true (some grantId) "user:local:1000" "DEV_SIM_ONLY"), s') ∧
    Honoured sampleHost s (.ofParams sampleHost signedParams) sampleNow
      (.applied true (some grantId) "user:local:1000" "DEV_SIM_ONLY") s' := by
  have hrun : ∃ s, (operatorSocket sampleHost).run ⟨⟨⟨"policy", ∅, ∅, []⟩, [], ∅, []⟩, false, none,
      none, []⟩ [.createRequest (sampleCard "")] = some s ∧
      s.shownCard sampleHost (.ofParams sampleHost signedParams) = .ok (sampleCard "") ∧
      ∃ s' grantId,
        respond sampleHost s (.applyDecision "user:local:1000" signedParams "grant_1" sampleNow) =
          some (some (.applied true (some grantId) "user:local:1000" "DEV_SIM_ONLY"), s') ∧
        s.store.broker.Open "appr_1" (utcnow sampleNow) :=
    ⟨_, rfl, rfl, _, _, rfl, _, rfl, rfl, by decide⟩
  obtain ⟨s, hs, hshown, s', grantId, hstep, hopen⟩ := hrun
  refine ⟨s, s', grantId, hstep, (decision_honoured sampleHost
    (.of_run ⟨"policy", false, rfl⟩ hs) rfl hstep).mpr ?_⟩
  intro card hcard
  rw [hshown] at hcard
  cases hcard
  refine ⟨fun _ _ => ⟨fun _ => by decide, fun _ _ => hopen⟩, ?_⟩
  intro hlinked
  exact absurd hlinked (by decide)

def decliningReceipt : PyVal :=
  .dict [("protocol_version", .str PROTOCOL_VERSION_RECEIPT), ("proposal_id", .str "prop_1"),
    ("decision", .str "DECLINE"), ("operator_enrollment_id", .str "op_1"),
    ("operator_principal", .str "user:local:1000"), ("challenge_nonce", .str "n1"),
    ("decided_at", .str "t"), ("expires_at", .str "2026-01-01T00:05:00Z"),
    ("daemon_instance_id", .str "daemon_1"), ("daemon_key_id", .str "key_1"),
    ("agent_request_id", .str "appr_1"), ("mission_id", .str "mission_1"),
    ("execution_mode", .str "REAL"), ("capability_id", .str "arm.turn"),
    ("canonical_args_hash", .str "args"), ("display_hash", .str "0000000000000000"),
    ("signature_b64", .str "signed:daemon")]

def declinedParams : PyVal :=
  .dict [("request_id", .str "appr_1"), ("display_hash", .str "0000000000000000"),
    ("approve", .bool true), ("decision_receipt", decliningReceipt)]

/-- The card, the daemon, and the request that waits for its identity. -/
def declinedRun : List Label :=
  [.createRequest (sampleCard "prop_1"), .daemonStarts ⟨"key_1", "daemon_1", "daemon"⟩,
    .applyDecision "user:local:1000" declinedParams "grant_0" sampleNow]

/-- The operator has declined, and the caller who forwards the receipt asks for a grant. -/
theorem declined_receipt_mints : ∃ s s' reply, (operatorSocket sampleHost).Reachable s ∧
    request? sampleHost s (.resume 0 true "grant_1" sampleNow) =
      some (.ofParams sampleHost declinedParams, sampleNow) ∧
    respond sampleHost s (.resume 0 true "grant_1" sampleNow) = some (some reply, s') ∧
    s.store.broker.Mints s'.store.broker "appr_1" ∧
    ¬ Honoured sampleHost s (.ofParams sampleHost declinedParams) sampleNow reply s' := by
  have hrun : ∃ s, (operatorSocket sampleHost).run ⟨⟨⟨"policy", ∅, ∅, []⟩, [], ∅, []⟩, true, none,
      none, []⟩ declinedRun = some s ∧
      request? sampleHost s (.resume 0 true "grant_1" sampleNow) =
        some (.ofParams sampleHost declinedParams, sampleNow) ∧
      ∃ s' reply, respond sampleHost s (.resume 0 true "grant_1" sampleNow) =
          some (some reply, s') ∧
        (∃ row, s'.store.broker.grants.get? "grant_1" = some row ∧ row.requestId = "appr_1" ∧
          s.store.broker.grants.get? "grant_1" = none) ∧
        (∃ row, s.store.broker.requests.get? "appr_1" = some row ∧
          row.request.daemonProposalId.isEmpty = false) ∧
        ∃ receipt, Service.presentedReceipt sampleHost (.ofParams sampleHost declinedParams) =
          .ok receipt ∧ receipt.decision = "DECLINE" :=
    ⟨_, rfl, rfl, _, _, rfl, ⟨_, rfl, rfl, rfl⟩, ⟨_, rfl, rfl⟩, _, rfl, rfl⟩
  obtain ⟨s, hs, hrequest, s', reply, hstep, ⟨grant, hgrant, hid, hnone⟩, ⟨row, hrow, hlinked⟩,
    receipt, hpresented, hdecision⟩ := hrun
  have hmints : s.store.broker.Mints s'.store.broker "appr_1" := by
    refine ⟨"grant_1", grant, hgrant, hid, ?_⟩
    rw [hnone]
    simp
  refine ⟨s, s', reply, .of_run ⟨"policy", true, rfl⟩ hs, hrequest, hstep, hmints, ?_⟩
  intro h
  obtain ⟨-, row', hrow', -, -, haccepted⟩ := h.1 _ hmints
  rw [hrow, Option.some_inj] at hrow'
  subst hrow'
  obtain ⟨receipt', haccept⟩ := haccepted hlinked
  have hsame := haccept.presented
  rw [hpresented] at hsame
  cases hsame
  have hboth := haccept.accept
  rw [hdecision] at hboth
  exact absurd hboth (by decide)

end Rosclaw.OperatorSocket
