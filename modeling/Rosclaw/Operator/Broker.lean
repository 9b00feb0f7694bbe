/-
The broker of approvals (`contracts/operator/approval.py`, `contracts/operator/grant.py`,
`operator/broker.py`).

A card asks a human for one action; the decision is written to the row of the card, and an
approval mints a grant, which is spent by the first `verify` that accepts it.  Card ids and
grant ids are `uuid4` texts and never repeat.

* `decide_of_open`, `decide_of_not_open`, `decide_mints` — a decision mints a grant exactly when
  it approves a pending card that has not expired;
* `KeepsLinked` — a card with a proposal of the daemon asks the same for ever.
-/
import Rosclaw.Agentd.MissionStore
import Rosclaw.Kernel.Contracts
import Rosclaw.Lib.Text

namespace Rosclaw

def Builtins.int (py : Builtins) : PyVal → Except PyError Int
  | .bool b => .ok (if b then 1 else 0)
  | .int n => .ok n
  | .float (.finite q) => .ok (q.num.tdiv q.den)
  | .float .nan => .error .valueError
  | .float _ => .error .overflowError
  | .str s => match py.intOfText s with
    | some n => .ok n
    | none => .error .valueError
  | _ => .error .typeError

namespace Approvals

abbrev Mode := MissionStore.ExecutionMode

def Mode.value : Mode → PyStr
  | .simulation => "SIMULATION"
  | .shadow => "SHADOW"
  | .real => "REAL"

inductive RiskTier
  | low | medium | high | critical
deriving DecidableEq, Repr

namespace RiskTier

def value : RiskTier → PyStr
  | low => "LOW"
  | medium => "MEDIUM"
  | high => "HIGH"
  | critical => "CRITICAL"

def order : RiskTier → Nat
  | low => 0
  | medium => 1
  | high => 2
  | critical => 3

end RiskTier

structure ActionDisplay where
  title : PyStr
  summary : PyStr
  riskTier : RiskTier := .low
  expectedEffect : PyStr := ""
  failureHandling : PyStr := ""
  parameters : List (PyStr × PyVal) := []

/-- The column `status` of a card. -/
inductive ApprovalStatus
  | pending | approved | denied | expired | cancelled
deriving DecidableEq, Repr

def ApprovalStatus.value : ApprovalStatus → PyStr
  | .pending => "PENDING"
  | .approved => "APPROVED"
  | .denied => "DENIED"
  | .expired => "EXPIRED"
  | .cancelled => "CANCELLED"

inductive GrantTier
  | exactAction | plan | mission
deriving DecidableEq, Repr

inductive JsonText
  | empty
  | corrupt
  | value (v : PyVal)

structure ApprovalRequest where
  requestId : PyStr
  missionId : PyStr
  taskId : Option PyStr := none
  principal : PyStr
  bodyId : PyStr
  effectiveBodyHash : PyStr
  mode : Mode := .simulation
  actionDisplay : ActionDisplay
  contextId : PyStr
  contextRevision : Int
  requestedTier : GrantTier := .exactAction
  createdAt : PyStr
  expiresAt : PyStr
  daemonProposalId : PyStr := ""
  daemonActionId : PyStr := ""
  daemonCapabilityId : PyStr := ""
  daemonActionIntentHash : PyStr := ""
  exactActionJson : JsonText := .empty

/-- What the daemon fills in when it has made a proposal for a card. -/
structure ProposalLink where
  proposalId : PyStr
  actionId : PyStr
  capabilityId : PyStr
  actionIntentHash : PyStr
  expiresAt : PyStr

def ProposalLink.apply (p : ProposalLink) (card : ApprovalRequest) : ApprovalRequest :=
  { card with
    daemonProposalId := p.proposalId
    daemonActionId := p.actionId
    daemonCapabilityId := p.capabilityId
    daemonActionIntentHash := p.actionIntentHash
    expiresAt := if p.expiresAt.isEmpty then card.expiresAt else p.expiresAt }

structure MissionGrant where
  grantId : PyStr
  principal : PyStr
  bodyId : PyStr
  effectiveBodyHash : PyStr
  mode : Mode
  tier : GrantTier
  exactActionIntent : Option PyStr
  riskCeiling : RiskTier
  maxActions : Nat
  policyHash : PyStr
  issuedAt : PyStr
  expiresAt : PyStr
  publicHash : PyStr

/-- The interpreter, with the digests and signatures the code takes from libraries: the
SHA-256 of the JSON text of a display, the canonical hash of a grant without its own
`public_hash`, the HMAC under the secret of the broker, and the check of an Ed25519
signature in base64 over the canonical JSON of a value. -/
structure Host extends Builtins where
  displayDigest : ActionDisplay → PyStr
  canonicalHash : MissionGrant → PyStr
  sign : PyStr → PyStr
  verifyB64 : PyStr → PyVal → PyStr → Bool

/-- A host whose digests are zero and whose signatures name their key. -/
def sampleHost : Host :=
  { Builtins.zero with
    displayDigest := fun _ => "intent"
    canonicalHash := fun _ => "grantpub"
    sign := fun hash => "hmac:" ++ hash
    verifyB64 := fun pem _ signature => signature = "signed:" ++ pem }

/-! ### The display hash -/

/-- The bound fields of a card with an exact action; an absent one is not bound. -/
def exactFields (H : Host) (exact : PyVal) : Except PyError (List (PyStr × PyVal)) := do
  let text (key : String) : List (PyStr × PyVal) :=
    let s := H.str (exact.getD key (.str ""))
    if s.isEmpty then [] else [((key : PyStr), .str s)]
  let revision ← H.int (exact.getD "context_revision" (.int 0))
  return text "capability_id" ++ text "mission_id" ++ text "mode" ++
    [(("context_revision" : PyStr), PyVal.int revision)] ++ text "context_hash" ++ text "expected_effect" ++
    text "action_intent_hash"

/-- The fields of `exact_action_json` that the hash binds; a text that cannot be read is
an error, never a weaker hash. -/
def boundFields (H : Host) : JsonText → Except PyError (List (PyStr × PyVal))
  | .empty => .ok []
  | .corrupt => .error .valueError
  | .value exact =>
      if exact.isDict then (exactFields H exact).mapError fun _ => .valueError
      else .error .valueError

def shownFields (card : ApprovalRequest) : List (PyStr × PyVal) :=
  [("request_id", .str card.requestId), ("title", .str card.actionDisplay.title),
    ("summary", .str card.actionDisplay.summary),
    ("risk_tier", .str card.actionDisplay.riskTier.value),
    ("parameters", .dict card.actionDisplay.parameters),
    ("body_hash", .str card.effectiveBodyHash), ("expires_at", .str card.expiresAt)]

def displayPayload (card : ApprovalRequest) (exact : List (PyStr × PyVal)) : PyVal :=
  .dict (shownFields card ++ if exact.isEmpty then [] else [(("exact" : PyStr), PyVal.dict exact)])

def displayHash (H : Host) (card : ApprovalRequest) : Except PyError PyStr := do
  let exact ← boundFields H card.exactActionJson
  let payload := displayPayload card exact
  if payload.encodable then return (H.sha256Hex payload : PyStr).take 16
  else throw .valueError

/-! ### The tables -/

structure RequestRow where
  request : ApprovalRequest
  status : ApprovalStatus := .pending
  decidedBy : Option PyStr := none

structure GrantRow where
  requestId : PyStr
  grant : MissionGrant
  privateSignature : PyStr
  consumed : Bool := false
  revoked : Bool := false
  expiresAt : PyStr

structure OperatorEvent where
  eventType : PyStr
  actorId : PyStr
  payload : PyVal

/-- The broker: its tables by their primary keys, and the policy it writes into grants. -/
structure Broker where
  policyHash : PyStr
  requests : Dict PyStr RequestRow := ∅
  grants : Dict PyStr GrantRow := ∅
  events : List OperatorEvent := []

inductive BrokerError
  | validationError (text : PyStr)
  | grantDenied (reasonCode detail : PyStr)

namespace Broker

def event (b : Broker) (eventType actorId : PyStr) (payload : PyVal) : Broker :=
  { b with events := b.events ++ [⟨eventType, actorId, payload⟩] }

def createRequest (b : Broker) (request : ApprovalRequest) : Broker :=
  { b with requests := b.requests.set request.requestId { request } }.event
    "rosclaw.operator.approval.requested.v1" request.principal
    (.dict [("request_id", .str request.requestId), ("mission_id", .str request.missionId),
      ("risk_tier", .str request.actionDisplay.riskTier.value)])

/-- `{r.request_id: r for r in pending_requests()}.get(request_id)`. -/
def pending? (b : Broker) (requestId : PyStr) : Option ApprovalRequest :=
  (b.requests.get? requestId).bind fun row =>
    if row.status = .pending then some row.request else none

/-- `get_request`; a cancelled card has a status that the contract does not know, and
raises. -/
def getRequest (b : Broker) (requestId : PyStr) : Except PyError (Option RequestRow) :=
  match b.requests.get? requestId with
  | none => .ok none
  | some row => if row.status = .cancelled then .error .valueError else .ok (some row)

def grantOf (b : Broker) (requestId : PyStr) : Option (PyStr × GrantRow) :=
  b.grants.entries.find? fun e => e.2.requestId = requestId

/-- `UPDATE operator_requests SET status = ?, decided_by = ?`. -/
def setStatus (b : Broker) (requestId : PyStr) (row : RequestRow) (status : ApprovalStatus)
    (decidedBy : Option PyStr) : Broker :=
  { b with requests := b.requests.set requestId { row with status, decidedBy } }

/-- The public object that `_mint_grant` builds. -/
def newGrant (H : Host) (b : Broker) (request : ApprovalRequest) (principal grantId now : PyStr) :
    MissionGrant :=
  let exact := request.requestedTier = .exactAction
  let grant : MissionGrant :=
    { grantId, principal
      bodyId := request.bodyId
      effectiveBodyHash := request.effectiveBodyHash
      mode := request.mode
      tier := request.requestedTier
      exactActionIntent := if exact then some (H.displayDigest request.actionDisplay) else none
      riskCeiling := request.actionDisplay.riskTier
      maxActions := if exact then 1 else 10
      policyHash := b.policyHash
      issuedAt := now
      expiresAt := request.expiresAt
      publicHash := "" }
  { grant with publicHash := H.canonicalHash grant }

def setGrant (b : Broker) (grantId : PyStr) (row : GrantRow) : Broker :=
  { b with grants := b.grants.set grantId row }

/-- `INSERT INTO mission_grants`. -/
def insertGrant (H : Host) (b : Broker) (requestId : PyStr) (grant : MissionGrant) : Broker :=
  b.setGrant grant.grantId
    { requestId, grant, privateSignature := H.sign grant.publicHash, expiresAt := grant.expiresAt }

/-- `UPDATE operator_requests SET request_json = ?`. -/
def linkRequest (b : Broker) (requestId : PyStr) (row : RequestRow) (request : ApprovalRequest) :
    Broker :=
  { b with requests := b.requests.set requestId { row with request } }

def unknownRequest (requestId : PyStr) : BrokerError :=
  .validationError ("unknown approval request " ++ requestId.quoted)

def alreadyDecided (requestId : PyStr) (status : ApprovalStatus) : BrokerError :=
  .validationError ("request " ++ requestId.quoted ++ " already " ++ status.value)

def decisionEvent (approve : Bool) : PyStr :=
  if approve then "rosclaw.operator.approval.approved.v1"
  else "rosclaw.operator.approval.denied.v1"

def recordDecision (b : Broker) (requestId : PyStr) (row : RequestRow) (principal : PyStr)
    (approve : Bool) (decidedBy : Option PyStr) : Broker :=
  (b.setStatus requestId row (if approve then .approved else .denied)
    (some (decidedBy.getD principal))).event (decisionEvent approve) principal
    (.dict [("request_id", .str requestId), ("approved", .bool approve)])

/-- `decide`: an approval mints a grant, a denial is terminal; a card that has expired is
marked so before the refusal. -/
def decide (H : Host) (b : Broker) (requestId principal : PyStr) (approve : Bool)
    (decidedBy : Option PyStr) (grantId now : PyStr) :
    Except BrokerError (Option MissionGrant) × Broker :=
  match b.requests.get? requestId with
  | none => (.error (unknownRequest requestId), b)
  | some row =>
      if row.status ≠ .pending then (.error (alreadyDecided requestId row.status), b)
      else if row.request.expiresAt.lt now then
        (.error (.grantDenied "request_expired" "approval request expired"),
          b.setStatus requestId row .expired row.decidedBy)
      else if approve then
        (.ok (some (b.newGrant H row.request principal grantId now)),
          (b.recordDecision requestId row principal approve decidedBy).insertGrant H requestId
            (b.newGrant H row.request principal grantId now))
      else (.ok none, b.recordDecision requestId row principal approve decidedBy)

/-- `cancel_request`: only a pending card can be cancelled, and that is terminal. -/
def cancelRequest (b : Broker) (requestId principal : PyStr) : Except BrokerError Unit × Broker :=
  match b.requests.get? requestId with
  | none => (.error (unknownRequest requestId), b)
  | some row =>
      if row.status ≠ .pending then (.error (alreadyDecided requestId row.status), b)
      else (.ok (), (b.setStatus requestId row .cancelled (some ("cancel:" ++ principal))).event
        "rosclaw.operator.approval.cancelled.v1" principal
        (.dict [("request_id", .str requestId)]))

def revoke (b : Broker) (grantId principal : PyStr) : Except BrokerError Unit × Broker :=
  match b.grants.get? grantId with
  | none => (.error (.validationError ("unknown grant " ++ grantId.quoted)), b)
  | some row =>
      (.ok (), (b.setGrant grantId { row with revoked := true }).event
        "rosclaw.operator.grant.revoked.v1" principal (.dict [("grant_id", .str grantId)]))

/-- `action_intent_for_grant`: the intent of the card, recomputed. -/
def actionIntentForGrant (H : Host) (b : Broker) (grantId : PyStr) : Option PyStr :=
  (b.grants.get? grantId).bind fun row =>
    (b.requests.get? row.requestId).map fun card => H.displayDigest card.request.actionDisplay

/-- What `verify` refuses, in its order. -/
def refusal (H : Host) (row : GrantRow) (grantId principal bodyHash : PyStr) (mode : Mode)
    (riskTier : RiskTier) (actionIntent : Option PyStr) (now : PyStr) : Option (PyStr × PyStr) :=
  let grant := row.grant
  if row.privateSignature ≠ H.sign grant.publicHash then
    some ("forged_grant", "signature mismatch")
  else if row.revoked then some ("grant_revoked", grantId)
  else if row.expiresAt.lt now then some ("grant_expired", row.expiresAt)
  else if grant.principal ≠ principal then
    some ("principal_mismatch", grant.principal ++ " != " ++ principal)
  else if grant.effectiveBodyHash ≠ bodyHash then
    some ("body_hash_changed", "grant bound to " ++ grant.effectiveBodyHash.take 18 ++
      "…, current " ++ bodyHash.take 18 ++ "…")
  else if grant.mode ≠ mode then
    some ("mode_mismatch", "grant mode " ++ Mode.value grant.mode ++ " != " ++ Mode.value mode)
  else if grant.riskCeiling.order < riskTier.order then
    some ("risk_above_ceiling", riskTier.value ++ " > " ++ grant.riskCeiling.value)
  else if grant.tier = .exactAction then
    if row.consumed then some ("grant_consumed", "EXACT_ACTION grants are single-use")
    else match grant.exactActionIntent with
      | none => none
      | some bound => match actionIntent with
        | none => some ("missing_action_intent",
            "EXACT_ACTION verify requires the declared action intent")
        | some intent =>
            if intent ≠ bound then
              some ("action_intent_mismatch", "action differs from the approved card")
            else none
  else none

/-- `verify`: the grant, spent if it is for an exact action, or the refusal. -/
def verify (H : Host) (b : Broker) (grantId principal bodyHash : PyStr) (mode : Mode)
    (riskTier : RiskTier) (actionIntent : Option PyStr) (now : PyStr) :
    Except BrokerError MissionGrant × Broker :=
  match b.grants.get? grantId with
  | none => (.error (.grantDenied "unknown_grant" grantId), b)
  | some row =>
      match refusal H row grantId principal bodyHash mode riskTier actionIntent now with
      | some (reason, detail) => (.error (.grantDenied reason detail), b)
      | none =>
          if row.grant.tier = .exactAction then
            (.ok row.grant, b.setGrant grantId { row with consumed := true })
          else (.ok row.grant, b)

/-! ### What the operations can do -/

section Spec

variable {H : Host} {b : Broker} {requestId principal grantId now : PyStr} {approve : Bool}
  {decidedBy : Option PyStr}

def Open (b : Broker) (requestId now : PyStr) : Prop :=
  ∃ row, b.requests.get? requestId = some row ∧ row.status = .pending ∧
    row.request.expiresAt.lt now = false

def Mints (b b' : Broker) (requestId : PyStr) : Prop :=
  ∃ g row, b'.grants.get? g = some row ∧ row.requestId = requestId ∧ b.grants.get? g ≠ some row

@[simp] theorem event_requests (eventType actorId : PyStr) (payload : PyVal) :
    (b.event eventType actorId payload).requests = b.requests := rfl

variable (H principal approve decidedBy grantId) in
theorem decide_of_open (h : b.Open requestId now) : ∃ row, b.requests.get? requestId = some row ∧
      b.decide H requestId principal approve decidedBy grantId now = if approve = true then
          (.ok (some (b.newGrant H row.request principal grantId now)),
            (b.recordDecision requestId row principal approve decidedBy).insertGrant H requestId
              (b.newGrant H row.request principal grantId now))
        else (.ok none, b.recordDecision requestId row principal approve decidedBy) := by
  obtain ⟨row, hrow, hpending, hexpires⟩ := h
  refine ⟨row, hrow, ?_⟩
  simp only [decide, hrow, hpending, hexpires, ne_eq, not_true_eq_false, if_false,
    Bool.false_eq_true]

variable (H principal approve decidedBy grantId) in
theorem decide_of_not_open (h : ¬ b.Open requestId now) :
    ∃ e, (b.decide H requestId principal approve decidedBy grantId now).1 = .error e ∧
      (b.decide H requestId principal approve decidedBy grantId now).2.grants = b.grants := by
  unfold decide
  split
  · exact ⟨_, rfl, rfl⟩
  · next row hrow =>
    split
    · exact ⟨_, rfl, rfl⟩
    · next hpending =>
      rw [ne_eq, not_not] at hpending
      split
      · exact ⟨_, rfl, rfl⟩
      · next hexpires =>
        exact absurd ⟨row, hrow, hpending, by simpa using hexpires⟩ h

theorem decide_of_expired {row : RequestRow} (hrow : b.requests.get? requestId = some row)
    (hpending : row.status = .pending) (hexpires : row.request.expiresAt.lt now = true) :
    b.decide H requestId principal approve decidedBy grantId now =
      (.error (.grantDenied "request_expired" "approval request expired"),
        b.setStatus requestId row .expired row.decidedBy) := by
  simp only [decide, hrow, hpending, hexpires, ne_eq, not_true_eq_false, if_false, if_true]

/-- A decision mints a grant for its own card only, and only by an approval of an open
one. -/
theorem decide_mints {id : PyStr}
    (h : b.Mints (b.decide H requestId principal approve decidedBy grantId now).2 id) :
    id = requestId ∧ approve = true ∧ b.Open requestId now := by
  obtain ⟨g, row, hrow, rfl, hnew⟩ := h
  by_cases hopen : b.Open requestId now
  · obtain ⟨card, hcard, hdecide⟩ := decide_of_open H principal grantId approve decidedBy hopen
    rw [hdecide] at hrow
    cases approve with
    | false => exact absurd hrow hnew
    | true =>
      refine ⟨?_, rfl, hopen⟩
      simp only [if_true, insertGrant, setGrant, Dict.get?_set] at hrow
      split at hrow
      · rw [← Option.some_inj.mp hrow]
      · exact absurd hrow hnew
  · obtain ⟨e, -, hgrants⟩ := decide_of_not_open H principal grantId approve decidedBy hopen
    rw [hgrants] at hrow
    exact absurd hrow hnew

variable (H principal decidedBy grantId) in
theorem mints_decide (h : b.Open requestId now) (hfresh : b.grants.get? grantId = none) :
    b.Mints (b.decide H requestId principal true decidedBy grantId now).2 requestId := by
  obtain ⟨card, hcard, hdecide⟩ := decide_of_open H principal grantId true decidedBy h
  rw [hdecide]
  refine ⟨grantId, _, Dict.get?_set_self _ _ _, rfl, ?_⟩
  rw [hfresh]
  simp

/-- What is asked on a card with a proposal of the daemon never changes. -/
def KeepsLinked (b b' : Broker) : Prop :=
  ∀ id row, b.requests.get? id = some row → row.request.daemonProposalId.isEmpty = false →
    ∃ row', b'.requests.get? id = some row' ∧ row'.request = row.request

theorem KeepsLinked.refl : b.KeepsLinked b := fun _ row hrow _ => ⟨row, hrow, rfl⟩

theorem keepsLinked_of_set {b' : Broker} {row row' : RequestRow}
    (hrow : b.requests.get? requestId = some row)
    (hb' : b'.requests = b.requests.set requestId row')
    (h : row.request.daemonProposalId.isEmpty = false → row'.request = row.request) :
    b.KeepsLinked b' := by
  intro id card hcard hlinked
  rw [hb', Dict.get?_set]
  split
  · next hid =>
    subst hid
    rw [hrow, Option.some_inj] at hcard
    subst hcard
    exact ⟨row', rfl, h hlinked⟩
  · exact ⟨card, hcard, rfl⟩

theorem keepsLinked_decide :
    b.KeepsLinked (b.decide H requestId principal approve decidedBy grantId now).2 := by
  unfold decide
  split
  · exact .refl
  · next row hrow =>
    split
    · exact .refl
    · split
      · exact keepsLinked_of_set hrow rfl fun _ => rfl
      · split
        · exact keepsLinked_of_set hrow rfl fun _ => rfl
        · exact keepsLinked_of_set hrow rfl fun _ => rfl

theorem keepsLinked_cancelRequest : b.KeepsLinked (b.cancelRequest requestId principal).2 := by
  unfold cancelRequest
  split
  · exact .refl
  · next row hrow =>
    split
    · exact .refl
    · exact keepsLinked_of_set hrow rfl fun _ => rfl

theorem keepsLinked_createRequest {request : ApprovalRequest}
    (hnew : b.requests.get? request.requestId = none) :
    b.KeepsLinked (b.createRequest request) := by
  intro id card hcard _
  refine ⟨card, ?_, rfl⟩
  rw [createRequest, event_requests, Dict.get?_set_of_ne, hcard]
  rintro rfl
  rw [hnew] at hcard
  cases hcard

theorem revoke_requests : (b.revoke grantId principal).2.requests = b.requests := by
  unfold revoke
  split <;> rfl

theorem verify_requests {bodyHash : PyStr} {mode : Mode} {riskTier : RiskTier}
    {actionIntent : Option PyStr} :
    (b.verify H grantId principal bodyHash mode riskTier actionIntent now).2.requests
      = b.requests := by
  unfold verify
  split
  · rfl
  · split
    · rfl
    · split <;> rfl

end Spec

end Broker

end Approvals

end Rosclaw
