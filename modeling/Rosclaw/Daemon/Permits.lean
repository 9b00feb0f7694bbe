/-
Daemon-owned, body-bound permits for REAL actions (`daemon/permits.py`).

* `PermitAuthority.restore` — the tables rebuilt from the ledger, and
  `PermitAuthority.open` — the constructor, which revokes all that it restored;
* `PermitAuthority.authorize_cases` — everything an authorization can do.
-/
import Rosclaw.Daemon.Ledger
import Rosclaw.Lib.Dict

namespace Rosclaw

def PERMIT_SCHEMA_VERSION : String := "rosclaw.daemon.execution_permit.v1"

/-! ### Permits -/

structure PermitFields where
  permitId : PyStr
  principalId : PyStr
  peerUid : Nat
  bodyId : PyStr
  bodySnapshotHash : PyStr
  capabilities : List PyStr
  actionIntentHash : PyStr
  expiresAt : DateTime
  maxUses : Nat := 1
  sessionId : Option PyStr := none
  authorizationProvenance : Option PyVal.Dictionary := none

def isSha256Digest (s : PyStr) : Bool :=
  s.length = 64 && s.codes.all fun c => (48 ≤ c && c ≤ 57) || (97 ≤ c && c ≤ 102)

namespace PermitFields

/-- What `ExecutionPermit.__post_init__` checks. -/
def Valid (p : PermitFields) : Prop :=
  ([p.permitId, p.principalId, p.bodyId, p.bodySnapshotHash, p.actionIntentHash].all
      fun s => !s.isBlank) = true ∧
    p.capabilities ≠ [] ∧ (p.capabilities.all fun s => !s.isBlank) = true ∧
    ("*" : PyStr) ∉ p.capabilities ∧
    isSha256Digest (p.actionIntentHash.removePrefix "sha256:") = true ∧ 1 ≤ p.maxUses ∧
    ∀ s ∈ p.sessionId, s.isBlank = false

instance (p : PermitFields) : Decidable p.Valid := by unfold Valid; infer_instance

end PermitFields

/-- A server-issued, bounded authorization for physical execution. -/
structure ExecutionPermit extends PermitFields where
  valid : toPermitFields.Valid

def optionalText : Option PyStr → PyVal
  | none => .none
  | some s => .str s

namespace ExecutionPermit

/-- A single-use permit for the action of `ActionEnvelope.sample`, for the peer of
uid 7. -/
def sample (expiresAt : DateTime) : ExecutionPermit where
  permitId := "p"
  principalId := "op"
  peerUid := 7
  bodyId := "b"
  bodySnapshotHash := "h"
  capabilities := ["c"]
  actionIntentHash := "sha256:0000000000000000000000000000000000000000000000000000000000000000"
  expiresAt := expiresAt
  sessionId := some "s"
  valid := by
    refine ⟨?_, nofun, ?_, ?_, ?_, le_refl 1, ?_⟩
    · dsimp only
      decide
    · dsimp only
      decide
    · dsimp only
      decide
    · dsimp only
      decide
    · rintro s ⟨⟩
      decide

def make (p : PermitFields) : Except PyError ExecutionPermit :=
  if h : p.Valid then .ok ⟨p, h⟩ else .error .valueError

def provenanceEntry : Option PyVal.Dictionary → List (PyStr × PyVal)
  | none => []
  | some d => if d.1.truthy then [("authorization_provenance", d)] else []

def entries (p : ExecutionPermit) : List (PyStr × PyVal) :=
  [("schema_version", .str PERMIT_SCHEMA_VERSION), ("permit_id", .str p.permitId),
    ("principal_id", .str p.principalId), ("peer_uid", .int p.peerUid),
    ("body_id", .str p.bodyId), ("body_snapshot_hash", .str p.bodySnapshotHash),
    ("capabilities", .list (p.capabilities.map .str)),
    ("action_intent_hash", .str p.actionIntentHash),
    ("expires_at", .str p.expiresAt.isoformat), ("max_uses", .int p.maxUses),
    ("session_id", optionalText p.sessionId)]

def toDict (p : ExecutionPermit) : PyVal :=
  .dict (p.entries ++ provenanceEntry p.authorizationProvenance)

def strictString : PyVal → Except PyError PyStr
  | .str s => if s.isBlank then .error .valueError else .ok s
  | _ => .error .valueError

/-- `_strict_int`, of a field that has to be non-negative. -/
def strictNat : PyVal → Except PyError Nat
  | .int n => if 0 ≤ n then .ok n.toNat else .error .valueError
  | _ => .error .valueError

def capabilitiesOf : PyVal → Except PyError (List PyStr)
  | .list xs => xs.mapM fun x => match x with
    | .str s => .ok s
    | _ => .error .valueError
  | _ => .error .valueError

def expiresAtOf : PyVal → Except PyError DateTime
  | .str s => match DateTime.parseUtc none s with
    | some t => .ok t
    | none => .error .valueError
  | _ => .error .valueError

def provenanceOf (v : PyVal) : Option PyVal.Dictionary :=
  if h : v.isDict = true then some ⟨v, h⟩ else none

@[simp] theorem provenanceOf_none : provenanceOf .none = none := rfl

@[simp] theorem provenanceOf_dictionary (d : PyVal.Dictionary) : provenanceOf d = some d :=
  dif_pos d.2

def fromDict (v : PyVal) : Except PyError ExecutionPermit := do
  if !(v.get "schema_version").pyEq (.str PERMIT_SCHEMA_VERSION) then throw .valueError
  let capabilities ← capabilitiesOf (v.get "capabilities")
  let expiresAt ← expiresAtOf (v.get "expires_at")
  let permitId ← strictString (v.get "permit_id")
  let principalId ← strictString (v.get "principal_id")
  let peerUid ← strictNat (v.get "peer_uid")
  let bodyId ← strictString (v.get "body_id")
  let bodySnapshotHash ← strictString (v.get "body_snapshot_hash")
  let actionIntentHash ← strictString (v.get "action_intent_hash")
  let maxUses ← strictNat (v.get "max_uses")
  let sessionId ← match v.get "session_id" with
    | .none => .ok none
    | w => (strictString w).map some
  make {
    permitId := permitId
    principalId := principalId
    peerUid := peerUid
    bodyId := bodyId
    bodySnapshotHash := bodySnapshotHash
    capabilities := capabilities
    actionIntentHash := actionIntentHash
    expiresAt := expiresAt
    maxUses := maxUses
    sessionId := sessionId
    authorizationProvenance := provenanceOf (v.get "authorization_provenance") }

/-- The generated `==` of the dataclass; aware datetimes compare as instants. -/
def eq (p q : ExecutionPermit) : Bool :=
  p.permitId = q.permitId && p.principalId = q.principalId && p.peerUid = q.peerUid &&
    p.bodyId = q.bodyId && p.bodySnapshotHash = q.bodySnapshotHash &&
    p.capabilities = q.capabilities && p.actionIntentHash = q.actionIntentHash &&
    p.expiresAt.instant = q.expiresAt.instant && p.maxUses = q.maxUses &&
    p.sessionId = q.sessionId &&
    (match p.authorizationProvenance, q.authorizationProvenance with
      | none, none => true
      | some d, some d' => d.1.pyEq d'
      | _, _ => false)

end ExecutionPermit

/-! ### The intent of an action -/

/-- The physical intent and constraints of an action, without the caller's
approval claims. -/
def actionIntent (a : ActionEnvelope) : PyVal :=
  .dict [("body_id", .str a.bodyId), ("body_snapshot_hash", .str a.bodySnapshotHash),
    ("capability_id", .str a.capabilityId), ("arguments", a.arguments),
    ("execution_mode", .str a.executionMode.value), ("risk_class", .str a.riskClass),
    ("deadline_at", .str a.deadlineAt.isoformat), ("expected_effect", a.expectedEffect),
    ("verification_policy", a.verificationPolicy.toDict), ("lease_ttl_ms", .int a.leaseTtlMs),
    ("renew_interval_ms", .int a.renewIntervalMs), ("orphan_policy", .str a.orphanPolicy.value),
    ("stop_capability", .str a.stopCapability)]

/-- `action_intent_hash`; `none` when the intent has no canonical UTF-8 text and
the call raises. -/
def actionIntentHash (py : Builtins) (a : ActionEnvelope) : Option PyStr :=
  let intent := actionIntent a
  if intent.canon.isSome && intent.encodable && intent.depth ≤ py.recursionLimit then
    some ("sha256:" ++ py.sha256Hex intent)
  else none

/-! ### The authority -/

structure PermitDecision where
  allowed : Bool
  code : String
  message : PyStr
  authorization : AuthorizationContext

structure PermitAuthority where
  permits : Dict PyStr ExecutionPermit := ∅
  uses : Dict PyStr Nat := ∅
  consumedActions : Dict PyStr PyStr := ∅
  revoked : Dict PyStr PyStr := ∅

namespace PermitAuthority

def usesOf (A : PermitAuthority) (permitId : PyStr) : Nat := (A.uses.get? permitId).getD 0

def permitEvent (eventType : String) (permitId : PyStr) (payload : List (PyStr × PyVal)) :
    LedgerEvent :=
  ⟨eventType, "PERMIT", permitId, .dict payload⟩

def registeredEvent (p : ExecutionPermit) (auditContext : Option PyVal.Dictionary) :
    LedgerEvent :=
  permitEvent "PERMIT_REGISTERED" p.permitId (("permit", p.toDict) ::
    match auditContext with
    | some d => [("audit_context", d)]
    | none => [])

def consumedEvent (permitId actionId : PyStr) (peer : PeerCredentials) (intentHash : PyStr) :
    LedgerEvent :=
  permitEvent "PERMIT_CONSUMED" permitId [("permit_id", .str permitId),
    ("action_id", .str actionId), ("peer_uid", .int peer.uid),
    ("action_intent_hash", .str intentHash)]

def revokedEvent (permitId reason : PyStr) : LedgerEvent :=
  permitEvent "PERMIT_REVOKED" permitId [("permit_id", .str permitId), ("reason", .str reason)]

/-- `register`; the exception it raises, if any. -/
def register (py : Builtins) (L : Ledger) (A : PermitAuthority) (p : ExecutionPermit)
    (auditContext : Option PyVal.Dictionary) :
    Ledger × PermitAuthority × Option LedgerFault :=
  match A.permits.get? p.permitId with
  | some existing => (L, A, if existing.eq p then none else some .otherError)
  | none =>
    match L.append py (registeredEvent p auditContext) with
    | (L, some fault) => (L, A, some fault)
    | (L, none) =>
      (L, { A with
        permits := A.permits.set p.permitId p
        uses := A.uses.set p.permitId 0 }, none)

def deniedContext (caller : AuthorizationContext) : AuthorizationContext where
  principalId := caller.principalId
  approved := false
  approvalId := caller.approvalId

def deny (a : ActionEnvelope) (code : String) (message : PyStr) : PermitDecision :=
  ⟨false, code, message, deniedContext a.authorization⟩

def allow (p : ExecutionPermit) : PermitDecision where
  allowed := true
  code := "AUTHORIZED"
  message := "Daemon-issued permit matched the peer, body, snapshot, capability, and action intent."
  authorization := {
    principalId := p.principalId
    approved := true
    approvalId := .str p.permitId
    scopes := p.capabilities
    provenance := p.authorizationProvenance.getD (.ofEntries []) }

/-- `str(caller.approval_id or "")`. -/
def approvalIdOf (py : Builtins) (a : ActionEnvelope) : PyStr :=
  if a.authorization.approvalId.truthy then py.str a.authorization.approvalId else ""

/-- The checks of `authorize` that need no table but the permits and the revoked
ones: the first that fails, if any. -/
def refusal (now : DateTime) (A : PermitAuthority) (a : ActionEnvelope) (peer : PeerCredentials)
    (permitId : PyStr) (p : ExecutionPermit) : Option PermitDecision :=
  if p.expiresAt.instant ≤ now.instant then
    some (deny a "PERMIT_EXPIRED" ("Permit " ++ permitId.quoted ++ " has expired."))
  else if let some reason := A.revoked.get? permitId then
    some (deny a "PERMIT_REVOKED" ("Permit " ++ permitId.quoted ++ " was revoked: " ++ reason))
  else if peer.uid ≠ p.peerUid then
    some (deny a "PERMIT_PEER_MISMATCH" "Permit is bound to a different Unix peer UID.")
  else if a.authorization.principalId ≠ p.principalId then
    some (deny a "PERMIT_PRINCIPAL_MISMATCH"
      "Permit principal does not match the action authorization context.")
  else if p.sessionId.isSome ∧ p.sessionId ≠ some a.sessionId then
    some (deny a "PERMIT_SESSION_MISMATCH" "Permit is bound to a different Agent Session.")
  else if a.bodyId ≠ p.bodyId then
    some (deny a "PERMIT_BODY_MISMATCH" "Permit is bound to a different body.")
  else if a.bodySnapshotHash ≠ p.bodySnapshotHash then
    some (deny a "PERMIT_SNAPSHOT_MISMATCH" "Permit is bound to a different immutable body snapshot.")
  else if a.capabilityId ∉ p.capabilities then
    some (deny a "PERMIT_SCOPE_MISMATCH" "Permit does not authorize the requested capability.")
  else none

/-- Consume a use of the permit for the action, once per action id. -/
def consume (py : Builtins) (L : Ledger) (A : PermitAuthority) (a : ActionEnvelope)
    (peer : PeerCredentials) (permitId : PyStr) (p : ExecutionPermit) (intentHash : PyStr) :
    Ledger × PermitAuthority × Except LedgerFault PermitDecision :=
  match A.consumedActions.get? a.actionId with
  | some consumed =>
    if consumed = permitId then (L, A, .ok (allow p))
    else (L, A, .ok (deny a "PERMIT_ACTION_ID_CONFLICT"
      "Action id was already consumed under a different daemon permit."))
  | none =>
    if p.maxUses ≤ A.usesOf permitId then
      (L, A, .ok (deny a "PERMIT_EXHAUSTED"
        ("Permit " ++ permitId.quoted ++ " has no remaining uses.")))
    else
      match L.append py (consumedEvent permitId a.actionId peer intentHash) with
      | (L, some fault) => (L, A, .error fault)
      | (L, none) =>
        (L, { A with
          uses := A.uses.set permitId (A.usesOf permitId + 1)
          consumedActions := A.consumedActions.set a.actionId permitId }, .ok (allow p))

/-- `authorize`, at the wall-clock time `now`. -/
def authorize (py : Builtins) (now : DateTime) (L : Ledger) (A : PermitAuthority)
    (a : ActionEnvelope) (peer : PeerCredentials) :
    Ledger × PermitAuthority × Except LedgerFault PermitDecision :=
  let permitId := approvalIdOf py a
  if permitId.codes = [] then
    (L, A, .ok (deny a "AUTHORIZATION_REQUIRED"
      "REAL execution requires a daemon-issued permit."))
  else match A.permits.get? permitId with
  | none => (L, A, .ok (deny a "AUTHORIZATION_REQUIRED"
      ("Permit " ++ permitId.quoted ++ " is not registered by rosclawd.")))
  | some p =>
    match refusal now A a peer permitId p with
    | some d => (L, A, .ok d)
    | none =>
      match actionIntentHash py a with
      | none => (L, A, .error .otherError)
      | some intentHash =>
        if intentHash ≠ p.actionIntentHash then
          (L, A, .ok (deny a "PERMIT_INTENT_MISMATCH"
            "Permit is bound to different action arguments or execution constraints."))
        else consume py L A a peer permitId p intentHash

/-- `_revoke_locked`: the table first, then the ledger. -/
def revokeLocked (py : Builtins) (L : Ledger) (A : PermitAuthority) (reason permitId : PyStr) :
    Ledger × PermitAuthority × Option LedgerFault :=
  let r := L.append py (revokedEvent permitId reason)
  (r.1, { A with revoked := A.revoked.set permitId reason }, r.2)

def revokeEach (py : Builtins) (reason : PyStr) (L : Ledger) (A : PermitAuthority) :
    List PyStr → Ledger × PermitAuthority × Option LedgerFault
  | [] => (L, A, none)
  | permitId :: targets =>
    match revokeLocked py L A reason permitId with
    | (L, A, some fault) => (L, A, some fault)
    | (L, A, none) => revokeEach py reason L A targets

def sessionTargets (A : PermitAuthority) (sessionId : PyStr) : List PyStr :=
  (A.permits.entries.filter fun e =>
    e.2.sessionId = some sessionId && !A.revoked.contains e.1 && A.usesOf e.1 < e.2.maxUses).map
    Prod.fst

def revokeSession (py : Builtins) (L : Ledger) (A : PermitAuthority) (sessionId reason : PyStr) :
    Ledger × PermitAuthority × Option LedgerFault :=
  revokeEach py reason L A (A.sessionTargets sessionId)

def allTargets (A : PermitAuthority) : List PyStr :=
  A.permits.keys.filter fun permitId => !A.revoked.contains permitId

def revokeAll (py : Builtins) (L : Ledger) (A : PermitAuthority) (reason : PyStr) :
    Ledger × PermitAuthority × Option LedgerFault :=
  revokeEach py reason L A A.allTargets

/-! ### Restart -/

/-- One event of `_restore_from_ledger`; `none` is a `LedgerIntegrityError`. -/
def restoreEvent (A : PermitAuthority) (e : LedgerEvent) : Option PermitAuthority :=
  if e.eventType = "PERMIT_REGISTERED" then
    match e.payload.get "permit" with
    | .dict raw =>
      match ExecutionPermit.fromDict (.dict raw) with
      | .error _ => none
      | .ok p =>
        if p.permitId ≠ e.entityId then none
        else if A.permits.contains p.permitId then none
        else some { A with
          permits := A.permits.set p.permitId p
          uses := match A.uses.get? p.permitId with
            | some _ => A.uses
            | none => A.uses.set p.permitId 0 }
    | _ => none
  else if e.eventType = "PERMIT_CONSUMED" then
    match ExecutionPermit.strictString (e.payload.get "permit_id"),
      ExecutionPermit.strictString (e.payload.get "action_id"), e.payload.get "peer_uid",
      ExecutionPermit.strictString (e.payload.get "action_intent_hash") with
    | .ok permitId, .ok actionId, .int peerUid, .ok intentHash =>
      if permitId ≠ e.entityId then none
      else match A.permits.get? permitId with
      | none => none
      | some p =>
        if A.consumedActions.contains actionId then none
        else if peerUid ≠ p.peerUid ∨ intentHash ≠ p.actionIntentHash then none
        else if p.maxUses < A.usesOf permitId + 1 then none
        else some { A with
          consumedActions := A.consumedActions.set actionId permitId
          uses := A.uses.set permitId (A.usesOf permitId + 1) }
    | _, _, _, _ => none
  else if e.eventType = "PERMIT_REVOKED" then
    match ExecutionPermit.strictString (e.payload.get "permit_id"),
      ExecutionPermit.strictString (e.payload.get "reason") with
    | .ok permitId, .ok reason =>
      if permitId ≠ e.entityId ∨ !A.permits.contains permitId ∨ A.revoked.contains permitId then
        none
      else some { A with revoked := A.revoked.set permitId reason }
    | _, _ => none
  else none

def restoreEvents (A : PermitAuthority) (es : List LedgerEvent) : Option PermitAuthority :=
  es.foldlM restoreEvent A

/-- The constructor: restore the tables, then start a new trust generation.  It
gives no authority when it raises. -/
def «open» (py : Builtins) (L : Ledger) : Ledger × Option PermitAuthority :=
  match L.read "PERMIT" none with
  | (L, .error _) => (L, none)
  | (L, .ok es) =>
    match restoreEvents {} es with
    | none => (L, none)
    | some A =>
      match revokeAll py L A "daemon_restart_generation_changed" with
      | (L, _, some _) => (L, none)
      | (L, A, none) => (L, some A)

/-! ### What an authorization can do -/

/-- The permit agrees with the action and its peer, and can still be used. -/
structure Matches (py : Builtins) (now : DateTime) (A : PermitAuthority) (a : ActionEnvelope)
    (peer : PeerCredentials) (p : ExecutionPermit) : Prop where
  registered : A.permits.get? (approvalIdOf py a) = some p
  unexpired : now.instant < p.expiresAt.instant
  unrevoked : A.revoked.get? (approvalIdOf py a) = none
  peerUid : peer.uid = p.peerUid
  principalId : a.authorization.principalId = p.principalId
  sessionId : ∀ s ∈ p.sessionId, a.sessionId = s
  bodyId : a.bodyId = p.bodyId
  bodySnapshotHash : a.bodySnapshotHash = p.bodySnapshotHash
  capability : a.capabilityId ∈ p.capabilities
  intentHash : actionIntentHash py a = some p.actionIntentHash

variable {A : PermitAuthority} {a : ActionEnvelope} {now : DateTime} {p : ExecutionPermit}
  {peer : PeerCredentials} {py : Builtins}

theorem refusal_denied {permitId : PyStr} {d : PermitDecision}
    (h : refusal now A a peer permitId p = some d) : d.allowed = false := by
  unfold refusal at h
  repeat' split at h
  all_goals first
    | exact Option.some.inj h ▸ rfl
    | contradiction

theorem matches_of_refusal (hp : A.permits.get? (approvalIdOf py a) = some p)
    (hr : refusal now A a peer (approvalIdOf py a) p = none)
    (hi : actionIntentHash py a = some p.actionIntentHash) : Matches py now A a peer p := by
  unfold refusal at hr
  by_cases h₁ : p.expiresAt.instant ≤ now.instant
  · simp [h₁] at hr
  rw [if_neg h₁] at hr
  cases h₂ : A.revoked.get? (approvalIdOf py a) with
  | some reason => simp [h₂] at hr
  | none =>
    simp only [h₂] at hr
    split at hr
    · exact absurd hr (by simp)
    next h₃ =>
    split at hr
    · exact absurd hr (by simp)
    next h₄ =>
    split at hr
    · exact absurd hr (by simp)
    next h₅ =>
    split at hr
    · exact absurd hr (by simp)
    next h₆ =>
    split at hr
    · exact absurd hr (by simp)
    next h₇ =>
    split at hr
    · exact absurd hr (by simp)
    next h₈ =>
    refine ⟨hp, Int.not_le.mp h₁, h₂, not_not.mp h₃, not_not.mp h₄, ?_, not_not.mp h₆,
      not_not.mp h₇, not_not.mp h₈, hi⟩
    intro s hs
    rw [Option.mem_def] at hs
    simp only [hs, Option.isSome_some, true_and, ne_eq, Option.some.injEq, not_not] at h₅
    exact h₅.symm

/-- **Everything an authorization can do**: refuse or raise and change nothing,
allow a replay and change nothing, consume a use, or raise in the append. -/
inductive AuthorizeCases (py : Builtins) (now : DateTime) (L : Ledger) (A : PermitAuthority)
    (a : ActionEnvelope) (peer : PeerCredentials) :
    Ledger × PermitAuthority × Except LedgerFault PermitDecision → Prop
  | denied {d : PermitDecision} (h : d.allowed = false) :
      AuthorizeCases py now L A a peer (L, A, .ok d)
  | raised {fault : LedgerFault} : AuthorizeCases py now L A a peer (L, A, .error fault)
  | replayed {p : ExecutionPermit} (hm : Matches py now A a peer p)
      (hc : A.consumedActions.get? a.actionId = some (approvalIdOf py a)) :
      AuthorizeCases py now L A a peer (L, A, .ok (allow p))
  | consumed {p : ExecutionPermit} {e : LedgerEvent} {L' : Ledger}
      (hm : Matches py now A a peer p) (hc : A.consumedActions.get? a.actionId = none)
      (hu : A.usesOf (approvalIdOf py a) < p.maxUses)
      (he : e = consumedEvent (approvalIdOf py a) a.actionId peer p.actionIntentHash)
      (hL : L.append py e = (L', none)) :
      AuthorizeCases py now L A a peer (L', { A with
        uses := A.uses.set (approvalIdOf py a) (A.usesOf (approvalIdOf py a) + 1)
        consumedActions := A.consumedActions.set a.actionId (approvalIdOf py a) }, .ok (allow p))
  | appendRaised {p : ExecutionPermit} {e : LedgerEvent} {L' : Ledger} {fault : LedgerFault}
      (hm : Matches py now A a peer p) (hc : A.consumedActions.get? a.actionId = none)
      (he : e = consumedEvent (approvalIdOf py a) a.actionId peer p.actionIntentHash)
      (hL : L.append py e = (L', some fault)) :
      AuthorizeCases py now L A a peer (L', A, .error fault)

theorem consume_cases (L : Ledger) (hm : Matches py now A a peer p) :
    AuthorizeCases py now L A a peer
      (consume py L A a peer (approvalIdOf py a) p p.actionIntentHash) := by
  unfold consume
  cases hc : A.consumedActions.get? a.actionId with
  | some consumed =>
    by_cases heq : consumed = approvalIdOf py a
    · simp only [if_pos heq]
      exact .replayed hm (heq ▸ hc)
    · simp only [if_neg heq]
      exact .denied (by rfl)
  | none =>
    by_cases hu : p.maxUses ≤ A.usesOf (approvalIdOf py a)
    · simp only [if_pos hu]
      exact .denied (by rfl)
    · simp only [if_neg hu]
      rcases hL : L.append py (consumedEvent (approvalIdOf py a) a.actionId peer
        p.actionIntentHash) with ⟨L', _ | fault⟩
      · exact .consumed hm hc (Nat.not_le.mp hu) rfl hL
      · exact .appendRaised hm hc rfl hL

theorem authorize_cases (py : Builtins) (now : DateTime) (L : Ledger) (A : PermitAuthority)
    (a : ActionEnvelope) (peer : PeerCredentials) :
    AuthorizeCases py now L A a peer (authorize py now L A a peer) := by
  dsimp only [authorize]
  by_cases h₀ : (approvalIdOf py a).codes = []
  · rw [if_pos h₀]
    exact .denied (by rfl)
  rw [if_neg h₀]
  cases hp : A.permits.get? (approvalIdOf py a) with
  | none => exact .denied (by rfl)
  | some p =>
    cases hr : refusal now A a peer (approvalIdOf py a) p with
    | some d =>
      simp only [hr]
      exact .denied (refusal_denied hr)
    | none =>
      cases hi : actionIntentHash py a with
      | none =>
        simp only [hr]
        exact .raised
      | some intentHash =>
        simp only [hr]
        by_cases hh : intentHash = p.actionIntentHash
        · subst hh
          rw [if_neg (by simp)]
          exact consume_cases L (matches_of_refusal hp hr hi)
        · rw [if_pos hh]
          exact .denied (by rfl)

end PermitAuthority

end Rosclaw
