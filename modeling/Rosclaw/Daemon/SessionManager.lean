/-
Agent Sessions (`daemon/session_manager.py`).

The monotonic clock is read in milliseconds.  Errors are the codes of
`SessionError`; a deadline past the year 9999 raises `OverflowError` instead.

* `Leaves` — what any of them does to the session states: an `ACTIVE` session may
  be left, and nothing else changes.
-/
import Rosclaw.Daemon.Ledger
import Rosclaw.Lib.Dict

namespace Rosclaw

inductive SessionState
  | active | lost | closed
deriving DecidableEq, Repr

def SessionState.value : SessionState → String
  | active => "ACTIVE"
  | lost => "LOST"
  | closed => "CLOSED"

/-- `session.state.value.lower()`. -/
def SessionState.lower : SessionState → String
  | active => "active"
  | lost => "lost"
  | closed => "closed"

structure AgentSession where
  sessionId : PyStr
  actorId : PyStr
  agentFramework : PyStr
  peerUid : Int
  bodyScope : List PyStr
  capabilityScope : List PyStr
  ttlMs : Nat
  createdAt : DateTime
  lastHeartbeat : DateTime
  expiresAt : DateTime
  expiresMonotonic : Nat
  state : SessionState := .active
  lossReason : Option PyStr := none

def SESSION_SCHEMA_VERSION : String := "rosclaw.daemon.session.v1"
def DEFAULT_SESSION_TTL_MS : Nat := 10000
def MIN_SESSION_TTL_MS : Int := 300
def MAX_SESSION_TTL_MS : Int := 3600000

namespace AgentSession

def toDict (s : AgentSession) : PyVal :=
  .dict [("schema_version", .str SESSION_SCHEMA_VERSION), ("session_id", .str s.sessionId),
    ("actor_id", .str s.actorId), ("agent_framework", .str s.agentFramework),
    ("peer_uid", .int s.peerUid), ("body_scope", .list (s.bodyScope.map .str)),
    ("capability_scope", .list (s.capabilityScope.map .str)), ("ttl_ms", .int s.ttlMs),
    ("state", .str s.state.value), ("created_at", .str s.createdAt.isoformat),
    ("last_heartbeat", .str s.lastHeartbeat.isoformat),
    ("expires_at", .str s.expiresAt.isoformat),
    ("loss_reason", match s.lossReason with
      | none => .none
      | some reason => .str reason)]

def sameContract (s s' : AgentSession) : Bool :=
  s.actorId = s'.actorId && s.agentFramework = s'.agentFramework && s.peerUid = s'.peerUid &&
    s.bodyScope = s'.bodyScope && s.capabilityScope = s'.capabilityScope && s.ttlMs = s'.ttlMs

def expire (s : AgentSession) : AgentSession :=
  { s with state := .lost, lossReason := some "heartbeat_timeout" }

end AgentSession

abbrev SessionManager := Dict PyStr AgentSession

structure SessionRequest where
  sessionId : PyStr
  actorId : PyStr
  agentFramework : PyStr
  bodyScope : List PyStr
  capabilityScope : List PyStr
  ttlMs : Int

namespace SessionManager

def identifier (s : PyStr) : Bool := Ledger.validIdentifier s

def scope (xs : List PyStr) : Bool := !xs.isEmpty && xs.all identifier && !xs.contains "*"

def validRequest (q : SessionRequest) : Bool :=
  identifier q.sessionId && identifier q.actorId && identifier q.agentFramework &&
    scope q.bodyScope && scope q.capabilityScope &&
    decide (MIN_SESSION_TTL_MS ≤ q.ttlMs ∧ q.ttlMs ≤ MAX_SESSION_TTL_MS)

def newSession (q : SessionRequest) (peer : PeerCredentials) (now expiresAt : DateTime)
    (monotonic : Nat) : AgentSession where
  sessionId := q.sessionId
  actorId := q.actorId
  agentFramework := q.agentFramework
  peerUid := peer.uid
  bodyScope := PyStr.sortedSet q.bodyScope
  capabilityScope := PyStr.sortedSet q.capabilityScope
  ttlMs := q.ttlMs.toNat
  createdAt := now
  lastHeartbeat := now
  expiresAt := expiresAt
  expiresMonotonic := monotonic + q.ttlMs.toNat

def createSession (m : SessionManager) (q : SessionRequest) (peer : PeerCredentials)
    (now : DateTime) (monotonic : Nat) : SessionManager × Except String AgentSession :=
  if validRequest q = false then (m, .error "INVALID_SESSION")
  else match m.get? q.sessionId with
  | some existing =>
    if existing.state = .active ∧ existing.sameContract (newSession q peer now now monotonic) then
      (m, .ok existing)
    else (m, .error "SESSION_ID_CONFLICT")
  | none =>
    match now.addMillis q.ttlMs.toNat with
    | none => (m, .error "OverflowError")
    | some expiresAt =>
      let session := newSession q peer now expiresAt monotonic
      (m.set q.sessionId session, .ok session)

def adoptAction (m : SessionManager) (a : ActionEnvelope) (peer : PeerCredentials)
    (now : DateTime) (monotonic : Nat) : SessionManager × Except String AgentSession :=
  m.createSession ⟨a.sessionId, a.actorId, a.agentFramework, [a.bodyId], [a.capabilityId],
    max DEFAULT_SESSION_TTL_MS a.leaseTtlMs⟩ peer now monotonic

/-- `require_action`: the session, unless it is not this peer's, not active, just
found expired, or does not cover the action. -/
def requireAction (m : SessionManager) (a : ActionEnvelope) (peer : PeerCredentials)
    (monotonic : Nat) : SessionManager × Except String AgentSession :=
  match m.get? a.sessionId with
  | none => (m, .error "SESSION_NOT_FOUND")
  | some s =>
    if peer.uid ≠ s.peerUid then (m, .error "SESSION_OWNERSHIP_MISMATCH")
    else if s.state ≠ .active then (m, .error "SESSION_NOT_ACTIVE")
    else if s.expiresMonotonic ≤ monotonic then
      (m.set a.sessionId s.expire, .error "SESSION_EXPIRED")
    else if s.actorId ≠ a.actorId then (m, .error "SESSION_ACTOR_MISMATCH")
    else if a.bodyId ∉ s.bodyScope then (m, .error "SESSION_BODY_SCOPE_MISMATCH")
    else if a.capabilityId ∉ s.capabilityScope then
      (m, .error "SESSION_CAPABILITY_SCOPE_MISMATCH")
    else (m, .ok s)

def heartbeat (m : SessionManager) (sessionId : PyStr) (peer : PeerCredentials) (now : DateTime)
    (monotonic : Nat) : SessionManager × Except String AgentSession :=
  if identifier sessionId = false then (m, .error "INVALID_SESSION")
  else match m.get? sessionId with
  | none => (m, .error "SESSION_NOT_FOUND")
  | some s =>
    if peer.uid ≠ s.peerUid then (m, .error "SESSION_OWNERSHIP_MISMATCH")
    else if s.state ≠ .active then (m, .error "SESSION_NOT_ACTIVE")
    else if s.expiresMonotonic ≤ monotonic then
      (m.set sessionId s.expire, .error "SESSION_EXPIRED")
    else match now.addMillis s.ttlMs with
      | none => (m.set sessionId { s with lastHeartbeat := now }, .error "OverflowError")
      | some expiresAt =>
        let s := { s with
          lastHeartbeat := now
          expiresAt := expiresAt
          expiresMonotonic := monotonic + s.ttlMs }
        (m.set sessionId s, .ok s)

/-- `close_session`: an active session is closed, any other stays as it is. -/
def closeSession (m : SessionManager) (sessionId : PyStr) (peer : PeerCredentials)
    (reason : PyStr) : SessionManager × Except String AgentSession :=
  if identifier sessionId = false then (m, .error "INVALID_SESSION")
  else match m.get? sessionId with
  | none => (m, .error "SESSION_NOT_FOUND")
  | some s =>
    if peer.uid ≠ s.peerUid then (m, .error "SESSION_OWNERSHIP_MISMATCH")
    else if s.state = .active then
      let s := { s with state := .closed, lossReason := some ⟨reason.codes.take 256⟩ }
      (m.set sessionId s, .ok s)
    else (m, .ok s)

def due (monotonic : Nat) (s : AgentSession) : Bool :=
  s.state = .active && s.expiresMonotonic ≤ monotonic

/-- `expire_sessions`: the sessions that were expired by this call. -/
def expireSessions (m : SessionManager) (monotonic : Nat) : SessionManager × List AgentSession :=
  (m.mapVals fun _ s => if due monotonic s then s.expire else s,
    (m.values.filter (due monotonic)).map AgentSession.expire)

def getSession (m : SessionManager) (sessionId : PyStr) (peer : PeerCredentials) :
    Except String AgentSession :=
  if identifier sessionId = false then .error "INVALID_SESSION"
  else match m.get? sessionId with
  | none => .error "SESSION_NOT_FOUND"
  | some s => if peer.uid ≠ s.peerUid then .error "SESSION_OWNERSHIP_MISMATCH" else .ok s

/-! ### The states -/

def stateOf (m : SessionManager) (sessionId : PyStr) : Option SessionState :=
  (m.get? sessionId).map AgentSession.state

def Filed (m : SessionManager) : Prop := ∀ i s, m.get? i = some s → s.sessionId = i

/-- What an operation does to the states: create an active session, leave an active
one, or nothing. -/
def Leaves (m m' : SessionManager) : Prop :=
  ∀ i, m'.stateOf i = m.stateOf i ∨
    (m.stateOf i = none ∧ m'.stateOf i = some .active) ∨
    (m.stateOf i = some .active ∧ (m'.stateOf i).isSome)

theorem Leaves.refl (m : SessionManager) : Leaves m m := fun _ => .inl rfl

theorem stateOf_set (m : SessionManager) (i j : PyStr) (s : AgentSession) :
    stateOf (m.set i s) j = if i = j then some s.state else m.stateOf j := by
  unfold stateOf
  rw [Dict.get?_set]
  split <;> rfl

variable {m : SessionManager}

theorem Filed.set (h : Filed m) {s : AgentSession} {i : PyStr}
    (hs : s.sessionId = i) : Filed (m.set i s) := by
  intro j t ht
  rw [Dict.get?_set] at ht
  split at ht
  · next hij =>
    rw [Option.some_inj] at ht
    rw [← ht, hs, hij]
  · exact h j t ht

structure Kept (m m' : SessionManager) : Prop where
  filed : Filed m'
  leaves : Leaves m m'

theorem Kept.refl (h : Filed m) : Kept m m := ⟨h, .refl m⟩

theorem Kept.replace (h : Filed m) {i : PyStr} {s t : AgentSession}
    (hs : m.get? i = some s) (hactive : s.state = .active) (ht : t.sessionId = s.sessionId) :
    Kept m (m.set i t) := by
  refine ⟨h.set (ht.trans (h i s hs)), fun j => ?_⟩
  rw [stateOf_set]
  by_cases hij : i = j
  · subst hij
    exact .inr (.inr ⟨by simp [stateOf, hs, hactive], by simp⟩)
  · exact .inl (if_neg hij)

theorem kept_createSession (h : Filed m) (q : SessionRequest)
    (peer : PeerCredentials) (now : DateTime) (monotonic : Nat) :
    Kept m (m.createSession q peer now monotonic).1 := by
  unfold createSession
  split
  · exact .refl h
  cases hs : m.get? q.sessionId with
  | some existing =>
    dsimp only
    split <;> exact .refl h
  | none =>
    dsimp only
    cases now.addMillis q.ttlMs.toNat with
    | none => exact .refl h
    | some expiresAt =>
      refine ⟨h.set rfl, fun j => ?_⟩
      rw [stateOf_set]
      by_cases hij : q.sessionId = j
      · subst hij
        exact .inr (.inl ⟨by simp [stateOf, hs], by simp [newSession]⟩)
      · exact .inl (if_neg hij)

theorem kept_requireAction (h : Filed m) (a : ActionEnvelope)
    (peer : PeerCredentials) (monotonic : Nat) : Kept m (m.requireAction a peer monotonic).1 := by
  unfold requireAction
  cases hs : m.get? a.sessionId with
  | none => exact .refl h
  | some s =>
    dsimp only
    split
    · exact .refl h
    split
    · exact .refl h
    next hactive =>
    rw [not_not] at hactive
    split
    · exact .replace h hs hactive rfl
    split
    · exact .refl h
    split
    · exact .refl h
    split <;> exact .refl h

theorem kept_heartbeat (h : Filed m) (sessionId : PyStr)
    (peer : PeerCredentials) (now : DateTime) (monotonic : Nat) :
    Kept m (m.heartbeat sessionId peer now monotonic).1 := by
  unfold heartbeat
  split
  · exact .refl h
  cases hs : m.get? sessionId with
  | none => exact .refl h
  | some s =>
    dsimp only
    split
    · exact .refl h
    split
    · exact .refl h
    next hactive =>
    rw [not_not] at hactive
    split
    · exact .replace h hs hactive rfl
    cases now.addMillis s.ttlMs with
    | none => exact .replace h hs hactive rfl
    | some expiresAt => exact .replace h hs hactive rfl

theorem kept_closeSession (h : Filed m) (sessionId : PyStr)
    (peer : PeerCredentials) (reason : PyStr) :
    Kept m (m.closeSession sessionId peer reason).1 := by
  unfold closeSession
  split
  · exact .refl h
  cases hs : m.get? sessionId with
  | none => exact .refl h
  | some s =>
    dsimp only
    split
    · exact .refl h
    split
    · next hactive => exact .replace h hs hactive rfl
    · exact .refl h

theorem kept_expireSessions (h : Filed m) (monotonic : Nat) :
    Kept m (m.expireSessions monotonic).1 := by
  have hget : ∀ i, (m.expireSessions monotonic).1.get? i
      = (m.get? i).map fun s => if due monotonic s then s.expire else s := fun i =>
    Dict.get?_mapVals _ m i
  constructor
  · intro i s hs
    rw [hget] at hs
    obtain ⟨t, ht, rfl⟩ := Option.map_eq_some_iff.mp hs
    rw [← h i t ht]
    split <;> rfl
  · intro i
    unfold stateOf
    rw [hget]
    cases hs : m.get? i with
    | none => exact .inl rfl
    | some s =>
      by_cases hd : due monotonic s = true
      · refine .inr (.inr ⟨?_, by simp⟩)
        simp only [due, Bool.and_eq_true, decide_eq_true_eq] at hd
        simp [hd.1]
      · exact .inl (by simp [hd])

end SessionManager

end Rosclaw
