/-
`SessionBindingStore`: which Pi session is bound to which mission, and which of them
holds the writer lease, on a connection that commits every statement by itself.

`with self._conn:` opens no transaction on such a connection, so the statements of
`acquire_lease` are committed one by one, like those of `bind`.  Times are
microseconds; the texts of two times in UTC compare as the times do.

* `Unique` — one ACTIVE binding for a session and for a mission, one lease for a mission.
-/
import Rosclaw.Lib.DateTime
import Rosclaw.Lib.Dict
import Rosclaw.Lib.Machine
import Rosclaw.Lib.Text
import Rosclaw.Lib.Txn

namespace Rosclaw.PiSession

open Txn

/-! ### Rows and statements -/

inductive BindingStatus
  | active | detached | needsBinding
deriving DecidableEq, Repr

/-- A row of `pi_session_bindings`, of the binding id of its key. -/
structure Binding where
  piSessionId : PyStr
  piSessionPath : PyStr
  missionId : PyStr
  bodyId : PyStr
  executionMode : PyStr
  createdAt : Int
  createdBy : PyStr
  parentBindingId : Option PyStr
  sourceMissionId : Option PyStr
  status : BindingStatus
  revision : Nat
deriving DecidableEq, Repr

/-- A row of `pi_session_leases`, of the lease id of its key. -/
structure Lease where
  missionId : PyStr
  piSessionId : PyStr
  ownerPid : Int
  ownerUid : Int
  tokenHash : PyStr
  issuedAt : Int
  expiresAt : Int
  heartbeatAt : Int
deriving DecidableEq, Repr

structure Tables where
  bindings : Dict PyStr Binding
  leases : Dict PyStr Lease

inductive Write
  /-- `UPDATE pi_session_bindings … WHERE mission_id = ? AND pi_session_id != ?` -/
  | detachOthers (missionId piSessionId : PyStr)
  | insertBinding (bindingId : PyStr) (b : Binding)
  /-- `UPDATE pi_session_bindings … WHERE binding_id = ?` -/
  | detach (bindingId : PyStr)
  /-- `DELETE … WHERE mission_id = ? AND expires_at < ?` -/
  | deleteExpired (missionId : PyStr) (now : Int)
  /-- `DELETE … WHERE mission_id = ?` -/
  | deleteLease (missionId : PyStr)
  | insertLease (leaseId : PyStr) (l : Lease)
  /-- `UPDATE pi_session_leases SET heartbeat_at, expires_at` -/
  | beat (leaseId : PyStr) (now expires : Int)
  /-- `DELETE … WHERE mission_id = ? AND pi_session_id = ? AND lease_token_hash = ?` -/
  | release (missionId piSessionId tokenHash : PyStr)

def Write.texts : Write → List PyStr
  | .detachOthers m s => [m, s]
  | .insertBinding k b =>
      [k, b.piSessionId, b.piSessionPath, b.missionId, b.bodyId, b.executionMode, b.createdBy] ++
        b.parentBindingId.toList ++ b.sourceMissionId.toList
  | .detach k => [k]
  | .deleteExpired m _ => [m]
  | .deleteLease m => [m]
  | .insertLease k l => [k, l.missionId, l.piSessionId, l.tokenHash]
  | .beat k _ _ => [k]
  | .release m s h => [m, s, h]

def Binding.detached (b : Binding) : Binding :=
  { b with status := .detached, revision := b.revision + 1 }

namespace Tables

def admits (db : Tables) : Write → Bool
  | .insertBinding k b =>
      !db.bindings.contains k &&
        !db.bindings.values.any fun b' =>
          b'.piSessionId = b.piSessionId ∧ b'.status = .active ∧ b.status = .active
  | .insertLease k l =>
      !db.leases.contains k && !db.leases.values.any fun l' => l'.missionId = l.missionId
  | _ => true

def apply (db : Tables) : Write → Tables
  | .detachOthers m s =>
      { db with bindings := db.bindings.mapVals fun _ b =>
          if b.missionId = m ∧ b.piSessionId ≠ s ∧ b.status = .active then b.detached else b }
  | .insertBinding k b => { db with bindings := db.bindings.set k b }
  | .detach k =>
      { db with bindings := db.bindings.mapVals fun k' b => if k' = k then b.detached else b }
  | .deleteExpired m now =>
      { db with leases := db.leases.filter fun _ l => ¬ (l.missionId = m ∧ l.expiresAt < now) }
  | .deleteLease m => { db with leases := db.leases.filter fun _ l => ¬ l.missionId = m }
  | .insertLease k l => { db with leases := db.leases.set k l }
  | .beat k now expires =>
      { db with leases := db.leases.mapVals fun k' l =>
          if k' = k then { l with heartbeatAt := now, expiresAt := expires } else l }
  | .release m s h =>
      { db with leases := db.leases.filter fun _ l =>
          ¬ (l.missionId = m ∧ l.piSessionId = s ∧ l.tokenHash = h) }

def bindingForSession (db : Tables) (piSessionId : PyStr) : Option (PyStr × Binding) :=
  db.bindings.entries.find? fun e => e.2.piSessionId = piSessionId ∧ e.2.status = .active

def leaseOf (db : Tables) (missionId : PyStr) : Option (PyStr × Lease) :=
  db.leases.entries.find? fun e => e.2.missionId = missionId

def leaseFor (db : Tables) (missionId piSessionId : PyStr) : Option (PyStr × Lease) :=
  db.leases.entries.find? fun e => e.2.missionId = missionId ∧ e.2.piSessionId = piSessionId

end Tables

/-- How an operation ends when it does not answer. -/
inductive BindingError
  | coded (code message : PyStr)
  | unicodeEncodeError
  | integrityError
  /-- a contract model refuses a field -/
  | validationError
  | overflowError
deriving DecidableEq, Repr

instance : Store Tables Write BindingError where
  refuses db w :=
    if !w.texts.all PyStr.encodable then some .unicodeEncodeError
    else if !db.admits w then some .integrityError
    else none
  apply := Tables.apply

abbrev Operation := Txn Tables Write BindingError

variable {b : Binding} {db db' : Tables} {m s : PyStr} {w : Write}

theorem refuses_eq_none :
    Store.refuses db w = none ↔ w.texts.all PyStr.encodable = true ∧ db.admits w = true := by
  show (if !w.texts.all PyStr.encodable then some BindingError.unicodeEncodeError
    else if !db.admits w then some BindingError.integrityError else none) = none ↔ _
  cases w.texts.all PyStr.encodable <;> cases db.admits w <;> simp

/-! ### The operations -/

/-- `datetime` can hold the time. -/
def inRange (t : Int) : Bool := 0 ≤ t && (DateTime.ofParts t.toNat 0).isSome

def iso (t : Int) : PyStr :=
  (DateTime.ofParts t.toNat 0).elim "" DateTime.utcText

def leaseTtl : Int := 120000000

structure BindCall where
  piSessionId : PyStr
  piSessionPath : PyStr
  missionId : PyStr
  bodyId : PyStr
  executionMode : PyStr
  createdBy : PyStr
  parentBindingId : Option PyStr := none
  sourceMissionId : Option PyStr := none
  /-- `new_id("psb")` -/
  bindingId : PyStr
  now : Int

namespace BindCall

variable (c : BindCall)

def binding : Binding :=
  ⟨c.piSessionId, c.piSessionPath, c.missionId, c.bodyId, c.executionMode, c.now, c.createdBy,
    c.parentBindingId, c.sourceMissionId, .active, 1⟩

/-- `PiSessionBindingV1` accepts the fields. -/
def accepted : Bool :=
  ["SIMULATION", "SHADOW", "REAL"].any (PyStr.ofString · = c.executionMode) &&
    (Write.insertBinding c.bindingId c.binding).texts.all PyStr.encodable

def alreadyBound (b : Binding) : BindingError :=
  .coded "SESSION_ALREADY_BOUND" ("pi session " ++ c.piSessionId ++ " is already bound to " ++
    b.missionId ++ " — detach first (no silent rebind)")

/-- What `bind` makes of the error of its `INSERT`. -/
def translate : BindingError → BindingError
  | .integrityError =>
      .coded "SESSION_ALREADY_BOUND" ("pi session " ++ c.piSessionId ++
        " already has an active binding")
  | e => e

end BindCall

def invalidArgument : BindingError :=
  .coded "INVALID_ARGUMENT" "pi_session_id and mission_id required"

def bind (c : BindCall) : Operation Binding :=
  check (!c.piSessionId.isEmpty && !c.missionId.isEmpty) invalidArgument >>= fun _ =>
  check c.piSessionId.encodable .unicodeEncodeError >>= fun _ =>
  read (fun db : Tables => db.bindingForSession c.piSessionId) >>= fun
  | some (_, b) => if b.missionId = c.missionId then pure b else raise (c.alreadyBound b)
  | none =>
    check c.accepted .validationError >>= fun _ =>
    exec (.detachOthers c.missionId c.piSessionId) >>= fun _ =>
    mapError c.translate (exec (.insertBinding c.bindingId c.binding)) >>= fun _ =>
    pure c.binding

def detach (bindingId : PyStr) : Operation Unit := exec (.detach bindingId)

structure AcquireCall where
  missionId : PyStr
  piSessionId : PyStr
  ownerPid : Int
  ownerUid : Int
  ttl : Int := leaseTtl
  now : Int
  /-- `new_id("psl")` -/
  leaseId : PyStr
  /-- `secrets.token_urlsafe(32)` -/
  token : PyStr

/-- `sha256(token.encode()).hexdigest()` is a parameter of the operations. -/
def AcquireCall.lease (digest : PyStr → PyStr) (c : AcquireCall) : Lease :=
  ⟨c.missionId, c.piSessionId, c.ownerPid, c.ownerUid, digest c.token, c.now, c.now + c.ttl, c.now⟩

def writerHeld (l : Lease) : BindingError :=
  .coded "WRITER_HELD" ("mission " ++ l.missionId ++ " writer lease held by session " ++
    l.piSessionId ++ " (pid " ++ PyStr.ofString (toString l.ownerPid) ++ ") until " ++
    iso l.expiresAt)

def notHeld (piSessionId : PyStr) : Option (PyStr × Lease) → Operation Unit
  | some (_, l) => if l.piSessionId = piSessionId then pure () else raise (writerHeld l)
  | none => pure ()

def acquireLease (digest : PyStr → PyStr) (c : AcquireCall) : Operation (Lease × PyStr) :=
  exec (.deleteExpired c.missionId c.now) >>= fun _ =>
  read (fun db : Tables => db.leaseOf c.missionId) >>= fun held =>
  notHeld c.piSessionId held >>= fun _ =>
  check (inRange (c.now + c.ttl)) .overflowError >>= fun _ =>
  check ((Write.insertLease c.leaseId (c.lease digest)).texts.all PyStr.encodable)
    .validationError >>= fun _ =>
  exec (.deleteLease c.missionId) >>= fun _ =>
  exec (.insertLease c.leaseId (c.lease digest)) >>= fun _ =>
  pure (c.lease digest, c.token)

/-- A call of `heartbeat_lease` or `release_lease`. -/
structure TokenCall where
  missionId : PyStr
  piSessionId : PyStr
  token : PyStr

def leaseNotFound : BindingError :=
  .coded "LEASE_NOT_FOUND" "no active lease for this session/mission"

def tokenMismatch : BindingError := .coded "LEASE_TOKEN_MISMATCH" "lease token does not match"

def leaseExpired : BindingError := .coded "LEASE_EXPIRED" "lease expired — re-acquire"

/-- The clock is read for the test of the expiry and again for the new one. -/
def heartbeatLease (digest : PyStr → PyStr) (c : TokenCall) (now now' : Int) : Operation Lease :=
  check ([c.token, c.missionId, c.piSessionId].all PyStr.encodable) .unicodeEncodeError >>= fun _ =>
  read (fun db : Tables => db.leaseFor c.missionId c.piSessionId) >>= fun
  | none => raise leaseNotFound
  | some (k, l) =>
    check (l.tokenHash = digest c.token) tokenMismatch >>= fun _ =>
    check (¬ l.expiresAt < now) leaseExpired >>= fun _ =>
    check (inRange (now' + leaseTtl)) .overflowError >>= fun _ =>
    exec (.beat k now' (now' + leaseTtl)) >>= fun _ =>
    pure { l with heartbeatAt := now', expiresAt := now' + leaseTtl }

def releaseLease (digest : PyStr → PyStr) (c : TokenCall) : Operation Bool :=
  check c.token.encodable .unicodeEncodeError >>= fun _ =>
  read (fun db : Tables => db.leases.values.any fun l =>
    l.missionId = c.missionId ∧ l.piSessionId = c.piSessionId ∧ l.tokenHash = digest c.token)
    >>= fun released =>
  exec (.release c.missionId c.piSessionId (digest c.token)) >>= fun _ =>
  pure released

/-! ### Runs -/

inductive Call
  | bind (c : BindCall)
  | detach (bindingId : PyStr)
  | acquire (c : AcquireCall)
  | heartbeat (c : TokenCall) (now now' : Int)
  | release (c : TokenCall)

/-- A call, and after how many of its statements it stops, if it does: a statement fails
or the process is killed. -/
structure Label where
  call : Call
  stop : Option Nat := none

structure State where
  tables : Tables
  clock : Int

namespace Call

def session : Call → Option PyStr
  | bind c => some c.piSessionId
  | detach _ => none
  | acquire c => some c.piSessionId
  | heartbeat c _ _ => some c.piSessionId
  | release c => some c.piSessionId

def times : Call → Option (Int × Int)
  | bind c => some (c.now, c.now)
  | acquire c => some (c.now, c.now)
  | heartbeat _ now now' => some (now, now')
  | _ => none

def run (digest : PyStr → PyStr) : Call → Tables → List Write × Bool
  | bind c, db => ((PiSession.bind c db).1, (PiSession.bind c db).2.toBool)
  | detach k, db => ((PiSession.detach k db).1, (PiSession.detach k db).2.toBool)
  | acquire c, db => ((acquireLease digest c db).1, (acquireLease digest c db).2.toBool)
  | heartbeat c now now', db =>
      ((heartbeatLease digest c now now' db).1, (heartbeatLease digest c now now' db).2.toBool)
  | release c, db => ((releaseLease digest c db).1, (releaseLease digest c db).2.toBool)

end Call

def State.tick (s : State) (c : Call) : Option Int :=
  match c.times with
  | none => some s.clock
  | some (now, now') => if s.clock ≤ now ∧ now ≤ now' then some now' else none

def sessions (digest : PyStr → PyStr) : Machine State Label where
  Init s := s.tables = ⟨∅, ∅⟩
  step s l := (s.tick l.call).map fun clock =>
    ⟨after s.tables (cut l.stop (l.call.run digest s.tables).1), clock⟩

def Failed (digest : PyStr → PyStr) (db : Tables) (l : Label) : Prop :=
  (l.call.run digest db).2 = false ∨ ∃ k, l.stop = some k ∧ k < (l.call.run digest db).1.length

/-! ### One binding and one lease -/

def Binding.activeSession (b : Binding) : Option PyStr :=
  if b.status = .active then some b.piSessionId else none

def Binding.activeMission (b : Binding) : Option PyStr :=
  if b.status = .active then some b.missionId else none

/-- A session has one ACTIVE binding at most, a mission too, and one lease. -/
structure Unique (db : Tables) : Prop where
  session : db.bindings.UniqueBy fun _ b => b.activeSession
  mission : db.bindings.UniqueBy fun _ b => b.activeMission
  lease : db.leases.UniqueBy fun _ l => some l.missionId

/-- No binding becomes ACTIVE and no lease changes its mission. -/
structure Fewer (db' db : Tables) : Prop where
  bindings : ∀ k b, db'.bindings.get? k = some b → b.status = .active → db.bindings.get? k = some b
  leases : ∀ k l, db'.leases.get? k = some l →
    ∃ l', db.leases.get? k = some l' ∧ l'.missionId = l.missionId

theorem activeSession_eq_some :
    b.activeSession = some s ↔ b.status = .active ∧ b.piSessionId = s := by
  rw [Binding.activeSession]
  split <;> simp_all

theorem activeMission_eq_some :
    b.activeMission = some m ↔ b.status = .active ∧ b.missionId = m := by
  rw [Binding.activeMission]
  split <;> simp_all

theorem Unique.fewer (h : Unique db) (hfewer : Fewer db' db) : Unique db' where
  session := h.session.mono fun k b s hb hs =>
    ⟨b, hfewer.bindings k b hb (activeSession_eq_some.mp hs).1, hs⟩
  mission := h.mission.mono fun k b m hb hm =>
    ⟨b, hfewer.bindings k b hb (activeMission_eq_some.mp hm).1, hm⟩
  lease := h.lease.mono fun k l m hl hm => by
    obtain ⟨l', hl', heq⟩ := hfewer.leases k l hl
    exact ⟨l', hl', by rw [heq, hm]⟩

/-- Every statement but an `INSERT` leaves fewer rows in force. -/
theorem fewer_apply (db : Tables) (hbinding : ∀ k b, w ≠ .insertBinding k b)
    (hlease : ∀ k l, w ≠ .insertLease k l) : Fewer (db.apply w) db := by
  have hsame : ∀ k l, db.leases.get? k = some l →
      ∃ l', db.leases.get? k = some l' ∧ l'.missionId = l.missionId := fun k l hl => ⟨l, hl, rfl⟩
  cases w with
  | insertBinding k b => exact absurd rfl (hbinding k b)
  | insertLease k l => exact absurd rfl (hlease k l)
  | detachOthers m s =>
    refine ⟨?_, hsame⟩
    intro k b hb hactive
    obtain ⟨b', hb', rfl⟩ := Option.map_eq_some_iff.mp ((Dict.get?_mapVals ..).symm.trans hb)
    split at hactive
    · cases hactive
    · next hnot => rw [if_neg hnot, hb']
  | detach k₀ =>
    refine ⟨?_, hsame⟩
    intro k b hb hactive
    obtain ⟨b', hb', rfl⟩ := Option.map_eq_some_iff.mp ((Dict.get?_mapVals ..).symm.trans hb)
    split at hactive
    · cases hactive
    · next hnot => rw [if_neg hnot, hb']
  | deleteExpired m now =>
    exact ⟨fun k b hb _ => hb, fun k l hl => hsame k l (Dict.get?_filter.mp hl).1⟩
  | deleteLease m => exact ⟨fun k b hb _ => hb, fun k l hl => hsame k l (Dict.get?_filter.mp hl).1⟩
  | release m s h => exact ⟨fun k b hb _ => hb, fun k l hl => hsame k l (Dict.get?_filter.mp hl).1⟩
  | beat k₀ now expires =>
    refine ⟨fun k b hb _ => hb, ?_⟩
    intro k l hl
    obtain ⟨l', hl', rfl⟩ := Option.map_eq_some_iff.mp ((Dict.get?_mapVals ..).symm.trans hl)
    refine ⟨l', hl', ?_⟩
    split <;> rfl

theorem unique_insertBinding (h : Unique db) (k : PyStr)
    (hsession : ∀ k' b', db.bindings.get? k' = some b' → b'.activeSession ≠ some b.piSessionId)
    (hmission : ∀ k' b', db.bindings.get? k' = some b' → b'.activeMission ≠ some b.missionId) :
    Unique (db.apply (.insertBinding k b)) where
  session := h.session.set k fun k' b' s hb' hs => by
    rw [← (activeSession_eq_some.mp hs).2]
    exact hsession k' b' hb'
  mission := h.mission.set k fun k' b' m hb' hm => by
    rw [← (activeMission_eq_some.mp hm).2]
    exact hmission k' b' hb'
  lease := h.lease

theorem unique_insertLease (h : Unique db) (k : PyStr) {l : Lease}
    (hmission : ∀ k' l', db.leases.get? k' = some l' → l'.missionId ≠ l.missionId) :
    Unique (db.apply (.insertLease k l)) where
  session := h.session
  mission := h.mission
  lease := h.lease.set k fun k' l' m hl' hm heq => by
    refine hmission k' l' hl' ?_
    rw [Option.some_inj.mp hm, Option.some_inj.mp heq]

/-! ### What the operations execute -/

section Runs
variable {db : Tables}

/-- `bind` gets as far as to its `UPDATE`. -/
def BindCall.reaches (c : BindCall) (db : Tables) : Bool :=
  (!c.piSessionId.isEmpty && !c.missionId.isEmpty) && c.piSessionId.encodable &&
    (db.bindingForSession c.piSessionId).isNone && c.accepted

def BindCall.fresh (c : BindCall) (db : Tables) : Bool := !db.bindings.contains c.bindingId

theorem bindingForSession_eq_none {s : PyStr} (h : db.bindingForSession s = none) :
    ∀ k b, db.bindings.get? k = some b → b.activeSession ≠ some s := by
  intro k b hb hs
  obtain ⟨hactive, rfl⟩ := activeSession_eq_some.mp hs
  rw [Tables.bindingForSession, List.find?_eq_none] at h
  exact h (k, b) (Dict.mem_entries_iff.mpr hb) (decide_eq_true ⟨rfl, hactive⟩)

variable {c : BindCall}

/-- A call of `bind` that does not get to its `UPDATE` executes nothing. -/
theorem bind_of_not_reaches (h : c.reaches db = false) : (bind c db).1 = [] := by
  cases hargument : (!c.piSessionId.isEmpty && !c.missionId.isEmpty) with
  | false => exact congrArg Prod.fst (check_bind_raise hargument)
  | true =>
    rw [bind, check_of_true hargument, Txn.pure_bind]
    cases hsession : c.piSessionId.encodable with
    | false => exact congrArg Prod.fst (check_bind_raise rfl)
    | true =>
      rw [check_of_true rfl, Txn.pure_bind, read_bind]
      cases hexisting : db.bindingForSession c.piSessionId with
      | some e =>
        show ((if e.2.missionId = c.missionId then pure e.2 else raise (c.alreadyBound e.2) :
          Operation Binding) db).1 = []
        split <;> rfl
      | none =>
        have haccepted : c.accepted = false := by
          simpa [BindCall.reaches, hargument, hsession, hexisting] using h
        exact congrArg Prod.fst (check_bind_raise haccepted)

theorem accepted_texts (h : c.accepted = true) :
    (Write.insertBinding c.bindingId c.binding).texts.all PyStr.encodable = true := by
  rw [BindCall.accepted, Bool.and_eq_true] at h
  exact h.2

theorem bind_of_reaches (h : c.reaches db = true) :
    (bind c db).1 = .detachOthers c.missionId c.piSessionId ::
        (if c.fresh db then [.insertBinding c.bindingId c.binding] else []) ∧
      (bind c db).2.toBool = c.fresh db := by
  rw [BindCall.reaches, Bool.and_eq_true, Bool.and_eq_true, Bool.and_eq_true] at h
  obtain ⟨⟨⟨hargument, hsession⟩, hexisting⟩, haccepted⟩ := h
  have hexisting := Option.isNone_iff_eq_none.mp hexisting
  have htexts := accepted_texts haccepted
  have hupdate : Store.refuses db (Write.detachOthers c.missionId c.piSessionId) = none := by
    rw [refuses_eq_none]
    refine ⟨?_, rfl⟩
    rw [List.all_eq_true] at htexts ⊢
    intro t ht
    refine htexts t ?_
    simp only [Write.texts, List.mem_cons, List.not_mem_nil, or_false] at ht
    rcases ht with rfl | rfl <;> simp [Write.texts, BindCall.binding]
  -- after the `UPDATE` no ACTIVE binding of the session is in the way
  have hfree : Store.refuses (db.apply (.detachOthers c.missionId c.piSessionId))
      (Write.insertBinding c.bindingId c.binding) = none ↔ c.fresh db = true := by
    rw [refuses_eq_none]
    have hothers : ((db.apply (.detachOthers c.missionId c.piSessionId)).bindings.values.any
        fun b' => decide (b'.piSessionId = c.piSessionId ∧ b'.status = .active ∧
          BindingStatus.active = .active)) = false := by
      rw [List.any_eq_false]
      intro b hb hsame
      obtain ⟨hsame, hactive, -⟩ := of_decide_eq_true hsame
      obtain ⟨k, hk⟩ := Dict.mem_values_iff.mp hb
      have hfewer := fewer_apply db (w := .detachOthers c.missionId c.piSessionId) (by simp) (by simp)
      exact bindingForSession_eq_none hexisting k b (hfewer.bindings k b hk hactive)
        (activeSession_eq_some.mpr ⟨hactive, hsame⟩)
    have hcontains : (db.apply (.detachOthers c.missionId c.piSessionId)).bindings.contains
        c.bindingId = db.bindings.contains c.bindingId := by
      show ((db.bindings.mapVals _).get? c.bindingId).isSome = _
      rw [Dict.get?_mapVals, Option.isSome_map]
      rfl
    show _ ∧ (!_ && !_) = true ↔ _
    rw [hcontains]
    constructor
    · intro ⟨_, hadmits⟩
      exact (Bool.and_eq_true _ _ ▸ hadmits).1
    · intro hfresh
      refine ⟨htexts, ?_⟩
      rw [Bool.and_eq_true]
      exact ⟨hfresh, by rw [Bool.not_eq_true']; exact hothers⟩
  have hrun : bind c db = (.detachOthers c.missionId c.piSessionId ::
      ((mapError c.translate (exec (.insertBinding c.bindingId c.binding)) >>= fun _ =>
        (pure c.binding : Operation Binding))
          (db.apply (.detachOthers c.missionId c.piSessionId))).1,
      ((mapError c.translate (exec (.insertBinding c.bindingId c.binding)) >>= fun _ =>
        (pure c.binding : Operation Binding))
          (db.apply (.detachOthers c.missionId c.piSessionId))).2) := by
    refine check_bind_eq hargument (check_bind_eq hsession ?_)
    rw [read_bind, hexisting]
    exact check_bind_eq haccepted (exec_bind_of_accepted hupdate)
  rw [hrun]
  cases hfresh : c.fresh db with
  | true =>
    have hinsert := exec_of_accepted (hfree.mpr hfresh)
    have hmap : mapError c.translate (exec (.insertBinding c.bindingId c.binding))
        (db.apply (.detachOthers c.missionId c.piSessionId)) =
        ([.insertBinding c.bindingId c.binding], .ok ()) := by
      rw [mapError, hinsert]
      rfl
    rw [bind_of_ok hmap]
    exact ⟨rfl, rfl⟩
  | false =>
    cases hrefused : Store.refuses (db.apply (.detachOthers c.missionId c.piSessionId))
        (Write.insertBinding c.bindingId c.binding) with
    | none =>
      rw [hfree.mp hrefused] at hfresh
      cases hfresh
    | some e =>
      have hmap : mapError c.translate (exec (.insertBinding c.bindingId c.binding))
          (db.apply (.detachOthers c.missionId c.piSessionId)) = ([], .error (c.translate e)) := by
        rw [mapError, exec_of_refused hrefused]
        rfl
      rw [bind_of_error hmap]
      exact ⟨rfl, rfl⟩

/-! `acquire_lease`: the expired lease of the mission goes first. -/

section Lease
variable {digest : PyStr → PyStr}

def AcquireCall.pruned (c : AcquireCall) (db : Tables) : Tables :=
  db.apply (.deleteExpired c.missionId c.now)

/-- No other session holds the mission, and the fields of the new lease are accepted. -/
def AcquireCall.granted (digest : PyStr → PyStr) (c : AcquireCall) (db : Tables) : Bool :=
  (((c.pruned db).leaseOf c.missionId).all fun e => e.2.piSessionId = c.piSessionId) &&
    inRange (c.now + c.ttl) &&
    (Write.insertLease c.leaseId (c.lease digest)).texts.all PyStr.encodable

def AcquireCall.fresh (c : AcquireCall) (db : Tables) : Bool :=
  !(((c.pruned db).apply (.deleteLease c.missionId)).leases.contains c.leaseId)

variable {c : AcquireCall} {k m s : PyStr} {l : Lease}

theorem leaseOf_eq_none :
    db.leaseOf m = none ↔ ∀ k l, db.leases.get? k = some l → l.missionId ≠ m := by
  rw [Tables.leaseOf, List.find?_eq_none]
  constructor
  · intro h k l hl heq
    exact h (k, l) (Dict.mem_entries_iff.mpr hl) (decide_eq_true heq)
  · intro h e he heq
    exact h e.1 e.2 (Dict.mem_entries_iff.mp he) (of_decide_eq_true heq)

theorem leaseOf_eq_some (h : db.leaseOf m = some (k, l)) :
    db.leases.get? k = some l ∧ l.missionId = m :=
  ⟨Dict.mem_entries_iff.mp (List.mem_of_find?_eq_some h), by simpa using List.find?_some h⟩

variable (db) in
theorem notHeld_run (s : PyStr) (held : Option (PyStr × Lease)) :
    notHeld s held db = ([], .ok ()) ∧ held.all (fun e => decide (e.2.piSessionId = s)) = true ∨
      ∃ e, notHeld s held db = ([], .error e) ∧
        held.all (fun e => decide (e.2.piSessionId = s)) = false := by
  cases held with
  | none => exact .inl ⟨rfl, rfl⟩
  | some e =>
    rw [notHeld]
    by_cases h : e.2.piSessionId = s
    · rw [if_pos h]
      exact .inl ⟨rfl, decide_eq_true h⟩
    · rw [if_neg h]
      exact .inr ⟨_, rfl, decide_eq_false h⟩

theorem acquire_of_not_granted (h : c.granted digest db = false) :
    ((acquireLease digest c db).1 = [] ∨
        (acquireLease digest c db).1 = [.deleteExpired c.missionId c.now]) ∧
      (acquireLease digest c db).2.toBool = false := by
  cases hexpired : Store.refuses db (Write.deleteExpired c.missionId c.now) with
  | some e =>
    rw [acquireLease, exec_bind_of_refused hexpired]
    exact ⟨.inl rfl, rfl⟩
  | none =>
    have hrest : ∃ e, acquireLease digest c db =
        ([.deleteExpired c.missionId c.now], .error e) := by
      rcases notHeld_run (c.pruned db) c.piSessionId
        ((c.pruned db).leaseOf c.missionId) with ⟨hheld, hall⟩ | ⟨e, hheld, -⟩
      · cases hrange : inRange (c.now + c.ttl) with
        | false =>
          refine ⟨.overflowError, exec_bind_eq hexpired ?_⟩
          rw [read_bind]
          refine (bind_of_ok hheld).trans ?_
          rw [hrange, check_bind_raise rfl]
          rfl
        | true =>
          have htexts : (Write.insertLease c.leaseId (c.lease digest)).texts.all PyStr.encodable
              = false := by
            rw [AcquireCall.granted, hall, hrange, Bool.true_and, Bool.true_and] at h
            exact h
          refine ⟨.validationError, exec_bind_eq hexpired ?_⟩
          rw [read_bind]
          refine (bind_of_ok hheld).trans ?_
          rw [hrange, check_of_true rfl, Txn.pure_bind, htexts, check_bind_raise rfl]
          rfl
      · refine ⟨e, exec_bind_eq hexpired ?_⟩
        rw [read_bind]
        exact bind_of_error hheld
    obtain ⟨e, hrun⟩ := hrest
    rw [hrun]
    exact ⟨.inr rfl, rfl⟩

theorem acquire_of_granted (h : c.granted digest db = true) :
    (acquireLease digest c db).1 = .deleteExpired c.missionId c.now :: .deleteLease c.missionId ::
        (if c.fresh db then [.insertLease c.leaseId (c.lease digest)] else []) ∧
      (acquireLease digest c db).2.toBool = c.fresh db := by
  rw [AcquireCall.granted, Bool.and_eq_true, Bool.and_eq_true] at h
  obtain ⟨⟨hall, hrange⟩, htexts⟩ := h
  have hmission : c.missionId.encodable = true := by
    rw [List.all_eq_true] at htexts
    exact htexts _ (by simp [Write.texts, AcquireCall.lease])
  have hdelete : ∀ w db', w.texts = [c.missionId] → (∀ db' : Tables, db'.admits w = true) →
      Store.refuses (db' : Tables) w = none := by
    intro w db' htexts hadmits
    rw [refuses_eq_none, htexts]
    exact ⟨by simp [hmission], hadmits db'⟩
  have hinsert : Store.refuses ((c.pruned db).apply (.deleteLease c.missionId))
      (Write.insertLease c.leaseId (c.lease digest)) = none ↔ c.fresh db = true := by
    rw [refuses_eq_none]
    have hnone : (((c.pruned db).apply (.deleteLease c.missionId)).leases.values.any
        fun l' => decide (l'.missionId = c.missionId)) = false := by
      rw [List.any_eq_false]
      intro l hl heq
      obtain ⟨k, hk⟩ := Dict.mem_values_iff.mp hl
      exact of_decide_eq_true (Dict.get?_filter.mp hk).2 (of_decide_eq_true heq)
    show _ ∧ (!_ && !_) = true ↔ _
    constructor
    · intro ⟨_, hadmits⟩
      exact (Bool.and_eq_true _ _ ▸ hadmits).1
    · intro hfresh
      refine ⟨htexts, ?_⟩
      rw [Bool.and_eq_true]
      exact ⟨hfresh, by rw [Bool.not_eq_true']; exact hnone⟩
  obtain ⟨hheld, -⟩ | ⟨e, -, hfalse⟩ := notHeld_run (c.pruned db) c.piSessionId
    ((c.pruned db).leaseOf c.missionId)
  · have hrun : ∀ ws r, (exec (.insertLease c.leaseId (c.lease digest)) >>= fun _ =>
          (pure (c.lease digest, c.token) : Operation (Lease × PyStr)))
            ((c.pruned db).apply (.deleteLease c.missionId)) = (ws, r) →
        acquireLease digest c db =
          (.deleteExpired c.missionId c.now :: .deleteLease c.missionId :: ws, r) := by
      intro ws r hrest
      refine exec_bind_eq (hdelete _ _ rfl fun _ => rfl) ?_
      rw [read_bind]
      refine (bind_of_ok hheld).trans ?_
      rw [check_of_true hrange, Txn.pure_bind, check_of_true htexts, Txn.pure_bind]
      show (_, _) = _
      rw [after_nil, exec_bind_eq (hdelete (.deleteLease c.missionId) _ rfl fun _ => rfl) hrest]
      rfl
    cases hfresh : c.fresh db with
    | true =>
      rw [hrun _ _ (exec_bind_of_accepted (hinsert.mpr hfresh))]
      exact ⟨rfl, rfl⟩
    | false =>
      cases hrefused : Store.refuses ((c.pruned db).apply (.deleteLease c.missionId))
          (Write.insertLease c.leaseId (c.lease digest)) with
      | none =>
        rw [hinsert.mp hrefused] at hfresh
        cases hfresh
      | some e =>
        rw [hrun _ _ (exec_bind_of_refused hrefused)]
        exact ⟨rfl, rfl⟩
  · rw [hall] at hfalse
    cases hfalse

theorem leaseFor_eq_some (h : db.leaseFor m s = some (k, l)) :
    db.leases.get? k = some l ∧ l.missionId = m ∧ l.piSessionId = s :=
  ⟨Dict.mem_entries_iff.mp (List.mem_of_find?_eq_some h), by simpa using List.find?_some h⟩

variable (digest db) in
theorem heartbeat_writes (c : TokenCall) (now now' : Int) :
    (heartbeatLease digest c now now' db).1 = [] ∨ ∃ k l, db.leases.get? k = some l ∧
      l.missionId = c.missionId ∧ l.piSessionId = c.piSessionId ∧ l.tokenHash = digest c.token ∧
      (heartbeatLease digest c now now' db).1 = [.beat k now' (now' + leaseTtl)] ∧
      (heartbeatLease digest c now now' db).2.toBool = true := by
  rw [heartbeatLease]
  rcases check_bind_cases ([c.token, c.missionId, c.piSessionId].all PyStr.encodable)
    BindingError.unicodeEncodeError _ db with hrun | ⟨-, hrun⟩
  · rw [hrun]
    exact .inl rfl
  · rw [hrun, read_bind]
    cases hlease : db.leaseFor c.missionId c.piSessionId with
    | none => exact .inl rfl
    | some e =>
      obtain ⟨k, l⟩ := e
      obtain ⟨hget, hmission, hsession⟩ := leaseFor_eq_some hlease
      dsimp only
      rcases check_bind_cases (decide (l.tokenHash = digest c.token)) tokenMismatch _ db
        with hrun | ⟨htoken, hrun⟩
      · rw [hrun]
        exact .inl rfl
      rw [hrun]
      rcases check_bind_cases (decide ¬ l.expiresAt < now) leaseExpired _ db with hrun | ⟨-, hrun⟩
      · rw [hrun]
        exact .inl rfl
      rw [hrun]
      rcases check_bind_cases (inRange (now' + leaseTtl)) .overflowError _ db with hrun | ⟨-, hrun⟩
      · rw [hrun]
        exact .inl rfl
      rw [hrun]
      rcases exec_bind_cases (Write.beat k now' (now' + leaseTtl)) _ db with ⟨e, -, hrun⟩ | ⟨-, hrun⟩
      · rw [hrun]
        exact .inl rfl
      · rw [hrun]
        exact .inr ⟨k, l, hget, hmission, hsession, of_decide_eq_true htoken, rfl, rfl⟩

variable (digest db) in
theorem release_writes (c : TokenCall) : (releaseLease digest c db).1 = [] ∨
      (releaseLease digest c db).1 = [.release c.missionId c.piSessionId (digest c.token)] ∧
        (releaseLease digest c db).2.toBool = true := by
  rw [releaseLease]
  rcases check_bind_cases c.token.encodable BindingError.unicodeEncodeError _ db
    with hrun | ⟨-, hrun⟩
  · rw [hrun]
    exact .inl rfl
  rw [hrun, read_bind]
  rcases exec_bind_cases (Write.release c.missionId c.piSessionId (digest c.token)) _ db
    with ⟨e, -, hrun⟩ | ⟨-, hrun⟩
  · rw [hrun]
    exact .inl rfl
  · rw [hrun]
    exact .inr ⟨rfl, rfl⟩

variable (db) in
theorem detach_writes (k : PyStr) :
    (detach k db).1 = [] ∨ (detach k db).1 = [.detach k] ∧ (detach k db).2.toBool = true := by
  cases hw : Store.refuses db (Write.detach k) with
  | some e =>
    rw [detach, exec_of_refused hw]
    exact .inl rfl
  | none =>
    rw [detach, exec_of_accepted hw]
    exact .inr ⟨rfl, rfl⟩

end Lease

end Runs

end Rosclaw.PiSession
