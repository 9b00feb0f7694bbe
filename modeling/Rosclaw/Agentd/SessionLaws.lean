/-
What the session bindings and writer leases promise, step by step, in every run.

* `unique_of_reachable` — uniqueness holds in every run;
* `step_laws` — at a step of any run the laws hold if and only if the step is undivided;
* `failed_bind_detaches` — a step that is not, in a run.
-/
import Rosclaw.Agentd.SessionBinding

namespace Rosclaw.PiSession

open Txn

def Label.time (l : Label) (s : State) : Int := l.call.times.elim s.clock Prod.fst

def Call.token : Call → Option TokenCall
  | .heartbeat c _ _ => some c
  | .release c => some c
  | _ => none

def WrongToken (digest : PyStr → PyStr) (db : Tables) (c : TokenCall) : Prop :=
  ∀ k l, db.leases.get? k = some l → l.missionId = c.missionId →
    l.piSessionId = c.piSessionId → l.tokenHash ≠ digest c.token

structure StepLaws (digest : PyStr → PyStr) (s : State) (l : Label) (s' : State) : Prop where
  unique : Unique s'.tables
  /-- another session does not touch a lease that has not expired -/
  held : ∀ k lease, s.tables.leases.get? k = some lease → ¬ lease.expiresAt < l.time s →
    l.call.session ≠ some lease.piSessionId → s'.tables.leases.get? k = some lease
  token : ∀ c, l.call.token = some c → WrongToken digest s.tables c → s'.tables = s.tables
  /-- a call that fails leaves the ACTIVE bindings and the unexpired leases in force -/
  failure : Failed digest s.tables l →
    (∀ k b, s.tables.bindings.get? k = some b → b.status = .active →
      s'.tables.bindings.get? k = some b) ∧
    ∀ k lease, s.tables.leases.get? k = some lease → ¬ lease.expiresAt < l.time s →
      s'.tables.leases.get? k = some lease

def BindCall.Detaches (c : BindCall) (db : Tables) : Prop :=
  c.reaches db = true ∧ ∃ k b, db.bindings.get? k = some b ∧ b.status = .active ∧
    b.missionId = c.missionId ∧ b.piSessionId ≠ c.piSessionId

/-- The call replaces a lease that has not expired; it is the lease of the same session. -/
def AcquireCall.Replaces (digest : PyStr → PyStr) (c : AcquireCall) (db : Tables) : Prop :=
  c.granted digest db = true ∧ ∃ k lease, db.leases.get? k = some lease ∧
    lease.missionId = c.missionId ∧ ¬ lease.expiresAt < c.now

/-- A binding or a lease is taken away only when the new one is put in its place. -/
def Undivided (digest : PyStr → PyStr) (s : State) (l : Label) : Prop :=
  match l.call with
  | .bind c => c.Detaches s.tables →
      l.stop = some 0 ∨ l.stop ≠ some 1 ∧ c.fresh s.tables = true
  | .acquire c => c.Replaces digest s.tables →
      l.stop = some 0 ∨ l.stop = some 1 ∨ l.stop ≠ some 2 ∧ c.fresh s.tables = true
  | _ => True

section Statements
variable {db : Tables}

/-- Statements that are no `INSERT` keep the rows unique. -/
theorem unique_cut (h : Unique db) (stop : Option Nat) {ws : List Write}
    (hws : ∀ w ∈ ws, (∀ k b, w ≠ .insertBinding k b) ∧ ∀ k l, w ≠ .insertLease k l) :
    Unique (after db (cut stop ws)) :=
  after_cut_of_kept stop h fun w hw db' h' =>
    h'.fewer (fewer_apply db' (hws w hw).1 (hws w hw).2)

/-- A call of `bind` keeps the rows unique, wherever it stops. -/
theorem unique_bind (h : Unique db) (c : BindCall) (stop : Option Nat) :
    Unique (after db (cut stop (bind c db).1)) := by
  cases hreaches : c.reaches db with
  | false =>
    rw [bind_of_not_reaches hreaches, cut_nil]
    exact h
  | true =>
    have hexisting : db.bindingForSession c.piSessionId = none := by
      rw [BindCall.reaches, Bool.and_eq_true, Bool.and_eq_true] at hreaches
      exact Option.isNone_iff_eq_none.mp hreaches.1.2
    have hfewer := fewer_apply db (w := .detachOthers c.missionId c.piSessionId) (by simp) (by simp)
    have hdetached := h.fewer hfewer
    rw [(bind_of_reaches hreaches).1]
    cases c.fresh db with
    | false =>
      refine after_cut_append [_] [] (whole_of_le_one stop le_rfl) h ?_
      rw [cut_nil]
      exact hdetached
    | true =>
      refine after_cut_append [_] [_] (whole_of_le_one stop le_rfl) h ?_
      refine after_cut_append [_] [] (whole_of_le_one _ le_rfl) hdetached ?_
      rw [cut_nil]
      refine unique_insertBinding hdetached c.bindingId ?_ ?_
      · intro k b hb hs
        exact bindingForSession_eq_none hexisting k b
          (hfewer.bindings k b hb (activeSession_eq_some.mp hs).1) hs
      · -- the `UPDATE` has detached the mission from every other session
        intro k b hb hm
        obtain ⟨hactive, hmission⟩ := activeMission_eq_some.mp hm
        obtain ⟨b', hb', rfl⟩ := Option.map_eq_some_iff.mp ((Dict.get?_mapVals ..).symm.trans hb)
        split at hactive
        · cases hactive
        · next hnot =>
          rw [if_neg hnot] at hmission
          refine bindingForSession_eq_none hexisting k b' hb' (activeSession_eq_some.mpr ⟨hactive, ?_⟩)
          by_contra hother
          exact hnot ⟨hmission, hother, hactive⟩

theorem unique_acquire (h : Unique db) (digest : PyStr → PyStr) (c : AcquireCall)
    (stop : Option Nat) : Unique (after db (cut stop (acquireLease digest c db).1)) := by
  cases hgranted : c.granted digest db with
  | false =>
    rcases (acquire_of_not_granted hgranted).1 with hnil | hone
    · rw [hnil, cut_nil]
      exact h
    · rw [hone]
      exact unique_cut h stop (by simp)
  | true =>
    have hpruned := h.fewer (fewer_apply db (w := .deleteExpired c.missionId c.now) (by simp)
      (by simp))
    have hdeleted := hpruned.fewer (fewer_apply _ (w := .deleteLease c.missionId) (by simp)
      (by simp))
    rw [(acquire_of_granted hgranted).1]
    cases c.fresh db with
    | false =>
      refine after_cut_append [_] [_] (whole_of_le_one stop le_rfl) h ?_
      refine after_cut_append [_] [] (whole_of_le_one _ le_rfl) hpruned ?_
      rw [cut_nil]
      exact hdeleted
    | true =>
      refine after_cut_append [_] [_, _] (whole_of_le_one stop le_rfl) h ?_
      refine after_cut_append [_] [_] (whole_of_le_one _ le_rfl) hpruned ?_
      refine after_cut_append [_] [] (whole_of_le_one _ le_rfl) hdeleted ?_
      rw [cut_nil]
      refine unique_insertLease hdeleted c.leaseId ?_
      intro k l hl
      exact of_decide_eq_true (Dict.get?_filter.mp hl).2

/-- **A call keeps the rows unique**, wherever it stops. -/
theorem unique_run (h : Unique db) (digest : PyStr → PyStr) (c : Call) (stop : Option Nat) :
    Unique (after db (cut stop (c.run digest db).1)) := by
  cases c with
  | bind c => exact unique_bind h c stop
  | acquire c => exact unique_acquire h digest c stop
  | detach k =>
    show Unique (after db (cut stop (detach k db).1))
    rcases detach_writes db k with hnil | ⟨hone, -⟩
    · rw [hnil, cut_nil]
      exact h
    · rw [hone]
      exact unique_cut h stop (by simp)
  | heartbeat c now now' =>
    show Unique (after db (cut stop (heartbeatLease digest c now now' db).1))
    rcases heartbeat_writes db digest c now now' with hnil | ⟨k, l, -, -, -, -, hone, -⟩
    · rw [hnil, cut_nil]
      exact h
    · rw [hone]
      exact unique_cut h stop (by simp)
  | release c =>
    show Unique (after db (cut stop (releaseLease digest c db).1))
    rcases release_writes db digest c with hnil | ⟨hone, -⟩
    · rw [hnil, cut_nil]
      exact h
    · rw [hone]
      exact unique_cut h stop (by simp)

/-! ### What a statement leaves as it is -/

variable {k : PyStr} {lease : Lease}

variable {digest : PyStr → PyStr} {w : Write}

theorem lease_kept (hget : db.leases.get? k = some lease) (hinsert : ∀ l, w ≠ .insertLease k l)
    (hbeat : ∀ now expires, w ≠ .beat k now expires)
    (hexpired : ∀ now, w = .deleteExpired lease.missionId now → ¬ lease.expiresAt < now)
    (hdelete : w ≠ .deleteLease lease.missionId)
    (hrelease : w ≠ .release lease.missionId lease.piSessionId lease.tokenHash) :
    (db.apply w).leases.get? k = some lease := by
  cases w with
  | detachOthers m s => exact hget
  | insertBinding k b => exact hget
  | detach k => exact hget
  | deleteExpired m now =>
    refine Dict.get?_filter.mpr ⟨hget, decide_eq_true ?_⟩
    rintro ⟨rfl, hlt⟩
    exact hexpired now rfl hlt
  | deleteLease m =>
    refine Dict.get?_filter.mpr ⟨hget, decide_eq_true ?_⟩
    rintro rfl
    exact hdelete rfl
  | insertLease k' l =>
    refine (Dict.get?_set_of_ne _ _ ?_).trans hget
    rintro rfl
    exact hinsert l rfl
  | beat k' now expires =>
    refine (Dict.get?_mapVals ..).trans ?_
    rw [hget, Option.map_some, if_neg]
    rintro rfl
    exact hbeat now expires rfl
  | release m s h =>
    refine Dict.get?_filter.mpr ⟨hget, decide_eq_true ?_⟩
    rintro ⟨rfl, rfl, rfl⟩
    exact hrelease rfl

/-- The statements of `bind` touch no lease, those of the other calls no binding. -/
theorem leases_bind (c : BindCall) (stop : Option Nat) :
    (after db (cut stop (bind c db).1)).leases = db.leases := by
  cases hreaches : c.reaches db with
  | false => rw [bind_of_not_reaches hreaches, cut_nil, after_nil]
  | true =>
    rw [(bind_of_reaches hreaches).1]
    refine after_cut_of_kept (P := fun db' : Tables => db'.leases = db.leases) stop rfl ?_
    intro w hw db' h'
    have hw' : w = .detachOthers c.missionId c.piSessionId ∨
        w = .insertBinding c.bindingId c.binding := by
      cases hfresh : c.fresh db with
      | false => exact .inl (by simpa [hfresh] using hw)
      | true => simpa [hfresh] using hw
    rcases hw' with rfl | rfl <;> exact h'

/-! ### `acquire_lease` and the leases -/

variable {c : AcquireCall}

theorem pruned_kept (hget : db.leases.get? k = some lease) (hforce : ¬ lease.expiresAt < c.now) :
    (c.pruned db).leases.get? k = some lease := by
  refine lease_kept hget (by simp) (by simp) ?_ (by simp) (by simp)
  intro now heq
  obtain ⟨-, rfl⟩ := Write.deleteExpired.inj heq
  exact hforce

theorem acquire_other_mission (hget : db.leases.get? k = some lease)
    (hmission : lease.missionId ≠ c.missionId) (stop : Option Nat) :
    (after db (cut stop (acquireLease digest c db).1)).leases.get? k = some lease := by
  have hdelete : ∀ db' : Tables, db'.leases.get? k = some lease →
      (db'.apply (.deleteExpired c.missionId c.now)).leases.get? k = some lease ∧
        (db'.apply (.deleteLease c.missionId)).leases.get? k = some lease := by
    intro db' h'
    constructor
    · refine lease_kept h' (by simp) (by simp) ?_ (by simp) (by simp)
      intro now heq
      exact absurd (Write.deleteExpired.inj heq).1.symm hmission
    · refine lease_kept h' (by simp) (by simp) (by simp) ?_ (by simp)
      intro heq
      exact hmission (Write.deleteLease.inj heq).symm
  cases hgranted : c.granted digest db with
  | false =>
    rcases (acquire_of_not_granted hgranted).1 with hnil | hone
    · rw [hnil, cut_nil]
      exact hget
    · rw [hone]
      refine after_cut_append (P := fun db' : Tables => db'.leases.get? k = some lease) [_] []
        (whole_of_le_one stop le_rfl) hget ?_
      rw [cut_nil]
      exact (hdelete db hget).1
  | true =>
    have hpruned := (hdelete db hget).1
    have hdeleted := (hdelete _ hpruned).2
    rw [(acquire_of_granted hgranted).1]
    cases hfresh : c.fresh db with
    | false =>
      refine after_cut_append (P := fun db' : Tables => db'.leases.get? k = some lease) [_] [_]
        (whole_of_le_one stop le_rfl) hget ?_
      refine after_cut_append (P := fun db' : Tables => db'.leases.get? k = some lease) [_] []
        (whole_of_le_one _ le_rfl) hpruned ?_
      rw [cut_nil]
      exact hdeleted
    | true =>
      refine after_cut_append (P := fun db' : Tables => db'.leases.get? k = some lease) [_] [_, _]
        (whole_of_le_one stop le_rfl) hget ?_
      refine after_cut_append (P := fun db' : Tables => db'.leases.get? k = some lease) [_] [_]
        (whole_of_le_one _ le_rfl) hpruned ?_
      refine after_cut_append (P := fun db' : Tables => db'.leases.get? k = some lease) [_] []
        (whole_of_le_one _ le_rfl) hdeleted ?_
      rw [cut_nil]
      -- the id of the new lease is not the one of this lease, which is still there
      refine lease_kept hdeleted (w := .insertLease c.leaseId (c.lease digest)) ?_ (by simp)
        (by simp) (by simp) (by simp)
      intro l heq
      have hid : k = c.leaseId := (Write.insertLease.inj heq).1.symm
      rw [AcquireCall.fresh, Bool.not_eq_true', ← hid, Dict.contains, AcquireCall.pruned,
        hdeleted] at hfresh
      cases hfresh

theorem acquire_not_granted (hgranted : c.granted digest db = false)
    (hget : db.leases.get? k = some lease) (hforce : ¬ lease.expiresAt < c.now)
    (stop : Option Nat) :
    (after db (cut stop (acquireLease digest c db).1)).leases.get? k = some lease := by
  rcases (acquire_of_not_granted hgranted).1 with hnil | hone
  · rw [hnil, cut_nil]
    exact hget
  · rw [hone]
    refine after_cut_append (P := fun db' : Tables => db'.leases.get? k = some lease) [_] []
      (whole_of_le_one stop le_rfl) hget ?_
    rw [cut_nil]
    exact pruned_kept hget hforce

theorem granted_holder (h : Unique db) (hgranted : c.granted digest db = true)
    (hget : db.leases.get? k = some lease) (hmission : lease.missionId = c.missionId)
    (hforce : ¬ lease.expiresAt < c.now) : lease.piSessionId = c.piSessionId := by
  have hpruned := pruned_kept hget hforce
  have hunique := h.fewer (fewer_apply db (w := .deleteExpired c.missionId c.now) (by simp)
    (by simp))
  rw [AcquireCall.granted, Bool.and_eq_true, Bool.and_eq_true] at hgranted
  cases hheld : (c.pruned db).leaseOf c.missionId with
  | none => exact absurd hmission (leaseOf_eq_none.mp hheld k lease hpruned)
  | some e =>
    obtain ⟨k', l'⟩ := e
    obtain ⟨hget', hmission'⟩ := leaseOf_eq_some hheld
    have hk := hunique.lease k k' lease l' c.missionId hpruned hget' (congrArg some hmission)
      (congrArg some hmission')
    subst hk
    obtain rfl := Option.some_inj.mp (hpruned.symm.trans hget')
    have hall := hgranted.1.1
    rw [hheld] at hall
    exact of_decide_eq_true hall

/-- **A lease in force is safe from other sessions.** -/
theorem acquire_held (h : Unique db) (hget : db.leases.get? k = some lease)
    (hforce : ¬ lease.expiresAt < c.now) (hsession : lease.piSessionId ≠ c.piSessionId)
    (stop : Option Nat) :
    (after db (cut stop (acquireLease digest c db).1)).leases.get? k = some lease := by
  by_cases hmission : lease.missionId = c.missionId
  · cases hgranted : c.granted digest db with
    | false => exact acquire_not_granted hgranted hget hforce stop
    | true => exact absurd (granted_holder h hgranted hget hmission hforce) hsession
  · exact acquire_other_mission hget hmission stop

/-! ### Calls that fail -/

/-- A binding in force is lost by `bind` at its `UPDATE` only. -/
theorem bind_binding_kept {c : BindCall} {b : Binding}
    (hget : db.bindings.get? k = some b) (hactive : b.status = .active)
    (hother : ¬ c.Detaches db) (stop : Option Nat) :
    (after db (cut stop (bind c db).1)).bindings.get? k = some b := by
  cases hreaches : c.reaches db with
  | false =>
    rw [bind_of_not_reaches hreaches, cut_nil]
    exact hget
  | true =>
    have hupdated : (db.apply (.detachOthers c.missionId c.piSessionId)).bindings.get? k = some b := by
      refine (Dict.get?_mapVals ..).trans ?_
      rw [hget, Option.map_some, if_neg]
      rintro ⟨hmission, hsession, -⟩
      exact hother ⟨hreaches, k, b, hget, hactive, hmission, hsession⟩
    rw [(bind_of_reaches hreaches).1]
    cases hfresh : c.fresh db with
    | false =>
      refine after_cut_append (P := fun db' : Tables => db'.bindings.get? k = some b) [_] []
        (whole_of_le_one stop le_rfl) hget ?_
      rw [cut_nil]
      exact hupdated
    | true =>
      refine after_cut_append (P := fun db' : Tables => db'.bindings.get? k = some b) [_] [_]
        (whole_of_le_one stop le_rfl) hget ?_
      refine after_cut_append (P := fun db' : Tables => db'.bindings.get? k = some b) [_] []
        (whole_of_le_one _ le_rfl) hupdated ?_
      rw [cut_nil]
      refine (Dict.get?_set_of_ne _ _ ?_).trans hupdated
      rintro rfl
      rw [BindCall.fresh, Bool.not_eq_true', Dict.contains, hget] at hfresh
      cases hfresh

/-- The statements of `acquire_lease` touch no binding. -/
theorem bindings_acquire (digest : PyStr → PyStr) (c : AcquireCall) (stop : Option Nat) :
    (after db (cut stop (acquireLease digest c db).1)).bindings = db.bindings := by
  refine after_cut_of_kept (P := fun db' : Tables => db'.bindings = db.bindings) stop rfl ?_
  intro w hw db' h'
  have hw' : w = .deleteExpired c.missionId c.now ∨ w = .deleteLease c.missionId ∨
      w = .insertLease c.leaseId (c.lease digest) := by
    cases hgranted : c.granted digest db with
    | false =>
      rcases (acquire_of_not_granted hgranted).1 with hnil | hone
      · rw [hnil] at hw
        cases hw
      · rw [hone] at hw
        exact .inl (List.mem_singleton.mp hw)
    | true =>
      rw [(acquire_of_granted hgranted).1] at hw
      cases hfresh : c.fresh db with
      | false => simpa [hfresh, or_assoc] using Or.inl (b := w = .insertLease c.leaseId _) hw
      | true => simpa [hfresh] using hw
  rcases hw' with rfl | rfl | rfl <;> exact h'

theorem cut_single {l : Label} (hone : (l.call.run digest db).1 = [w])
    (hok : (l.call.run digest db).2 = true) (hfailed : Failed digest db l) :
    cut l.stop (l.call.run digest db).1 = [] := by
  rcases hfailed with hfalse | ⟨k, hstop, hk⟩
  · rw [hok] at hfalse
    cases hfalse
  · rw [hone] at hk ⊢
    obtain rfl : k = 0 := by simpa using hk
    rw [hstop, cut_zero]

end Statements

/-! ### The laws -/

section Laws
variable {digest : PyStr → PyStr} {s s' : State} {l : Label}

theorem step_tables (hstep : (sessions digest).step s l = some s') :
    s'.tables = after s.tables (cut l.stop (l.call.run digest s.tables).1) := by
  obtain ⟨clock, -, rfl⟩ := Option.map_eq_some_iff.mp hstep
  rfl

theorem unique_of_reachable (hs : (sessions digest).Reachable s) : Unique s.tables := by
  refine hs.invariant (P := fun s : State => Unique s.tables) ?_ ?_
  · intro s hinit
    show Unique s.tables
    rw [show s.tables = ⟨∅, ∅⟩ from hinit]
    exact ⟨Dict.uniqueBy_empty _, Dict.uniqueBy_empty _, Dict.uniqueBy_empty _⟩
  · intro s l s' h _ hstep
    rw [step_tables hstep]
    exact unique_run h digest l.call l.stop

theorem held_of_step (h : Unique s.tables) (hstep : (sessions digest).step s l = some s')
    {k : PyStr} {lease : Lease} (hget : s.tables.leases.get? k = some lease)
    (hforce : ¬ lease.expiresAt < l.time s) (hsession : l.call.session ≠ some lease.piSessionId) :
    s'.tables.leases.get? k = some lease := by
  rw [step_tables hstep]
  obtain ⟨call, stop⟩ := l
  cases call with
  | bind c =>
    show (after s.tables (cut stop (bind c s.tables).1)).leases.get? k = some lease
    rw [leases_bind]
    exact hget
  | acquire c =>
    exact acquire_held h hget hforce (fun heq => hsession (congrArg some heq.symm)) stop
  | detach k' =>
    show (after s.tables (cut stop (detach k' s.tables).1)).leases.get? k = some lease
    rcases detach_writes s.tables k' with hnil | ⟨hone, -⟩
    · rw [hnil, cut_nil]
      exact hget
    · rw [hone]
      refine after_cut_of_kept (P := fun db' : Tables => db'.leases.get? k = some lease) stop hget ?_
      simp only [List.mem_singleton]
      rintro w rfl db' h'
      exact h'
  | heartbeat c now now' =>
    show (after s.tables (cut stop (heartbeatLease digest c now now' s.tables).1)).leases.get? k = _
    rcases heartbeat_writes s.tables digest c now now' with hnil | ⟨k', l', hk', -, hs', -, hone, -⟩
    · rw [hnil, cut_nil]
      exact hget
    · rw [hone]
      refine after_cut_of_kept (P := fun db' : Tables => db'.leases.get? k = some lease) stop hget ?_
      simp only [List.mem_singleton]
      rintro w rfl db' h'
      refine lease_kept h' (by simp) ?_ (by simp) (by simp) (by simp)
      intro now₁ expires heq
      -- the lease of the heartbeat is one of the calling session
      obtain ⟨rfl, -⟩ := Write.beat.inj heq
      obtain rfl := Option.some_inj.mp (hget.symm.trans hk')
      exact hsession (congrArg some hs'.symm)
  | release c =>
    show (after s.tables (cut stop (releaseLease digest c s.tables).1)).leases.get? k = _
    rcases release_writes s.tables digest c with hnil | ⟨hone, -⟩
    · rw [hnil, cut_nil]
      exact hget
    · rw [hone]
      refine after_cut_of_kept (P := fun db' : Tables => db'.leases.get? k = some lease) stop hget ?_
      simp only [List.mem_singleton]
      rintro w rfl db' h'
      refine lease_kept h' (by simp) (by simp) (by simp) (by simp) ?_
      intro heq
      exact hsession (congrArg some (Write.release.inj heq).2.1)

theorem token_of_step (hstep : (sessions digest).step s l = some s') {c : TokenCall}
    (htoken : l.call.token = some c) (hwrong : WrongToken digest s.tables c) :
    s'.tables = s.tables := by
  rw [step_tables hstep]
  obtain ⟨call, stop⟩ := l
  cases call with
  | bind c' => cases htoken
  | detach k => cases htoken
  | acquire c' => cases htoken
  | heartbeat c' now now' =>
    obtain rfl := Option.some_inj.mp htoken
    show after s.tables (cut stop (heartbeatLease digest c' now now' s.tables).1) = _
    rcases heartbeat_writes s.tables digest c' now now' with hnil | ⟨k, l, hk, hm, hs, hhash, -⟩
    · rw [hnil, cut_nil, after_nil]
    · exact absurd hhash (hwrong k l hk hm hs)
  | release c' =>
    obtain rfl := Option.some_inj.mp htoken
    show after s.tables (cut stop (releaseLease digest c' s.tables).1) = _
    rcases release_writes s.tables digest c' with hnil | ⟨hone, -⟩
    · rw [hnil, cut_nil, after_nil]
    · rw [hone]
      refine after_cut_of_kept (P := fun db' : Tables => db' = s.tables) stop rfl ?_
      simp only [List.mem_singleton]
      rintro w rfl db' rfl
      show ({ s.tables with leases := s.tables.leases.filter _ } : Tables) = s.tables
      rw [Dict.filter_eq_self]
      intro k l hk
      refine decide_eq_true ?_
      rintro ⟨hm, hs, hhash⟩
      exact hwrong k l hk hm hs hhash

theorem failure_of_undivided (hundivided : Undivided digest s l)
    (hstep : (sessions digest).step s l = some s') (hfailed : Failed digest s.tables l) :
    (∀ k b, s.tables.bindings.get? k = some b → b.status = .active →
      s'.tables.bindings.get? k = some b) ∧
    ∀ k lease, s.tables.leases.get? k = some lease → ¬ lease.expiresAt < l.time s →
      s'.tables.leases.get? k = some lease := by
  rw [step_tables hstep]
  -- a call that has executed nothing leaves everything as it is
  have hnothing : cut l.stop (l.call.run digest s.tables).1 = [] →
      (∀ k b, s.tables.bindings.get? k = some b → b.status = .active →
        (after s.tables (cut l.stop (l.call.run digest s.tables).1)).bindings.get? k = some b) ∧
      ∀ k lease, s.tables.leases.get? k = some lease → ¬ lease.expiresAt < l.time s →
        (after s.tables (cut l.stop (l.call.run digest s.tables).1)).leases.get? k = some lease := by
    intro hnil
    rw [hnil]
    exact ⟨fun k b hb _ => hb, fun k lease hl _ => hl⟩
  obtain ⟨call, stop⟩ := l
  cases call with
  | bind c =>
    refine ⟨?_, ?_⟩
    · intro k b hb hactive
      by_cases hdetaches : c.Detaches s.tables
      · -- the binding that is detached is replaced: the call has not failed, or not begun
        rcases hundivided hdetaches with hstop | ⟨hstop, hfresh⟩
        · refine (hnothing ?_).1 k b hb hactive
          rw [show stop = some 0 from hstop, cut_zero]
        · have hrun := bind_of_reaches hdetaches.1
          rw [hfresh] at hrun
          rcases hfailed with hfalse | ⟨n, hn, hlt⟩
          · exact absurd (hrun.2.symm.trans hfalse) (by simp)
          · have hlt' : n < (bind c s.tables).1.length := hlt
            rw [hrun.1] at hlt'
            have hn' : stop = some n := hn
            have hle : n < 2 := hlt'
            have hzero : n = 0 := by
              have hne : n ≠ 1 := fun heq => hstop (by rw [← heq]; exact hn')
              omega
            refine (hnothing ?_).1 k b hb hactive
            rw [show stop = some 0 by rw [hn', hzero], cut_zero]
      · exact bind_binding_kept hb hactive hdetaches stop
    · intro k lease hl _
      show (after s.tables (cut stop (bind c s.tables).1)).leases.get? k = some lease
      rw [leases_bind]
      exact hl
  | acquire c =>
    refine ⟨?_, ?_⟩
    · intro k b hb _
      show (after s.tables (cut stop (acquireLease digest c s.tables).1)).bindings.get? k = some b
      rw [bindings_acquire]
      exact hb
    · intro k lease hl hforce
      have hforce : ¬ lease.expiresAt < c.now := hforce
      show (after s.tables (cut stop (acquireLease digest c s.tables).1)).leases.get? k = some lease
      by_cases hmission : lease.missionId = c.missionId
      · cases hgranted : c.granted digest s.tables with
        | false => exact acquire_not_granted hgranted hl hforce stop
        | true =>
          have hrun := acquire_of_granted hgranted
          have hcut : stop = some 0 ∨ stop = some 1 := by
            rcases hundivided ⟨hgranted, k, lease, hl, hmission, hforce⟩ with h₀ | h₁ | ⟨h₂, hfresh⟩
            · exact .inl h₀
            · exact .inr h₁
            · rw [hfresh] at hrun
              rcases hfailed with hfalse | ⟨n, hn, hlt⟩
              · exact absurd (hrun.2.symm.trans hfalse) (by simp)
              · have hlt' : n < (acquireLease digest c s.tables).1.length := hlt
                rw [hrun.1] at hlt'
                have hle : n < 3 := hlt'
                have hn' : stop = some n := hn
                have hne : n ≠ 2 := fun heq => h₂ (by rw [← heq]; exact hn')
                rw [hn', Option.some_inj, Option.some_inj]
                omega
          rw [hrun.1]
          rcases hcut with rfl | rfl
          · exact hl
          · exact pruned_kept hl hforce
      · exact acquire_other_mission hl hmission stop
  | detach k =>
    refine hnothing ?_
    rcases detach_writes s.tables k with hnil | ⟨hone, hok⟩
    · show cut stop (detach k s.tables).1 = []
      rw [hnil, cut_nil]
    · exact cut_single hone hok hfailed
  | heartbeat c now now' =>
    refine hnothing ?_
    rcases heartbeat_writes s.tables digest c now now' with hnil | ⟨k, l, -, -, -, -, hone, hok⟩
    · show cut stop (heartbeatLease digest c now now' s.tables).1 = []
      rw [hnil, cut_nil]
    · exact cut_single hone hok hfailed
  | release c =>
    refine hnothing ?_
    rcases release_writes s.tables digest c with hnil | ⟨hone, hok⟩
    · show cut stop (releaseLease digest c s.tables).1 = []
      rw [hnil, cut_nil]
    · exact cut_single hone hok hfailed

theorem undivided_of_failure (hstep : (sessions digest).step s l = some s')
    (hfailure : Failed digest s.tables l →
      (∀ k b, s.tables.bindings.get? k = some b → b.status = .active →
        s'.tables.bindings.get? k = some b) ∧
      ∀ k lease, s.tables.leases.get? k = some lease → ¬ lease.expiresAt < l.time s →
        s'.tables.leases.get? k = some lease) : Undivided digest s l := by
  rw [step_tables hstep] at hfailure
  obtain ⟨call, stop⟩ := l
  cases call with
  | bind c =>
    rintro ⟨hreaches, k, b, hb, hactive, hmission, hsession⟩
    by_contra hnot
    rw [not_or, not_and_or, not_not, Bool.not_eq_true] at hnot
    obtain ⟨hzero, hone⟩ := hnot
    obtain ⟨hrun, hok⟩ := bind_of_reaches hreaches
    -- the call stops between its two statements
    have hcut : cut stop (bind c s.tables).1 = [.detachOthers c.missionId c.piSessionId] := by
      rw [hrun, cut_cons hzero]
      rcases hone with hstop | hfresh
      · rw [(past_one hzero).mpr hstop, cut_zero]
      · rw [hfresh]
        exact congrArg _ (cut_nil _)
    have hfailed : Failed digest s.tables ⟨.bind c, stop⟩ := by
      cases hfresh : c.fresh s.tables with
      | false => exact .inl (hok.trans hfresh)
      | true =>
        rcases hone with hstop | hnot
        · refine .inr ⟨1, hstop, ?_⟩
          show 1 < (bind c s.tables).1.length
          rw [hrun, hfresh]
          exact Nat.one_lt_two
        · rw [hfresh] at hnot
          cases hnot
    have hkept : (after s.tables (cut stop (bind c s.tables).1)).bindings.get? k = some b :=
      (hfailure hfailed).1 k b hb hactive
    rw [hcut] at hkept
    obtain ⟨b', hb', heq⟩ := Option.map_eq_some_iff.mp ((Dict.get?_mapVals ..).symm.trans hkept)
    obtain rfl := Option.some_inj.mp (hb.symm.trans hb')
    rw [if_pos ⟨hmission, hsession, hactive⟩] at heq
    rw [← heq] at hactive
    cases hactive
  | acquire c =>
    rintro ⟨hgranted, k, lease, hl, hmission, hforce⟩
    by_contra hnot
    rw [not_or, not_or, not_and_or, not_not, Bool.not_eq_true] at hnot
    obtain ⟨hzero, hone, htwo⟩ := hnot
    obtain ⟨hrun, hok⟩ := acquire_of_granted hgranted
    have hpast : past stop 1 ≠ some 0 := fun h => hone ((past_one hzero).mp h)
    -- the call stops before its last statement
    have hcut : cut stop (acquireLease digest c s.tables).1 =
        [.deleteExpired c.missionId c.now, .deleteLease c.missionId] := by
      rw [hrun, cut_cons hzero, cut_cons hpast]
      rcases htwo with hstop | hfresh
      · rw [(past_one hpast).mpr ((past_one hzero).mpr hstop), cut_zero]
      · rw [hfresh]
        exact congrArg _ (congrArg _ (cut_nil _))
    have hfailed : Failed digest s.tables ⟨.acquire c, stop⟩ := by
      cases hfresh : c.fresh s.tables with
      | false => exact .inl (hok.trans hfresh)
      | true =>
        rcases htwo with hstop | hnot
        · refine .inr ⟨2, hstop, ?_⟩
          show 2 < (acquireLease digest c s.tables).1.length
          rw [hrun, hfresh]
          exact Nat.lt_succ_self 2
        · rw [hfresh] at hnot
          cases hnot
    have hkept : (after s.tables (cut stop (acquireLease digest c s.tables).1)).leases.get? k =
        some lease := (hfailure hfailed).2 k lease hl hforce
    rw [hcut] at hkept
    exact of_decide_eq_true (Dict.get?_filter.mp hkept).2 hmission
  | detach k => trivial
  | heartbeat c now now' => trivial
  | release c => trivial

/-- **The laws hold at a step** of any run if and only if the step is undivided. -/
theorem step_laws (digest : PyStr → PyStr) {s s' : State} {l : Label}
    (hs : (sessions digest).Reachable s) (hstep : (sessions digest).step s l = some s') :
    StepLaws digest s l s' ↔ Undivided digest s l := by
  have hunique := unique_of_reachable hs
  constructor
  · intro hlaws
    exact undivided_of_failure hstep hlaws.failure
  · intro hundivided
    exact ⟨unique_of_reachable (.step hs trivial hstep),
      fun k lease hget hforce hsession => held_of_step hunique hstep hget hforce hsession,
      fun c htoken hwrong => token_of_step hstep htoken hwrong,
      failure_of_undivided hundivided hstep⟩

end Laws

/-! ### A mission that changes its session -/

def sampleBind (piSessionId bindingId : PyStr) : BindCall :=
  { piSessionId := piSessionId, piSessionPath := "/sessions", missionId := "mis_1"
    bodyId := "sim/ur5e", executionMode := "SIMULATION", createdBy := "user"
    bindingId := bindingId, now := 0 }

def boundState : State :=
  ⟨⟨(∅ : Dict PyStr Binding).set "psb_1" (sampleBind "ses_1" "psb_1").binding, ∅⟩, 0⟩

theorem reachable_boundState (digest : PyStr → PyStr) : (sessions digest).Reachable boundState := by
  have hinit : (sessions digest).Init ⟨⟨∅, ∅⟩, 0⟩ := rfl
  have hstep : (sessions digest).step ⟨⟨∅, ∅⟩, 0⟩ ⟨.bind (sampleBind "ses_1" "psb_1"), none⟩ =
      some boundState := rfl
  exact .step (.init hinit) trivial hstep

/-- The second session takes the mission over. -/
theorem step_laws_takeover : ∃ s',
    (sessions id).step boundState ⟨.bind (sampleBind "ses_2" "psb_2"), none⟩ = some s' ∧
      StepLaws id boundState ⟨.bind (sampleBind "ses_2" "psb_2"), none⟩ s' :=
  ⟨_, rfl, (step_laws id (reachable_boundState id) rfl).mpr fun _ => .inr ⟨by simp, rfl⟩⟩

/-- The second session stops between its two statements: no session is bound any more. -/
theorem failed_bind_detaches : ∃ s s',
    (sessions id).Reachable s ∧
      (sessions id).step s ⟨.bind (sampleBind "ses_2" "psb_2"), some 1⟩ = some s' ∧
      (s.tables.bindingForSession "ses_1").isSome = true ∧
      s'.tables.bindingForSession "ses_1" = none ∧ s'.tables.bindingForSession "ses_2" = none ∧
      ¬ StepLaws id s ⟨.bind (sampleBind "ses_2" "psb_2"), some 1⟩ s' := by
  refine ⟨boundState, _, reachable_boundState id, rfl, rfl, rfl, rfl, ?_⟩
  intro hlaws
  have hlost := (hlaws.failure (.inr ⟨1, rfl, by decide⟩)).1 "psb_1"
    (sampleBind "ses_1" "psb_1").binding rfl rfl
  cases hlost

end Rosclaw.PiSession
