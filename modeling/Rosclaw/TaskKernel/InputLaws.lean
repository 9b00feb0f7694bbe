/-
What the input transactions promise, over every run in which processes are killed
between statements.

* `Undivided` — what has to be executed together is: `INSERT INTO tasks` with all that
  follows up to the binding of the task, and `INSERT INTO task_revisions` with the
  `UPDATE` of the task;
* `coherent_step` — such a call keeps the rows coherent, `input_laws` — so the laws hold
  in every run of such calls;
* `orphaned_revision` — killed in between, a session can never be bound again.
-/
import Rosclaw.Lib.Machine
import Rosclaw.TaskKernel.InputBinding

namespace Rosclaw.TaskKernel

open Txn List Option

/-! ### Runs -/

inductive Operation
  | persist (c : PersistCall)
  | bind (c : BindCall)
  | ensure (c : EnsureCall)

def Operation.writes : Operation → Tables → List Write
  | .persist c, db => (persistInput c db).1
  | .bind c, db => (bindMessage c db).1
  | .ensure c, db => (ensureTaskForEffect c db).1

/-- A call, and after how many of its statements the process is killed, if it is. -/
structure InputStep where
  operation : Operation
  crash : Option Nat := none

def inputs : Machine Tables InputStep where
  Init db := db = .empty
  step db l := some (after db (cut l.crash (l.operation.writes db)))

/-! ### The laws -/

/-- A call for a new message that nothing outside of the kernel stands against. -/
structure BindCall.Valid (c : BindCall) (db : Tables) : Prop where
  new : db.boundTo c.messageId = none
  texts : [c.missionId, c.sessionRef, c.messageId, c.text, c.mode, c.bodyId, c.locale,
    c.outside.workspace, c.outside.taskUuid].all PyStr.encodable = true
  wellFormed : c.WellFormed
  folders : c.outside.folders = true
  manifest : c.outside.manifest = true
  fresh : db.tasks.get? c.outside.taskId = none

structure InputLaws (db : Tables) : Prop where
  /-- a message is attached to one revision of one task at most -/
  messages : Unrepeated db.revisions
  attached : Attached db.inputs db.revisions
  /-- the revisions of a task are exactly `1..active_revision` -/
  numbered : Numbered db.tasks db.revisions
  primary : OnePrimary db.tasks db.bindings
  persistReplayed : ∀ c : PersistCall, (db.inputs.get? c.messageId).isSome = true →
    (persistInput c db).1 = []
  bindReplayed : ∀ c : BindCall, (db.boundTo c.messageId).isSome = true →
    (bindMessage c db).1 = []
  /-- an input that was bound, but not told so, is told; nothing else changes -/
  ensureReplayed : ∀ (c : EnsureCall) (row : PyStr × UserInput) (k : PyStr × Nat),
    db.latestInput c.missionId c.sessionRef = some row → db.boundTo row.1 = some k →
    (ensureTaskForEffect c db).1 = [] ∨
      row.2.taskId = none ∧ (ensureTaskForEffect c db).1 = [.attachInput row.1 k.1]
  /-- the next message is bound -/
  binds : ∀ c : BindCall, c.Valid db →
    ∃ bound, (bindMessage c db).2 = .ok bound ∧ bound.replayed = false

/-! ### The condition -/

def BindCall.Looks (c : BindCall) (db : Tables) : Prop :=
  db.boundTo c.messageId = none ∧
    [c.messageId, c.missionId, c.sessionRef].all PyStr.encodable = true

/-- The branch of the call is not cut short inside of what has to be executed together. -/
def BindCall.branchUndivided (c : BindCall) (db : Tables) (crash : Option Nat) : Prop :=
  match c.continues db with
  | some (_, t) =>
      c.outside.folders = true → (c.revisedSpec t).toBool = true → whole crash 2 = true
  | none =>
      c.outside.folders = true →
      Store.refuses db (.insertTask c.outside.taskId c.task) = none →
      past crash (c.releases db).length = some 0 ∨
        c.WellFormed ∧ whole (past crash (c.releases db).length) 4 = true

/-- The call of `bind_message` that the call makes. -/
def EnsureCall.calls (c : EnsureCall) (db : Tables) : Option BindCall :=
  if (db.latestInput c.missionId c.sessionRef).isNone && c.explicitGoal.isEmpty then none
  else if (db.attachedTask (db.latestInput c.missionId c.sessionRef)).isSome then none
  else some (c.bind (db.latestInput c.missionId c.sessionRef))

/-- The call of `bind_message` of an operation. -/
def Operation.binds : Operation → Tables → Option BindCall
  | .persist _, _ => none
  | .bind c, _ => some c
  | .ensure c, db => c.calls db

/-- No statement of the step is executed without those that belong to it. -/
def Undivided (db : Tables) (l : InputStep) : Prop :=
  ∀ c, l.operation.binds db = some c → c.Looks db → c.branchUndivided db l.crash

/-! ### Statements that keep the rows coherent -/

section Coherent
variable {db : Tables}

theorem coherent_empty : Coherent .empty := by
  refine ⟨?_, ?_, ⟨?_, ?_⟩, ?_, ?_⟩
  · intro tid n
    constructor
    · rintro ⟨r, hr⟩
      cases hr
    · rintro ⟨t, ht, -⟩
      cases ht
  · intro k k' r r' hr
    cases hr
  · intro tid t ht
    cases ht
  · intro tid s b hb
    cases hb
  · intro m i tid hi
    cases hi
  · intro tid t ht
    cases ht

theorem coherent_emit (h : Coherent db) (e : Event) : Coherent (db.apply (.emit e)) :=
  ⟨h.numbered, h.unrepeated, h.primary, h.attached, h.readable⟩

theorem coherent_supersede (h : Coherent db) (tid : PyStr) : Coherent (db.apply (.supersede tid)) :=
  ⟨h.numbered, h.unrepeated, h.primary, h.attached, h.readable⟩

theorem coherent_release (h : Coherent db) (tid s : PyStr) :
    Coherent (db.apply (.releaseBinding tid s)) := by
  have hget : ∀ k : PyStr × PyStr, (∃ b, (db.apply (.releaseBinding tid s)).bindings.get? k = some b ∧
      b.role = "primary") ↔ ∃ b, db.bindings.get? k = some b ∧ b.role = "primary" := by
    intro k
    show (∃ b, (db.bindings.mapVals _).get? k = some b ∧ _) ↔ _
    rw [Dict.get?_mapVals]
    constructor
    · rintro ⟨b, hb, hrole⟩
      obtain ⟨b', hb', rfl⟩ := map_eq_some_iff.mp hb
      refine ⟨b', hb', ?_⟩
      split at hrole <;> exact hrole
    · rintro ⟨b, hb, hrole⟩
      refine ⟨_, map_eq_some_iff.mpr ⟨b, hb, rfl⟩, ?_⟩
      split <;> exact hrole
  refine ⟨h.numbered, h.unrepeated, ⟨?_, ?_⟩, h.attached, h.readable⟩
  · intro tid' t ht
    obtain ⟨s', hs', hother⟩ := h.primary.one tid' t ht
    exact ⟨s', (hget (tid', s')).mpr hs', fun s'' hs'' => hother s'' ((hget (tid', s'')).mp hs'')⟩
  · intro tid' s' b hb
    obtain ⟨b', hb', -⟩ := map_eq_some_iff.mp ((Dict.get?_mapVals ..).symm.trans hb)
    exact h.primary.task tid' s' b' hb'

theorem coherent_insertInput (h : Coherent db) (m : PyStr) {i : UserInput}
    (htask : i.taskId = none) : Coherent (db.apply (.insertInput m i)) := by
  refine ⟨h.numbered, h.unrepeated, h.primary, ?_, h.readable⟩
  intro m' i' tid hi' htid
  have hset : (db.inputs.set m i).get? m' = some i' := hi'
  rw [Dict.get?_set] at hset
  split at hset
  · cases hset
    rw [htask] at htid
    cases htid
  · exact h.attached m' i' tid hset htid

variable {bound : Bound} {crash : Option Nat} {r : Revision} {row : PyStr × UserInput} {t : Task}

theorem coherent_attachInput (h : Coherent db) {m tid : PyStr} {n : Nat}
    (hget : db.revisions.get? (tid, n) = some r) (hm : r.userMessageId = m) :
    Coherent (db.apply (.attachInput m tid)) := by
  refine ⟨h.numbered, h.unrepeated, h.primary, ?_, h.readable⟩
  intro m' i' tid' hi' htid'
  obtain ⟨i, hi, rfl⟩ := map_eq_some_iff.mp ((Dict.get?_mapVals ..).symm.trans hi')
  split at htid'
  · next heq =>
    cases htid'
    exact ⟨n, r, hget, by rw [hm, heq]⟩
  · exact h.attached m' i tid' hi htid'

/-! ### Blocks of statements that keep the rows coherent -/

section Revisions
variable {revisions : Dict (PyStr × Nat) Revision} {k : PyStr × Nat} {r : Revision}

theorem unrepeated_set (h : Unrepeated revisions)
    (hm : ∀ k' r', revisions.get? k' = some r' → r'.userMessageId ≠ r.userMessageId) :
    Unrepeated (revisions.set k r) := by
  intro k₁ k₂ r₁ r₂ h₁ h₂ heq
  rw [Dict.get?_set] at h₁ h₂
  split at h₁
  · next hk₁ =>
    cases h₁
    split at h₂
    · next hk₂ => rw [← hk₁, ← hk₂]
    · exact absurd heq.symm (hm k₂ r₂ h₂)
  · split at h₂
    · cases h₂
      exact absurd heq (hm k₁ r₁ h₁)
    · exact h k₁ k₂ r₁ r₂ h₁ h₂ heq

theorem attached_set {inputs : Dict PyStr UserInput} (h : Attached inputs revisions)
    (hk : revisions.get? k = none) : Attached inputs (revisions.set k r) := by
  intro m i tid hi htid
  obtain ⟨n, r', hget, hm⟩ := h m i tid hi htid
  refine ⟨n, r', ?_, hm⟩
  rw [Dict.get?_set_of_ne _ _ ?_]
  · exact hget
  · rintro rfl
    rw [hk] at hget
    cases hget

end Revisions

variable {c : BindCall}

/-- **A task is opened whole.** -/
theorem coherent_created (h : Coherent db) (hm : db.boundTo c.messageId = none)
    (hadmitted : Store.refuses db (.insertTask c.outside.taskId c.task) = none) :
    Coherent (after db c.created) := by
  obtain ⟨hfree, henc⟩ := task_admitted hadmitted
  simp only [all_cons, all_nil, Bool.and_true, Bool.and_eq_true] at henc
  obtain ⟨htid, -, -, hmode, hbody, -, hlocale⟩ := henc
  have htask : ∀ tid, (after db c.created).tasks.get? tid =
      if c.outside.taskId = tid then some c.task else db.tasks.get? tid :=
    fun tid => Dict.get?_set _ _ tid _
  refine ⟨?_, unrepeated_set h.unrepeated (boundTo_eq_none.mp hm), ⟨?_, ?_⟩,
    attached_set h.attached (h.revision_free hfree 1), ?_⟩
  · intro tid n
    show (∃ r, (db.revisions.set (c.outside.taskId, 1) _).get? (tid, n) = some r) ↔ _
    rw [Dict.get?_set, htask]
    by_cases htid : c.outside.taskId = tid
    · subst htid
      rw [if_pos rfl]
      constructor
      · rintro ⟨r, hr⟩
        split at hr
        · next heq =>
          obtain rfl : 1 = n := congrArg Prod.snd heq
          exact ⟨c.task, rfl, le_rfl, le_rfl⟩
        · rw [h.revision_free hfree n] at hr
          cases hr
      · rintro ⟨t, ht, hle, hge⟩
        cases ht
        obtain rfl : n = 1 := le_antisymm hge hle
        rw [if_pos rfl]
        exact ⟨_, rfl⟩
    · rw [if_neg htid, if_neg fun heq => htid (congrArg Prod.fst heq)]
      exact h.numbered tid n
  · intro tid t ht
    rw [htask] at ht
    show ∃! s, ∃ b, (db.bindings.set (c.outside.taskId, c.sessionRef) _).get? (tid, s) = some b ∧ _
    simp only [Dict.get?_set]
    split at ht
    · next htid =>
      subst htid
      refine ⟨c.sessionRef, ⟨_, if_pos rfl, rfl⟩, ?_⟩
      rintro s ⟨b, hb, -⟩
      split at hb
      · next heq => exact (congrArg Prod.snd heq).symm
      · rw [h.binding_free hfree s] at hb
        cases hb
    · next htid =>
      have hother : ∀ s, (c.outside.taskId, c.sessionRef) ≠ (tid, s) :=
        fun s heq => htid (congrArg Prod.fst heq)
      simp only [if_neg (hother _)]
      exact h.primary.one tid t ht
  · intro tid s b hb
    have hset : (db.bindings.set (c.outside.taskId, c.sessionRef) _).get? (tid, s) = some b := hb
    rw [Dict.get?_set] at hset
    rw [htask]
    split at hset
    · next heq => exact ⟨c.task, if_pos (congrArg Prod.fst heq)⟩
    · split
      · exact ⟨c.task, rfl⟩
      · exact h.primary.task tid s b hset
  · intro tid t ht
    rw [htask] at ht
    split at ht
    · next heq =>
      cases ht
      refine ⟨?_, heq ▸ htid, hmode, hbody, hlocale⟩
      rw [← heq]
      rfl
    · exact h.readable tid t ht

variable {tid : PyStr}

/-- **A revision and the active revision of its task go together.** -/
theorem coherent_advance (h : Coherent db) {f : PyStr → Task → Task}
    (hget : db.tasks.get? tid = some t) (hm : db.boundTo r.userMessageId = none)
    (hother : ∀ tid' t', tid' ≠ tid → f tid' t' = t')
    (hrevision : ∀ t', (f tid t').activeRevision = t.activeRevision + 1)
    (hsame : ∀ t', (f tid t').mode = t'.mode ∧ (f tid t').bodyId = t'.bodyId ∧
      (f tid t').locale = t'.locale) :
    Coherent { db with
      revisions := db.revisions.set (tid, t.activeRevision + 1) r
      tasks := db.tasks.mapVals f } := by
  refine ⟨?_, unrepeated_set h.unrepeated (boundTo_eq_none.mp hm), ⟨?_, ?_⟩,
    attached_set h.attached (h.next_free hget), ?_⟩
  · intro tid' n
    show (∃ r', (db.revisions.set _ _).get? (tid', n) = some r') ↔
      ∃ t', (db.tasks.mapVals f).get? tid' = some t' ∧ _
    rw [Dict.get?_set, Dict.get?_mapVals]
    by_cases htid : tid' = tid
    · subst htid
      rw [hget]
      constructor
      · rintro ⟨r', hr'⟩
        refine ⟨_, rfl, ?_⟩
        rw [hrevision]
        split at hr'
        · next heq =>
          have hn : t.activeRevision + 1 = n := congrArg Prod.snd heq
          omega
        · obtain ⟨t', ht', hle, hge⟩ := (h.numbered tid' n).mp ⟨r', hr'⟩
          rw [hget] at ht'
          cases ht'
          omega
      · rintro ⟨t', ht', hle, hge⟩
        cases ht'
        rw [hrevision] at hge
        by_cases hn : t.activeRevision + 1 = n
        · rw [if_pos (by rw [hn])]
          exact ⟨r, rfl⟩
        · rw [if_neg fun heq => hn (congrArg Prod.snd heq)]
          exact (h.numbered tid' n).mpr ⟨t, hget, hle, by omega⟩
    · rw [if_neg fun heq => htid (congrArg Prod.fst heq).symm, h.numbered tid' n]
      constructor
      · rintro ⟨t', ht', hn⟩
        exact ⟨t', by rw [ht', map_some, hother tid' t' htid], hn⟩
      · rintro ⟨t', ht', hn⟩
        obtain ⟨t'', ht'', rfl⟩ := map_eq_some_iff.mp ht'
        rw [hother tid' t'' htid] at hn
        exact ⟨t'', ht'', hn⟩
  · intro tid' t' ht'
    obtain ⟨t'', ht'', -⟩ := map_eq_some_iff.mp ((Dict.get?_mapVals ..).symm.trans ht')
    exact h.primary.one tid' t'' ht''
  · intro tid' s b hb
    obtain ⟨t', ht'⟩ := h.primary.task tid' s b hb
    exact ⟨f tid' t', (Dict.get?_mapVals ..).trans (map_eq_some_iff.mpr ⟨t', ht', rfl⟩)⟩
  · intro tid' t' ht'
    obtain ⟨t'', ht'', rfl⟩ := map_eq_some_iff.mp ((Dict.get?_mapVals ..).symm.trans ht')
    by_cases htid : tid' = tid
    · subst htid
      obtain ⟨hmode, hbody, hlocale⟩ := hsame t''
      rw [hmode, hbody, hlocale]
      exact h.readable tid' t'' ht''
    · rw [hother tid' t'' htid]
      exact h.readable tid' t'' ht''

theorem coherent_revised (h : Coherent db) (hget : db.tasks.get? tid = some t)
    (hm : db.boundTo c.messageId = none) (spec : TaskSpec) :
    Coherent (after db (c.revised tid t spec)) :=
  coherent_advance h hget hm (fun _ _ hne => if_neg hne)
    (fun _ => by rw [if_pos rfl]) (fun _ => by rw [if_pos rfl]; exact ⟨rfl, rfl, rfl⟩)

theorem coherent_reopened (h : Coherent db) (hget : db.tasks.get? tid = some t)
    (hm : db.boundTo c.messageId = none) (spec : TaskSpec) :
    Coherent (after db (c.reopened tid t spec)) :=
  coherent_advance h hget hm (fun _ _ hne => if_neg hne)
    (fun _ => by rw [if_pos rfl]) (fun _ => by rw [if_pos rfl]; exact ⟨rfl, rfl, rfl⟩)

/-! ### Calls -/

theorem bindMessage_nothing (h : Coherent db) (hlooks : ¬ c.Looks db) :
    (bindMessage c db).1 = [] := by
  cases hkey : c.messageId.encodable with
  | false => exact congrArg Prod.fst (check_bind_raise hkey)
  | true =>
    cases hm : db.boundTo c.messageId with
    | some k =>
      obtain ⟨t, -, hrun⟩ := bindMessage_replay h hkey hm
      rw [hrun]
    | none =>
      have hrefused : (c.missionId.encodable && c.sessionRef.encodable) = false := by
        rw [← Bool.not_eq_true]
        intro henc
        rw [Bool.and_eq_true] at henc
        exact hlooks ⟨hm, by simp [hkey, henc.1, henc.2]⟩
      rw [bindMessage, check_of_true hkey, Txn.pure_bind, read_bind, hm]
      exact congrArg Prod.fst (check_bind_raise hrefused)

theorem releases_cases (c : BindCall) (db : Tables) :
    c.releases db = [] ∨ ∃ tid, c.releases db = [.releaseBinding tid c.sessionRef] := by
  rw [BindCall.releases]
  cases db.activeTask c.missionId c.sessionRef with
  | none => exact .inl rfl
  | some a =>
    show (if c.forceNew then _ else _) = _ ∨ ∃ tid, (if c.forceNew then _ else _) = _
    cases c.forceNew with
    | false => exact .inl rfl
    | true => exact .inr ⟨a.1, rfl⟩

theorem continues_eq_some (h : c.continues db = some (tid, t)) :
    db.tasks.get? tid = some t ∧ c.releases db = [] := by
  rw [BindCall.continues, BindCall.continued] at h
  split at h
  · cases h
  · next hforce =>
    rw [filter_eq_some_iff] at h
    refine ⟨activeTask_eq_some h.1, ?_⟩
    rw [BindCall.releases, h.1]
    exact if_neg hforce

theorem coherent_releases (h : Coherent db) : Coherent (after db (c.releases db)) := by
  rcases releases_cases c db with hnone | ⟨tid, hone⟩
  · rw [hnone]
    exact h
  · rw [hone]
    exact coherent_release h tid c.sessionRef

theorem length_releases (c : BindCall) (db : Tables) : (c.releases db).length ≤ 1 := by
  rcases releases_cases c db with hnone | ⟨tid, hone⟩
  · simp [hnone]
  · simp [hone]

theorem frame_releases (c : BindCall) (db : Tables) : (after db (c.releases db)).tasks = db.tasks ∧
      (after db (c.releases db)).revisions = db.revisions := by
  rcases releases_cases c db with hnone | ⟨tid, hone⟩
  · rw [hnone]
    exact ⟨rfl, rfl⟩
  · rw [hone]
    exact ⟨rfl, rfl⟩

theorem boundTo_releases (c : BindCall) (db : Tables) (m : PyStr) :
    (after db (c.releases db)).boundTo m = db.boundTo m := by
  rw [Tables.boundTo, (frame_releases c db).2]
  rfl

theorem refuses_releases (c : BindCall) (db : Tables) (tid : PyStr) (t : Task) :
    Store.refuses (after db (c.releases db)) (Write.insertTask tid t) =
      Store.refuses db (Write.insertTask tid t) := by
  show (if !_ then _ else if !(!(after db (c.releases db)).tasks.contains tid) then _ else _) = _
  rw [(frame_releases c db).1]
  rfl

/-- **A call of `bind_message` keeps the rows coherent**, whenever it is killed outside of
what belongs together. -/
theorem coherent_bindMessage (h : Coherent db)
    (hundivided : c.Looks db → c.branchUndivided db crash) :
    Coherent (after db (cut crash (bindMessage c db).1)) := by
  by_cases hlooks : c.Looks db
  · have hbranch := hundivided hlooks
    obtain ⟨hm, henc⟩ := hlooks
    simp only [all_cons, all_nil, Bool.and_true, Bool.and_eq_true] at henc
    obtain ⟨hkey, hmission, hs⟩ := henc
    rw [bindMessage_new h hkey hmission hs hm]
    rw [BindCall.branchUndivided] at hbranch
    cases hcontinues : c.continues db with
    | some a =>
      -- the task of the session goes on: two statements belong together
      obtain ⟨tid, t⟩ := a
      simp only [hcontinues] at hbranch
      obtain ⟨hget, hrelease⟩ := continues_eq_some hcontinues
      rw [hrelease, nil_append, after_nil]
      by_cases hspec : c.outside.folders = true ∧ ∃ spec, c.revisedSpec t = .ok spec
      · obtain ⟨hfolders, spec, hspec⟩ := hspec
        have hwhole := hbranch hfolders (by rw [hspec]; rfl)
        rw [BindCall.bindTo]
        split
        · obtain ⟨count, hrun⟩ := reopen_of_spec h hget hm hkey hs hfolders hspec
          rw [hrun]
          refine after_cut_append _ _ hwhole h (after_cut_of_kept _ (coherent_reopened h hget hm spec) ?_)
          simp only [forall_mem_cons]
          refine ⟨fun db' h' => coherent_supersede h' tid, fun db' h' => coherent_emit h' _,
            fun db' h' => coherent_emit h' _, by simp⟩
        · rw [revise_of_spec h hget hm hkey hs hfolders hspec]
          refine after_cut_append _ _ hwhole h (after_cut_of_kept _ (coherent_revised h hget hm spec) ?_)
          simp only [forall_mem_cons]
          exact ⟨fun db' h' => coherent_emit h' _, by simp⟩
      · have hnothing : (c.revise tid t db).1 = [] ∧ (c.reopen tid t db).1 = [] := by
          refine revise_of_refused fun hfolders => ?_
          cases hrevised : c.revisedSpec t with
          | error e => exact ⟨e, rfl⟩
          | ok spec => exact absurd ⟨hfolders, spec, hrevised⟩ hspec
        rw [BindCall.bindTo]
        split
        · rw [hnothing.2, cut_nil]
          exact h
        · rw [hnothing.1, cut_nil]
          exact h
    | none =>
      -- a new task, after the binding of the old one has been released
      simp only [hcontinues] at hbranch
      have h' := coherent_releases (c := c) h
      have hm' := (boundTo_releases c db c.messageId).trans hm
      have hadmits := refuses_releases c db c.outside.taskId c.task
      refine after_cut_append _ _ (whole_of_le_one crash (length_releases c db)) h ?_
      show Coherent (after _ (cut _ (c.create (after db (c.releases db))).1))
      by_cases hstarts : c.outside.folders = true ∧
          Store.refuses db (.insertTask c.outside.taskId c.task) = none
      · obtain ⟨hfolders, hadmitted⟩ := hstarts
        rcases hbranch hfolders hadmitted with hcrash | ⟨hwell, hwhole⟩
        · rw [hcrash]
          exact h'
        · rw [create_of_admitted h' hm' hkey hs hfolders (hadmits.trans hadmitted) hwell]
          have hcreated := coherent_created h' hm' (hadmits.trans hadmitted)
          split
          · refine after_cut_append _ _ hwhole h' (after_cut_of_kept _ hcreated ?_)
            simp only [forall_mem_cons]
            exact ⟨fun db' h' => coherent_emit h' _, by simp⟩
          · have happend := after_cut_append _ [] hwhole h' (by simpa using hcreated)
            simpa using happend
      · rw [create_of_refused fun hfolders => by
          rw [hadmits]
          cases hadmitted : Store.refuses db (.insertTask c.outside.taskId c.task) with
          | some e => exact ⟨e, rfl⟩
          | none => exact absurd ⟨hfolders, hadmitted⟩ hstarts, cut_nil]
        exact h'
  · rw [bindMessage_nothing h hlooks, cut_nil]
    exact h

theorem create_ok (hok : (c.create db).2 = .ok bound) : c.outside.folders = true ∧
      Store.refuses db (.insertTask c.outside.taskId c.task) = none ∧ c.WellFormed := by
  obtain ⟨hfolders, hok⟩ := check_bind_ok hok
  obtain ⟨hadmitted, hok⟩ := exec_bind_ok hok
  obtain ⟨spec, hspec, hok⟩ := ofExcept_bind_ok hok
  obtain ⟨-, hok⟩ := exec_bind_ok hok
  obtain ⟨hsession, -⟩ := exec_bind_ok hok
  refine ⟨hfolders, hadmitted, ?_, ?_⟩
  · rw [compileTaskSpec] at hspec
    split at hspec
    · cases hspec
    · next hnot =>
      rw [Bool.or_eq_true, not_or] at hnot
      exact Bool.not_eq_true _ ▸ hnot.1
  · have henc : [c.sessionRef, c.backendNativeId, c.cwd].all PyStr.encodable = true :=
      (refuses_eq_none.mp hsession).1
    simp only [all_cons, all_nil, Bool.and_true, Bool.and_eq_true] at henc
    exact henc.2

/-- **What `bind_message` answers** is where the message is. -/
theorem bindMessage_ok (h : Coherent db) (hok : (bindMessage c db).2 = .ok bound) :
    ∃ r, (after db (bindMessage c db).1).revisions.get? (bound.taskId, bound.revision) = some r ∧
      r.userMessageId = c.messageId := by
  obtain ⟨hkey, hrest⟩ := check_bind_ok hok
  cases hm : db.boundTo c.messageId with
  | some k =>
    obtain ⟨t, -, hrun⟩ := bindMessage_replay h hkey hm
    rw [hrun] at hok ⊢
    cases hok
    exact boundTo_eq_some hm
  | none =>
    rw [read_bind, hm] at hrest
    obtain ⟨henc, -⟩ := check_bind_ok hrest
    rw [Bool.and_eq_true] at henc
    obtain ⟨hmission, hs⟩ := henc
    have hrun := bindMessage_new h hkey hmission hs hm
    rw [hrun] at hok ⊢
    rw [after_append]
    cases hcontinues : c.continues db with
    | some a =>
      obtain ⟨tid, t⟩ := a
      obtain ⟨hget, hrelease⟩ := continues_eq_some hcontinues
      rw [hcontinues, hrelease, after_nil, BindCall.bindTo] at hok
      rw [hrelease, after_nil, BindCall.bindTo]
      split at hok
      · next hstate =>
        obtain ⟨hfolders, hspec⟩ := check_bind_ok hok
        obtain ⟨spec, hspec, -⟩ := ofExcept_bind_ok hspec
        obtain ⟨count, hreopen⟩ := reopen_of_spec h hget hm hkey hs hfolders hspec
        rw [hreopen] at hok
        cases hok
        rw [if_pos hstate, hreopen]
        exact ⟨_, Dict.get?_set_self .., rfl⟩
      · next hstate =>
        obtain ⟨hfolders, hspec⟩ := check_bind_ok hok
        obtain ⟨spec, hspec, -⟩ := ofExcept_bind_ok hspec
        have hrevise := revise_of_spec h hget hm hkey hs hfolders hspec
        rw [hrevise] at hok
        cases hok
        rw [if_neg hstate, hrevise]
        exact ⟨_, Dict.get?_set_self .., rfl⟩
    | none =>
      rw [hcontinues] at hok
      have h' := coherent_releases (c := c) h
      have hm' := (boundTo_releases c db c.messageId).trans hm
      obtain ⟨hfolders, hadmitted, hwell⟩ := create_ok hok
      have hcreate := create_of_admitted h' hm' hkey hs hfolders hadmitted hwell
      show ∃ r, (after (after db (c.releases db))
        (c.create (after db (c.releases db))).1).revisions.get? _ = some r ∧ _
      have hok' : (c.create (after db (c.releases db))).2 = .ok bound := hok
      rw [hcreate] at hok' ⊢
      split at hok'
      · next hmanifest =>
        cases hok'
        rw [if_pos hmanifest]
        exact ⟨_, Dict.get?_set_self .., rfl⟩
      · cases hok'

theorem persistInput_writes (c : PersistCall) (db : Tables) :
    (persistInput c db).1 = [] ∨ ∃ i : UserInput, i.taskId = none ∧
      db.inputs.get? c.messageId = none ∧ (persistInput c db).1 = [.insertInput c.messageId i] := by
  cases hkey : c.messageId.encodable with
  | false => exact .inl (congrArg Prod.fst (check_bind_raise hkey))
  | true =>
    rw [persistInput, check_of_true hkey, Txn.pure_bind, read_bind]
    cases hget : db.inputs.get? c.messageId with
    | some i => exact .inl rfl
    | none =>
      let i : UserInput := ⟨c.missionId, c.sessionRef, c.text, c.forceNew, none, c.now⟩
      show ((exec (.insertInput c.messageId i) >>= fun _ => pure _ : Kernel UserInput) db).1 = [] ∨ _
      cases hw : Store.refuses db (Write.insertInput c.messageId i) with
      | some e => exact .inl (congrArg Prod.fst (exec_bind_of_refused hw))
      | none => exact .inr ⟨i, rfl, rfl, congrArg Prod.fst (exec_bind_of_accepted hw)⟩

/-- What `ensure_task_for_effect` executes after its call of `bind_message`. -/
theorem ensure_writes (c : EnsureCall) (db : Tables) :
    (ensureTaskForEffect c db).1 = [] ∨ ∃ b tail, c.calls db = some b ∧
      (ensureTaskForEffect c db).1 = (bindMessage b db).1 ++ tail ∧
      (tail = [] ∨ ∃ row bound, db.latestInput c.missionId c.sessionRef = some row ∧
        b.messageId = row.1 ∧ (bindMessage b db).2 = .ok bound ∧
        tail = [.attachInput row.1 bound.taskId]) := by
  cases henc : (c.missionId.encodable && c.sessionRef.encodable) with
  | false => exact .inl (congrArg Prod.fst (check_bind_raise henc))
  | true =>
    rw [ensureTaskForEffect, check_of_true henc, Txn.pure_bind, read_bind, EnsureCall.calls]
    split
    · exact .inl rfl
    · rw [read_bind]
      cases hattached : db.attachedTask (db.latestInput c.missionId c.sessionRef) with
      | some a => exact .inl rfl
      | none =>
        right
        generalize db.latestInput c.missionId c.sessionRef = row
        show ∃ b tail, some (c.bind row) = some b ∧
          ((bindMessage (c.bind row) >>= fun bound => execAll (attach row bound) >>= fun _ =>
            (pure bound : Kernel Bound)) db).1 = _ ∧ _
        cases hresult : (bindMessage (c.bind row) db).2 with
        | error e =>
          have hrun : bindMessage (c.bind row) db = (_, .error e) := Prod.ext rfl hresult
          refine ⟨_, [], rfl, ?_, .inl rfl⟩
          rw [bind_of_error hrun, append_nil]
        | ok bound =>
          have hrun : bindMessage (c.bind row) db = (_, .ok bound) := Prod.ext rfl hresult
          refine ⟨_, _, rfl, congrArg Prod.fst (bind_of_ok hrun), ?_⟩
          rw [bind_pure_fst]
          cases row with
          | none => exact .inl rfl
          | some row =>
            rcases execAll_singleton (Write.attachInput row.1 bound.taskId)
              (after db (bindMessage (c.bind (some row)) db).1) with hnil | hone
            · exact .inl hnil
            · exact .inr ⟨row, bound, rfl, rfl, hresult, hone⟩

theorem coherent_ensure {c : EnsureCall} (h : Coherent db)
    (hundivided : ∀ b, c.calls db = some b → b.Looks db → b.branchUndivided db crash) :
    Coherent (after db (cut crash (ensureTaskForEffect c db).1)) := by
  rcases ensure_writes c db with hnil | ⟨b, tail, hcalls, heq, htail⟩
  · rw [hnil, cut_nil]
    exact h
  · rw [heq]
    refine after_cut_then (coherent_bindMessage h (hundivided b hcalls)) fun h' => ?_
    rcases htail with rfl | ⟨row, bound, -, hm, hok, rfl⟩
    · rw [cut_nil]
      exact h'
    · obtain ⟨r, hget, hr⟩ := bindMessage_ok h hok
      -- the attached task is the one that the message has just been bound to
      refine after_cut_append [_] [] (whole_of_le_one _ le_rfl) h' ?_
      rw [cut_nil]
      exact coherent_attachInput h' hget (hr.trans hm)

theorem coherent_step (h : Coherent db) {l : InputStep} (hundivided : Undivided db l)
    {db' : Tables} (hstep : inputs.step db l = some db') : Coherent db' := by
  cases hstep
  obtain ⟨operation, crash⟩ := l
  cases operation with
  | persist c =>
    show Coherent (after db (cut crash (persistInput c db).1))
    rcases persistInput_writes c db with hnil | ⟨i, htask, -, hone⟩
    · rw [hnil, cut_nil]
      exact h
    · rw [hone]
      refine after_cut_of_kept crash h ?_
      simp only [mem_singleton]
      rintro w rfl db' h'
      exact coherent_insertInput h' c.messageId htask
  | bind c => exact coherent_bindMessage h (hundivided c rfl)
  | ensure c => exact coherent_ensure h hundivided

theorem coherent_of_reachable (h : inputs.ReachableUnder Undivided db) : Coherent db := by
  refine h.invariant ?_ fun db l db' hdb hl hstep => coherent_step hdb hl hstep
  rintro _ rfl
  exact coherent_empty

/-! ### Replays, and the next message -/

theorem persistInput_replay {c : PersistCall} (hseen : (db.inputs.get? c.messageId).isSome = true) :
    (persistInput c db).1 = [] := by
  rcases persistInput_writes c db with hnil | ⟨i, -, hnew, -⟩
  · exact hnil
  · rw [hnew] at hseen
    cases hseen

theorem bindMessage_replayed (h : Coherent db)
    (hseen : (db.boundTo c.messageId).isSome = true) : (bindMessage c db).1 = [] := by
  refine bindMessage_nothing h fun hlooks => ?_
  rw [hlooks.1] at hseen
  cases hseen

theorem calls_of_attached {c : EnsureCall} (h : Coherent db)
    (hrow : db.latestInput c.missionId c.sessionRef = some row) (htid : row.2.taskId = some tid) :
    c.calls db = none := by
  obtain ⟨n, r, hget, -⟩ := h.attached row.1 row.2 tid (latestInput_eq_some hrow) htid
  obtain ⟨t, ht, -⟩ := (h.numbered tid n).mp ⟨r, hget⟩
  obtain ⟨hne, -⟩ := h.readable tid t ht
  have hattached : db.attachedTask (some row) = some (tid, t) := by
    rw [Tables.attachedTask, bind_some, htid, bind_some, hne, ht]
    rfl
  rw [EnsureCall.calls, hrow, hattached]
  split <;> rfl

theorem ensure_replayed {c : EnsureCall} (h : Coherent db) {k : PyStr × Nat}
    (hrow : db.latestInput c.missionId c.sessionRef = some row)
    (hbound : db.boundTo row.1 = some k) :
    (ensureTaskForEffect c db).1 = [] ∨
      row.2.taskId = none ∧ (ensureTaskForEffect c db).1 = [.attachInput row.1 k.1] := by
  rcases ensure_writes c db with hnil | ⟨b, tail, hcalls, heq, htail⟩
  · exact .inl hnil
  · have hm : b.messageId = row.1 := by
      rw [EnsureCall.calls, hrow] at hcalls
      split at hcalls
      · cases hcalls
      · split at hcalls
        · cases hcalls
        · cases hcalls
          rfl
    have hnothing : (bindMessage b db).1 = [] := bindMessage_replayed h (by rw [hm, hbound]; rfl)
    rw [hnothing, nil_append] at heq
    rcases htail with rfl | ⟨row', bound, hrow', hm', hok, rfl⟩
    · exact .inl heq
    · right
      obtain rfl := some_inj.mp (hrow.symm.trans hrow')
      constructor
      · cases htid : row.2.taskId with
        | none => rfl
        | some tid =>
          rw [calls_of_attached h hrow htid] at hcalls
          cases hcalls
      · obtain ⟨r, hget, hr⟩ := bindMessage_ok h hok
        rw [hnothing] at hget
        have hk := h.boundTo_eq hget
        rw [hr, hm, hbound] at hk
        rw [heq, some_inj.mp hk]

/-- **The next message is bound.** -/
theorem bindMessage_valid (h : Coherent db) (hvalid : c.Valid db) :
    ∃ bound, (bindMessage c db).2 = .ok bound ∧ bound.replayed = false := by
  have htexts := hvalid.texts
  simp only [all_cons, all_nil, Bool.and_true, Bool.and_eq_true] at htexts
  obtain ⟨hmission, hs, hkey, htext, hmode, hbody, hlocale, hworkspace, huuid⟩ := htexts
  rw [bindMessage_new h hkey hmission hs hvalid.new]
  cases hcontinues : c.continues db with
  | some a =>
    obtain ⟨tid, t⟩ := a
    obtain ⟨hget, hrelease⟩ := continues_eq_some hcontinues
    obtain ⟨-, -, htmode, htbody, htlocale⟩ := h.readable tid t hget
    have hspec : c.revisedSpec t = .ok ⟨compileDeliverables c.text⟩ := by
      refine compileTaskSpec_eq_ok hvalid.wellFormed.1 ?_
      have hor : (if t.mode.isEmpty then PyStr.ofString "SIMULATION" else t.mode).encodable = true := by
        split
        · rfl
        · exact htmode
      simp [htext, htbody, hor, languageOf_encodable htlocale]
    rw [hrelease, BindCall.bindTo, after_nil]
    split
    · obtain ⟨count, hrun⟩ := reopen_of_spec h hget hvalid.new hkey hs hvalid.folders hspec
      rw [hrun]
      exact ⟨_, rfl, rfl⟩
    · rw [revise_of_spec h hget hvalid.new hkey hs hvalid.folders hspec]
      exact ⟨_, rfl, rfl⟩
  | none =>
    have h' := coherent_releases (c := c) h
    have hm' := (boundTo_releases c db c.messageId).trans hvalid.new
    have hadmitted : Store.refuses db (.insertTask c.outside.taskId c.task) = none := by
      rw [refuses_eq_none]
      constructor
      · show [c.outside.taskId, c.missionId, c.text, c.mode, c.bodyId, c.outside.workspace,
          c.locale].all PyStr.encodable = true
        have htid : c.outside.taskId.encodable = true := by
          rw [Outside.taskId, newId, PyStr.encodable_append, PyStr.encodable_append,
            PyStr.encodable_ofString, PyStr.encodable_ofString, huuid]
          rfl
        simp [htid, hmission, htext, hmode, hbody, hworkspace, hlocale]
      · show (!(db.tasks.get? c.outside.taskId).isSome) = true
        rw [hvalid.fresh]
        rfl
    have hadmitted' := (refuses_releases c db c.outside.taskId c.task).trans hadmitted
    show ∃ bound, (c.create (after db (c.releases db))).2 = .ok bound ∧ _
    rw [create_of_admitted h' hm' hkey hs hvalid.folders hadmitted' hvalid.wellFormed,
      if_pos hvalid.manifest]
    exact ⟨_, rfl, rfl⟩

end Coherent

/-- **The laws hold** in every run in which no call is cut short inside of what belongs
together. -/
theorem input_laws {db : Tables} (h : inputs.ReachableUnder Undivided db) : InputLaws db where
  messages := (coherent_of_reachable h).unrepeated
  attached := (coherent_of_reachable h).attached
  numbered := (coherent_of_reachable h).numbered
  primary := (coherent_of_reachable h).primary
  persistReplayed := fun _ hseen => persistInput_replay hseen
  bindReplayed := fun _ hseen => bindMessage_replayed (coherent_of_reachable h) hseen
  ensureReplayed := fun _ _ _ hrow hbound => ensure_replayed (coherent_of_reachable h) hrow hbound
  binds := fun _ hvalid => bindMessage_valid (coherent_of_reachable h) hvalid

def sampleMessage (messageId : PyStr) (now : Int) : BindCall :=
  { missionId := "mis_1", sessionRef := "ses_1", backendNativeId := "native_1"
    messageId := messageId, text := "draw a circle", cwd := "/home/user"
    outside := { now := now, taskUuid := messageId, workspace := "/home/user" } }

/-- The first message opens a task and the second one revises it; the process of the
second is killed after as many statements as given. -/
def sampleInputs (crash : Nat) : List InputStep :=
  [⟨.bind (sampleMessage "msg_1" 1), none⟩, ⟨.bind (sampleMessage "msg_2" 2), some crash⟩]

/-- Killed once the task has its new revision. -/
theorem input_laws_killedAfterUpdate : ∃ db,
    inputs.run .empty (sampleInputs 2) = some db ∧ InputLaws db := by
  have hrun : ∃ db db', inputs.step .empty ⟨.bind (sampleMessage "msg_1" 1), none⟩ = some db ∧
      inputs.step db ⟨.bind (sampleMessage "msg_2" 2), some 2⟩ = some db' ∧
      inputs.run .empty (sampleInputs 2) = some db' ∧
      Undivided .empty ⟨.bind (sampleMessage "msg_1" 1), none⟩ ∧
      Undivided db ⟨.bind (sampleMessage "msg_2" 2), some 2⟩ := by
    refine ⟨_, _, rfl, rfl, rfl, ?_, ?_⟩
    · rintro c hc -
      cases hc
      intro _ _
      exact .inr ⟨by decide, rfl⟩
    · rintro c hc -
      cases hc
      intro _ _
      rfl
  obtain ⟨db, db', hfirst, hsecond, hall, hundivided, hundivided'⟩ := hrun
  exact ⟨db', hall, input_laws (.step (.step (.init rfl) hundivided hfirst) hundivided' hsecond)⟩

/-- Killed before, the revision is there and the task does not know of it: no later
message of the session can be bound. -/
theorem orphaned_revision : ∃ db, inputs.Reachable db ∧ ¬ InputLaws db ∧
    ∃ c : BindCall, c.Valid db ∧ c.sessionRef = "ses_1" ∧
      (bindMessage c db).2 = .error .integrityError := by
  have hrun : ∃ db, inputs.run .empty (sampleInputs 1) = some db ∧
      (sampleMessage "msg_3" 3).Valid db ∧
      (bindMessage (sampleMessage "msg_3" 3) db).2 = .error .integrityError :=
    ⟨_, rfl, ⟨rfl, rfl, by decide, rfl, rfl, rfl⟩, rfl⟩
  obtain ⟨db, hdb, hvalid, herror⟩ := hrun
  refine ⟨db, .of_run rfl hdb, ?_, _, hvalid, rfl, herror⟩
  intro h
  obtain ⟨bound, hok, -⟩ := h.binds _ hvalid
  rw [herror] at hok
  cases hok

end Rosclaw.TaskKernel
