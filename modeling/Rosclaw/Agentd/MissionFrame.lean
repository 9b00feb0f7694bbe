/-
What the calls of the mission store leave alone.

* `UsageKept` — the budgets of a mission and its counters, `MissionTables.said` — the events of its
  conversation;
* `Kept` — both are left, `keeps_createMission`, …, `keeps_bumpContextRevision` — by the calls that
  count nothing and say nothing;
* `usageKept_perform`, `saidKept_perform` — so only `add_budget_usage` touches the counters, and only
  `append_conversation` the conversation.
-/
import Rosclaw.Agentd.MissionJournal

namespace Rosclaw.MissionStore

open Script

variable {m : PyStr} {op : Op} {db db' db'' : MissionTables} {c c' : Conn MissionTables}

/-! ### What is kept -/

/-- The budgets of the mission and its counters are the same; a new mission has counted
nothing. -/
def UsageKept (m : PyStr) (db db' : MissionTables) : Prop :=
  (∀ r, db.missions.get? m = some r → ∃ r', db'.missions.get? m = some r' ∧
    r'.budgets = r.budgets ∧ r'.budgetUsage = r.budgetUsage) ∧
  (db.missions.get? m = none → ∀ r', db'.missions.get? m = some r' → r'.budgetUsage = ∅)

theorem UsageKept.of_missions (h : db'.missions = db.missions) : UsageKept m db db' := by
  constructor
  · intro r hr
    rw [h]
    exact ⟨r, hr, rfl, rfl⟩
  · intro hnone r' hr'
    rw [h, hnone] at hr'
    cases hr'

theorem UsageKept.refl (db : MissionTables) : UsageKept m db db := .of_missions rfl

theorem UsageKept.trans (h : UsageKept m db db') (h' : UsageKept m db' db'') :
    UsageKept m db db'' := by
  constructor
  · intro r hr
    obtain ⟨r', hr', hbudgets, husage⟩ := h.1 r hr
    obtain ⟨r'', hr'', hbudgets', husage'⟩ := h'.1 r' hr'
    exact ⟨r'', hr'', hbudgets'.trans hbudgets, husage'.trans husage⟩
  · intro hnone r'' hr''
    rcases hmid : db'.missions.get? m with _ | r'
    · exact h'.2 hmid r'' hr''
    · obtain ⟨r₁, hr₁, -, husage⟩ := h'.1 r' hmid
      rw [hr''] at hr₁
      obtain rfl : r'' = r₁ := Option.some.inj hr₁
      rw [husage]
      exact h.2 hnone r' hmid

variable {m' : PyStr}

theorem usageKept_withMission {f : MissionRow → MissionRow}
    (hf : m = m' → ∀ r, (f r).budgets = r.budgets ∧ (f r).budgetUsage = r.budgetUsage)
    (h : db'.missions = (db.withMission m' f).missions) : UsageKept m db db' := by
  constructor
  · intro r hr
    refine ⟨if m = m' then f r else r, ?_, ?_⟩
    · rw [h, get?_withMission, hr]
      rfl
    · split
      · next hm => exact hf hm r
      · exact ⟨rfl, rfl⟩
  · intro hnone r' hr'
    rw [h, get?_withMission, hnone] at hr'
    cases hr'

def MissionTables.said (db : MissionTables) (m : PyStr) : List EventRow :=
  (db.rowsOf m).filter (·.eventType = .conversationAppended)

theorem said_congr (h : db'.events = db.events) : db'.said m = db.said m := by
  rw [MissionTables.said, rowsOf_congr h]
  rfl

/-- Neither the counters of the mission nor its conversation are touched. -/
def Kept (m : PyStr) (db db' : MissionTables) : Prop :=
  UsageKept m db db' ∧ db'.said m = db.said m

theorem Kept.refl (db : MissionTables) : Kept m db db := ⟨.refl db, rfl⟩

theorem Kept.trans (h : Kept m db db') (h' : Kept m db' db'') : Kept m db db'' :=
  ⟨h.1.trans h'.1, h'.2.trans h.2⟩

theorem Kept.of_tables (hm : db'.missions = db.missions) (he : db'.events = db.events) :
    Kept m db db' := ⟨.of_missions hm, said_congr he⟩

/-! ### Statements and calls that keep it -/

variable {a : NewMission} {actorId : PyStr} {counters : Dict BudgetField Int} {rev : Int} {u : Unit}
  {α β : Type} (ns : List TaskNode)

theorem keeps_select (f : MissionTables → α) : Script.Keeps (Kept m) (select f) :=
  (reads_query _ f).keeps .refl

theorem keeps_raise (e : StoreError) :
    Script.Keeps (Kept m) (Script.raise e : Run α) := (reads_raise e).keeps .refl

theorem keeps_pure (a : α) : Script.Keeps (Kept m) (pure a : Run α) := (reads_pure a).keeps .refl

theorem keeps_ofExcept (x : Except StoreError α) :
    Script.Keeps (Kept m) (Script.ofExcept x) := (reads_ofExcept x).keeps .refl

variable {f : MissionTables → Except StoreError MissionTables}

theorem keeps_execute
    (hf : ∀ s s', f s = .ok s' → Kept m s s') : Script.Keeps (Kept m) (execute f) :=
  keeps_update .refl hf

theorem keeps_bind {x : Run α} {f : α → Run β} (hx : Script.Keeps (Kept m) x)
    (hf : ∀ a, Script.Keeps (Kept m) (f a)) : Script.Keeps (Kept m) (x >>= f) :=
  Script.keeps_bind .trans hx hf

theorem keeps_beside (hf : ∀ s s', f s = .ok s' → s'.missions = s.missions ∧ s'.events = s.events) :
    Script.Keeps (Kept m) (execute f) :=
  keeps_execute fun s s' h => .of_tables (hf s s' h).1 (hf s s' h).2

theorem keeps_row {f : MissionRow → MissionRow}
    (hf : ∀ r, (f r).budgets = r.budgets ∧ (f r).budgetUsage = r.budgetUsage) :
    Script.Keeps (Kept m) (execute fun db => .ok (db.withMission m' f)) := by
  refine keeps_execute ?_
  intro s s' h
  cases h
  exact ⟨usageKept_withMission (fun _ => hf) rfl, said_congr rfl⟩

variable {e : EventRow}

theorem insertEvent_eq_ok (h : db.insertEvent e = .ok db') :
    db' = { db with events := db.events ++ [e] } := by
  rw [MissionTables.insertEvent] at h
  split at h
  · cases h
  · split at h
    · cases h
    · exact (Except.ok.inj h).symm

theorem said_insertEvent (h : db.insertEvent e = .ok db')
    (he : e.missionId = m → e.eventType ≠ .conversationAppended) : db'.said m = db.said m := by
  have hnot : ¬ (e.missionId = m ∧ e.eventType = .conversationAppended) := fun hand =>
    he hand.1 hand.2
  rw [insertEvent_eq_ok h, MissionTables.said, MissionTables.said, MissionTables.rowsOf,
    MissionTables.rowsOf, List.filter_filter, List.filter_filter, List.filter_append]
  simp [and_comm, hnot]

theorem keeps_appendEvent (t : EventType) (he : e.eventType = t) (ht : t ≠ .conversationAppended) :
    Script.Keeps (Kept m) (appendEvent e) := by
  refine keeps_bind (keeps_select _) ?_
  intro seq
  refine keeps_execute ?_
  intro s s' h
  refine ⟨.of_missions ?_, said_insertEvent h fun _ => ?_⟩
  · rw [insertEvent_eq_ok h]
  · show e.eventType ≠ _
    rwa [he]

theorem keeps_insertMission : Script.Keeps (Kept m) (insertMission m' a) := by
  refine keeps_bind (keeps_execute ?_) fun _ =>
    keeps_bind (keeps_appendEvent .missionCreated rfl (by decide)) fun _ => keeps_pure _
  intro s s' h
  split at h
  · cases h
  · next habsent =>
    cases h
    refine ⟨⟨?_, ?_⟩, said_congr rfl⟩
    · intro r hr
      have hne : m' ≠ m := by
        rintro rfl
        exact habsent (by rw [Dict.contains, hr]; rfl)
      exact ⟨r, (Dict.get?_set_of_ne _ _ hne).trans hr, rfl, rfl⟩
    · intro hnone r' hr'
      rw [Dict.get?_set] at hr'
      split at hr'
      · cases hr'
        rfl
      · rw [hnone] at hr'
        cases hr'

theorem keeps_createMission : Script.Keeps (Kept m) (createMission m' a) := by
  refine keeps_bind ((reads_earlierMission _).keeps .refl) ?_
  rintro (_ | found)
  · exact keeps_bind (keeps_ofExcept _) fun _ => keeps_transaction .refl keeps_insertMission
  · exact keeps_pure _

theorem keeps_journalTransition {a : Transition} : Script.Keeps (Kept m) (journalTransition a) := by
  refine keeps_bind (keeps_select _) ?_
  rintro (_ | r)
  · exact keeps_raise _
  · show Script.Keeps (Kept m) (if _ then _ else _)
    split
    · exact keeps_raise _
    · exact keeps_bind (keeps_row fun r' => ⟨rfl, rfl⟩) fun _ => keeps_appendEvent .missionTransition rfl (by decide)

theorem keeps_transition {a : Transition} : Script.Keeps (Kept m) (transition a) := by
  refine keeps_bind ((reads_priorEvent _ _).keeps .refl) ?_
  rintro (_ | e)
  · refine keeps_bind (keeps_transaction .refl keeps_journalTransition) ?_
    intro u
    exact (reads_theMission _).keeps .refl
  · exact (reads_theMission _).keeps .refl

theorem keeps_insertEdges {m' tid : PyStr} (deps : List PyStr) :
    Script.Keeps (Kept m) (insertEdges m' tid rev deps) := by
  induction deps with
  | nil => exact keeps_pure _
  | cons dep deps ih =>
    refine keeps_bind (keeps_beside ?_) fun _ => ih
    intro s s' h
    rw [MissionTables.insertEdge] at h
    split at h
    · cases h
    · cases h
      exact ⟨rfl, rfl⟩

theorem keeps_insertNodes : Script.Keeps (Kept m) (insertNodes m' rev ns) := by
  induction ns with
  | nil => exact keeps_pure _
  | cons n ns ih =>
    refine keeps_bind (keeps_beside ?_) fun _ => keeps_bind (keeps_insertEdges _) fun _ => ih
    intro s s' h
    rw [MissionTables.insertNode] at h
    split at h
    · cases h
    · cases h
      exact ⟨rfl, rfl⟩

theorem keeps_commitPatch {patch : TaskGraphPatch} :
    Script.Keeps (Kept m) (commitPatch patch actorId) := by
  refine keeps_bind (keeps_select _) ?_
  rintro (_ | r)
  · exact keeps_raise _
  · show Script.Keeps (Kept m) (if _ then _ else _)
    split
    · exact keeps_raise _
    · refine keeps_bind (keeps_select _) fun _ => keeps_bind (keeps_ofExcept _) fun _ =>
        keeps_bind (keeps_ofExcept _) fun _ => keeps_bind (keeps_beside ?_) fun _ =>
        keeps_bind (keeps_beside ?_) fun _ => keeps_bind (keeps_insertNodes _) fun _ =>
        keeps_bind (keeps_row fun r' => ⟨rfl, rfl⟩) fun _ =>
        keeps_bind (keeps_appendEvent .taskGraphPatched rfl (by decide)) fun _ => keeps_pure _
      · intro s s' h
        cases h
        exact ⟨rfl, rfl⟩
      · intro s s' h
        cases h
        exact ⟨rfl, rfl⟩

theorem keeps_rebindNodes : Script.Keeps (Kept m) (rebindNodes m' ns) := by
  induction ns with
  | nil => exact keeps_pure _
  | cons n ns ih =>
    rw [rebindNodes]
    split
    · refine keeps_bind (keeps_beside ?_) fun _ => ih
      intro s s' h
      cases h
      exact ⟨rfl, rfl⟩
    · exact ih

theorem keeps_commitRebind {m' hash : PyStr} :
    Script.Keeps (Kept m) (commitRebind m' hash actorId) := by
  refine keeps_bind (keeps_select _) ?_
  rintro (_ | r)
  · exact keeps_raise _
  · exact keeps_bind (keeps_row fun r' => ⟨rfl, rfl⟩) fun _ => keeps_bind (keeps_select _) fun _ =>
      keeps_bind (keeps_rebindNodes _) fun _ =>
      keeps_bind (keeps_appendEvent .bodyRebound rfl (by decide)) fun _ => keeps_pure _

theorem keeps_bumpContextRevision : Script.Keeps (Kept m) (bumpContextRevision m') := by
  refine keeps_transaction .refl (keeps_bind (keeps_select _) ?_)
  rintro (_ | r)
  · exact keeps_raise _
  · exact keeps_bind (keeps_row fun r' => ⟨rfl, rfl⟩) fun _ => keeps_pure _

theorem keeps_appendConversation {R : MissionTables → MissionTables → Prop} {m' : PyStr}
    {messages : List (List (PyStr × PyVal))} (hrefl : ∀ s, R s s)
    (htrans : ∀ {s s' s''}, R s s' → R s' s'' → R s s'')
    (hwrite : ∀ e s s', e.missionId = m' → s.insertEvent e = .ok s' → R s s') :
    Script.Keeps R (appendConversation m' messages actorId) := by
  refine Script.keeps_bind htrans ((reads_query _ _).keeps hrefl) ?_
  intro events
  refine Script.keeps_bind htrans ((reads_ofExcept _).keeps hrefl) ?_
  intro seq
  refine keeps_transaction hrefl ?_
  refine Script.keeps_bind htrans ((reads_query _ _).keeps hrefl) ?_
  intro seq'
  exact keeps_update hrefl fun s s' h => hwrite _ s s' rfl h

theorem kept_perform (op : Op) : (∃ m' usage, op = .addBudgetUsage m' usage) ∨
    (∃ m' messages actorId, op = .appendConversation m' messages actorId) ∨
    ∀ m, Script.Keeps (Kept m) (perform op) := by
  cases op with
  | addBudgetUsage m' usage => exact .inl ⟨m', usage, rfl⟩
  | appendConversation m' messages actorId => exact .inr (.inl ⟨m', messages, actorId, rfl⟩)
  | createMission newId a =>
    exact .inr (.inr fun m => keeps_bind keeps_createMission fun _ => keeps_pure _)
  | transition a => exact .inr (.inr fun m => keeps_bind keeps_transition fun _ => keeps_pure _)
  | applyPatch patch actorId =>
    exact .inr (.inr fun m =>
      keeps_bind (keeps_transaction .refl keeps_commitPatch) fun _ => keeps_pure _)
  | rebindBody m' hash actorId =>
    exact .inr (.inr fun m =>
      keeps_bind (keeps_transaction .refl keeps_commitRebind) fun _ => keeps_pure _)
  | bumpContextRevision m' =>
    exact .inr (.inr fun m => keeps_bind keeps_bumpContextRevision fun _ => keeps_pure _)

/-! ### Statements of a store that does not fail -/

theorem execute_of_unfailing (h : f db = .ok db') : execute f ⟨db, none⟩ = (.ok (), ⟨db', none⟩) :=
  update_of_unfailing _ h

theorem written (f : MissionTables → MissionTables) (db : MissionTables) :
    execute (fun db => .ok (f db)) ⟨db, none⟩ = (.ok (), ⟨f db, none⟩) := execute_of_unfailing rfl

theorem appendEvent_of_unfailing (hkey : e.idempotencyKey.isSome = true →
      ∀ e' ∈ db.events, e'.missionId = e.missionId → e'.idempotencyKey ≠ e.idempotencyKey) :
    appendEvent e ⟨db, none⟩ = (.ok (), ⟨db.journalled e, none⟩) := by
  rw [appendEvent, bind_of_ok (select_of_unfailing _ db)]
  refine execute_of_unfailing ?_
  have hle : ∀ (l : List Nat) (n : Nat), n ∈ l → n ≤ l.foldr max 0 := by
    intro l n hn
    induction l with
    | nil => cases hn
    | cons k l ih =>
      rcases List.mem_cons.mp hn with rfl | hn
      · simp
      · exact (ih hn).trans (by simp)
  have hseq : ∀ e' ∈ db.events, e'.missionId = e.missionId → e'.seq ≠ db.nextSeq e.missionId := by
    intro e' he' hm
    have hmem : e'.seq ∈ (db.events.filter (·.missionId = e.missionId)).map EventRow.seq :=
      List.mem_map.mpr ⟨e', List.mem_filter.mpr ⟨he', by simpa using hm⟩, rfl⟩
    have hbound := hle _ _ hmem
    rw [MissionTables.nextSeq]
    omega
  rw [MissionTables.insertEvent, if_neg, if_neg]
  · rfl
  · rintro ⟨hsome, hany⟩
    obtain ⟨e', he', heq⟩ := List.any_eq_true.mp hany
    simp only [decide_eq_true_eq] at heq
    exact hkey hsome e' he' heq.1 heq.2
  · intro hany
    obtain ⟨e', he', heq⟩ := List.any_eq_true.mp hany
    simp only [decide_eq_true_eq] at heq
    exact hseq e' he' heq.1 heq.2

theorem spent_appendEvent (h : appendEvent e c = (.ok u, c')) : Script.Spent 2 c c' := by
  obtain ⟨seq, c₁, hseq, hins⟩ := bind_eq_ok.mp h
  exact (spent_select hseq).trans (spent_execute hins)

/-! ### What touches the counters -/

variable {usage : List (PyStr × Int)}

/-- What `add_budget_usage` does between `BEGIN` and `COMMIT`. -/
def commitUsage (m : PyStr) (usage : List (PyStr × Int)) : Run (Dict BudgetField Int) := do
  let row ← select fun db => db.missions.get? m
  match row with
  | none => Script.raise (unknownMission m)
  | some r => do
    let counters ← Script.ofExcept (newUsage r usage)
    execute fun db => .ok (db.withMission m fun r' => { r' with budgetUsage := counters })
    pure counters

theorem addBudgetUsage_eq : addBudgetUsage m usage = immediate (commitUsage m usage) := rfl

theorem commitUsage_eq_ok (h : commitUsage m usage c = (.ok counters, c')) :
    (∃ r, c.store.missions.get? m = some r ∧ newUsage r usage = .ok counters ∧
      c'.store = c.store.withMission m fun r' => { r' with budgetUsage := counters }) ∧
    Script.Spent 2 c c' := by
  obtain ⟨row, c₁, hrow, h⟩ := bind_eq_ok.mp h
  obtain ⟨rfl, h₁⟩ := select_eq_ok hrow
  rcases hr : c.store.missions.get? m with _ | r
  · rw [hr] at h
    exact absurd h raise_ne_ok
  · rw [hr] at h
    obtain ⟨counters', c₂, hcounters, h⟩ := bind_eq_ok.mp h
    obtain ⟨hnew, rfl⟩ := ofExcept_eq_ok.mp hcounters
    obtain ⟨u, c₃, hupd, h⟩ := bind_eq_ok.mp h
    obtain ⟨rfl, rfl⟩ := pure_eq_ok.mp h
    have hstore := execute_eq_ok hupd
    refine ⟨⟨r, rfl, hnew, ?_⟩, (spent_select hrow).trans (spent_execute hupd)⟩
    rw [← Except.ok.inj hstore, h₁]

theorem addBudgetUsage_stored (h : addBudgetUsage m usage c = (.ok counters, c')) :
    (∃ r, c.store.missions.get? m = some r ∧ newUsage r usage = .ok counters ∧
      c'.store = c.store.withMission m fun r' => { r' with budgetUsage := counters }) ∧
    ∀ n, c.fuse = some n → 4 ≤ n := by
  rw [addBudgetUsage_eq] at h
  constructor
  · obtain ⟨c₁, c₂, h₁, hcommit, h₂⟩ := immediate_eq_ok h
    obtain ⟨⟨r, hr, hnew, hstore⟩, -⟩ := commitUsage_eq_ok hcommit
    rw [h₁] at hr hstore
    exact ⟨r, hr, hnew, h₂.trans hstore⟩
  · intro n hfuse
    have hspent : Script.Spent 4 c c' :=
      spent_transaction (fun c₁ c₂ _ hrun => (commitUsage_eq_ok hrun).2) h
    rw [Script.Spent, hfuse] at hspent
    obtain ⟨k, -, hk⟩ := Option.map_eq_some_iff.mp hspent.symm
    omega

theorem addBudgetUsage_raised {e : StoreError}
    (h : perform (.addBudgetUsage m usage) c = (.error e, c')) : c'.store = c.store := by
  rcases bind_eq h with ⟨e', hraise, -⟩ | ⟨counters, c₁, -, hpure⟩
  · exact transaction_eq_error hraise
  · exact absurd hpure pure_ne_error

theorem addBudgetUsage_answered (h : perform (.addBudgetUsage m usage) c = (.ok u, c')) :
    ∃ counters, addBudgetUsage m usage c = (.ok counters, c') := by
  obtain ⟨counters, c₁, hadd, hpure⟩ := bind_eq_ok.mp h
  obtain ⟨-, rfl⟩ := pure_eq_ok.mp hpure
  exact ⟨counters, hadd⟩

/-- Every call but `add_budget_usage` leaves the counters of the mission. -/
theorem usageKept_perform (hop : ∀ usage, op ≠ .addBudgetUsage m usage) :
    Script.Keeps (UsageKept m) (perform op) := by
  intro c
  rcases kept_perform op with ⟨m', usage, rfl⟩ | ⟨m', messages, actorId, rfl⟩ | hkept
  · have hne : m ≠ m' := by
      rintro rfl
      exact hop usage rfl
    rcases hrun : perform (.addBudgetUsage m' usage) c with ⟨x, c'⟩
    cases x with
    | error e => exact .of_missions (congrArg MissionTables.missions (addBudgetUsage_raised hrun))
    | ok u =>
      obtain ⟨counters, hadd⟩ := addBudgetUsage_answered hrun
      obtain ⟨⟨r, hr, hnew, hstore⟩, -⟩ := addBudgetUsage_stored hadd
      exact usageKept_withMission (fun heq => absurd heq hne) (congrArg MissionTables.missions hstore)
  · refine keeps_appendConversation UsageKept.refl UsageKept.trans ?_ c
    intro e s s' _ h
    rw [insertEvent_eq_ok h]
    exact .of_missions rfl
  · exact (hkept m c).1

/-- Every call but `append_conversation` leaves the conversation of the mission. -/
theorem saidKept_perform (hop : ∀ messages actorId, op ≠ .appendConversation m messages actorId) :
    Script.Keeps (fun db db' => db'.said m = db.said m) (perform op) := by
  intro c
  rcases kept_perform op with ⟨m', usage, rfl⟩ | ⟨m', messages, actorId, rfl⟩ | hkept
  · rcases hrun : perform (.addBudgetUsage m' usage) c with ⟨x, c'⟩
    cases x with
    | error e => exact said_congr (congrArg MissionTables.events (addBudgetUsage_raised hrun))
    | ok u =>
      obtain ⟨counters, hadd⟩ := addBudgetUsage_answered hrun
      obtain ⟨⟨r, hr, hnew, hstore⟩, -⟩ := addBudgetUsage_stored hadd
      have hevents := congrArg MissionTables.events hstore
      exact said_congr hevents
  · have hne : m' ≠ m := by
      rintro rfl
      exact hop messages actorId rfl
    refine keeps_appendConversation (R := fun db db' => db'.said m = db.said m) (fun _ => rfl)
      (fun h h' => h'.trans h) ?_ c
    intro e s s' hm h
    refine said_insertEvent h fun heq => absurd (hm.symm.trans heq) hne
  · exact (hkept m c).2

end Rosclaw.MissionStore
