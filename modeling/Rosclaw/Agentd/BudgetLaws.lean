/-
The budget counters of a mission over any sequence of calls.

* `UsageKept`, `usageKept_perform` — all calls but `add_budget_usage` leave the budgets of a
  mission and its counters alone;
* `total`, `addUsage_total` — what a usage adds to a counter;
* `counters_within` — the counters of a mission all of whose usages are fair;
* `spent_without_limit` — a limit of zero is none.
-/
import Rosclaw.Agentd.MissionFrame

namespace Rosclaw.MissionStore

variable {m : PyStr} {db db' db'' : MissionTables} {c c' : Conn MissionTables} {r : MissionRow}
  {op : Op} {usage : List (PyStr × Int)} {f : BudgetField}

/-! ### What a usage adds -/

variable {counters counters' : Dict BudgetField Int} {key : PyStr}

theorem ofName?_eq_some : BudgetField.ofName? key = some f ↔ f.name = key := by
  constructor
  · intro h
    have hname := List.find?_some h
    simpa using hname
  · rintro rfl
    cases f
    all_goals rfl

def total (f : BudgetField) (usage : List (PyStr × Int)) : Int :=
  ((usage.filter fun e => e.1 = f.name).map Prod.snd).sum

def counted (counters : Dict BudgetField Int) (f : BudgetField) : Int := (counters.get? f).getD 0

theorem total_cons {delta : Int} {g : BudgetField} (hg : g.name = key) :
    total f ((key, delta) :: usage) = (if g = f then delta else 0) + total f usage := by
  rw [total, total]
  split
  · next h =>
    subst h
    rw [List.filter_cons_of_pos (by simpa using hg.symm), List.map_cons, List.sum_cons]
  · next h =>
    have hname : ¬ key = f.name := by
      intro heq
      have hsome := ofName?_eq_some.mpr (hg.trans heq)
      rw [ofName?_eq_some.mpr rfl] at hsome
      exact h (Option.some.inj hsome).symm
    rw [List.filter_cons_of_neg (by simpa using hname)]
    omega

theorem counted_set (counters : Dict BudgetField Int) (g : BudgetField) (delta : Int) :
    counted (counters.set g (counted counters g + delta)) f
      = counted counters f + if g = f then delta else 0 := by
  rw [counted, Dict.get?_set]
  split
  · next h =>
    subst h
    rfl
  · rw [counted]
    omega

theorem addUsage_total (h : addUsage usage counters = .ok counters') (f : BudgetField) :
    counted counters' f = counted counters f + total f usage := by
  induction usage generalizing counters with
  | nil =>
    cases h
    simp [total]
  | cons e usage ih =>
    obtain ⟨key, delta⟩ := e
    rw [addUsage] at h
    split at h
    · cases h
    · next g hg =>
      rw [ih h, total_cons (ofName?_eq_some.mp hg)]
      show counted (counters.set g (counted counters g + delta)) f + _ = _
      rw [counted_set]
      omega

theorem known_of_addUsage (h : addUsage usage counters = .ok counters') :
    ∀ e ∈ usage, ∃ f : BudgetField, f.name = e.1 := by
  induction usage generalizing counters with
  | nil =>
    intro e he
    cases he
  | cons e usage ih =>
    rw [addUsage] at h
    split at h
    · cases h
    · next g hg =>
      intro e' he'
      rcases List.mem_cons.mp he' with rfl | he'
      · exact ⟨g, ofName?_eq_some.mp hg⟩
      · exact ih h e' he'

theorem addUsage_of_known (h : ∀ e ∈ usage, ∃ f : BudgetField, f.name = e.1)
    (counters : Dict BudgetField Int) : ∃ counters', addUsage usage counters = .ok counters' := by
  induction usage generalizing counters with
  | nil => exact ⟨counters, rfl⟩
  | cons e usage ih =>
    obtain ⟨g, hg⟩ := h e List.mem_cons_self
    rw [addUsage, ofName?_eq_some.mpr hg]
    exact ih (fun e' he' => h e' (List.mem_cons_of_mem _ he')) _

theorem exceeded_eq_none {budgets : Budgets} : exceeded budgets counters = none ↔
      ∀ f, 0 < budgets.get f → counted counters f ≤ budgets.get f := by
  have hall : ∀ f : BudgetField, f ∈ BudgetField.all := by
    intro f
    cases f
    all_goals decide
  rw [exceeded, List.find?_eq_none]
  simp only [decide_eq_true_eq, not_and, not_lt]
  constructor
  · intro h f
    exact h f (hall f)
  · intro h f _
    exact h f

namespace MissionRow

def used (r : MissionRow) (f : BudgetField) : Int := counted r.budgetUsage f

/-- The usage names budgets only, and no positive limit is below what is used then. -/
def Admits (r : MissionRow) (usage : List (PyStr × Int)) : Prop :=
  (∀ e ∈ usage, ∃ f : BudgetField, f.name = e.1) ∧
  ∀ f, 0 < r.budgets.get f → r.used f + total f usage ≤ r.budgets.get f

/-- The usage takes nothing back from a counter, and adds nothing to one whose limit is zero. -/
def Fair (r : MissionRow) (usage : List (PyStr × Int)) : Prop :=
  ∀ f, 0 ≤ total f usage ∧ (r.budgets.get f = 0 → total f usage = 0)

def Within (r : MissionRow) : Prop := ∀ f, 0 ≤ r.used f ∧ r.used f ≤ r.budgets.get f

end MissionRow

theorem newUsage_eq_ok (h : newUsage r usage = .ok counters) :
    r.Admits usage ∧ ∀ f, counted counters f = r.used f + total f usage := by
  rw [newUsage] at h
  rcases hadd : addUsage usage r.budgetUsage with e | counters'
  · rw [hadd] at h
    cases h
  · have htotal := addUsage_total hadd
    rw [hadd] at h
    rcases hover : exceeded r.budgets counters' with _ | g
    · simp only [hover] at h
      cases h
      refine ⟨⟨known_of_addUsage hadd, ?_⟩, htotal⟩
      intro f hpos
      have hle := exceeded_eq_none.mp hover f hpos
      rwa [htotal f] at hle
    · simp only [hover] at h
      cases h

theorem newUsage_of_admits (h : r.Admits usage) : ∃ counters, newUsage r usage = .ok counters := by
  obtain ⟨counters, hadd⟩ := addUsage_of_known h.1 r.budgetUsage
  have hover : exceeded r.budgets counters = none := by
    refine exceeded_eq_none.mpr ?_
    intro f hpos
    rw [addUsage_total hadd f]
    exact h.2 f hpos
  exact ⟨counters, by rw [newUsage, hadd]; simp only [hover]⟩

/-! ### Calls that count -/

theorem addBudgetUsage_of_admits (hr : db.missions.get? m = some r) (h : r.Admits usage) :
    ∃ counters, newUsage r usage = .ok counters ∧ Call.after ⟨.addBudgetUsage m usage, none⟩ db
        = db.withMission m fun r' => { r' with budgetUsage := counters } := by
  obtain ⟨counters, hnew⟩ := newUsage_of_admits h
  refine ⟨counters, hnew, ?_⟩
  have hcommit : commitUsage m usage ⟨db, none⟩
      = (.ok counters, ⟨db.withMission m fun r' => { r' with budgetUsage := counters }, none⟩) := by
    rw [commitUsage, Script.bind_of_ok (select_of_unfailing _ db), hr]
    show (Script.ofExcept (newUsage r usage) >>= _) _ = _
    rw [hnew]
    rfl
  have hrun := Script.transaction_of_unfailing StoreError.sqliteError hcommit
  rw [Call.after]
  show (Script.proceed _ (addBudgetUsage m usage ⟨db, none⟩)).2.store = _
  rw [addBudgetUsage_eq, immediate, hrun]
  rfl

/-! ### Runs whose usages are fair -/

/-- A usage of the mission that the store is going to take is fair. -/
def Call.CountsFairly (m : PyStr) (db : MissionTables) (l : Call) : Prop :=
  ∀ usage r, l.op = .addBudgetUsage m usage → db.missions.get? m = some r → r.Admits usage →
    (∀ n, l.fuse = some n → 4 ≤ n) → r.Fair usage

/-- The row of the mission with the same budgets and no counter lower, and within its limits if it
was. -/
def Counted (m : PyStr) (db db' : MissionTables) : Prop :=
  ∀ r, db.missions.get? m = some r → ∃ r', db'.missions.get? m = some r' ∧
    r'.budgets = r.budgets ∧ (∀ f, r.used f ≤ r'.used f) ∧ (r.Within → r'.Within)

theorem Counted.refl (m : PyStr) (db : MissionTables) : Counted m db db :=
  fun r hr => ⟨r, hr, rfl, fun _ => le_refl _, id⟩

theorem Counted.trans (h : Counted m db db') (h' : Counted m db' db'') : Counted m db db'' := by
  intro r hr
  obtain ⟨r', hr', hbudgets, hle, hwithin⟩ := h r hr
  obtain ⟨r'', hr'', hbudgets', hle', hwithin'⟩ := h' r' hr'
  exact ⟨r'', hr'', hbudgets'.trans hbudgets, fun f => (hle f).trans (hle' f), hwithin' ∘ hwithin⟩

theorem counted_of_kept (h : UsageKept m db db') : Counted m db db' := by
  intro r hr
  obtain ⟨r', hr', hbudgets, husage⟩ := h.1 r hr
  have hused : ∀ f, r'.used f = r.used f := fun f => congrArg (counted · f) husage
  refine ⟨r', hr', hbudgets, fun f => (hused f).ge, ?_⟩
  intro hwithin f
  rw [hused, hbudgets]
  exact hwithin f

theorem within_of_fair (hnew : newUsage r usage = .ok counters) (hfair : r.Fair usage) :
    (∀ f, r.used f ≤ counted counters f) ∧
      (r.Within → ∀ f, 0 ≤ counted counters f ∧ counted counters f ≤ r.budgets.get f) := by
  obtain ⟨⟨-, hlimits⟩, htotal⟩ := newUsage_eq_ok hnew
  constructor
  · intro f
    have hle := (hfair f).1
    rw [htotal]
    omega
  · intro hwithin f
    obtain ⟨hnonneg, hzero⟩ := hfair f
    obtain ⟨hlow, hhigh⟩ := hwithin f
    rw [htotal]
    rcases (hlow.trans hhigh).eq_or_lt with hnone | hpos
    · have hsame := hzero hnone.symm
      omega
    · have hle := hlimits f hpos
      omega

theorem Call.counts (l : Call) (hl : l.CountsFairly m db) : Counted m db (l.after db) ∧
      (db.missions.get? m = none → ∀ r, (l.after db).missions.get? m = some r → r.budgetUsage = ∅) := by
  by_cases hop : ∃ usage, l.op = .addBudgetUsage m usage
  · obtain ⟨usage, hop⟩ := hop
    rcases hrun : perform (.addBudgetUsage m usage) ⟨db, l.fuse⟩ with ⟨x, c'⟩
    have hafter : l.after db = c'.store := by rw [Call.after, hop, hrun]
    rw [hafter]
    cases x with
    | error e =>
      have hkept : UsageKept m db c'.store :=
        .of_missions (congrArg MissionTables.missions (addBudgetUsage_raised hrun))
      exact ⟨counted_of_kept hkept, hkept.2⟩
    | ok u =>
      obtain ⟨counters, hadd⟩ := addBudgetUsage_answered hrun
      obtain ⟨⟨r, hr, hnew, hstore⟩, hfuse⟩ := addBudgetUsage_stored hadd
      have hfair : r.Fair usage := hl usage r hop hr (newUsage_eq_ok hnew).1 hfuse
      obtain ⟨hle, hwithin⟩ := within_of_fair hnew hfair
      have hrow : c'.store.missions.get? m = some { r with budgetUsage := counters } := by
        rw [hstore, get?_withMission]
        show Option.map _ (db.missions.get? m) = _
        rw [show db.missions.get? m = some r from hr]
        simp
      constructor
      · intro r₁ hr₁
        obtain rfl : r = r₁ := Option.some.inj (hr.symm.trans hr₁)
        exact ⟨_, hrow, rfl, hle, hwithin⟩
      · intro hnone
        rw [show db.missions.get? m = some r from hr] at hnone
        cases hnone
  · have hother : ∀ usage, l.op ≠ .addBudgetUsage m usage := fun usage heq => hop ⟨usage, heq⟩
    have hkept : UsageKept m db (l.after db) := usageKept_perform hother ⟨db, l.fuse⟩
    exact ⟨counted_of_kept hkept, hkept.2⟩

/-- The row of a mission that declares no negative budget is within its limits. -/
def MissionTables.Budgeted (m : PyStr) (db : MissionTables) : Prop :=
  ∀ r, db.missions.get? m = some r → (∀ f, 0 ≤ r.budgets.get f) → r.Within

theorem budgeted_of_reachable (h : missionStore.ReachableUnder (fun db l => l.CountsFairly m db) db) :
    db.Budgeted m := by
  refine h.invariant (P := MissionTables.Budgeted m) ?_ ?_
  · rintro db rfl r hr
    cases hr
  · intro db l db' hdb hl hstep r' hr' hdeclared
    obtain rfl : l.after db = db' := Option.some.inj hstep
    obtain ⟨hcounted, hnew⟩ := l.counts hl
    rcases hrow : db.missions.get? m with _ | r
    · have husage := hnew hrow r' hr'
      have hzero : ∀ f, r'.used f = 0 := by
        intro f
        rw [MissionRow.used, husage]
        rfl
      intro f
      rw [hzero]
      exact ⟨le_refl _, hdeclared f⟩
    · obtain ⟨r₁, hr₁, hbudgets, -, hwithin⟩ := hcounted r hrow
      obtain rfl : r' = r₁ := Option.some.inj (hr'.symm.trans hr₁)
      rw [hbudgets] at hdeclared
      exact hwithin (hdb r hrow hdeclared)

theorem counted_of_path (hpath : missionStore.PathUnder (fun db l => l.CountsFairly m db) db db') :
    Counted m db db' := by
  induction hpath with
  | refl => exact .refl m db
  | step hpath hl hstep ih =>
    rw [← Option.some.inj hstep]
    exact ih.trans (Call.counts _ hl).1

/-- **The counters of a mission whose usages are fair**, at any two states of a run: each is
between zero and its limit, and none goes down.  A call that raises leaves everything as it was,
and a usage that is taken and not fair breaks the bounds or takes a counter down. -/
theorem counters_within (h : missionStore.ReachableUnder (fun db l => l.CountsFairly m db) db)
    (hpath : missionStore.PathUnder (fun db l => l.CountsFairly m db) db db')
    (hr : db.missions.get? m = some r) (hdeclared : ∀ f, 0 ≤ r.budgets.get f) :
    r.Within ∧
    (∃ r', db'.missions.get? m = some r' ∧ r'.budgets = r.budgets ∧ r'.Within ∧
      ∀ f, r.used f ≤ r'.used f) ∧
    (∀ usage fuse e, Call.result ⟨.addBudgetUsage m usage, fuse⟩ db = .error e →
      Call.after ⟨.addBudgetUsage m usage, fuse⟩ db = db) ∧
    ∀ usage, ¬ Call.CountsFairly m db ⟨.addBudgetUsage m usage, none⟩ →
      ∃ r' f, (Call.after ⟨.addBudgetUsage m usage, none⟩ db).missions.get? m = some r' ∧
        (r'.used f < r.used f ∨ r.budgets.get f < r'.used f) := by
  have hwithin : r.Within := budgeted_of_reachable h r hr hdeclared
  refine ⟨hwithin, ?_, ?_, ?_⟩
  · obtain ⟨r', hr', hbudgets, hle, hkept⟩ := counted_of_path hpath r hr
    exact ⟨r', hr', hbudgets, hkept hwithin, hle⟩
  · intro usage fuse e hraise
    rcases hrun : perform (.addBudgetUsage m usage) ⟨db, fuse⟩ with ⟨x, c'⟩
    rw [Call.result, hrun] at hraise
    obtain rfl : x = .error e := hraise
    rw [Call.after, hrun]
    exact addBudgetUsage_raised hrun
  · intro usage hunfair
    have hexists : ∃ f, r.Admits usage ∧
        ¬ (0 ≤ total f usage ∧ (r.budgets.get f = 0 → total f usage = 0)) := by
      by_contra hall
      refine hunfair ?_
      intro usage' r' hop hr' hadmits _ f
      obtain rfl : usage = usage' := by
        injection hop
      obtain rfl : r = r' := Option.some.inj (hr.symm.trans hr')
      by_contra hnot
      exact hall ⟨f, hadmits, hnot⟩
    obtain ⟨f, hadmits, hnot⟩ := hexists
    obtain ⟨counters, hnew, hafter⟩ := addBudgetUsage_of_admits hr hadmits
    have htotal := (newUsage_eq_ok hnew).2 f
    refine ⟨{ r with budgetUsage := counters }, f, ?_, ?_⟩
    · rw [hafter, get?_withMission, hr]
      simp
    · show counted counters f < r.used f ∨ r.budgets.get f < counted counters f
      obtain ⟨hlow, -⟩ := hwithin f
      rw [htotal]
      rcases lt_or_ge (total f usage) 0 with hneg | hnonneg
      · left
        omega
      · right
        have hzero : ¬ (r.budgets.get f = 0 → total f usage = 0) := fun hz => hnot ⟨hnonneg, hz⟩
        rw [not_forall] at hzero
        obtain ⟨hlimit, hne⟩ := hzero
        omega

def missionOnly : MissionTables := firstMission.after MissionTables.empty

def tokens (n : Int) : Call := ⟨.addBudgetUsage "m" [("model_tokens", n)], none⟩

theorem fair_tokens : (tokens 400).CountsFairly "m" missionOnly := by
  intro usage r hop hr _ _
  obtain rfl : [(("model_tokens" : PyStr), (400 : Int))] = usage := by
    injection hop
  cases hr
  intro f
  cases f
  all_goals decide

/-- A mission that has used some of its tokens. -/
theorem counters_within_tokens : ∃ r', ((tokens 400).after missionOnly).missions.get? "m" = some r' ∧
    r'.Within := by
  have h : missionStore.ReachableUnder (fun db l => l.CountsFairly "m" db) missionOnly := by
    refine .step (.init rfl) ?_ (l := firstMission) rfl
    intro usage r hop
    cases hop
  have hpath : missionStore.PathUnder (fun db l => l.CountsFairly "m" db) missionOnly
      ((tokens 400).after missionOnly) := .step .refl fair_tokens (l := tokens 400) rfl
  obtain ⟨r, hr⟩ : ∃ r, missionOnly.missions.get? "m" = some r := ⟨_, rfl⟩
  have hdeclared : ∀ f, 0 ≤ r.budgets.get f := by
    obtain rfl := Option.some.inj hr
    intro f
    cases f
    all_goals decide
  obtain ⟨-, ⟨r', hr', -, hwithin, -⟩, -⟩ := counters_within h hpath hr hdeclared
  exact ⟨r', hr', hwithin⟩

/-- A mission that declares no physical action can count one, and a counter can go below zero. -/
theorem spent_without_limit : ∃ db db' r r', missionStore.Reachable db ∧ missionStore.Reachable db' ∧
    db.missions.get? "m" = some r ∧ db'.missions.get? "m" = some r' ∧
    (∀ f, 0 ≤ r.budgets.get f) ∧ r'.budgets = r.budgets ∧
    r.budgets.get .physicalActionCount < r.used .physicalActionCount ∧
    r'.used .modelTokens < 0 := by
  have h : missionStore.Reachable missionOnly := .step (.init rfl) trivial (l := firstMission) rfl
  refine ⟨Call.after ⟨.addBudgetUsage "m" [("physical_action_count", 1)], none⟩ missionOnly,
    (tokens (-1)).after missionOnly, _, _, .step h trivial
      (l := ⟨.addBudgetUsage "m" [("physical_action_count", 1)], none⟩) rfl,
    .step h trivial (l := tokens (-1)) rfl, rfl, rfl, ?_, rfl, ?_, ?_⟩
  · intro f
    cases f
    all_goals decide
  · decide
  · decide

end Rosclaw.MissionStore
