/-
The pointer decides which generation is active.

As long as the engine returns every row of a logical name, and no two builds share a row or a
collection, `active` is read off the pointer and off the row with its collection, whatever the
statuses in the rows say.  An operation leaves the registry alone, adds the row of a build, or
writes the pointer and then the statuses of two rows that are there.

* `active_eq`, `filter_registry` — what is read from a sound registry;
* `Renews` — what the writes of statuses leave of the rows;
* `step_cases` — what an operation does;
* `generations_consistent` — the results together, along every run;
* `generations_confused` — a build id that is drawn twice, and a registry that outgrows the query.
-/
import Rosclaw.Storage.VersionedCollections

namespace Rosclaw.VersionedCollections

open List Option BuildRow Dict

variable {b : Backend} {l : PyStr} {t t' : Registry}

/-! ### Sound registries -/

def Has (l : PyStr) (t : Registry) (r : BuildRow) : Prop :=
  t.get? r.id = some (.build r) ∧ r.logicalName = l

def size (l : PyStr) (t : Registry) : Nat := t.countVals fun row => row.logicalName = l

structure Sound (b : Backend) (l : PyStr) (t : Registry) : Prop where
  keyed : ∀ id row, t.get? id = some row → row.id = id
  /-- no build has the id of the pointer -/
  apart : ∀ r, t.get? (pointerId b l) ≠ some (.build r)
  /-- a collection belongs to one build -/
  names : ∀ r r', Has l t r → Has l t r' → r.physicalCollection = r'.physicalCollection → r = r'
  named : ∀ r, Has l t r → r.physicalCollection ≠ ""
  /-- the query returns every row -/
  room : size l t ≤ registryLimit
  own : ∀ p, t.get? (pointerId b l) = some (.pointer p) → p.logicalName = l
  active : ∀ p, t.get? (pointerId b l) = some (.pointer p) →
    ∃ r, Has l t r ∧ r.physicalCollection = p.activePhysicalCollection
  previous : ∀ p, t.get? (pointerId b l) = some (.pointer p) →
    ∀ name, p.previousPhysicalCollection = some name → ∃ r, Has l t r ∧ r.physicalCollection = name

theorem sound_empty (b : Backend) (l : PyStr) : Sound b l ∅ where
  keyed _ _ h := by cases h
  apart _ h := by cases h
  names _ _ h := by cases h.1
  named _ h := by cases h.1
  room := Nat.zero_le _
  own _ h := by cases h
  active _ h := by cases h
  previous _ h := by cases h

/-! ### What is read -/

variable {c c' : RollbackCall} {choice choice' : Choice} {current o : Option BuildRow}
  {first row : Row} {i j limit : Nat} {p : Pointer} {w : Writes} (n : Nat)

theorem mem_query {p : Row → Bool} (h : row ∈ query b t p limit) :
    (∃ id, t.get? id = some row) ∧ p row = true := by
  have hmem := (b.scan_perm _).mem_iff.mp (mem_of_mem_take h)
  rw [mem_filter] at hmem
  exact ⟨mem_values_iff.mp hmem.1, hmem.2⟩

theorem length_filter_values (p : Row → Bool) (t : Registry) :
    (t.values.filter p).length = t.countVals p := by
  rw [Dict.values, ← countP_eq_length_filter, countP_map]
  rfl

theorem mem_query_of_le {p : Row → Bool} (hroom : t.countVals p ≤ limit) {id : PyStr}
    (h : t.get? id = some row) (hp : p row = true) : row ∈ query b t p limit := by
  have hall : (b.scan (t.values.filter p)).length ≤ limit := by
    rw [(b.scan_perm _).length_eq, length_filter_values]
    exact hroom
  rw [query, take_of_length_le hall]
  exact (b.scan_perm _).mem_iff.mpr (mem_filter.mpr ⟨mem_values_iff.mpr ⟨id, h⟩, hp⟩)

variable {r : BuildRow}

theorem mem_rows (h : Sound b l t) : r ∈ rows b l t ↔ Has l t r := by
  rw [rows, mem_insertionSort, mem_filterMap]
  constructor
  · rintro ⟨row, hrow, hbuild⟩
    obtain ⟨⟨id, hget⟩, hl⟩ := mem_query hrow
    cases row with
    | pointer p => cases hbuild
    | build r' =>
      obtain rfl := Option.some.inj hbuild
      have hid : r'.id = id := h.keyed id _ hget
      exact ⟨hid ▸ hget, of_decide_eq_true hl⟩
  · rintro ⟨hget, hl⟩
    exact ⟨.build r, mem_query_of_le h.room hget (decide_eq_true hl), rfl⟩

theorem nodup_values (h : Sound b l t) : t.values.Nodup := by
  have hkeys : t.values.map Row.id = t.keys := by
    rw [Dict.values, List.map_map]
    refine List.map_congr_left fun e he => ?_
    exact h.keyed e.1 e.2 (mem_entries_iff.mp he)
  exact List.Nodup.of_map Row.id (hkeys ▸ t.nodup)

theorem nodup_rows (h : Sound b l t) : (rows b l t).Nodup := by
  rw [rows, (perm_insertionSort _ _).nodup_iff]
  refine List.Nodup.filterMap ?_ ?_
  · intro row row' r hr hr'
    cases row with
    | pointer p => cases hr
    | build r₁ =>
      cases row' with
      | pointer p => cases hr'
      | build r₂ =>
        rw [mem_def] at hr hr'
        cases hr
        cases hr'
        rfl
  · exact ((b.scan_perm _).nodup_iff.mpr ((nodup_values h).filter _)).sublist (take_sublist _ _)

theorem pointer_eq (hkeyed : ∀ id row, t.get? id = some row → row.id = id) :
    pointer b l t = (t.get? (pointerId b l)).bind Row.pointer? := by
  have hmem : ∀ row, row ∈ b.scan (t.values.filter fun row => row.id = pointerId b l) ↔
      t.get? (pointerId b l) = some row := by
    intro row
    rw [(b.scan_perm _).mem_iff, mem_filter, mem_values_iff]
    constructor
    · rintro ⟨⟨id, hget⟩, hid⟩
      rw [← of_decide_eq_true hid, hkeyed id row hget]
      exact hget
    · intro hget
      exact ⟨⟨_, hget⟩, decide_eq_true (hkeyed _ row hget)⟩
  rw [pointer, query]
  cases hscan : b.scan (t.values.filter fun row => row.id = pointerId b l) with
  | nil =>
    cases hget : t.get? (pointerId b l) with
    | none => rfl
    | some row =>
      have := (hmem row).mpr hget
      rw [hscan] at this
      cases this
  | cons row rest =>
    have hget : t.get? (pointerId b l) = some row := (hmem row).mp (hscan ▸ mem_cons_self)
    rw [hget]
    rfl

theorem pointer_eq_some (h : Sound b l t) :
    pointer b l t = some p ↔ t.get? (pointerId b l) = some (.pointer p) := by
  rw [pointer_eq h.keyed]
  constructor
  · intro hp
    obtain ⟨row, hget, hrow⟩ := bind_eq_some_iff.mp hp
    cases row with
    | build r => cases hrow
    | pointer p' => rwa [Option.some.inj hrow] at hget
  · intro hget
    rw [hget]
    rfl

theorem rowByCollection_eq_some (h : Sound b l t) {name : PyStr} :
    rowByCollection b l t (some name) = some r ↔ Has l t r ∧ r.physicalCollection = name := by
  rw [rowByCollection]
  constructor
  · intro hr
    split at hr
    · cases hr
    · exact ⟨(mem_rows h).mp (mem_of_find?_eq_some hr), by simpa using List.find?_some hr⟩
  · rintro ⟨hhas, rfl⟩
    rw [if_neg (h.named r hhas)]
    cases hfind : (rows b l t).find? fun r' => r'.physicalCollection = r.physicalCollection with
    | none =>
      have := List.find?_eq_none.mp hfind r ((mem_rows h).mpr hhas)
      exact absurd (decide_eq_true rfl) this
    | some r' =>
      have hname : r'.physicalCollection = r.physicalCollection := by
        simpa using List.find?_some hfind
      have hhas' := (mem_rows h).mp (mem_of_find?_eq_some hfind)
      rw [h.names r' r hhas' hhas hname]

/-- **The active generation is the one to which the pointer points.** -/
theorem active_eq (h : Sound b l t) (hp : pointer b l t = some p) (hhas : Has l t r)
    (hname : r.physicalCollection = p.activePhysicalCollection) :
    active b l t = some { r with status := .active, activatedAt := some p.activeActivatedAt } := by
  rw [active, hp]
  show Option.map _ _ = _
  rw [(rowByCollection_eq_some h).mpr ⟨hhas, hname⟩]
  rfl

theorem maxBy_mem {key : BuildRow → Rat} {rs : List BuildRow}
    (h : maxBy key rs = some r) : r ∈ rs := by
  have hfold : ∀ (rs : List BuildRow) (r₀ : BuildRow),
      rs.foldl (fun best r' => if key best < key r' then r' else best) r₀ ∈ r₀ :: rs := by
    intro rs
    induction rs with
    | nil => exact fun r₀ => mem_cons_self
    | cons r' rs ih =>
      intro r₀
      rw [foldl_cons]
      split
      · exact mem_cons_of_mem _ (ih r')
      · rcases mem_cons.mp (ih r₀) with heq | hmem
        · rw [heq]
          exact mem_cons_self
        · exact mem_cons_of_mem _ (mem_cons_of_mem _ hmem)
  cases rs with
  | nil => cases h
  | cons r₀ rs =>
    cases h
    exact hfold rs r₀

variable {r r' : BuildRow}

theorem Before.antisymm (h : Before r r') (h' : Before r' r) : r.id = r'.id := by
  have hid : r.id.le r'.id = true ∧ r'.id.le r.id = true := by
    rcases h with hlt | ⟨heq, hle⟩
    · rcases h' with hlt' | ⟨heq', -⟩
      · exact absurd (lt_trans hlt hlt') (lt_irrefl _)
      · exact absurd (heq' ▸ hlt) (lt_irrefl _)
    · rcases h' with hlt' | ⟨-, hle'⟩
      · exact absurd (heq ▸ hlt') (lt_irrefl _)
      · exact ⟨hle, hle'⟩
  have hcodes : r.id.codes = r'.id.codes :=
    le_antisymm (of_decide_eq_true hid.1) (of_decide_eq_true hid.2)
  cases hr : r.id
  cases hr' : r'.id
  rw [hr, hr'] at hcodes
  exact congrArg PyStr.mk hcodes

instance instTotalBefore : Std.Total Before where
  total r r' := by
    rcases lt_trichotomy (r.createdAt.getD 0) (r'.createdAt.getD 0) with hlt | heq | hgt
    · exact .inl (.inl hlt)
    · rcases Std.Total.total (r := fun s s' : PyStr => s.le s' = true) r.id r'.id with hle | hle
      · exact .inl (.inr ⟨heq, hle⟩)
      · exact .inr (.inr ⟨heq.symm, hle⟩)
    · exact .inr (.inl hgt)

instance instTransBefore : IsTrans BuildRow Before where
  trans r₁ r₂ r₃ h h' := by
    rcases h with hlt | ⟨heq, hle⟩
    · rcases h' with hlt' | ⟨heq', -⟩
      · exact .inl (lt_trans hlt hlt')
      · exact .inl (heq' ▸ hlt)
    · rcases h' with hlt' | ⟨heq', hle'⟩
      · exact .inl (heq ▸ hlt')
      · exact .inr ⟨heq.trans heq',
          IsTrans.trans (r := fun s s' : PyStr => s.le s' = true) _ _ _ hle hle'⟩

theorem filter_rows_eq (h : Sound b l t) (h' : Sound b l t') {q : BuildRow → Bool}
    (hsame : ∀ r, q r = true → (Has l t r ↔ Has l t' r)) :
    (rows b l t).filter q = (rows b l t').filter q := by
  have hperm : ((rows b l t).filter q).Perm ((rows b l t').filter q) := by
    refine (perm_ext_iff_of_nodup ((nodup_rows h).filter _) ((nodup_rows h').filter _)).mpr ?_
    intro r
    rw [mem_filter, mem_filter, mem_rows h, mem_rows h']
    constructor
    · exact fun ⟨hhas, hq⟩ => ⟨(hsame r hq).mp hhas, hq⟩
    · exact fun ⟨hhas, hq⟩ => ⟨(hsame r hq).mpr hhas, hq⟩
  refine hperm.eq_of_pairwise ?_ ((pairwise_insertionSort _ _).filter _)
    ((pairwise_insertionSort _ _).filter _)
  intro r r' hr hr' hle hle'
  rw [mem_filter, mem_rows h] at hr
  rw [mem_filter, mem_rows h'] at hr'
  have hhas' := (hsame r' hr'.2).mpr hr'.1
  have hrow := hr.1.1
  rw [hle.antisymm hle', hhas'.1, some_inj] at hrow
  exact (Row.build.inj hrow).symm

/-- What `registry` shows as active has the collection of the pointer. -/
theorem effective_active {p : Option Pointer} : (effective p r).status = .active ↔
      p.map Pointer.activePhysicalCollection = some r.physicalCollection := by
  rw [effective]
  split
  · next h => exact ⟨fun _ => h.symm, fun _ => rfl⟩
  · next h =>
    refine ⟨fun hstatus => ?_, fun hname => absurd hname.symm h⟩
    split at hstatus
    · dsimp only at hstatus
      split at hstatus <;> cases hstatus
    · next hkeep =>
      rw [hstatus] at hkeep
      exact absurd ⟨Status.noConfusion, Status.noConfusion⟩ hkeep

/-- **`registry` shows the active generation as active, and no other.** -/
theorem filter_registry (h : Sound b l t) : (registry b l t).filter (fun r => r.status = .active)
      = if (pointer b l t).isSome then (active b l t).toList else [] := by
  rw [registry, List.filter_map]
  cases hp : pointer b l t with
  | none =>
    have hnone : (rows b l t).filter ((fun r => decide (r.status = .active)) ∘ effective none) = [] := by
      refine List.filter_eq_nil_iff.mpr fun r _ hactive => ?_
      have := effective_active.mp (of_decide_eq_true hactive)
      cases this
    rw [hnone]
    rfl
  | some p =>
    obtain ⟨r, hhas, hname⟩ := h.active p ((pointer_eq_some h).mp hp)
    have hone : (rows b l t).filter ((fun r => decide (r.status = .active)) ∘ effective (some p))
        = [r] := by
      have hperm : ((rows b l t).filter
          ((fun r => decide (r.status = .active)) ∘ effective (some p))).Perm [r] := by
        refine (List.perm_ext_iff_of_nodup ((nodup_rows h).filter _) (List.nodup_singleton r)).mpr ?_
        intro r'
        rw [List.mem_filter, mem_rows h, List.mem_singleton, Function.comp_apply,
          decide_eq_true_eq, effective_active]
        constructor
        · rintro ⟨hhas', hname'⟩
          refine h.names r' r hhas' hhas ?_
          rw [hname, ← Option.some.inj hname']
        · rintro rfl
          exact ⟨hhas, congrArg some hname.symm⟩
      exact List.perm_singleton.mp hperm
    rw [hone, active_eq h hp hhas hname]
    have hname' : some r.physicalCollection = (some p).map Pointer.activePhysicalCollection :=
      congrArg some hname
    show [effective (some p) r] = _
    rw [effective, if_pos hname']
    rfl

/-! ### The rows under the statuses -/

def BuildRow.bare (r : BuildRow) : BuildRow := { r with status := .building, activatedAt := none }

def BuildRow.core (r : BuildRow) : BuildRow := { r.bare with recordCount := 0 }

theorem BuildRow.core_of_bare (h : r.bare = r'.bare) : r.core = r'.core := by
  rw [core, core, h]

theorem BuildRow.core_id (h : r.core = r'.core) : r.id = r'.id := by
  show r.core.id = r'.core.id
  rw [h]

theorem BuildRow.core_logicalName (h : r.core = r'.core) : r.logicalName = r'.logicalName := by
  show r.core.logicalName = r'.core.logicalName
  rw [h]

theorem BuildRow.core_physicalCollection (h : r.core = r'.core) :
    r.physicalCollection = r'.physicalCollection := by
  show r.core.physicalCollection = r'.core.physicalCollection
  rw [h]

theorem effective_bare (p : Option Pointer) (r : BuildRow) : (effective p r).bare = r.bare := by
  rw [effective]
  split
  · rfl
  · split <;> rfl

def Shows (f : BuildRow → BuildRow) : Prop := ∀ r r', f r = f r' → r.core = r'.core

theorem shows_bare : Shows BuildRow.bare := fun _ _ => core_of_bare

theorem shows_core : Shows BuildRow.core := fun _ _ => id

/-- The rows of two registries are the same, as far as the view shows. -/
structure Renews (f : BuildRow → BuildRow) (l : PyStr) (t t' : Registry) : Prop where
  forth : ∀ r, Has l t r → ∃ r', Has l t' r' ∧ f r' = f r
  back : ∀ r', Has l t' r' → ∃ r, Has l t r ∧ f r' = f r

theorem Renews.refl (f : BuildRow → BuildRow) (l : PyStr) (t : Registry) : Renews f l t t :=
  ⟨fun r h => ⟨r, h, rfl⟩, fun r h => ⟨r, h, rfl⟩⟩

theorem Renews.trans {f : BuildRow → BuildRow} {t'' : Registry} (h : Renews f l t t')
    (h' : Renews f l t' t'') : Renews f l t t'' := by
  constructor
  · intro r hr
    obtain ⟨r', hr', heq⟩ := h.forth r hr
    obtain ⟨r'', hr'', heq'⟩ := h'.forth r' hr'
    exact ⟨r'', hr'', heq'.trans heq⟩
  · intro r'' hr''
    obtain ⟨r', hr', heq⟩ := h'.back r'' hr''
    obtain ⟨r, hr, heq'⟩ := h.back r' hr'
    exact ⟨r, hr, heq.trans heq'⟩

theorem get?_register (t : Registry) (r : BuildRow) (id : PyStr) :
    (register t r).get? id = if id = r.id then some (.build r) else t.get? id := by
  rw [register, Dict.get?_set]
  exact if_congr eq_comm rfl rfl

variable {f : BuildRow → BuildRow}

theorem register_known (hf : Shows f) (h : Sound b l t) {r r₀ : BuildRow} (hhas : Has l t r₀)
    (heq : f r = f r₀) :
    Sound b l (register t r) ∧ Renews f l t (register t r) ∧
      (register t r).get? (pointerId b l) = t.get? (pointerId b l) := by
  have hcore := hf r r₀ heq
  have hid := core_id hcore
  have hpointer : (register t r).get? (pointerId b l) = t.get? (pointerId b l) := by
    rw [get?_register, if_neg]
    intro hsame
    rw [hid] at hsame
    exact h.apart r₀ (hsame ▸ hhas.1)
  have hrenews : Renews f l t (register t r) := by
    constructor
    · intro r₁ h₁
      by_cases hsame : r₁.id = r.id
      · have hrow := h₁.1
        rw [hsame, hid, hhas.1, some_inj] at hrow
        obtain rfl := Row.build.inj hrow
        refine ⟨r, ⟨?_, (core_logicalName hcore).trans hhas.2⟩, heq⟩
        rw [get?_register, if_pos rfl]
      · refine ⟨r₁, ⟨?_, h₁.2⟩, rfl⟩
        rw [get?_register, if_neg hsame]
        exact h₁.1
    · intro r₁ h₁
      have hrow := h₁.1
      rw [get?_register] at hrow
      split at hrow
      · obtain rfl := Row.build.inj (Option.some.inj hrow)
        exact ⟨r₀, hhas, heq⟩
      · exact ⟨r₁, ⟨hrow, h₁.2⟩, rfl⟩
  have hsize : size l (register t r) ≤ size l t := by
    refine countVals_set_le (hid ▸ hhas.1) fun _ => ?_
    exact decide_eq_true hhas.2
  refine ⟨?_, hrenews, hpointer⟩
  constructor
  case keyed =>
    intro id row hrow
    rw [get?_register] at hrow
    split at hrow
    · next hsame =>
      cases hrow
      exact hsame.symm
    · exact h.keyed id row hrow
  case apart =>
    rw [hpointer]
    exact h.apart
  case names =>
    intro r₁ r₂ h₁ h₂ hname
    obtain ⟨r₁', h₁', heq₁⟩ := hrenews.back r₁ h₁
    obtain ⟨r₂', h₂', heq₂⟩ := hrenews.back r₂ h₂
    have hcore₁ := hf _ _ heq₁
    have hcore₂ := hf _ _ heq₂
    have hsame : r₁' = r₂' := by
      refine h.names r₁' r₂' h₁' h₂' ?_
      rw [← core_physicalCollection hcore₁, hname, core_physicalCollection hcore₂]
    have hids : r₁.id = r₂.id := by
      rw [core_id hcore₁, hsame, core_id hcore₂]
    have hrow := h₁.1
    rw [hids, h₂.1, some_inj] at hrow
    exact (Row.build.inj hrow).symm
  case named =>
    intro r₁ h₁
    obtain ⟨r₁', h₁', heq₁⟩ := hrenews.back r₁ h₁
    rw [core_physicalCollection (hf _ _ heq₁)]
    exact h.named r₁' h₁'
  case room => exact hsize.trans h.room
  case own =>
    rw [hpointer]
    exact h.own
  case active =>
    intro p hp
    rw [hpointer] at hp
    obtain ⟨r₁, h₁, hname⟩ := h.active p hp
    obtain ⟨r₁', h₁', heq₁⟩ := hrenews.forth r₁ h₁
    exact ⟨r₁', h₁', (core_physicalCollection (hf _ _ heq₁)).trans hname⟩
  case previous =>
    intro p hp name hprevious
    rw [hpointer] at hp
    obtain ⟨r₁, h₁, hname⟩ := h.previous p hp name hprevious
    obtain ⟨r₁', h₁', heq₁⟩ := hrenews.forth r₁ h₁
    exact ⟨r₁', h₁', (core_physicalCollection (hf _ _ heq₁)).trans hname⟩

theorem mark_known (hf : Shows f) (hstatus : ∀ r, f r.bare = f r) (h : Sound b l t)
    (hhas : ∀ r, o = some r → ∃ r₀, Has l t r₀ ∧ f r = f r₀) (status : Status)
    (activatedAt : Option Rat) (succeeds : Bool) :
    Sound b l (markBuildStatus t o status activatedAt succeeds) ∧
      Renews f l t (markBuildStatus t o status activatedAt succeeds) ∧
      (markBuildStatus t o status activatedAt succeeds).get? (pointerId b l)
        = t.get? (pointerId b l) := by
  cases o with
  | none => exact ⟨h, Renews.refl f l t, rfl⟩
  | some r =>
    rw [markBuildStatus]
    split
    · obtain ⟨r₀, hhas, heq⟩ := hhas r rfl
      refine register_known hf h hhas (Eq.trans ?_ heq)
      rw [← hstatus r, ← hstatus]
      rfl
    · exact ⟨h, Renews.refl f l t, rfl⟩

/-- The query has room for one more row, or the pointer has its row already. -/
def HasRoom (b : Backend) (l : PyStr) (t : Registry) : Prop :=
  (pointer b l t).isSome = true ∨ size l t < registryLimit

theorem set_pointer (h : Sound b l t) (hid : p.id = pointerId b l) (hl : p.logicalName = l)
    (hroom : HasRoom b l t)
    (hactive : ∃ r, Has l t r ∧ r.physicalCollection = p.activePhysicalCollection)
    (hprevious : ∀ name, p.previousPhysicalCollection = some name →
      ∃ r, Has l t r ∧ r.physicalCollection = name) :
    Sound b l (t.set (pointerId b l) (.pointer p)) ∧
      ∀ r, Has l (t.set (pointerId b l) (.pointer p)) r ↔ Has l t r := by
  have hget : (t.set (pointerId b l) (.pointer p)).get? (pointerId b l) = some (.pointer p) := by
    rw [Dict.get?_set, if_pos rfl]
  have hhas : ∀ r, Has l (t.set (pointerId b l) (.pointer p)) r ↔ Has l t r := by
    intro r
    refine and_congr_left fun _ => ?_
    rw [Dict.get?_set]
    split
    · next hsame =>
      refine ⟨fun hrow => ?_, fun hrow => absurd (hsame ▸ hrow) (h.apart r)⟩
      cases Option.some.inj hrow
    · rfl
  refine ⟨?_, hhas⟩
  constructor
  case keyed =>
    intro id row hrow
    rw [Dict.get?_set] at hrow
    split at hrow
    · next hsame =>
      cases hrow
      exact hid.trans hsame
    · exact h.keyed id row hrow
  case apart =>
    intro r hrow
    rw [hget] at hrow
    cases Option.some.inj hrow
  case names =>
    intro r r' hr hr'
    exact h.names r r' ((hhas r).mp hr) ((hhas r').mp hr')
  case named => exact fun r hr => h.named r ((hhas r).mp hr)
  case room =>
    rcases hroom with hsome | hroom
    · obtain ⟨p₀, hp₀⟩ := isSome_iff_exists.mp hsome
      have hrow := (pointer_eq_some h).mp hp₀
      refine le_trans (countVals_set_le hrow fun _ => ?_) h.room
      exact decide_eq_true (h.own p₀ hrow)
    · cases hrow : t.get? (pointerId b l) with
      | none =>
        rw [size, countVals_set_of_none hrow]
        have hone : (if decide (Row.logicalName (.pointer p) = l) = true then 1 else 0) ≤ 1 := by
          split <;> omega
        unfold size at hroom
        omega
      | some row =>
        cases row with
        | build r => exact absurd hrow (h.apart r)
        | pointer p₀ =>
          refine le_trans (countVals_set_le hrow fun _ => ?_) h.room
          exact decide_eq_true (h.own p₀ hrow)
  case own =>
    intro p' hp'
    rw [hget] at hp'
    obtain rfl := Row.pointer.inj (Option.some.inj hp')
    exact hl
  case active =>
    intro p' hp'
    rw [hget] at hp'
    obtain rfl := Row.pointer.inj (Option.some.inj hp')
    obtain ⟨r, hr, hname⟩ := hactive
    exact ⟨r, (hhas r).mpr hr, hname⟩
  case previous =>
    intro p' hp' name hname
    rw [hget] at hp'
    obtain rfl := Row.pointer.inj (Option.some.inj hp')
    obtain ⟨r, hr, hname'⟩ := hprevious name hname
    exact ⟨r, (hhas r).mpr hr, hname'⟩

def Shown (f : BuildRow → BuildRow) (l : PyStr) (t : Registry) (r : BuildRow) : Prop :=
  ∃ r₀, Has l t r₀ ∧ f r = f r₀

variable {target : BuildRow}

theorem switchTo_known (hf : Shows f) (hstatus : ∀ r, f r.bare = f r) (h : Sound b l t)
    (htarget : Shown f l t target) (hcurrent : ∀ r, current = some r → Shown f l t r)
    (hroom : HasRoom b l t) (hw : w.pointer = true) (now : Rat) :
    Sound b l (switchTo b l t target current now w).2 ∧
      Renews f l t (switchTo b l t target current now w).2 ∧
      (switchTo b l t target current now w).2.get? (pointerId b l)
        = some (.pointer (newPointer b l target current now)) := by
  obtain ⟨r₀, hr₀, heq₀⟩ := htarget
  obtain ⟨hsound₁, hhas₁⟩ := set_pointer h (p := newPointer b l target current now) rfl rfl hroom
    ⟨r₀, hr₀, (core_physicalCollection (hf _ _ heq₀)).symm⟩
    (by
      intro name hname
      obtain ⟨r, hr, rfl⟩ := map_eq_some_iff.mp hname
      obtain ⟨r₁, hr₁, heq₁⟩ := hcurrent r hr
      exact ⟨r₁, hr₁, (core_physicalCollection (hf _ _ heq₁)).symm⟩)
  have hrenews₁ : Renews f l t
      (t.set (pointerId b l) (.pointer (newPointer b l target current now))) :=
    ⟨fun r hr => ⟨r, (hhas₁ r).mpr hr, rfl⟩, fun r hr => ⟨r, (hhas₁ r).mp hr, rfl⟩⟩
  obtain ⟨hsound₂, hrenews₂, hpointer₂⟩ := mark_known hf hstatus hsound₁ (o := current)
    (fun r hr => by
      obtain ⟨r₁, hr₁, heq₁⟩ := hcurrent r hr
      exact ⟨r₁, (hhas₁ r₁).mpr hr₁, heq₁⟩)
    .old (current.bind BuildRow.activatedAt) w.oldStatus
  have hrenews := hrenews₁.trans hrenews₂
  obtain ⟨hsound₃, hrenews₃, hpointer₃⟩ := mark_known hf hstatus hsound₂ (o := some target)
    (fun r hr => by
      cases hr
      obtain ⟨r₁, hr₁, heq₁⟩ := hrenews.forth r₀ hr₀
      exact ⟨r₁, hr₁, heq₀.trans heq₁.symm⟩)
    .active (some now) w.activeStatus
  rw [switchTo, if_neg (by rw [hw]; decide)]
  refine ⟨hsound₃, hrenews.trans hrenews₃, ?_⟩
  rw [hpointer₃, hpointer₂, Dict.get?_set, if_pos rfl]

/-! ### The target of a switch -/

theorem shown_active (h : Sound b l t) (hr : active b l t = some r) :
    Shown BuildRow.bare l t r := by
  rw [active] at hr
  split at hr
  · obtain ⟨r₀, hr₀, rfl⟩ := map_eq_some_iff.mp hr
    exact ⟨r₀, ((rowByCollection_eq_some h).mp hr₀).1, rfl⟩
  · exact ⟨r, (mem_rows h).mp (mem_of_mem_filter (maxBy_mem hr)), rfl⟩

theorem shown_registry (h : Sound b l t) (hr : r ∈ registry b l t) : Shown BuildRow.bare l t r := by
  obtain ⟨r₀, hr₀, rfl⟩ := mem_map.mp hr
  exact ⟨r₀, (mem_rows h).mp hr₀, effective_bare _ _⟩

theorem shown_previous (h : Sound b l t) (hr : previous b l t = some r) :
    Shown BuildRow.bare l t r := by
  rw [previous] at hr
  split at hr
  · next p hp =>
    cases hname : p.previousPhysicalCollection with
    | none =>
      rw [hname] at hr
      cases hr
    | some name =>
      rw [hname] at hr
      exact ⟨r, ((rowByCollection_eq_some h).mp hr).1, rfl⟩
  · exact shown_registry h (mem_of_mem_filter (maxBy_mem hr))

theorem Shown.core (h : Shown BuildRow.bare l t r) : Shown BuildRow.core l t r := by
  obtain ⟨r₀, hr₀, heq⟩ := h
  exact ⟨r₀, hr₀, core_of_bare heq⟩

theorem verified_eq_ok {provider : Option EmbeddingProfile} {e : Engine} {m : Bool}
    (h : ((verifyRow provider e r m).bind fun v => v.admits choice) = .ok choice') :
    choice' = choice := by
  cases hv : verifyRow provider e r m with
  | error e' =>
    rw [hv] at h
    cases h
  | ok v =>
    rw [hv] at h
    change v.admits choice = _ at h
    rw [Verification.admits] at h
    split at h
    · exact (Except.ok.inj h).symm
    · cases h

theorem chooseActivate_cases (h : Sound b l t) {c : ActivateCall}
    (hc : chooseActivate b l t c = .ok choice) :
    (∃ r, choice = .keep r ∧ active b l t = some r) ∨
      ∃ target, choice = .switch target (active b l t) ∧ Shown BuildRow.bare l t target := by
  rw [chooseActivate] at hc
  split at hc
  · cases hc
  · next profile hprofile =>
    dsimp only at hc
    split at hc
    · cases hc
    · next target htarget =>
      split at hc
      · -- only the active generation is shown as active
        next hstatus =>
        cases hc
        refine .inl ⟨target, rfl, ?_⟩
        rcases or_eq_some_iff.mp htarget with hfirst | ⟨-, hold⟩
        · rcases or_eq_some_iff.mp hfirst with hready | ⟨-, hcurrent⟩
          · have hmem := mem_filter.mp (maxBy_mem hready)
            have hnot := (of_decide_eq_true hmem.2).2.2
            rw [hstatus] at hnot
            cases hnot
          · exact (filter_eq_some_iff.mp hcurrent).1
        · have hmem := mem_filter.mp (maxBy_mem hold)
          have hnot := (of_decide_eq_true hmem.2).2.2
          rw [hstatus] at hnot
          cases hnot
      · refine .inr ⟨target, verified_eq_ok hc, ?_⟩
        rcases or_eq_some_iff.mp htarget with hfirst | ⟨-, hold⟩
        · rcases or_eq_some_iff.mp hfirst with hready | ⟨-, hcurrent⟩
          · exact shown_registry h (mem_of_mem_filter (maxBy_mem hready))
          · exact shown_active h (filter_eq_some_iff.mp hcurrent).1
        · exact shown_registry h (mem_of_mem_filter (maxBy_mem hold))

theorem caughtUp_core {target target' : BuildRow} (h : c.caughtUp target = .ok target') :
    target'.core = target.core ∧ (c.catchUp = none → target' = target) := by
  rw [RollbackCall.caughtUp] at h
  split at h
  · cases h
    exact ⟨rfl, fun _ => rfl⟩
  · next catchUp hcatchUp =>
    refine ⟨?_, fun hnone => absurd (hcatchUp.symm.trans hnone) (some_ne_none _)⟩
    split at h
    · cases h
    · split at h
      · cases h
      · cases h
        rfl

theorem chooseRollback_cases (hc : chooseRollback b l t c = .ok choice) :
    ∃ r target, previous b l t = some r ∧ c.caughtUp r = .ok target ∧
      choice = .switch target (active b l t) := by
  rw [chooseRollback] at hc
  split at hc
  · cases hc
  · next r hr =>
    split at hc
    · cases hc
    · next target htarget => exact ⟨r, target, hr, htarget, verified_eq_ok hc⟩

/-! ### The active generation after a switch -/

def BuildRow.activated (r : BuildRow) (now : Rat) : BuildRow :=
  { r with status := .active, activatedAt := some now }

def BuildRow.uncounted (r : BuildRow) : BuildRow := { r with recordCount := 0 }

theorem BuildRow.activated_of_bare (h : r.bare = r'.bare) (now : Rat) :
    r.activated now = r'.activated now := by
  show r.bare.activated now = r'.bare.activated now
  rw [h]

theorem BuildRow.uncounted_of_core (h : r.core = r'.core) (now : Rat) :
    (r.activated now).uncounted = (r'.activated now).uncounted := by
  show (r.core.activated now).uncounted = (r'.core.activated now).uncounted
  rw [h]

/-- **The target of a switch is active**, up to the number of its records; and if the target is as
the registry has it, it is active as it is returned. -/
theorem active_switchTo (h : Sound b l t) (htarget : Shown BuildRow.core l t target)
    (hroom : HasRoom b l t) (hw : w.pointer = true) (now : Rat) :
    (active b l (switchTo b l t target (active b l t) now w).2).map BuildRow.uncounted
        = some (target.activated now).uncounted ∧
      (Shown BuildRow.bare l t target →
        active b l (switchTo b l t target (active b l t) now w).2 = some (target.activated now)) := by
  constructor
  · obtain ⟨hsound, hrenews, hpointer⟩ := switchTo_known shows_core (fun _ => rfl) h htarget
      (fun r hr => (shown_active h hr).core) hroom hw now
    obtain ⟨r₀, hr₀, heq₀⟩ := htarget
    obtain ⟨r, hr, heq⟩ := hrenews.forth r₀ hr₀
    have hcore : r.core = target.core := heq.trans heq₀.symm
    rw [active_eq hsound ((pointer_eq_some hsound).mpr hpointer) hr (core_physicalCollection hcore)]
    exact congrArg some (uncounted_of_core hcore now)
  · intro hbare
    obtain ⟨hsound, hrenews, hpointer⟩ := switchTo_known shows_bare (fun _ => rfl) h hbare
      (fun r hr => shown_active h hr) hroom hw now
    obtain ⟨r₀, hr₀, heq₀⟩ := hbare
    obtain ⟨r, hr, heq⟩ := hrenews.forth r₀ hr₀
    have hsame : r.bare = target.bare := heq.trans heq₀.symm
    rw [active_eq hsound ((pointer_eq_some hsound).mpr hpointer) hr
      (core_physicalCollection (core_of_bare hsame))]
    exact congrArg some (activated_of_bare hsame now)

/-! ### Builds -/

theorem buildId_ne_pointerId (hex : PyStr) (b : Backend) (l : PyStr) :
    ("projection_build_" : PyStr) ++ hex ≠ pointerId b l := by
  intro h
  have hcode := congrArg (fun s : PyStr => s.codes[11]?) h
  simp [pointerId, PyStr.ofString] at hcode

theorem physicalName_ne (l : PyStr) (profile : EmbeddingProfile) (analyzer generation : PyStr) :
    physicalName l profile analyzer generation ≠ "" := by
  intro h
  have hlength := congrArg (fun s : PyStr => s.codes.length) h
  simp [physicalName, PyStr.ofString] at hlength

theorem begin_eq_ok {c : BuildCall} {row : BuildRow} (h : c.begin l = .ok row) :
    row.id ≠ pointerId b l ∧ row.physicalCollection ≠ "" ∧ row.logicalName = l ∧
      row.status = .building := by
  rw [BuildCall.begin] at h
  split at h
  · cases h
  · split at h
    · cases h
    · split at h
      · cases h
      · split at h
        · cases h
        · cases h
          exact ⟨buildId_ne_pointerId _ _ _, physicalName_ne _ _ _ _, rfl, rfl⟩

theorem register_register (t : Registry) (h : r'.id = r.id) :
    register (register t r) r' = register t r' := by
  rw [register, register, register, h, Dict.set_set]

/-- **A build leaves the registry alone, or adds one row that is not active.** -/
theorem build_cases (l : PyStr) (t : Registry) (c : BuildCall) :
    (build l t c).2 = t ∨ ∃ row r, c.begin l = .ok row ∧ c.firstWrite = true ∧
      r.core = row.core ∧ r.status ≠ .active ∧ (build l t c).2 = register t r := by
  rw [build]
  cases hbegin : c.begin l with
  | error e => exact .inl rfl
  | ok row =>
    have hbuilding : row.status ≠ .active := by
      rw [(begin_eq_ok (b := ⟨id, fun _ => List.Perm.refl _, id⟩) hbegin).2.2.2]
      exact Status.noConfusion
    have hfail : ∀ row' : BuildRow, row'.core = row.core → row'.status ≠ .active →
        ∃ r : BuildRow, r.core = row.core ∧ r.status ≠ .active ∧
          build.fail c (register t row) row' = register t r := by
      intro row' hcore hstatus
      rw [build.fail]
      split
      · refine ⟨{ row' with status := .failed }, hcore, Status.noConfusion, ?_⟩
        exact register_register t (core_id hcore)
      · exact ⟨row, rfl, hbuilding, rfl⟩
    dsimp only
    split
    · exact .inl rfl
    · next hfirst =>
      have hfirst' : c.firstWrite = true := by simpa using hfirst
      right
      split
      · obtain ⟨r, hr⟩ := hfail row rfl hbuilding
        exact ⟨row, r, rfl, hfirst', hr⟩
      · split
        · exact ⟨row, { row with recordCount := c.recordCount, status := .ready }, rfl, hfirst', rfl,
            Status.noConfusion, register_register t rfl⟩
        · obtain ⟨r, hr⟩ := hfail { row with recordCount := c.recordCount, status := .ready } rfl
            Status.noConfusion
          exact ⟨row, r, rfl, hfirst', hr⟩

theorem register_new (h : Sound b l t) (hid : r.id ≠ pointerId b l)
    (hnamed : r.physicalCollection ≠ "") (hl : r.logicalName = l) (hstatus : r.status ≠ .active)
    (hfresh : t.get? r.id = none)
    (hname : ∀ r', Has l t r' → r'.physicalCollection ≠ r.physicalCollection)
    (hroom : size l t < registryLimit) :
    Sound b l (register t r) ∧ active b l (register t r) = active b l t := by
  have hpointer : (register t r).get? (pointerId b l) = t.get? (pointerId b l) := by
    rw [get?_register, if_neg hid.symm]
  have hkept : ∀ r', Has l t r' → Has l (register t r) r' := by
    intro r' hr'
    refine ⟨?_, hr'.2⟩
    rw [get?_register, if_neg]
    · exact hr'.1
    · intro hsame
      rw [← hsame, hr'.1] at hfresh
      cases hfresh
  have hhas : ∀ r', Has l (register t r) r' → r' = r ∨ Has l t r' := by
    intro r' hr'
    have hrow := hr'.1
    rw [get?_register] at hrow
    split at hrow
    · exact .inl (Row.build.inj (Option.some.inj hrow)).symm
    · exact .inr ⟨hrow, hr'.2⟩
  have hsound : Sound b l (register t r) := by
    constructor
    case keyed =>
      intro id row hrow
      rw [get?_register] at hrow
      split at hrow
      · next hsame =>
        cases hrow
        exact hsame.symm
      · exact h.keyed id row hrow
    case apart =>
      rw [hpointer]
      exact h.apart
    case names =>
      intro r₁ r₂ h₁ h₂ hsame
      rcases hhas r₁ h₁ with rfl | h₁'
      · rcases hhas r₂ h₂ with rfl | h₂'
        · rfl
        · exact absurd hsame.symm (hname r₂ h₂')
      · rcases hhas r₂ h₂ with rfl | h₂'
        · exact absurd hsame (hname r₁ h₁')
        · exact h.names r₁ r₂ h₁' h₂' hsame
    case named =>
      intro r₁ h₁
      rcases hhas r₁ h₁ with rfl | h₁'
      · exact hnamed
      · exact h.named r₁ h₁'
    case room =>
      have hone : (if decide (Row.logicalName (.build r) = l) = true then 1 else 0) ≤ 1 := by
        split <;> omega
      rw [size, register, countVals_set_of_none hfresh]
      unfold size at hroom
      omega
    case own =>
      rw [hpointer]
      exact h.own
    case active =>
      intro p hp
      rw [hpointer] at hp
      obtain ⟨r₁, h₁, hname₁⟩ := h.active p hp
      exact ⟨r₁, hkept r₁ h₁, hname₁⟩
    case previous =>
      intro p hp name hname'
      rw [hpointer] at hp
      obtain ⟨r₁, h₁, hname₁⟩ := h.previous p hp name hname'
      exact ⟨r₁, hkept r₁ h₁, hname₁⟩
  refine ⟨hsound, ?_⟩
  have hsame : pointer b l (register t r) = pointer b l t := by
    rw [pointer_eq hsound.keyed, pointer_eq h.keyed, hpointer]
  cases hp : pointer b l t with
  | some p =>
    obtain ⟨r₁, h₁, hname₁⟩ := h.active p ((pointer_eq_some h).mp hp)
    rw [active_eq h hp h₁ hname₁, active_eq hsound (hsame.trans hp) (hkept r₁ h₁) hname₁]
  | none =>
    -- without a pointer the rows decide that say that they are active
    rw [active, active, hsame, hp]
    dsimp only
    rw [filter_rows_eq hsound h]
    intro r' hactive
    refine ⟨fun hr' => ?_, hkept r'⟩
    rcases hhas r' hr' with rfl | hr''
    · exact absurd (of_decide_eq_true hactive) hstatus
    · exact hr''

/-! ### One operation -/

/-- A build draws a row and a collection that are new, and every row has its place in the answer of
the query. -/
def Proper (b : Backend) (l : PyStr) (t : Registry) : Op → Prop
  | .build c => ∀ row, c.begin l = .ok row → c.firstWrite = true →
      t.get? row.id = none ∧ (∀ r, Has l t r → r.physicalCollection ≠ row.physicalCollection) ∧
        size l t < registryLimit
  | .activate _ => HasRoom b l t
  | .rollback _ => HasRoom b l t

def Op.writes : Op → Writes
  | .build _ => ⟨false, false, false⟩
  | .activate c => c.writes
  | .rollback c => c.writes

def Op.now : Op → Rat
  | .build c => c.createdAt
  | .activate c => c.now
  | .rollback c => c.now

/-- `catch_up` is given. -/
def Op.catchesUp : Op → Bool
  | .build _ => false
  | .activate _ => false
  | .rollback c => c.catchUp.isSome

inductive Did (b : Backend) (l : PyStr) (t : Registry) (op : Op) : Prop
  | kept (hsame : (step b l t op).2 = t) (hswitched : switched b l t op = none)
      (hactive : (∀ c, op ≠ .build c) → ∀ r, (step b l t op).1 = .ok r → active b l t = some r)
  | built (row r : BuildRow) (c : BuildCall) (hop : op = .build c) (hbegin : c.begin l = .ok row)
      (hfirst : c.firstWrite = true) (hcore : r.core = row.core) (hstatus : r.status ≠ .active)
      (hadded : (step b l t op).2 = register t r)
  | switched (target : BuildRow) (hswitched : switched b l t op = some target)
      (hshown : Shown BuildRow.core l t target)
      (hbare : op.catchesUp = false → Shown BuildRow.bare l t target)
      (hroom : Proper b l t op → HasRoom b l t) (hw : op.writes.pointer = true)
      (hstep : step b l t op = switchTo b l t target (active b l t) op.now op.writes)

theorem switchTo_fst {now : Rat} : (switchTo b l t target current now w).1
      = if w.pointer then .ok (target.activated now) else .error .insertFailed := by
  rw [switchTo]
  cases w.pointer
  · rfl
  · rfl

theorem did_of_choice (op : Op) {choice : Except Refusal Choice}
    (hstep : step b l t op = commit b l t op.now op.writes choice)
    (hswitched : switched b l t op = choice.toOption.bind (Choice.written op.writes))
    (hroom : Proper b l t op → HasRoom b l t)
    (hkeep : ∀ r, choice = .ok (.keep r) → active b l t = some r)
    (hswitch : ∀ target current, choice = .ok (.switch target current) →
      current = active b l t ∧ Shown BuildRow.core l t target ∧
        (op.catchesUp = false → Shown BuildRow.bare l t target)) : Did b l t op := by
  cases choice with
  | error e =>
    refine .kept (by rw [hstep]; rfl) hswitched fun _ r hr => ?_
    rw [hstep] at hr
    cases hr
  | ok choice =>
    cases choice with
    | keep r =>
      refine .kept (by rw [hstep]; rfl) hswitched fun _ r' hr' => ?_
      rw [hstep] at hr'
      rw [hkeep r rfl, Except.ok.inj hr']
    | switch target current =>
      obtain ⟨rfl, hshown, hbare⟩ := hswitch target current rfl
      change switched b l t op = if op.writes.pointer then some target else none at hswitched
      change step b l t op = switchTo b l t target (active b l t) op.now op.writes at hstep
      cases hw : op.writes.pointer with
      | true =>
        rw [hw, if_pos rfl] at hswitched
        exact .switched target hswitched hshown hbare hroom hw hstep
      | false =>
        -- the pointer is not written, and nothing after it
        rw [hw, if_neg Bool.false_ne_true] at hswitched
        refine .kept ?_ hswitched fun _ r hr => ?_
        · rw [hstep, switchTo, if_pos (by rw [hw]; rfl)]
        · rw [hstep, switchTo_fst, hw, if_neg Bool.false_ne_true] at hr
          cases hr

theorem step_cases (h : Sound b l t) (op : Op) : Did b l t op := by
  cases op with
  | build c =>
    rcases build_cases l t c with hsame | ⟨row, r, hbegin, hfirst, hcore, hstatus, hadded⟩
    · exact .kept hsame rfl fun hne => absurd rfl (hne c)
    · exact .built row r c rfl hbegin hfirst hcore hstatus hadded
  | activate c =>
    refine did_of_choice (.activate c) rfl rfl id (fun r hr => ?_) fun target current hc => ?_
    · rcases chooseActivate_cases h hr with ⟨r', heq, hr'⟩ | ⟨target, heq, -⟩
      · rw [Choice.keep.inj heq, hr']
      · cases heq
    · rcases chooseActivate_cases h hc with ⟨r', heq, -⟩ | ⟨target', heq, htarget⟩
      · cases heq
      · obtain ⟨rfl, hcurrent⟩ := Choice.switch.inj heq
        exact ⟨hcurrent, htarget.core, fun _ => htarget⟩
  | rollback c =>
    refine did_of_choice (.rollback c) rfl rfl id (fun r hr => ?_) fun target current hc => ?_
    · obtain ⟨_, _, _, _, heq⟩ := chooseRollback_cases hr
      cases heq
    · obtain ⟨r₀, target', hprevious, hcaught, heq⟩ := chooseRollback_cases hc
      obtain ⟨rfl, hcurrent⟩ := Choice.switch.inj heq
      obtain ⟨hcore, hsame⟩ := caughtUp_core hcaught
      obtain ⟨r₁, h₁, heq₁⟩ := shown_previous h hprevious
      refine ⟨hcurrent, ⟨r₁, h₁, hcore.trans (core_of_bare heq₁)⟩, fun hnot => ?_⟩
      have hnone : c.catchUp = none := isNone_iff_eq_none.mp (by
        rw [← not_isSome]
        exact congrArg not hnot)
      rw [hsame hnone]
      exact ⟨r₁, h₁, heq₁⟩

variable {op : Op}

theorem sound_step (h : Sound b l t) (hop : Proper b l t op) : Sound b l (step b l t op).2 := by
  cases step_cases h op with
  | kept hsame => rwa [hsame]
  | built row r c heq hbegin hfirst hcore hstatus hadded =>
    subst heq
    obtain ⟨hfresh, hname, hroom⟩ := hop row hbegin hfirst
    obtain ⟨hid, hnamed, hl, -⟩ := begin_eq_ok (b := b) hbegin
    rw [← core_id hcore] at hid hfresh
    rw [← core_physicalCollection hcore] at hname hnamed
    rw [hadded]
    exact (register_new h hid hnamed ((core_logicalName hcore).trans hl) hstatus hfresh
      hname hroom).1
  | switched target hswitched hshown hbare hroom hw hstep =>
    rw [hstep]
    exact (switchTo_known shows_core (fun _ => rfl) h hshown
      (fun r hr => (shown_active h hr).core) (hroom hop) hw _).1

/-- **An operation that writes no pointer leaves the active generation as it is.** -/
theorem active_of_not_switched (h : Sound b l t) (hop : Proper b l t op)
    (hnot : switched b l t op = none) : active b l (step b l t op).2 = active b l t := by
  cases step_cases h op with
  | kept hsame => rw [hsame]
  | built row r c heq hbegin hfirst hcore hstatus hadded =>
    subst heq
    obtain ⟨hfresh, hname, hroom⟩ := hop row hbegin hfirst
    obtain ⟨hid, hnamed, hl, -⟩ := begin_eq_ok (b := b) hbegin
    rw [← core_id hcore] at hid hfresh
    rw [← core_physicalCollection hcore] at hname hnamed
    rw [hadded]
    exact (register_new h hid hnamed ((core_logicalName hcore).trans hl) hstatus hfresh
      hname hroom).2
  | switched target hswitched =>
    rw [hnot] at hswitched
    cases hswitched

/-- **An operation that writes the pointer makes its target active, and returns it.** -/
theorem active_of_switched (h : Sound b l t) (hop : Proper b l t op)
    (hswitched : switched b l t op = some target) :
    (step b l t op).1 = .ok (target.activated op.now) ∧
      (active b l (step b l t op).2).map BuildRow.uncounted
        = some (target.activated op.now).uncounted ∧
      (op.catchesUp = false → active b l (step b l t op).2 = some (target.activated op.now)) := by
  cases step_cases h op with
  | kept hsame hnone =>
    rw [hnone] at hswitched
    cases hswitched
  | built row r c heq =>
    subst heq
    cases hswitched
  | switched target' hswitched' hshown hbare hroom hw hstep =>
    obtain rfl := Option.some.inj (hswitched'.symm.trans hswitched)
    obtain ⟨hcounted, hexact⟩ := active_switchTo h hshown (hroom hop) hw op.now
    rw [hstep]
    refine ⟨?_, hcounted, fun hnot => hexact (hbare hnot)⟩
    rw [switchTo_fst, hw, if_pos rfl]

/-! ### Runs -/

def ProperRun (b : Backend) (l : PyStr) : Registry → List Op → Prop
  | _, [] => True
  | t, op :: ops => Proper b l t op ∧ ProperRun b l (step b l t op).2 ops

def activeCollection (b : Backend) (l : PyStr) (t : Registry) : Option PyStr :=
  (active b l t).map BuildRow.physicalCollection

theorem activeCollection_step (h : Sound b l t) (hop : Proper b l t op) :
    activeCollection b l (step b l t op).2
      = ((switched b l t op).map BuildRow.physicalCollection).or (activeCollection b l t) := by
  cases hswitched : switched b l t op with
  | none => rw [activeCollection, active_of_not_switched h hop hswitched]; rfl
  | some target =>
    obtain ⟨-, hcounted, -⟩ := active_of_switched h hop hswitched
    have hmap := congrArg (Option.map BuildRow.physicalCollection) hcounted
    rw [Option.map_map] at hmap
    exact hmap

theorem sound_run {ops : List Op} (h : Sound b l t) (hops : ProperRun b l t ops) :
    Sound b l (run b l t ops) ∧
      activeCollection b l (run b l t ops) = lastSwitched b l (activeCollection b l t) t ops := by
  induction ops generalizing t with
  | nil => exact ⟨h, rfl⟩
  | cons op ops ih =>
    obtain ⟨hop, hops⟩ := hops
    obtain ⟨hsound, hlast⟩ := ih (sound_step h hop) hops
    refine ⟨hsound, ?_⟩
    show activeCollection b l (run b l (step b l t op).2 ops) = _
    rw [hlast, lastSwitched, activeCollection_step h hop]

/-- The operation, with other answers to its writes of the statuses. -/
def Op.withStatusWrites (op : Op) (oldStatus activeStatus : Bool) : Op :=
  match op with
  | .build c => .build c
  | .activate c => .activate { c with writes := ⟨c.writes.pointer, oldStatus, activeStatus⟩ }
  | .rollback c => .rollback { c with writes := ⟨c.writes.pointer, oldStatus, activeStatus⟩ }

theorem switched_withStatusWrites (op : Op) (oldStatus activeStatus : Bool) :
    switched b l t (op.withStatusWrites oldStatus activeStatus) = switched b l t op := by
  cases op with
  | build c => rfl
  | activate c => rfl
  | rollback c => rfl

theorem proper_withStatusWrites (oldStatus activeStatus : Bool) (h : Proper b l t op) :
    Proper b l t (op.withStatusWrites oldStatus activeStatus) := by
  cases op with
  | build c => exact h
  | activate c => exact h
  | rollback c => exact h

/-- **The statuses do not decide which generation is active.** -/
theorem active_withStatusWrites (h : Sound b l t) (hop : Proper b l t op)
    (oldStatus activeStatus : Bool) :
    (active b l (step b l t (op.withStatusWrites oldStatus activeStatus)).2).map BuildRow.uncounted
        = (active b l (step b l t op).2).map BuildRow.uncounted ∧
      (op.catchesUp = false → active b l (step b l t (op.withStatusWrites oldStatus activeStatus)).2
          = active b l (step b l t op).2) := by
  have hop' := proper_withStatusWrites oldStatus activeStatus hop
  have hsame := switched_withStatusWrites (b := b) (l := l) (t := t) op oldStatus activeStatus
  have hnow : (op.withStatusWrites oldStatus activeStatus).now = op.now := by cases op <;> rfl
  have hcatches : (op.withStatusWrites oldStatus activeStatus).catchesUp = op.catchesUp := by
    cases op <;> rfl
  cases hswitched : switched b l t op with
  | none =>
    rw [active_of_not_switched h hop hswitched,
      active_of_not_switched h hop' (hsame.trans hswitched)]
    exact ⟨rfl, fun _ => rfl⟩
  | some target =>
    obtain ⟨-, hcounted, hexact⟩ := active_of_switched h hop hswitched
    obtain ⟨-, hcounted', hexact'⟩ := active_of_switched h hop' (hsame.trans hswitched)
    rw [hnow] at hcounted' hexact'
    rw [hcatches] at hexact'
    exact ⟨hcounted'.trans hcounted.symm, fun hnot => (hexact' hnot).trans (hexact hnot).symm⟩

theorem rollback_ok (hr : (rollback b l t c).1 = .ok r) :
    ∃ r₀ target, previous b l t = some r₀ ∧ target.physicalCollection = r₀.physicalCollection ∧
      c.writes.pointer = true ∧ switched b l t (.rollback c) = some target ∧
      rollback b l t c = switchTo b l t target (active b l t) c.now c.writes := by
  cases hchoice : chooseRollback b l t c with
  | error e =>
    rw [rollback, hchoice] at hr
    cases hr
  | ok choice =>
    obtain ⟨r₀, target, hprevious, hcaught, rfl⟩ := chooseRollback_cases hchoice
    have heq : rollback b l t c = switchTo b l t target (active b l t) c.now c.writes := by
      rw [rollback, hchoice]
      rfl
    have hw : c.writes.pointer = true := by
      by_contra hnot
      rw [heq, switchTo_fst, if_neg hnot] at hr
      cases hr
    refine ⟨r₀, target, hprevious, ?_, hw, ?_, heq⟩
    · exact core_physicalCollection (caughtUp_core hcaught).1
    · show (chooseRollback b l t c).toOption.bind _ = _
      rw [hchoice]
      exact if_pos hw

/-- **Two rollbacks restore the generation that was active before them.** -/
theorem activeCollection_rollback_rollback (h : Sound b l t) (hop : Proper b l t (.rollback c))
    (hop' : Proper b l (rollback b l t c).2 (.rollback c')) (hr : (rollback b l t c).1 = .ok r)
    (hr' : (rollback b l (rollback b l t c).2 c').1 = .ok r') :
    activeCollection b l (rollback b l (rollback b l t c).2 c').2 = activeCollection b l t := by
  obtain ⟨r₀, target, hprevious, -, hw, hswitched, heq⟩ := rollback_ok hr
  obtain ⟨r₀', target', hprevious', hname', -, hswitched', -⟩ := rollback_ok hr'
  have hsound : Sound b l (rollback b l t c).2 := sound_step h hop
  -- the pointer names what was active as the generation before
  have hshown : Shown BuildRow.core l t target := by
    cases step_cases h (.rollback c) with
    | kept hsame hnone =>
      rw [hnone] at hswitched
      cases hswitched
    | built row r c' hbuild => cases hbuild
    | switched target₁ hswitched₁ hshown =>
      obtain rfl := Option.some.inj (hswitched₁.symm.trans hswitched)
      exact hshown
  obtain ⟨-, -, hpointer⟩ := switchTo_known shows_core (fun _ => rfl) h hshown
    (fun r hr => (shown_active h hr).core) hop hw c.now
  rw [← heq] at hpointer
  rw [previous, (pointer_eq_some hsound).mpr hpointer] at hprevious'
  change rowByCollection b l _ (activeCollection b l t) = some r₀' at hprevious'
  cases hactive : activeCollection b l t with
  | none =>
    rw [hactive] at hprevious'
    cases hprevious'
  | some name =>
    rw [hactive] at hprevious'
    have hstep := activeCollection_step hsound hop'
    rw [hswitched', map_some, some_or, hname',
      ((rowByCollection_eq_some hsound).mp hprevious').2] at hstep
    exact hstep

/-! ### The results -/

/-- **The generations of a logical name after a run.** -/
structure Consistent (b : Backend) (l : PyStr) (t₀ : Registry) (ops : List Op) (t : Registry) :
    Prop where
  /-- the active generation is the target of the pointer that was written last -/
  pointed : activeCollection b l t = lastSwitched b l (activeCollection b l t₀) t₀ ops
  /-- `registry` shows at most one row as active, and that is the active one -/
  single : (registry b l t).filter (fun r => r.status = .active) = [] ∨
    ∃ r, active b l t = some r ∧ (registry b l t).filter (fun r => r.status = .active) = [r]
  /-- an operation that raises leaves it as it is, and so does a build -/
  failed : ∀ op, Proper b l t op → ((∃ e, (step b l t op).1 = .error e) ∨ ∃ c, op = .build c) →
    active b l (step b l t op).2 = active b l t
  /-- what `activate` and `rollback` return is active then -/
  returned : ∀ op r, Proper b l t op → (∀ c, op ≠ .build c) → (step b l t op).1 = .ok r →
    (active b l (step b l t op).2).map BuildRow.uncounted = some r.uncounted
  /-- it does not depend on the writes of the statuses, but for the count after a catch-up -/
  statuses : ∀ op oldStatus activeStatus, Proper b l t op →
    (active b l (step b l t (op.withStatusWrites oldStatus activeStatus)).2).map BuildRow.uncounted
        = (active b l (step b l t op).2).map BuildRow.uncounted ∧
      (op.catchesUp = false →
        active b l (step b l t (op.withStatusWrites oldStatus activeStatus)).2
          = active b l (step b l t op).2)
  /-- two rollbacks restore it -/
  restored : ∀ c c' r r', Proper b l t (.rollback c) →
    Proper b l (rollback b l t c).2 (.rollback c') → (rollback b l t c).1 = .ok r →
    (rollback b l (rollback b l t c).2 c').1 = .ok r' →
    activeCollection b l (rollback b l (rollback b l t c).2 c').2 = activeCollection b l t

/-- **After every run of proper operations the generations are consistent.** -/
theorem generations_consistent (b : Backend) (l : PyStr) (t₀ : Registry) (ops : List Op)
    (h : Sound b l t₀) (hops : ProperRun b l t₀ ops) :
    Consistent b l t₀ ops (run b l t₀ ops) := by
  obtain ⟨hsound, hpointed⟩ := sound_run h hops
  refine ⟨hpointed, ?_, ?_, ?_, fun op o a hop => active_withStatusWrites hsound hop o a,
    fun c c' r r' hop hop' hr hr' => activeCollection_rollback_rollback hsound hop hop' hr hr'⟩
  · rw [filter_registry hsound]
    cases hp : pointer b l (run b l t₀ ops) with
    | none => exact .inl rfl
    | some p =>
      obtain ⟨r, hhas, hname⟩ := hsound.active p ((pointer_eq_some hsound).mp hp)
      rw [active_eq hsound hp hhas hname]
      exact .inr ⟨_, rfl, rfl⟩
  · intro op hop hfails
    cases hswitched : switched b l (run b l t₀ ops) op with
    | none => exact active_of_not_switched hsound hop hswitched
    | some target =>
      rcases hfails with ⟨e, he⟩ | ⟨c, rfl⟩
      · rw [(active_of_switched hsound hop hswitched).1] at he
        cases he
      · cases hswitched
  · intro op r hop hnot hr
    cases step_cases hsound op with
    | kept hsame hswitched hactive =>
      rw [hsame, hactive hnot r hr]
      rfl
    | built row r' c heq => exact absurd heq (hnot c)
    | switched target hswitched =>
      obtain ⟨hok, hcounted, -⟩ := active_of_switched hsound hop hswitched
      rw [hcounted, Except.ok.inj (hok.symm.trans hr)]

/-! ### A run, a build id drawn twice, and a registry that outgrows the query -/

def sampleBackend : Backend := ⟨id, fun _ => List.Perm.refl _, id⟩

def sampleProfile : EmbeddingProfile where
  profileId := "fake_8d_v1"
  modelId := "fake"
  modelRevision := "1"
  dimension := 8
  normalize := true
  distance := "cosine"
  queryInstruction := none
  documentInstruction := none
  providerType := "fake"

def emptyEngine : Engine := ⟨true, fun _ => some false, fun _ => none, fun _ => none⟩

def fullEngine : Engine := ⟨true, fun _ => some true, fun _ => some 1, fun _ => some (some 8)⟩

def sampleBuild (buildId rowHex : PyStr) (createdAt : Rat) (engine : Engine) (backfilled : Bool) :
    BuildCall where
  provider := some sampleProfile
  analyzer := "ngram"
  recordCount := 1
  corpusHash := "e3b0c442"
  buildId := buildId
  rowHex := rowHex
  createdAt := createdAt
  engine := engine
  prepared := true
  backfilled := backfilled
  firstWrite := true
  readyWrite := true
  failedWrite := true

def sampleActivate (now : Rat) : Op :=
  .activate ⟨some sampleProfile, "ngram", fullEngine, now, ⟨true, false, true⟩⟩

def sampleRollback (now : Rat) : Op :=
  .rollback ⟨none, none, fullEngine, now, ⟨true, true, false⟩⟩

def firstBuild : BuildCall :=
  sampleBuild "ffffffffff" "ffffffffffff4fffbfffffffffffffff" 1 emptyEngine true

def secondBuild : BuildCall :=
  sampleBuild "eeeeeeeeee" "eeeeeeeeeeee4eeebeeeeeeeeeeeeeee" 3 emptyEngine true

def sampleOps : List Op :=
  [.build firstBuild, sampleActivate 2, .build secondBuild, sampleActivate 4, sampleRollback 5,
    sampleRollback 6]

/-- No row has the id or the collection that a build draws, and there is room for its row. -/
def isFresh (l : PyStr) (t : Registry) (c : BuildCall) : Bool :=
  (c.begin l).toOption.all fun row =>
    (t.get? row.id).isNone &&
      t.values.all (fun row' =>
        row'.build?.all fun r => r.physicalCollection ≠ row.physicalCollection) &&
      size l t < registryLimit

theorem proper_of_isFresh {c : BuildCall} (h : isFresh l t c = true) : Proper b l t (.build c) := by
  intro row hbegin _
  rw [isFresh, hbegin] at h
  simp only [Except.toOption, Option.all_some, Bool.and_eq_true, decide_eq_true_eq,
    Option.isNone_iff_eq_none, List.all_eq_true] at h
  obtain ⟨⟨hid, hnames⟩, hroom⟩ := h
  refine ⟨hid, fun r hr => ?_, hroom⟩
  exact of_decide_eq_true (hnames (.build r) (mem_values_iff.mpr ⟨_, hr.1⟩))

theorem generations_consistent_sample :
    Sound sampleBackend "mem_v" ∅ ∧ ProperRun sampleBackend "mem_v" ∅ sampleOps ∧
      Consistent sampleBackend "mem_v" ∅ sampleOps (run sampleBackend "mem_v" ∅ sampleOps) := by
  have hops : ProperRun sampleBackend "mem_v" ∅ sampleOps := by
    refine ⟨proper_of_isFresh ?_, .inr ?_, proper_of_isFresh ?_, .inl ?_, .inl ?_, .inl ?_, trivial⟩
    · decide +kernel
    · decide +kernel
    · decide +kernel
    · decide +kernel
    · decide +kernel
    · decide +kernel
  exact ⟨sound_empty _ _, hops, generations_consistent _ _ _ _ (sound_empty _ _) hops⟩

/-- A second build that draws the build id of the active generation. -/
def collidingOps : List Op :=
  [.build firstBuild, sampleActivate 2,
    .build (sampleBuild "ffffffffff" "eeeeeeeeeeee4eeebeeeeeeeeeeeeeee" 3 fullEngine true)]

def newestFirst : Backend := ⟨List.reverse, List.reverse_perm, id⟩

def hexDigit (d : Nat) : Nat := if d < 10 then 48 + d else 87 + d

def hexTail (i : Nat) : PyStr :=
  ⟨[hexDigit (i / 4096 % 16), hexDigit (i / 256 % 16), hexDigit (i / 16 % 16), hexDigit (i % 16)]⟩

theorem hexTail_inj (hi : i < 65536) (hj : j < 65536) (h : hexTail i = hexTail j) : i = j := by
  have hdigit : ∀ {d d' : Nat}, d < 16 → d' < 16 → hexDigit d = hexDigit d' → d = d' := by
    intro d d' hd hd' heq
    unfold hexDigit at heq
    split at heq <;> split at heq <;> omega
  have hcodes := congrArg PyStr.codes h
  simp only [hexTail, List.cons.injEq, and_true] at hcodes
  obtain ⟨h₃, h₂, h₁, h₀⟩ := hcodes
  have := hdigit (Nat.mod_lt _ (by omega)) (Nat.mod_lt _ (by omega)) h₃
  have := hdigit (Nat.mod_lt _ (by omega)) (Nat.mod_lt _ (by omega)) h₂
  have := hdigit (Nat.mod_lt _ (by omega)) (Nat.mod_lt _ (by omega)) h₁
  have := hdigit (Nat.mod_lt _ (by omega)) (Nat.mod_lt _ (by omega)) h₀
  omega

def failingBuild (i : Nat) : BuildCall :=
  sampleBuild ("000000" ++ hexTail i) ("0000000000004000800000000000" ++ hexTail i) 3 emptyEngine
    false

def failedRow (i : Nat) : BuildRow where
  id := "projection_build_" ++ ("0000000000004000800000000000" ++ hexTail i)
  buildId := "000000" ++ hexTail i
  logicalName := "mem_v"
  physicalCollection := physicalName "mem_v" sampleProfile "ngram" ("000000" ++ hexTail i)
  embeddingProfileId := "fake_8d_v1"
  modelId := "fake"
  modelRevision := "1"
  dimension := 8
  normalize := true
  distance := "cosine"
  queryInstructionEnabled := false
  documentInstructionEnabled := false
  providerType := "fake"
  analyzer := "ngram"
  corpusHash := "e3b0c442"
  recordCount := 0
  status := .failed
  createdAt := some 3
  activatedAt := none

theorem build_failingBuild (t : Registry) (i : Nat) :
    (build "mem_v" t (failingBuild i)).2 = register t (failedRow i) :=
  register_register t (r := { failedRow i with status := .building }) rfl

def oneGeneration : Registry := run newestFirst "mem_v" ∅ [.build firstBuild, sampleActivate 2]

def failingOps (n : Nat) : List Op := (List.range n).map fun i => .build (failingBuild i)

theorem run_append (b : Backend) (l : PyStr) (t : Registry) (ops ops' : List Op) :
    run b l t (ops ++ ops') = run b l (run b l t ops) ops' := foldl_append

theorem failedRow_id_inj (hi : i < 65536) (hj : j < 65536)
    (h : (failedRow i).id = (failedRow j).id) : i = j := by
  have hcodes := congrArg PyStr.codes h
  simp only [failedRow, PyStr.codes_append, append_cancel_left_eq] at hcodes
  refine hexTail_inj hi hj ?_
  cases hti : hexTail i
  cases htj : hexTail j
  rw [hti, htj] at hcodes
  exact congrArg PyStr.mk hcodes

def firstRow : BuildRow where
  id := "projection_build_ffffffffffff4fffbfffffffffffffff"
  buildId := "ffffffffff"
  logicalName := "mem_v"
  physicalCollection := "mem_v__fake_8d_v1__ngram__gffffffffff"
  embeddingProfileId := "fake_8d_v1"
  modelId := "fake"
  modelRevision := "1"
  dimension := 8
  normalize := true
  distance := "cosine"
  queryInstructionEnabled := false
  documentInstructionEnabled := false
  providerType := "fake"
  analyzer := "ngram"
  corpusHash := "e3b0c442"
  recordCount := 1
  status := .active
  createdAt := some 1
  activatedAt := some 2

def firstPointer : Pointer := newPointer newestFirst "mem_v" firstRow none 2

theorem entries_oneGeneration :
    oneGeneration.entries = [(firstRow.id, .build firstRow), (firstPointer.id, .pointer firstPointer)] := by
  decide +kernel

theorem failedRow_id_ne : (failedRow n).id ≠ firstRow.id ∧ (failedRow n).id ≠ firstPointer.id := by
  refine ⟨fun h => ?_, buildId_ne_pointerId _ _ _⟩
  have hcode := congrArg (fun s : PyStr => s.codes[17]?) h
  simp [failedRow, firstRow, PyStr.ofString] at hcode

theorem run_failingOps {n : Nat} (hn : n ≤ 65536) :
    (run newestFirst "mem_v" oneGeneration (failingOps n)).entries
      = oneGeneration.entries
        ++ (List.range n).map fun i => ((failedRow i).id, Row.build (failedRow i)) := by
  induction n with
  | zero => exact (append_nil _).symm
  | succ n ih =>
    rw [failingOps, range_succ, map_append, run_append]
    show (build "mem_v" (run newestFirst "mem_v" oneGeneration (failingOps n))
      (failingBuild n)).2.entries = _
    rw [build_failingBuild, register, entries_set_of_none, ih (by omega), map_append,
      append_assoc]
    · rfl
    · -- none of the rows before has the id
      cases hget : (run newestFirst "mem_v" oneGeneration (failingOps n)).get? (failedRow n).id with
      | none => rfl
      | some row =>
        have hmem := mem_entries_iff.mpr hget
        rw [ih (by omega), entries_oneGeneration, mem_append, mem_pair] at hmem
        obtain ⟨hfirst, hpointer⟩ := failedRow_id_ne n
        rcases hmem with (heq | heq) | hmem
        · exact absurd (Prod.ext_iff.mp heq).1 hfirst
        · exact absurd (Prod.ext_iff.mp heq).1 hpointer
        · obtain ⟨i, hi, heq⟩ := mem_map.mp hmem
          have hi' := mem_range.mp hi
          have hsame := failedRow_id_inj (by omega) (by omega) (Prod.ext_iff.mp heq).1
          omega

def outgrownOps : List Op := [.build firstBuild, sampleActivate 2] ++ failingOps 9999

theorem lastSwitched_append (b : Backend) (l : PyStr) (last : Option PyStr) (t : Registry)
    (ops ops' : List Op) : lastSwitched b l last t (ops ++ ops')
      = lastSwitched b l (lastSwitched b l last t ops) (run b l t ops) ops' := by
  induction ops generalizing last t with
  | nil => rfl
  | cons op ops ih => exact ih _ _

theorem lastSwitched_failingOps (b : Backend) (last : Option PyStr) (t : Registry) (is : List Nat) :
    lastSwitched b "mem_v" last t (is.map fun i => .build (failingBuild i)) = last := by
  induction is generalizing t with
  | nil => rfl
  | cons i is ih => exact ih _

theorem failedRow_collection_ne :
    (failedRow n).physicalCollection ≠ firstRow.physicalCollection := by
  intro h
  have hcode := congrArg (fun s : PyStr => s.codes[27]?) h
  simp [failedRow, firstRow, physicalName, sampleProfile, PyStr.ofString] at hcode

theorem mem_take_reverse {later : List Row} {n : Nat} (hn : later.length = n)
    (h : row ∈ ((first :: later).reverse).take n) : row ∈ later.reverse := by
  rw [reverse_cons, take_append_of_le_length (by rw [length_reverse, hn]),
    take_of_length_le (by rw [length_reverse, hn])] at h
  exact h

theorem active_outgrown : activeCollection newestFirst "mem_v"
    (run newestFirst "mem_v" ∅ outgrownOps) = none := by
  have hrun : run newestFirst "mem_v" ∅ outgrownOps
      = run newestFirst "mem_v" oneGeneration (failingOps 9999) := run_append ..
  have hentries := run_failingOps (show 9999 ≤ 65536 by omega)
  rw [← hrun, entries_oneGeneration] at hentries
  have hkeyed : ∀ id row, (run newestFirst "mem_v" ∅ outgrownOps).get? id = some row →
      row.id = id := by
    intro id row hget
    have hmem := mem_entries_iff.mpr hget
    rw [hentries, List.mem_append, List.mem_pair] at hmem
    rcases hmem with (heq | heq) | hmem
    · obtain ⟨rfl, rfl⟩ := Prod.ext_iff.mp heq
      rfl
    · obtain ⟨rfl, rfl⟩ := Prod.ext_iff.mp heq
      rfl
    · obtain ⟨i, -, heq⟩ := List.mem_map.mp hmem
      obtain ⟨rfl, rfl⟩ := Prod.ext_iff.mp heq
      rfl
  have hpointer : pointer newestFirst "mem_v" (run newestFirst "mem_v" ∅ outgrownOps)
      = some firstPointer := by
    have hget : (run newestFirst "mem_v" ∅ outgrownOps).get? firstPointer.id
        = some (.pointer firstPointer) := by
      refine mem_entries_iff.mp ?_
      rw [hentries]
      exact List.mem_append_left _ (List.mem_cons_of_mem _ List.mem_cons_self)
    rw [pointer_eq hkeyed]
    exact congrArg (fun o => Option.bind o Row.pointer?) hget
  have hrows : ∀ r ∈ rows newestFirst "mem_v" (run newestFirst "mem_v" ∅ outgrownOps),
      r.physicalCollection ≠ firstRow.physicalCollection := by
    intro r hr
    rw [rows, List.mem_insertionSort, List.mem_filterMap] at hr
    obtain ⟨row, hrow, hbuild⟩ := hr
    have hlater : row ∈ Row.pointer firstPointer
        :: (List.range 9999).map fun i => Row.build (failedRow i) := by
      have hvalues : (run newestFirst "mem_v" ∅ outgrownOps).values
          = Row.build firstRow :: Row.pointer firstPointer
            :: (List.range 9999).map fun i => Row.build (failedRow i) := by
        rw [Dict.values, hentries, List.map_append, List.map_map]
        rfl
      have hall : ∀ row ∈ (run newestFirst "mem_v" ∅ outgrownOps).values,
          decide (row.logicalName = "mem_v") = true := by
        intro row hrow
        rw [hvalues] at hrow
        rcases List.mem_cons.mp hrow with rfl | hrow
        · rfl
        · rcases List.mem_cons.mp hrow with rfl | hrow
          · rfl
          · obtain ⟨i, -, rfl⟩ := List.mem_map.mp hrow
            rfl
      rw [query, List.filter_eq_self.mpr hall, hvalues] at hrow
      have hlength : (Row.pointer firstPointer
          :: (List.range 9999).map fun i => Row.build (failedRow i)).length = registryLimit := by
        rw [List.length_cons, List.length_map, List.length_range, registryLimit]
      have hscan : newestFirst.scan = List.reverse := rfl
      rw [hscan] at hrow
      exact List.mem_reverse.mp (mem_take_reverse hlength hrow)
    rcases List.mem_cons.mp hlater with rfl | hfailed
    · cases hbuild
    · obtain ⟨i, -, rfl⟩ := List.mem_map.mp hfailed
      cases hbuild
      exact failedRow_collection_ne i
  rw [activeCollection, active, hpointer]
  show Option.map _ (Option.map _ _) = none
  rw [rowByCollection, if_neg (by decide +kernel), List.find?_eq_none.mpr]
  · rfl
  · intro r hr
    rw [decide_eq_true_eq]
    exact hrows r hr

/-- **The active generation is not unique after a build that draws its build id; and it is lost when
the registry outgrows the query.** -/
theorem generations_confused :
    ¬ Consistent sampleBackend "mem_v" ∅ collidingOps (run sampleBackend "mem_v" ∅ collidingOps) ∧
      ¬ Consistent newestFirst "mem_v" ∅ outgrownOps (run newestFirst "mem_v" ∅ outgrownOps) := by
  constructor
  · intro h
    have htwo : ((registry sampleBackend "mem_v" (run sampleBackend "mem_v" ∅ collidingOps)).filter
        fun r => r.status = .active).length = 2 := by
      decide +kernel
    rcases h.single with hnone | ⟨r, -, hone⟩
    · rw [hnone] at htwo
      cases htwo
    · rw [hone] at htwo
      cases htwo
  · intro h
    have hlast : lastSwitched newestFirst "mem_v" none ∅ outgrownOps
        = some firstRow.physicalCollection := by
      rw [outgrownOps, lastSwitched_append, failingOps, lastSwitched_failingOps]
      decide +kernel
    have hpointed := h.pointed
    rw [active_outgrown] at hpointed
    exact absurd (hpointed.trans hlast) (Option.some_ne_none _).symm

end Rosclaw.VersionedCollections
