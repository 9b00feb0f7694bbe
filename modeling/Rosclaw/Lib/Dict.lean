/-
Finite dictionaries in insertion order.

A dictionary is a list of entries without a repeated key.  Replacing the value
of a key keeps its place and a new key goes to the end, so iteration visits the
keys in the order in which they were first inserted.

* `get?`, `set`, `erase`, `mapVals`, `filter` — the operations;
* `get?_set`, `get?_erase`, `get?_mapVals`, `get?_filter` — what each does to a
  lookup;
* `mem_entries_iff` — entries and lookups say the same thing;
* `UniqueBy` — a unique index on the values, and what keeps it.
-/
import Mathlib.Data.List.Nodup

structure Dict (K V : Type*) where
  entries : List (K × V)
  nodup : (entries.map Prod.fst).Nodup

namespace Dict

open List

variable {K V : Type*}

def empty : Dict K V := ⟨[], List.nodup_nil⟩

instance : EmptyCollection (Dict K V) := ⟨empty⟩

def keys (d : Dict K V) : List K := d.entries.map Prod.fst

def values (d : Dict K V) : List V := d.entries.map Prod.snd

def size (d : Dict K V) : Nat := d.entries.length

section Decidable
variable [DecidableEq K]

def getList (k : K) : List (K × V) → Option V
  | [] => none
  | (k', v) :: es => if k' = k then some v else getList k es

def setList (k : K) (v : V) : List (K × V) → List (K × V)
  | [] => [(k, v)]
  | (k', v') :: es => if k' = k then (k, v) :: es else (k', v') :: setList k v es

theorem map_fst_setList (k : K) (v : V) (es : List (K × V)) : (setList k v es).map Prod.fst
      = if k ∈ es.map Prod.fst then es.map Prod.fst else es.map Prod.fst ++ [k] := by
  induction es with
  | nil => simp [setList]
  | cons e es ih =>
    obtain ⟨k', v'⟩ := e
    by_cases h : k' = k
    · simp [setList, h]
    · have h' : k ≠ k' := fun h'' => h h''.symm
      simp only [setList, if_neg h, map_cons, mem_cons, h', false_or, ih]
      split <;> simp

theorem nodup_setList {k : K} {v : V} {es : List (K × V)} (h : (es.map Prod.fst).Nodup) :
    ((setList k v es).map Prod.fst).Nodup := by
  rw [map_fst_setList]
  split
  · exact h
  · next hk =>
    refine nodup_append.mpr ⟨h, by simp, ?_⟩
    rintro a ha b hb rfl
    rw [mem_singleton.mp hb] at ha
    exact hk ha

def get? (d : Dict K V) (k : K) : Option V := getList k d.entries

def set (d : Dict K V) (k : K) (v : V) : Dict K V :=
  ⟨setList k v d.entries, nodup_setList d.nodup⟩

def erase (d : Dict K V) (k : K) : Dict K V :=
  ⟨d.entries.filter fun e => e.1 ≠ k, d.nodup.sublist (List.filter_sublist.map _)⟩

def contains (d : Dict K V) (k : K) : Bool := (d.get? k).isSome

end Decidable

def mapVals {W : Type*} (f : K → V → W) (d : Dict K V) : Dict K W :=
  ⟨d.entries.map fun e => (e.1, f e.1 e.2), by
    rw [List.map_map]
    exact d.nodup⟩

variable {V' W : Type*}

def filter (p : K → V → Bool) (d : Dict K V) : Dict K V :=
  ⟨d.entries.filter fun e => p e.1 e.2, d.nodup.sublist (List.filter_sublist.map _)⟩

def keysOf [DecidableEq V] (d : Dict K V) (v : V) : List K :=
  (d.entries.filter fun e => e.2 = v).map Prod.fst

section Lookup
variable [DecidableEq K]

theorem getList_setList (k k' : K) (v : V) (es : List (K × V)) :
    getList k' (setList k v es) = if k = k' then some v else getList k' es := by
  induction es with
  | nil => simp [setList, getList]
  | cons e es ih =>
    obtain ⟨k₁, v₁⟩ := e
    by_cases h : k₁ = k
    · subst h
      by_cases h' : k₁ = k' <;> simp [setList, getList, h']
    · simp only [setList, if_neg h, getList, ih]
      by_cases h' : k = k'
      · subst h'
        simp [h]
      · simp [h']

@[simp] theorem get?_empty (k : K) : (∅ : Dict K V).get? k = none := rfl

theorem get?_set (d : Dict K V) (k k' : K) (v : V) :
    (d.set k v).get? k' = if k = k' then some v else d.get? k' := getList_setList k k' v d.entries

@[simp] theorem get?_set_self (d : Dict K V) (k : K) (v : V) : (d.set k v).get? k = some v := by
  rw [get?_set, if_pos rfl]

theorem get?_set_of_ne {k k' : K} (d : Dict K V) (v : V) (h : k ≠ k') :
    (d.set k v).get? k' = d.get? k' := by
  rw [get?_set, if_neg h]

def Kept (d d' : Dict K V) : Prop := ∀ k v, d.get? k = some v → d'.get? k = some v

theorem Kept.refl (d : Dict K V) : d.Kept d := fun _ _ h => h

theorem Kept.trans {d d' d'' : Dict K V} (h : d.Kept d') (h' : d'.Kept d'') : d.Kept d'' :=
  fun k v hk => h' k v (h k v hk)

variable {d : Dict K V} {k : K}

theorem kept_set (hk : d.get? k = none) (v : V) : d.Kept (d.set k v) := by
  intro k' v' hk'
  have hne : k ≠ k' := by
    rintro rfl
    cases hk.symm.trans hk'
  rw [get?_set_of_ne _ _ hne]
  exact hk'

theorem setList_setList (k : K) (v v' : V) (es : List (K × V)) :
    setList k v' (setList k v es) = setList k v' es := by
  induction es with
  | nil => simp [setList]
  | cons e es ih =>
    obtain ⟨k', w⟩ := e
    by_cases h : k' = k
    · simp [setList, h]
    · simp [setList, h, ih]

theorem set_set (d : Dict K V) (k : K) (v v' : V) : (d.set k v).set k v' = d.set k v' := by
  simp only [set, setList_setList]

variable {v : V}

theorem filter_setList {p : K × V → Bool} (hp : ∀ w, p (k, w) = false)
    (es : List (K × V)) : (setList k v es).filter p = es.filter p := by
  induction es with
  | nil => simp [setList, hp]
  | cons e es ih =>
    obtain ⟨k', v'⟩ := e
    by_cases hk : k' = k
    · simp [setList, hk, hp]
    · rw [setList, if_neg hk, filter_cons, filter_cons, ih]

variable {es : List (K × V)}

theorem setList_of_get (h : getList k es = some v) : setList k v es = es := by
  induction es with
  | nil => cases h
  | cons e es ih =>
    obtain ⟨k', v'⟩ := e
    by_cases hk : k' = k
    · rw [getList, if_pos hk, Option.some_inj] at h
      rw [setList, if_pos hk, ← hk, ← h]
    · rw [getList, if_neg hk] at h
      rw [setList, if_neg hk, ih h]

theorem set_of_get (h : d.get? k = some v) : d.set k v = d := by
  obtain ⟨es, hn⟩ := d
  have he : setList k v es = es := setList_of_get h
  simp only [set, he]

theorem getList_filter {p : K → Bool} (k : K) (es : List (K × V)) :
    getList k (es.filter fun e => p e.1) = if p k then getList k es else none := by
  induction es with
  | nil => simp [getList]
  | cons e es ih =>
    obtain ⟨k', v⟩ := e
    by_cases hp : p k' = true
    · rw [filter_cons_of_pos (by simpa using hp)]
      by_cases h : k' = k
      · subst h
        simp [getList, hp]
      · simp [getList, h, ih]
    · rw [filter_cons_of_neg (by simpa using hp), ih]
      by_cases h : k' = k
      · subst h
        simp [hp]
      · simp [getList, h]

theorem get?_erase (d : Dict K V) (k k' : K) :
    (d.erase k).get? k' = if k = k' then none else d.get? k' := by
  show getList k' (d.entries.filter fun e => decide (e.1 ≠ k)) = _
  rw [getList_filter (p := fun x => decide (x ≠ k))]
  by_cases h : k = k'
  · simp [h]
  · have h' : k' ≠ k := fun e => h e.symm
    simp [h, h', get?]

omit [DecidableEq K] in
theorem eq_empty_of_entries (h : d.entries = []) : d = ∅ := by
  cases d
  cases h
  rfl

theorem entries_erase_cons (h : d.entries = (k, v) :: es) : (d.erase k).entries = es := by
  have hnodup : (((k, v) :: es).map Prod.fst).Nodup := h ▸ d.nodup
  obtain ⟨hk, -⟩ := nodup_cons.mp hnodup
  show d.entries.filter (fun e => decide (e.1 ≠ k)) = es
  rw [h, filter_cons_of_neg (by simp), List.filter_eq_self]
  intro e he
  have hne : e.1 ≠ k := by
    rintro rfl
    exact hk (mem_map.mpr ⟨e, he, rfl⟩)
  exact decide_eq_true hne

theorem getList_eq_some_iff (hn : (es.map Prod.fst).Nodup) :
    getList k es = some v ↔ (k, v) ∈ es := by
  induction es with
  | nil => simp [getList]
  | cons e es ih =>
    obtain ⟨k', v'⟩ := e
    rw [map_cons, nodup_cons] at hn
    by_cases h : k' = k
    · subst h
      have hk : ∀ w, (k', w) ∉ es := fun w hw => hn.1 (mem_map.mpr ⟨_, hw, rfl⟩)
      simp [getList, hk, eq_comm]
    · have h' : k ≠ k' := fun e => h e.symm
      simp [getList, h, h', ih hn.2]

theorem mem_entries_iff : (k, v) ∈ d.entries ↔ d.get? k = some v :=
  (getList_eq_some_iff d.nodup).symm

theorem mem_values_iff : v ∈ d.values ↔ ∃ k, d.get? k = some v := by
  simp only [values, mem_map, Prod.exists, exists_eq_right, mem_entries_iff]

theorem mem_keys_iff : k ∈ d.keys ↔ (d.get? k).isSome := by
  simp only [keys, mem_map, Prod.exists, exists_and_right, exists_eq_right, mem_entries_iff,
    Option.isSome_iff_exists]

theorem setList_of_none (h : getList k es = none) : setList k v es = es ++ [(k, v)] := by
  induction es with
  | nil => rfl
  | cons e es ih =>
    obtain ⟨k', v'⟩ := e
    by_cases hk : k' = k
    · simp [getList, hk] at h
    · rw [getList, if_neg hk] at h
      simp [setList, hk, ih h]

theorem entries_set_of_none (h : d.get? k = none) : (d.set k v).entries = d.entries ++ [(k, v)] :=
  setList_of_none h

theorem mem_keysOf [DecidableEq V] : k ∈ d.keysOf v ↔ d.get? k = some v := by
  simp [keysOf, mem_entries_iff]

theorem keysOf_set_of_none [DecidableEq V] (h : d.get? k = none) (w : V) :
    (d.set k v).keysOf w = d.keysOf w ++ if v = w then [k] else [] := by
  rw [keysOf, entries_set_of_none h, filter_append, map_append]
  by_cases hv : v = w <;> simp [keysOf, hv]

theorem contains_iff : d.contains k = true ↔ ∃ v, d.get? k = some v := by
  rw [contains, Option.isSome_iff_exists]

variable {A W : Type*} {p : K → V → Bool}

theorem getList_map (f : K → V → W) (k : K) (es : List (K × V)) :
    getList k (es.map fun e => (e.1, f e.1 e.2)) = (getList k es).map (f k) := by
  induction es with
  | nil => rfl
  | cons e es ih =>
    obtain ⟨k', v⟩ := e
    by_cases h : k' = k
    · subst h
      simp [getList]
    · simp [getList, h, ih]

@[simp] theorem get?_mapVals (f : K → V → W) (d : Dict K V) (k : K) :
    (d.mapVals f).get? k = (d.get? k).map (f k) := getList_map f k d.entries

theorem get?_filter : (d.filter p).get? k = some v ↔ d.get? k = some v ∧ p k v = true := by
  rw [← mem_entries_iff, ← mem_entries_iff]
  simp [filter]

theorem filter_eq_self (h : ∀ k v, d.get? k = some v → p k v = true) : d.filter p = d := by
  have hentries : (d.entries.filter fun e => p e.1 e.2) = d.entries :=
    List.filter_eq_self.mpr fun e he => h e.1 e.2 (mem_entries_iff.mp he)
  cases d
  simp only [filter, hentries]

/-! ### Unique indices -/

/-- No two values have the same image under `f`; those without one do not count. -/
def UniqueBy {A : Type*} (d : Dict K V) (f : K → V → Option A) : Prop :=
  ∀ k k' v v' a, d.get? k = some v → d.get? k' = some v' → f k v = some a → f k' v' = some a →
    k = k'

theorem uniqueBy_empty (f : K → V → Option A) : (∅ : Dict K V).UniqueBy f := by
  intro k k' v v' a hv
  cases hv

theorem UniqueBy.set {f : K → V → Option A} (h : d.UniqueBy f) (k : K)
    (hnew : ∀ k' v' a, d.get? k' = some v' → f k v = some a → f k' v' ≠ some a) :
    (d.set k v).UniqueBy f := by
  intro k₁ k₂ v₁ v₂ a h₁ h₂ ha₁ ha₂
  rw [get?_set] at h₁ h₂
  by_cases hk₁ : k = k₁
  · rw [if_pos hk₁] at h₁
    cases h₁
    by_cases hk₂ : k = k₂
    · rw [← hk₁, ← hk₂]
    · rw [if_neg hk₂] at h₂
      rw [← hk₁] at ha₁
      exact absurd ha₂ (hnew k₂ v₂ a h₂ ha₁)
  · rw [if_neg hk₁] at h₁
    by_cases hk₂ : k = k₂
    · rw [if_pos hk₂] at h₂
      cases h₂
      rw [← hk₂] at ha₂
      exact absurd ha₁ (hnew k₁ v₁ a h₁ ha₂)
    · rw [if_neg hk₂] at h₂
      exact h k₁ k₂ v₁ v₂ a h₁ h₂ ha₁ ha₂

theorem UniqueBy.mono {d d' : Dict K V} {f : K → V → Option A} (h : d.UniqueBy f)
    (hsub : ∀ k v' a, d'.get? k = some v' → f k v' = some a →
      ∃ v, d.get? k = some v ∧ f k v = some a) : d'.UniqueBy f := by
  intro k₁ k₂ v₁ v₂ a h₁ h₂ ha₁ ha₂
  obtain ⟨w₁, hw₁, hf₁⟩ := hsub k₁ v₁ a h₁ ha₁
  obtain ⟨w₂, hw₂, hf₂⟩ := hsub k₂ v₂ a h₂ ha₂
  exact h k₁ k₂ w₁ w₂ a hw₁ hw₂ hf₁ hf₂

end Lookup

/-! ### Counting values -/

def countVals (p : V → Bool) (d : Dict K V) : Nat := d.entries.countP fun e => p e.2

section Count
variable {p : V → Bool}

section Keyed
variable [DecidableEq K]

variable {d : Dict K V} {k : K} {v w : V}

theorem countVals_set_of_none (h : d.get? k = none) :
    (d.set k v).countVals p = d.countVals p + if p v then 1 else 0 := by
  rw [countVals, entries_set_of_none h, countP_append, countP_singleton]
  rfl

theorem countP_setList_le {es : List (K × V)} (h : getList k es = some w)
    (hp : p v = true → p w = true) :
    (setList k v es).countP (fun e => p e.2) ≤ es.countP fun e => p e.2 := by
  induction es with
  | nil => cases h
  | cons e es ih =>
    obtain ⟨k', v'⟩ := e
    by_cases hk : k' = k
    · rw [getList, if_pos hk] at h
      cases h
      rw [setList, if_pos hk, countP_cons, countP_cons]
      by_cases hv : p v = true
      · simp [hv, hp hv]
      · simp [hv]
    · rw [getList, if_neg hk] at h
      rw [setList, if_neg hk, countP_cons, countP_cons]
      exact Nat.add_le_add_right (ih h) _

theorem countVals_set_le (h : d.get? k = some w) (hp : p v = true → p w = true) :
    (d.set k v).countVals p ≤ d.countVals p := countP_setList_le h hp

theorem countVals_erase_le (d : Dict K V) (k : K) : (d.erase k).countVals p ≤ d.countVals p :=
  List.Sublist.countP_le filter_sublist

end Keyed

variable (d : Dict K V)

theorem countVals_filter_le (q : K → V → Bool) : (d.filter q).countVals p ≤ d.countVals p :=
  List.Sublist.countP_le filter_sublist

theorem countVals_mapVals {f : K → V → V} (h : ∀ k v, p (f k v) = p v) :
    (d.mapVals f).countVals p = d.countVals p := by
  rw [countVals, mapVals, countP_map]
  refine countP_congr fun e _ => ?_
  rw [Function.comp_apply, h]

end Count

end Dict
