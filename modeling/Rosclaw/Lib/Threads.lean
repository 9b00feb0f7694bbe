/-
Threads that take turns, as a list of the points they stand at.

A step takes the thread at one place of the list from its point to the points that
follow it: one, or none if the thread is over.

* `mem_replaceAt` — a thread after the step moved, or stood there before;
* `mem_replaceAt_of_ne` — the other threads stay;
* `filter_replaceAt_of_not`, `filter_replaceAt_of_nil`, `filter_replaceAt_of_singleton` —
  the threads that hold some resource, when at most one of them can;
* `countP_replaceAt` — how a step changes the number of holders;
* `eq_of_countP_le_one`, `of_countP_le_one` — a single holder is at one place;
* `getElem?_replaceAt` — the places after a step of one thread to one point;
* `Fires` — a step that takes tokens away and puts others in their place;
* `sum_countP_key`, `sum_range_change` — counts by a key, and a sum of which one term changes.
-/
import Mathlib.Algebra.BigOperators.Group.Finset.Basic
import Mathlib.Algebra.BigOperators.Intervals
import Mathlib.Data.List.Basic

variable {α : Type*}

/-- The list with the element at place `i` replaced by the elements of `as`. -/
def replaceAt (l : List α) (i : Nat) (as : List α) : List α := l.take i ++ as ++ l.drop (i + 1)

variable {a b : α} {as l : List α} {f f' : Nat → Nat} {i k n : Nat}

theorem replaceAt_split (h : l[i]? = some a) :
    ∃ l₁ l₂, l = l₁ ++ a :: l₂ ∧ ∀ as, replaceAt l i as = l₁ ++ as ++ l₂ := by
  obtain ⟨hi, rfl⟩ := List.getElem?_eq_some_iff.mp h
  refine ⟨l.take i, l.drop (i + 1), ?_, fun as => rfl⟩
  rw [← List.drop_eq_getElem_cons hi, List.take_append_drop]

theorem mem_replaceAt (hb : b ∈ replaceAt l i as) : b ∈ as ∨ b ∈ l := by
  rw [replaceAt, List.mem_append, List.mem_append] at hb
  rcases hb with (hb | hb) | hb
  · exact .inr (List.mem_of_mem_take hb)
  · exact .inl hb
  · exact .inr (List.mem_of_mem_drop hb)

theorem mem_replaceAt_of_ne (h : l[i]? = some a) (hb : b ∈ l) (hne : b ≠ a) (as : List α) :
    b ∈ replaceAt l i as := by
  obtain ⟨l₁, l₂, rfl, hrep⟩ := replaceAt_split h
  rw [hrep]
  rcases List.mem_append.mp hb with hb | hb
  · exact List.mem_append_left _ (List.mem_append_left _ hb)
  · exact List.mem_append_right _ ((List.mem_cons.mp hb).resolve_left hne)

section Filter

variable {l as : List α} {i : Nat} {a : α} {p : α → Bool}

/-- A thread that does not hold the resource before or after does not change its
holders. -/
theorem filter_replaceAt_of_not (h : l[i]? = some a) (ha : p a = false)
    (has : ∀ b ∈ as, p b = false) : (replaceAt l i as).filter p = l.filter p := by
  obtain ⟨l₁, l₂, rfl, hrep⟩ := replaceAt_split h
  have hnil : as.filter p = [] := List.filter_eq_nil_iff.mpr fun b hb => by simp [has b hb]
  simp [hrep, hnil, ha]

theorem filter_replaceAt_of_nil (h : l[i]? = some a) (hl : l.filter p = []) :
    (replaceAt l i as).filter p = as.filter p := by
  obtain ⟨l₁, l₂, rfl, hrep⟩ := replaceAt_split h
  rw [List.filter_append, List.filter_cons, List.append_eq_nil_iff] at hl
  have h₂ : l₂.filter p = [] := by
    have := hl.2
    split at this
    · exact nomatch this
    · exact this
  rw [hrep, List.filter_append, List.filter_append, hl.1, h₂, List.nil_append, List.append_nil]

theorem filter_replaceAt_of_singleton {x : α} (h : l[i]? = some a) (ha : p a = true)
    (hl : l.filter p = [x]) : x = a ∧ (replaceAt l i as).filter p = as.filter p := by
  obtain ⟨l₁, l₂, rfl, hrep⟩ := replaceAt_split h
  rw [List.filter_append, List.filter_cons_of_pos ha, List.append_eq_singleton_iff] at hl
  rcases hl with ⟨h₁, h₂⟩ | ⟨-, h₂⟩
  · obtain ⟨hx, h₃⟩ := List.cons_eq_cons.mp h₂
    refine ⟨hx.symm, ?_⟩
    rw [hrep, List.filter_append, List.filter_append, h₁, h₃, List.nil_append, List.append_nil]
  · exact nomatch h₂

end Filter

section Count

variable {l as : List α} {i : Nat} {a : α} {p : α → Bool}

theorem countP_replaceAt (h : l[i]? = some a) (p : α → Bool) (as : List α) :
    (replaceAt l i as).countP p + (if p a then 1 else 0) = l.countP p + as.countP p := by
  obtain ⟨l₁, l₂, rfl, hrep⟩ := replaceAt_split h
  rw [hrep, List.countP_append, List.countP_append, List.countP_append, List.countP_cons]
  omega

variable {b : α}

theorem of_countP_le_one (h : l[i]? = some a) (ha : p a = true) (hl : l.countP p ≤ 1)
    (hb : b ∈ replaceAt l i as) : b ∈ as ∨ (b ∈ l ∧ p b = false) := by
  obtain ⟨l₁, l₂, rfl, hrep⟩ := replaceAt_split h
  rw [List.countP_append, List.countP_cons, if_pos ha] at hl
  rw [hrep, List.mem_append, List.mem_append] at hb
  have hrest : ∀ x, x ∈ l₁ ∨ x ∈ l₂ → p x = false := by
    intro x hx
    by_contra hp
    rw [Bool.not_eq_false] at hp
    rcases hx with hx | hx
    · have := List.countP_pos_iff.mpr ⟨x, hx, hp⟩
      omega
    · have := List.countP_pos_iff.mpr ⟨x, hx, hp⟩
      omega
  rcases hb with (hb | hb) | hb
  · exact .inr ⟨List.mem_append_left _ hb, hrest b (.inl hb)⟩
  · exact .inl hb
  · exact .inr ⟨List.mem_append_right _ (List.mem_cons_of_mem _ hb), hrest b (.inr hb)⟩

theorem eq_of_countP_le_one {j : Nat} (hi : l[i]? = some a) (hj : l[j]? = some b) (ha : p a = true)
    (hb : p b = true) (hl : l.countP p ≤ 1) : i = j := by
  induction l generalizing i j with
  | nil => cases hi
  | cons x l ih =>
    rw [List.countP_cons] at hl
    have hnone : ∀ {k : Nat} {c : α}, l[k]? = some c → p c = true → p x = true → False := by
      intro k c hk hc hx
      have := List.countP_pos_iff.mpr ⟨c, List.mem_of_getElem? hk, hc⟩
      rw [if_pos hx] at hl
      omega
    cases i with
    | zero =>
      cases hi
      cases j with
      | zero => rfl
      | succ j => exact (hnone hj hb ha).elim
    | succ i =>
      cases j with
      | zero =>
        cases hj
        exact (hnone hi ha hb).elim
      | succ j =>
        have hle : l.countP p ≤ 1 := by omega
        rw [ih hi hj hle]

end Count

/-! ### Places -/

theorem replaceAt_singleton (h : l[i]? = some a) (b : α) : replaceAt l i [b] = l.set i b := by
  obtain ⟨hi, -⟩ := List.getElem?_eq_some_iff.mp h
  rw [replaceAt, List.append_assoc, List.singleton_append, List.set_eq_take_append_cons_drop,
    if_pos hi]

theorem getElem?_replaceAt (h : l[i]? = some a) (b : α) (j : Nat) :
    (replaceAt l i [b])[j]? = if j = i then some b else l[j]? := by
  obtain ⟨hi, -⟩ := List.getElem?_eq_some_iff.mp h
  rw [replaceAt_singleton h, List.getElem?_set]
  by_cases hj : i = j
  · rw [if_pos hj, if_pos hj.symm, if_pos (hj ▸ hi)]
  · rw [if_neg hj, if_neg fun h => hj h.symm]

/-! ### Tokens -/

section Tokens

variable {τ : Type*} [DecidableEq τ] {c c' : τ → Nat} {pre post pre' post' : List τ}

/-- The tokens `pre` are taken away and the tokens `post` are put in their place. -/
def Fires (c c' : τ → Nat) (pre post : List τ) : Prop :=
  ∀ x, c' x + pre.count x = c x + post.count x

theorem Fires.refl (c : τ → Nat) : Fires c c [] [] := fun _ => rfl

theorem Fires.cancel (h : Fires c c' pre pre) : Fires c c' [] [] := by
  intro x
  have := h x
  rw [List.count_nil]
  omega

def tokens (mark : α → Option τ) (l : List α) (x : τ) : Nat := l.countP fun a => mark a = some x

variable {mark : α → Option τ} {l : List α}

theorem countP_toList (o : Option α) (mark : α → Option τ) (x : τ) :
    o.toList.countP (fun a => mark a = some x) = (o.bind mark).toList.count x := by
  cases o with
  | none => rfl
  | some a =>
    rw [Option.toList_some, List.countP_singleton, Option.bind_some]
    cases hmark : mark a with
    | none => rfl
    | some y =>
      rw [Option.toList_some, List.count_singleton]
      by_cases hy : y = x
      · simp [hy]
      · simp [hy]

theorem fires_replaceAt {i : Nat} {a : α} (h : l[i]? = some a) (o : Option α)
    (mark : α → Option τ) :
    Fires (tokens mark l) (tokens mark (replaceAt l i o.toList)) (mark a).toList
      (o.bind mark).toList := by
  intro x
  have hcount := countP_replaceAt h (fun a => decide (mark a = some x)) o.toList
  rw [countP_toList] at hcount
  rw [tokens, tokens, ← hcount]
  congr 1
  cases hmark : mark a with
  | none => rfl
  | some y =>
    rw [Option.toList_some, List.count_singleton]
    by_cases hy : y = x
    · simp [hy]
    · simp [hy]

theorem fires_append (l as : List α) (mark : α → Option τ) :
    Fires (tokens mark l) (tokens mark (l ++ as)) [] (as.filterMap mark) := by
  intro x
  rw [tokens, tokens, List.countP_append, List.count_nil, Nat.add_zero, List.count_filterMap]
  congr 2
  funext a
  exact Bool.eq_iff_iff.mpr (by simp)

variable {d d' : τ → Nat}

theorem Fires.add (h : Fires c c' pre post) (h' : Fires d d' pre' post') :
    Fires (fun x => c x + d x) (fun x => c' x + d' x) (pre ++ pre') (post ++ post') := by
  intro x
  have := h x
  have := h' x
  rw [List.count_append, List.count_append]
  dsimp only
  omega

end Tokens

/-! ### Sums -/

theorem sum_countP_key {key : α → Option Nat} (h : ∀ a ∈ l, ∀ k, key a = some k → k < n) :
    (Finset.range n).sum (fun k => l.countP fun a => key a = some k)
      = l.countP fun a => (key a).isSome := by
  induction l with
  | nil => simp
  | cons a l ih =>
    have hsum : ∀ k, (a :: l).countP (fun a => decide (key a = some k))
        = l.countP (fun a => decide (key a = some k)) + if key a = some k then 1 else 0 := by
      intro k
      rw [List.countP_cons]
      simp
    rw [Finset.sum_congr rfl fun k _ => hsum k, Finset.sum_add_distrib,
      ih fun a' ha' => h a' (List.mem_cons_of_mem _ ha'), List.countP_cons]
    congr 1
    cases hkey : key a with
    | none => simp
    | some k =>
      have hk : k < n := h a List.mem_cons_self k hkey
      simp [hk]

theorem sum_range_change (hk : k < n) (hne : ∀ j, j ≠ k → f' j = f j) :
    (Finset.range n).sum f' + f k = (Finset.range n).sum f + f' k := by
  have hmem : k ∈ Finset.range n := Finset.mem_range.mpr hk
  have hrest : ((Finset.range n).erase k).sum f' = ((Finset.range n).erase k).sum f :=
    Finset.sum_congr rfl fun j hj => hne j (Finset.ne_of_mem_erase hj)
  have h : f k + ((Finset.range n).erase k).sum f = (Finset.range n).sum f :=
    Finset.add_sum_erase _ f hmem
  have h' : f' k + ((Finset.range n).erase k).sum f' = (Finset.range n).sum f' :=
    Finset.add_sum_erase _ f' hmem
  omega
