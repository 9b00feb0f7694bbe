/-
The first occurrence of a text in another one.

* `index_eq_some`, `index_eq_none` — what the index says of the occurrences;
* `index_drop`, `index_append` — the first occurrence in a part of the text.
-/
import Mathlib.Data.List.Infix

namespace Find

open List

variable {α : Type*} [DecidableEq α]

/-- Where the text `p` occurs first. -/
def index (p : List α) : List α → Option Nat
  | [] => if p.isEmpty then some 0 else none
  | c :: cs => if p.isPrefixOf (c :: cs) then some 0 else (index p cs).map (· + 1)

/-- The pieces between the occurrences of `sep` that do not overlap, from the left.  The number
says how much of the last occurrence is still to be passed over. -/
def pieces (sep : List α) : Nat → List α → List (List α)
  | _, [] => [[]]
  | skip + 1, _ :: cs => pieces sep skip cs
  | 0, c :: cs =>
      if sep.isPrefixOf (c :: cs) then [] :: pieces sep (sep.length - 1) cs
      else
        match pieces sep 0 cs with
        | [] => [[c]]
        | piece :: rest => (c :: piece) :: rest

variable {p : List α}

variable {i j k : Nat} {l r : List α}

theorem index_eq_some (hp : p ≠ []) :
    index p l = some i ↔ p <+: l.drop i ∧ ∀ j < i, ¬p <+: l.drop j := by
  induction l generalizing i with
  | nil => simp [index, hp]
  | cons c cs ih =>
    rw [index]
    split_ifs with hpre
    · rw [List.isPrefixOf_iff_prefix] at hpre
      constructor
      · intro h
        cases h
        exact ⟨hpre, fun j hj => absurd hj (Nat.not_lt_zero j)⟩
      · rintro ⟨-, hfirst⟩
        obtain rfl | hi := Nat.eq_zero_or_pos i
        · rfl
        · exact absurd hpre (hfirst 0 hi)
    · rw [List.isPrefixOf_iff_prefix] at hpre
      rw [Option.map_eq_some_iff]
      constructor
      · rintro ⟨k, hk, rfl⟩
        obtain ⟨hocc, hfirst⟩ := ih.mp hk
        refine ⟨hocc, fun j hj => ?_⟩
        cases j with
        | zero => exact hpre
        | succ j => exact hfirst j (by omega)
      · rintro ⟨hocc, hfirst⟩
        cases i with
        | zero => exact absurd hocc hpre
        | succ i =>
          refine ⟨i, ih.mpr ⟨hocc, fun j hj => ?_⟩, rfl⟩
          exact hfirst (j + 1) (by omega)

theorem index_eq_none (hp : p ≠ []) : index p l = none ↔ ∀ j, ¬p <+: l.drop j := by
  induction l with
  | nil => simp [index, hp]
  | cons c cs ih =>
    rw [index]
    split_ifs with hpre
    · rw [List.isPrefixOf_iff_prefix] at hpre
      simp only [false_iff, not_forall, not_not]
      exact ⟨0, hpre⟩
    · rw [List.isPrefixOf_iff_prefix] at hpre
      rw [Option.map_eq_none_iff, ih]
      constructor
      · intro h j
        cases j with
        | zero => exact hpre
        | succ j => exact h j
      · intro h j
        exact h (j + 1)

theorem index_le (hp : p ≠ []) (h : p <+: l.drop j) : ∃ i, index p l = some i ∧ i ≤ j := by
  cases hi : index p l with
  | none => exact absurd h ((index_eq_none hp).mp hi j)
  | some i =>
    refine ⟨i, rfl, ?_⟩
    by_contra hlt
    exact ((index_eq_some hp).mp hi).2 j (by omega) h

omit [DecidableEq α] in
theorem le_length {p : List α} (hp : p ≠ []) (h : p <+: l.drop i) : i + p.length ≤ l.length := by
  have hlen := h.length_le
  have hpos := length_pos_of_ne_nil hp
  rw [length_drop] at hlen
  omega

theorem index_drop (hp : p ≠ []) (h : index p l = some i) (hk : k ≤ i) :
    index p (l.drop k) = some (i - k) := by
  obtain ⟨hocc, hfirst⟩ := (index_eq_some hp).mp h
  refine (index_eq_some hp).mpr ⟨?_, fun j hj => ?_⟩
  · rw [drop_drop, show k + (i - k) = i by omega]
    exact hocc
  · rw [drop_drop]
    exact hfirst (k + j) (by omega)

/-- The first occurrence in a longer text is the one in the text, if it ends there; otherwise
there is none in the text. -/
theorem index_append (hp : p ≠ []) (h : index p (l ++ r) = some i) :
    index p l = if i + p.length ≤ l.length then some i else none := by
  obtain ⟨hocc, hfirst⟩ := (index_eq_some hp).mp h
  have hlonger : ∀ j, l.drop j <+: (l ++ r).drop j := fun j => (prefix_append l r).drop j
  split_ifs with hend
  · refine (index_eq_some hp).mpr ⟨?_, fun j hj hj' => hfirst j hj (hj'.trans (hlonger j))⟩
    refine prefix_of_prefix_length_le hocc (hlonger i) ?_
    rw [length_drop]
    omega
  · refine (index_eq_none hp).mpr fun j hj => ?_
    have hj' := le_length hp hj
    exact hfirst j (by omega) (hj.trans (hlonger j))

example : pieces [0, 0] 0 [1, 0, 0, 0, 2] = [[1], [0, 2]] := by decide

end Find
