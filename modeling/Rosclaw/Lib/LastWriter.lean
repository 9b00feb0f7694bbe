/-
The last writer wins.

A write names a key.  Of writes that are applied in order, what comes of them at a key depends
on its last write alone: `last`.
-/
import Mathlib.Data.List.Induction

namespace LastWriter

open List

variable {K A : Type*} [DecidableEq K]

def last (k : K) (ws : List (K × A)) : Option A :=
  (ws.filter fun w => w.1 = k).getLast?.map Prod.snd

@[simp] theorem last_nil (k : K) : last k ([] : List (K × A)) = none := rfl

theorem last_snoc (k : K) (ws : List (K × A)) (w : K × A) :
    last k (ws ++ [w]) = if w.1 = k then some w.2 else last k ws := by
  rw [last, filter_append]
  by_cases h : w.1 = k
  · rw [filter_cons_of_pos (by simpa using h), filter_nil, List.getLast?_concat, if_pos h]
    rfl
  · rw [filter_cons_of_neg (by simpa using h), filter_nil, append_nil, if_neg h, last]

theorem last_eq_none {k : K} {ws : List (K × A)} : last k ws = none ↔ ∀ w ∈ ws, w.1 ≠ k := by
  rw [last, Option.map_eq_none_iff, List.getLast?_eq_none_iff, filter_eq_nil_iff]
  simp

theorem mem_of_last {k : K} {ws : List (K × A)} {a : A} (h : last k ws = some a) : (k, a) ∈ ws := by
  obtain ⟨w, hw, rfl⟩ := Option.map_eq_some_iff.mp h
  have hmem := mem_filter.mp (mem_of_getLast? hw)
  obtain rfl := of_decide_eq_true hmem.2
  exact hmem.1

theorem last_map {B : Type*} (k : K) (key : B → K) (value : B → A) (bs : List B) :
    last k (bs.map fun b => (key b, value b)) = (last k (bs.map fun b => (key b, b))).map value := by
  induction bs using List.reverseRecOn with
  | nil => rfl
  | append_singleton bs b ih =>
    simp only [map_append, map_cons, map_nil, last_snoc, ih]
    split <;> rfl

end LastWriter
