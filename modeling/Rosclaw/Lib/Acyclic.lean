/-
Relations without cycles, and orders of their elements.

* `Sorted` — a list in which all that stands before an element comes before it;
* `of_sorted` — a relation whose elements can be sorted has no cycle;
* `exists_ready` — without a cycle, of finitely many elements one has nothing before it that is not
  done yet.
-/
import Mathlib.Data.Set.Finite.List
import Mathlib.Logic.Relation
import Mathlib.Order.OrderIsoNat

variable {α : Type*}

def Acyclic (r : α → α → Prop) : Prop := ∀ a, ¬ Relation.TransGen r a a

namespace Acyclic

open List

def Sorted (r : α → α → Prop) (order : List α) : Prop :=
  ∀ l a l', order = l ++ a :: l' → ∀ p, r p a → p ∈ l

variable {r : α → α → Prop}

theorem sorted_nil : Sorted r [] := by
  intro l a l' heq
  cases l with
  | nil => cases heq
  | cons b l => cases heq

variable {V done order : List α} {a b p v : α}

theorem Sorted.snoc (h : Sorted r order) (hb : ∀ p, r p b → p ∈ order) :
    Sorted r (order ++ [b]) := by
  intro l a l' heq p hp
  rcases eq_nil_or_concat l' with rfl | ⟨l', c, rfl⟩
  · obtain ⟨rfl, hlast⟩ := append_inj' heq rfl
    obtain rfl : b = a := (List.cons.inj hlast).1
    exact hb p hp
  · have heq' : order ++ [b] = (l ++ a :: l') ++ [c] := by
      rw [heq, concat_eq_append, append_assoc, cons_append]
    exact h l a l' (append_inj' heq' rfl).1 p hp

theorem Sorted.idxOf_lt [DecidableEq α] (h : Sorted r order) (ha : a ∈ order) (hp : r p a) :
    order.idxOf p < order.idxOf a := by
  obtain ⟨l, l', rfl, hnot⟩ := eq_append_cons_of_mem ha
  have hmem : p ∈ l := h l a l' rfl p hp
  have hplace : (l ++ a :: l').idxOf a = l.length := by
    rw [idxOf_append_of_notMem hnot, idxOf_cons_self, Nat.add_zero]
  rw [hplace, idxOf_append_of_mem hmem]
  exact idxOf_lt_length_of_mem hmem

/-- **A relation whose elements can be sorted has no cycle.** -/
theorem of_sorted [DecidableEq α] (h : Sorted r order) (hall : ∀ p a, r p a → a ∈ order) :
    Acyclic r := by
  have hlt : ∀ {a b}, Relation.TransGen r a b → order.idxOf a < order.idxOf b := by
    intro a b hab
    induction hab with
    | single hr => exact h.idxOf_lt (hall _ _ hr) hr
    | tail _ hr ih => exact ih.trans (h.idxOf_lt (hall _ _ hr) hr)
  intro a ha
  exact lt_irrefl _ (hlt ha)

/-- **Without a cycle**, of finitely many elements that are not all done one has nothing before it
that is not done. -/
theorem exists_ready (h : Acyclic r) (hclosed : ∀ p a, a ∈ V → r p a → p ∈ V) (hv : v ∈ V)
    (hnot : v ∉ done) : ∃ w ∈ V, w ∉ done ∧ ∀ p, r p w → p ∈ done := by
  let before : {a // a ∈ V} → {a // a ∈ V} → Prop := fun a b => Relation.TransGen r a.1 b.1
  have hfinite : Finite {a // a ∈ V} := finite_toSet V
  have htrans : IsTrans {a // a ∈ V} before := ⟨fun _ _ _ hab hbc => hab.trans hbc⟩
  have hirrefl : Std.Irrefl before := ⟨fun a ha => h a.1 ha⟩
  have hwf : WellFounded before := Finite.wellFounded_of_trans_of_irrefl before
  obtain ⟨w, hw, hmin⟩ := hwf.has_min {a | a.1 ∉ done} ⟨⟨v, hv⟩, hnot⟩
  refine ⟨w.1, w.2, hw, fun p hp => ?_⟩
  by_contra hpnot
  exact hmin ⟨p, hclosed p w.1 w.2 hp⟩ hpnot (.single hp)

end Acyclic
