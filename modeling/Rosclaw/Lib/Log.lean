/-
Laws of a log: what every entry owes to the entries before it.

* `each_snoc`, `each_append` — entries at the end;
* `snoc_eq_append` — where an entry of a longer log stands;
* `foldr_max_range'` — the last number of a log whose entries are numbered from one.
-/
import Mathlib.Data.List.Basic
import Mathlib.Data.List.Range
import Mathlib.Order.Lattice

namespace Log

open List

variable {E : Type*}

theorem mem_snoc {log : List E} {e e' : E} : e ∈ log ++ [e'] ↔ e ∈ log ∨ e = e' := by
  rw [mem_append, mem_singleton]

theorem snoc_eq_append {log pre post : List E} {e e' : E} (h : log ++ [e'] = pre ++ e :: post) :
    (pre = log ∧ e = e' ∧ post = []) ∨ ∃ post', log = pre ++ e :: post' := by
  rcases eq_nil_or_concat post with rfl | ⟨post', last, rfl⟩
  · obtain ⟨hpre, he⟩ := append_inj' h rfl
    exact .inl ⟨hpre.symm, (singleton_inj.mp he).symm, rfl⟩
  · rw [concat_eq_append, ← cons_append, ← append_assoc] at h
    exact .inr ⟨post', (append_inj' h rfl).1⟩

def Each (law : List E → E → Prop) (log : List E) : Prop :=
  ∀ pre e post, log = pre ++ e :: post → law pre e

variable {law : List E → E → Prop} {log : List E}

theorem each_nil : Each law [] := by
  intro pre e post h
  simp at h

theorem each_snoc {e : E} : Each law (log ++ [e]) ↔ Each law log ∧ law log e := by
  constructor
  · intro h
    refine ⟨fun pre e' post heq => h pre e' (post ++ [e]) ?_, h log e [] rfl⟩
    rw [heq, append_assoc, cons_append]
  · rintro ⟨hlog, he⟩ pre e' post heq
    rcases snoc_eq_append heq with ⟨rfl, rfl, -⟩ | ⟨post', hpre⟩
    · exact he
    · exact hlog pre e' post' hpre

theorem each_append {es : List E} (h : Each law log) (hes : ∀ e ∈ es, ∀ pre, law pre e) :
    Each law (log ++ es) := by
  induction es generalizing log with
  | nil =>
    rw [append_nil]
    exact h
  | cons e es ih =>
    have hlog : Each law (log ++ [e]) := each_snoc.mpr ⟨h, hes e mem_cons_self log⟩
    rw [append_cons]
    exact ih hlog fun e' he' => hes e' (mem_cons_of_mem e he')

theorem foldr_max_range' (n : Nat) : (List.range' 1 n).foldr max 0 = n := by
  induction n with
  | zero => rfl
  | succ n ih =>
    have hmax : ∀ (l : List Nat) (k : Nat), (l ++ [k]).foldr max 0 = max (l.foldr max 0) k := by
      intro l k
      induction l with
      | nil => simp
      | cons a l ihl => simp [ihl, max_assoc]
    rw [List.range'_concat, hmax, ih]
    omega

end Log
