/-
Labelled transition systems with a partial step function.

All the nondeterminism of a step (which component moves, what the environment
answers) is carried by its label, so a run is a list of labels and can be
evaluated.

* `ReachableUnder C` — the states reached by runs whose steps all meet the
  condition `C` on the state before the step and on its label;
* `ReachableUnder.invariant` — the induction rule: what holds initially and is
  kept by every step that meets the condition holds in every such state;
* `ReachableUnder.of_run`, `of_runUnder` — an evaluated run is a reachable state,
  which is how concrete runs enter a proof;
* `PathUnder C` — the part of a run between two of its states, with the same rules.
-/
import Mathlib.Logic.Basic

/-- A labelled transition system: initial states and a partial step. -/
structure Machine (S L : Type*) where
  Init : S → Prop
  step : S → L → Option S

namespace Machine

variable {S L : Type*} {M : Machine S L} {C D : S → L → Prop}

/-- States reached by runs in which every step meets `C`. -/
inductive ReachableUnder (M : Machine S L) (C : S → L → Prop) : S → Prop
  | init {s : S} : M.Init s → ReachableUnder M C s
  | step {s s' : S} {l : L} :
      ReachableUnder M C s → C s l → M.step s l = some s' → ReachableUnder M C s'

abbrev Reachable (M : Machine S L) : S → Prop := M.ReachableUnder fun _ _ => True

def run (M : Machine S L) : S → List L → Option S
  | s, [] => some s
  | s, l :: ls => (M.step s l).bind fun s' => run M s' ls

@[simp] theorem run_nil (s : S) : M.run s [] = some s := rfl

theorem run_cons (s : S) (l : L) (ls : List L) :
    M.run s (l :: ls) = (M.step s l).bind fun s' => M.run s' ls := rfl

variable {ls ls' : List L} {s s'' : S}

theorem run_cons_eq_some {l : L} :
    M.run s (l :: ls) = some s'' ↔ ∃ s', M.step s l = some s' ∧ M.run s' ls = some s'' := by
  rw [run_cons, Option.bind_eq_some_iff]

theorem run_append :
    M.run s (ls ++ ls') = some s'' ↔ ∃ s', M.run s ls = some s' ∧ M.run s' ls' = some s'' := by
  induction ls generalizing s with
  | nil => simp
  | cons l ls ih =>
    rw [List.cons_append, run_cons_eq_some]
    constructor
    · rintro ⟨s₁, h₁, h₂⟩
      obtain ⟨s₂, h₃, h₄⟩ := ih.mp h₂
      exact ⟨s₂, run_cons_eq_some.mpr ⟨s₁, h₁, h₃⟩, h₄⟩
    · rintro ⟨s₂, h₁, h₂⟩
      obtain ⟨s₁, h₃, h₄⟩ := run_cons_eq_some.mp h₁
      exact ⟨s₁, h₃, ih.mpr ⟨s₂, h₄, h₂⟩⟩

/-- Take the steps labelled by the list, in order, as long as each of them meets the
condition. -/
def runUnder (M : Machine S L) (C : S → L → Prop) [∀ s l, Decidable (C s l)] :
    S → List L → Option S
  | s, [] => some s
  | s, l :: ls => if C s l then (M.step s l).bind fun s' => runUnder M C s' ls else none

namespace ReachableUnder

variable {P Q : S → Prop} {s s' : S}

/-- **The invariant rule.** -/
theorem invariant (hinit : ∀ s, M.Init s → P s)
    (hstep : ∀ s l s', P s → C s l → M.step s l = some s' → P s') (h : M.ReachableUnder C s) :
    P s := by
  induction h with
  | init h₀ => exact hinit _ h₀
  | step _ hC hs ih => exact hstep _ _ _ ih hC hs

theorem mono (hCD : ∀ s l, C s l → D s l) (h : M.ReachableUnder C s) : M.ReachableUnder D s := by
  induction h with
  | init h₀ => exact .init h₀
  | step _ hC hs ih => exact .step ih (hCD _ _ hC) hs

/-- An invariant of all runs may be assumed while proving one of the runs
under a condition. -/
theorem invariant_of (hQ : ∀ s, M.ReachableUnder C s → Q s) (hinit : ∀ s, M.Init s → P s)
    (hstep : ∀ s l s', Q s → P s → C s l → M.step s l = some s' → P s') (h : M.ReachableUnder C s) :
    P s := by
  induction h with
  | init h₀ => exact hinit _ h₀
  | step hr hC hs ih => exact hstep _ _ _ (hQ _ hr) ih hC hs

variable {ls : List L}

theorem run_of (h : M.Reachable s) (hrun : M.run s ls = some s') : M.Reachable s' := by
  induction ls generalizing s with
  | nil =>
    rw [run_nil, Option.some_inj] at hrun
    exact hrun ▸ h
  | cons l ls ih =>
    obtain ⟨s₁, h₁, h₂⟩ := run_cons_eq_some.mp hrun
    exact ih (.step h trivial h₁) h₂

theorem of_run (h₀ : M.Init s) (hrun : M.run s ls = some s') : M.Reachable s' :=
  run_of (.init h₀) hrun

theorem runUnder_of [∀ s l, Decidable (C s l)] (h : M.ReachableUnder C s)
    (hrun : M.runUnder C s ls = some s') : M.ReachableUnder C s' := by
  induction ls generalizing s with
  | nil =>
    rw [runUnder, Option.some_inj] at hrun
    exact hrun ▸ h
  | cons l ls ih =>
    rw [runUnder] at hrun
    split at hrun
    · next hC =>
      obtain ⟨s₁, h₁, h₂⟩ := Option.bind_eq_some_iff.mp hrun
      exact ih (.step h hC h₁) h₂
    · exact nomatch hrun

theorem of_runUnder [∀ s l, Decidable (C s l)] (h₀ : M.Init s)
    (hrun : M.runUnder C s ls = some s') : M.ReachableUnder C s' := runUnder_of (.init h₀) hrun

theorem run_all (h : M.ReachableUnder C s) (hls : ∀ l ∈ ls, ∀ s, C s l)
    (hrun : M.run s ls = some s') : M.ReachableUnder C s' := by
  induction ls generalizing s with
  | nil =>
    rw [run_nil, Option.some_inj] at hrun
    exact hrun ▸ h
  | cons l ls ih =>
    obtain ⟨s₁, h₁, h₂⟩ := run_cons_eq_some.mp hrun
    exact ih (.step h (hls l List.mem_cons_self s) h₁)
      (fun l' hl' => hls l' (List.mem_cons_of_mem l hl')) h₂

end ReachableUnder

/-- From a state to a later one, by steps that all meet `C`. -/
inductive PathUnder (M : Machine S L) (C : S → L → Prop) (s : S) : S → Prop
  | refl : PathUnder M C s s
  | step {s' s'' : S} {l : L} :
      PathUnder M C s s' → C s' l → M.step s' l = some s'' → PathUnder M C s s''

namespace PathUnder

variable {P Q : S → Prop} {s s' : S}

theorem reachable (h : M.PathUnder C s s') (hCD : ∀ s l, C s l → D s l)
    (hs : M.ReachableUnder D s) : M.ReachableUnder D s' := by
  induction h with
  | refl => exact hs
  | step _ hC hstep ih => exact .step ih (hCD _ _ hC) hstep

/-- **The invariant rule along a path**, where what holds of all reachable states may
be assumed. -/
theorem invariant_of (h : M.PathUnder C s s') (hCD : ∀ s l, C s l → D s l)
    (hs : M.ReachableUnder D s) (hQ : ∀ s, M.ReachableUnder D s → Q s)
    (hstep : ∀ s l s', Q s → P s → C s l → M.step s l = some s' → P s') (h₀ : P s) : P s' := by
  induction h with
  | refl => exact h₀
  | step hp hC hs' ih => exact hstep _ _ _ (hQ _ (hp.reachable hCD hs)) ih hC hs'

theorem of_runUnder [∀ s l, Decidable (C s l)] {ls : List L} (hrun : M.runUnder C s ls = some s') :
    M.PathUnder C s s' := by
  have hcont : ∀ (ls : List L) (t : S), M.PathUnder C s t → M.runUnder C t ls = some s' →
      M.PathUnder C s s' := by
    intro ls
    induction ls with
    | nil =>
      intro t ht h
      rw [runUnder, Option.some_inj] at h
      exact h ▸ ht
    | cons l ls ih =>
      intro t ht h
      rw [runUnder] at h
      split at h
      · next hC =>
        obtain ⟨t', h₁, h₂⟩ := Option.bind_eq_some_iff.mp h
        exact ih t' (.step ht hC h₁) h₂
      · exact nomatch h
  exact hcont ls s .refl hrun

end PathUnder

end Machine
