/-
Loops with a guard.

`loop guard body` repeats the body as long as the guard is true, and the body may leave the loop.
The fuel bounds the rounds: without enough of it the result is `none`.

* `Yields` — with enough fuel there is a result, always the same;
* `loop_mono` — more fuel does not change a result;
* `loop_total` — if some measure goes down in every round, the loop has a result, and what the rounds
  keep holds where it ends;
* `loop_spec` — the same for a body that does not leave the loop.
-/
import Mathlib.Order.Lattice
import Mathlib.Order.Nat

namespace While

variable {S E R R' : Type*}

/-- With enough fuel the result is `r`. -/
def Yields (run : Nat → Option R) (r : R) : Prop :=
  ∃ enough, ∀ fuel, enough ≤ fuel → run fuel = some r

variable {I : S → Prop} {fuel fuel' : Nat} {r : R} {run : Nat → Option R} {s : S}
  (measure : S → Nat)

theorem Yields.bind {next : Nat → R → Option R'} {r' : R'} (h : Yields run r)
    (hnext : Yields (fun fuel => next fuel r) r') :
    Yields (fun fuel => (run fuel).bind (next fuel)) r' := by
  obtain ⟨n, hn⟩ := h
  obtain ⟨n', hn'⟩ := hnext
  refine ⟨max n n', fun fuel hfuel => ?_⟩
  show (run fuel).bind (next fuel) = some r'
  rw [hn fuel (le_trans (le_max_left _ _) hfuel), Option.bind_some]
  exact hn' fuel (le_trans (le_max_right _ _) hfuel)

def loop (guard : S → Bool) (body : S → Except E S) : Nat → S → Option (Except E S)
  | 0, s => if guard s then none else some (.ok s)
  | fuel + 1, s =>
    if guard s then
      match body s with
      | .ok s' => loop guard body fuel s'
      | .error e => some (.error e)
    else some (.ok s)

variable {g : S → Bool} {b : S → Except E S}

theorem loop_of_not (h : g s = false) (fuel : Nat) : loop g b fuel s = some (.ok s) := by
  cases fuel <;> simp [loop, h]

theorem loop_mono (hle : fuel ≤ fuel') {r : Except E S} (h : loop g b fuel s = some r) :
    loop g b fuel' s = some r := by
  induction fuel generalizing fuel' s with
  | zero =>
    cases hg : g s with
    | true => simp [loop, hg] at h
    | false =>
      rw [loop_of_not hg] at h ⊢
      exact h
  | succ fuel ih =>
    obtain ⟨fuel', rfl⟩ := Nat.exists_eq_succ_of_ne_zero (Nat.ne_of_gt (Nat.lt_of_lt_of_le
      (Nat.succ_pos fuel) hle))
    rw [loop] at h ⊢
    cases hg : g s with
    | false => simpa [hg] using h
    | true =>
      simp only [hg, if_true] at h ⊢
      cases hb : b s with
      | error e =>
        rw [hb] at h
        exact h
      | ok s' =>
        rw [hb] at h
        exact ih (Nat.le_of_succ_le_succ hle) h

/-- **A loop ends** if a measure goes down in every round that does not leave it. -/
theorem loop_total {Q : E → Prop} (hstep : ∀ s, I s → g s = true →
      (∃ e, b s = .error e ∧ Q e) ∨ ∃ s', b s = .ok s' ∧ I s' ∧ measure s' < measure s)
    (hI : I s) :
    (∃ e, Yields (fun fuel => loop g b fuel s) (.error e) ∧ Q e) ∨
      ∃ s', Yields (fun fuel => loop g b fuel s) (.ok s') ∧ I s' ∧ g s' = false := by
  have hend : ∀ fuel s, I s → measure s < fuel → (∃ e, loop g b fuel s = some (.error e) ∧ Q e) ∨
        ∃ s', loop g b fuel s = some (.ok s') ∧ I s' ∧ g s' = false := by
    intro fuel
    induction fuel with
    | zero => exact fun _ _ hfuel => absurd hfuel (Nat.not_lt_zero _)
    | succ fuel ih =>
      intro s hI hfuel
      cases hg : g s with
      | false => exact .inr ⟨s, loop_of_not hg _, hI, hg⟩
      | true =>
        rw [loop, if_pos hg]
        obtain ⟨e, hb, hQ⟩ | ⟨s', hb, hI', hlt⟩ := hstep s hI hg
        · exact .inl ⟨e, by rw [hb], hQ⟩
        · rw [hb]
          exact ih s' hI' (by omega)
  obtain ⟨e, hrun, hQ⟩ | ⟨s', hrun, hs'⟩ := hend _ s hI (Nat.lt_succ_self _)
  · exact .inl ⟨e, ⟨_, fun _ hle => loop_mono hle hrun⟩, hQ⟩
  · exact .inr ⟨s', ⟨_, fun _ hle => loop_mono hle hrun⟩, hs'⟩

/-- **A loop that its b does not leave** ends where its g is false. -/
theorem loop_spec
    (hstep : ∀ s, I s → g s = true → ∃ s', b s = .ok s' ∧ I s' ∧ measure s' < measure s)
    (hI : I s) :
    ∃ s', Yields (fun fuel => loop g b fuel s) (.ok s') ∧ I s' ∧ g s' = false := by
  obtain ⟨-, -, hno⟩ | hend := loop_total (Q := fun _ => False) measure
    (fun s hI hg => .inr (hstep s hI hg)) hI
  · exact hno.elim
  · exact hend

end While
