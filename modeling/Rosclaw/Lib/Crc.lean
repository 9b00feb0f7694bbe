/-
Reflected cyclic redundancy checks.

* `run_eq` — bits that fit into the register may be added to it before they are shifted;
* `run_xor` — the register is linear in the bits;
* `run_burst` — **a burst that fits into the register is not lost**, wherever it stands.
-/
import Mathlib.Data.List.GetD
import Mathlib.Logic.Function.Iterate

namespace Crc

open BitVec

variable {w : Nat} (p : BitVec w)

def shift (x : BitVec w) : BitVec w := if x.getLsbD 0 then (x >>> 1) ^^^ p else x >>> 1

def bit (b : Bool) : BitVec w := (BitVec.ofBool b).setWidth w

def run (x : BitVec w) (bits : List Bool) : BitVec w :=
  bits.foldl (fun x b => shift p (x ^^^ bit b)) x

def word : List Bool → BitVec w
  | [] => 0#w
  | b :: bits => bit b ^^^ (word bits <<< 1)

variable {p}

variable {as bits bs : List Bool} (x : BitVec w) (n : Nat)

theorem shift_xor (y : BitVec w) : shift p (x ^^^ y) = shift p x ^^^ shift p y := by
  rw [shift, shift, shift, BitVec.getLsbD_xor, BitVec.ushiftRight_xor_distrib]
  cases x.getLsbD 0 <;> cases y.getLsbD 0
  · rfl
  · exact BitVec.xor_assoc _ _ _
  · show _ = ((x >>> 1) ^^^ p) ^^^ (y >>> 1)
    rw [BitVec.xor_assoc, BitVec.xor_assoc, BitVec.xor_comm p]
    rfl
  · show (x >>> 1) ^^^ (y >>> 1) = ((x >>> 1) ^^^ p) ^^^ ((y >>> 1) ^^^ p)
    rw [BitVec.xor_comm (y >>> 1) p, BitVec.xor_assoc (x >>> 1) p, ← BitVec.xor_assoc p p,
      BitVec.xor_self, BitVec.zero_xor]

@[simp] theorem shift_zero : shift p 0#w = 0#w := by
  rw [shift, if_neg (by simp)]
  exact zero_ushiftRight

theorem shift_eq_zero (hp : p.msb = true) {x : BitVec w} (h : shift p x = 0#w) : x = 0#w := by
  have hw : 0 < w := by
    rcases Nat.eq_zero_or_pos w with rfl | hw
    · rw [of_length_zero (x := p)] at hp
      cases hp
    · exact hw
  rw [shift] at h
  split at h
  · -- the highest bit of the register is the polynomial's
    have htop := congrArg (fun y => y.getLsbD (w - 1)) h
    rw [msb_eq_getLsbD_last] at hp
    simp [hp, getLsbD_of_ge x (1 + (w - 1)) (by omega)] at htop
  · next hlow =>
    refine eq_of_getLsbD_eq fun i hi => ?_
    rw [getLsbD_zero]
    cases i with
    | zero => simpa using hlow
    | succ i =>
      have hbit := congrArg (fun y => y.getLsbD i) h
      simpa [Nat.add_comm 1 i] using hbit

theorem iterate_shift_eq_zero (hp : p.msb = true) {n : Nat} {x : BitVec w}
    (h : (shift p)^[n] x = 0#w) : x = 0#w := by
  induction n generalizing x with
  | zero => exact h
  | succ n ih => exact shift_eq_zero hp (ih h)

theorem getLsbD_word (bits : List Bool) {i : Nat} (hi : i < w) :
    (word bits : BitVec w).getLsbD i = bits.getD i false := by
  induction bits generalizing i with
  | nil => simp [word]
  | cons b bits ih =>
    rw [word, getLsbD_xor, bit, getLsbD_setWidth, getLsbD_shiftLeft]
    cases i with
    | zero => simp [hi]
    | succ i => simp [hi, ih (Nat.lt_of_succ_lt hi)]

theorem shift_word (h : bits.length < w) : shift p ((word bits : BitVec w) <<< 1) = word bits := by
  rw [shift, if_neg (by simp)]
  refine eq_of_getLsbD_eq fun i hi => ?_
  rw [getLsbD_ushiftRight, getLsbD_shiftLeft, Nat.add_sub_cancel_left]
  by_cases hlast : 1 + i < w
  · simp [hlast]
  · have hlong : bits.length ≤ i := by omega
    rw [getLsbD_word bits hi, List.getD_eq_default _ _ hlong]
    simp [hlast]

/-- **Bits that fit into the register may be added to it before they are shifted.** -/
theorem run_eq (h : bits.length ≤ w) :
    run p x bits = (shift p)^[bits.length] (x ^^^ word bits) := by
  induction bits generalizing x with
  | nil => exact BitVec.xor_zero.symm
  | cons b bits ih =>
    have hfirst : run p x (b :: bits) = run p (shift p (x ^^^ bit b)) bits := rfl
    rw [hfirst, ih _ (Nat.le_of_succ_le h), List.length_cons, Function.iterate_succ_apply, word,
      ← BitVec.xor_assoc, shift_xor (x ^^^ bit b), shift_word h]

theorem run_append (as bs : List Bool) :
    run p x (as ++ bs) = run p (run p x as) bs := List.foldl_append

/-- **The register is linear in the bits.** -/
theorem run_xor (h : as.length = bs.length) (x y : BitVec w) :
    run p (x ^^^ y) (List.zipWith xor as bs) = run p x as ^^^ run p y bs := by
  induction as generalizing bs x y with
  | nil =>
    obtain rfl := List.length_eq_zero_iff.mp h.symm
    rfl
  | cons a as ih =>
    cases bs with
    | nil => cases h
    | cons b bs =>
      have hbit : (bit (xor a b) : BitVec w) = bit a ^^^ bit b := by
        refine eq_of_getLsbD_eq fun i hi => ?_
        rw [getLsbD_xor, bit, bit, bit, getLsbD_setWidth, getLsbD_setWidth, getLsbD_setWidth]
        cases a <;> cases b <;> simp [hi]
      have hstep : shift p ((x ^^^ y) ^^^ bit (xor a b))
          = shift p (x ^^^ bit a) ^^^ shift p (y ^^^ bit b) := by
        rw [← shift_xor, hbit]
        congr 1
        rw [BitVec.xor_assoc, BitVec.xor_assoc, ← BitVec.xor_assoc y,
          BitVec.xor_comm y, BitVec.xor_assoc]
      show run p (shift p ((x ^^^ y) ^^^ bit (xor a b))) (List.zipWith xor as bs) = _
      rw [hstep, ih (Nat.succ.inj h)]
      rfl

theorem run_zeros : run p x (List.replicate n false) = (shift p)^[n] x := by
  induction n generalizing x with
  | zero => rfl
  | succ n ih =>
    have hbit : x ^^^ (bit false : BitVec w) = x := by simp [bit]
    show run p (shift p (x ^^^ bit false)) (List.replicate n false) = _
    rw [hbit, ih]
    rfl

theorem run_zero_zeros : run p 0#w (List.replicate n false) = 0#w := by
  rw [run_zeros]
  induction n with
  | zero => rfl
  | succ n ih => rw [Function.iterate_succ_apply, shift_zero, ih]

/-- **A burst that fits into the register is not lost.** -/
theorem run_burst (hp : p.msb = true) (hlen : bits.length ≤ w) (htrue : true ∈ bits) (m n : Nat) :
    run p 0#w (List.replicate m false ++ bits ++ List.replicate n false) ≠ 0#w := by
  intro h
  rw [run_append, run_append, run_zero_zeros, run_zeros, run_eq _ hlen] at h
  have hword := iterate_shift_eq_zero hp (iterate_shift_eq_zero hp h)
  rw [BitVec.zero_xor] at hword
  obtain ⟨i, hi, htrue⟩ := List.getElem_of_mem htrue
  have hbit := getLsbD_word (w := w) bits (i := i) (by omega)
  rw [hword, getLsbD_zero, List.getD_eq_getElem _ _ hi, htrue] at hbit
  cases hbit

end Crc
