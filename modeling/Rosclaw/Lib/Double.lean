/-
Floats other than NaN, and reading them from decimals.

* `ofRat_of_near` — what is near a number is read as this number; so its shortest decimal is.
-/
import Mathlib.Data.Int.Log
import Rosclaw.Lib.NumberText

inductive Double
  | zero (neg : Bool)
  | nonzero (neg : Bool) (x : Binary64)
  | inf (neg : Bool)
deriving DecidableEq

namespace Double

def nearest (q : ℚ) : Nat :=
  if q - ⌊q⌋₊ < 1 / 2 ∨ q - ⌊q⌋₊ = 1 / 2 ∧ ⌊q⌋₊ % 2 = 0 then ⌊q⌋₊ else ⌊q⌋₊ + 1

def lastBit (q : ℚ) : Int := max (-1074) (Int.log 2 q - 52)

def ofParts (neg : Bool) (m : Nat) (e : Int) : Double :=
  if h : 0 < m ∧ m < 2 ^ 53 ∧ -1074 ≤ e ∧ e ≤ 971 ∧ (2 ^ 52 ≤ m ∨ e = -1074) then
    .nonzero neg ⟨m, e, h.1, h.2.1, h.2.2.1, h.2.2.2.1, h.2.2.2.2⟩
  else if m = 0 then .zero neg
  else .inf neg

def ofRat (neg : Bool) (q : ℚ) : Double :=
  if nearest (q / 2 ^ lastBit q) = 2 ^ 53 then ofParts neg (2 ^ 52) (lastBit q + 1)
  else ofParts neg (nearest (q / 2 ^ lastBit q)) (lastBit q)

/-- `-` before a negative number. -/
def signChars (neg : Bool) : List Char := if neg then ['-'] else []

/-- `repr(x)`, if it is finite. -/
def repr? : Double → Option (List Char)
  | .zero neg => some (signChars neg ++ ['0', '.', '0'])
  | .nonzero neg x => some (signChars neg ++ x.shortest.pythonRepr)
  | .inf _ => none

def isFinite : Double → Bool
  | .inf _ => false
  | _ => true

theorem repr?_isSome (x : Double) : x.repr?.isSome = x.isFinite := by
  cases x <;> rfl

/-! ### Rounding -/

variable {q : ℚ} (neg : Bool)

theorem nearest_eq {m : Nat} (hpos : 0 ≤ q) (hlow : (m : ℚ) - 1 / 2 ≤ q) (hhigh : q ≤ m + 1 / 2)
    (hodd : m % 2 = 1 → (m : ℚ) - 1 / 2 < q ∧ q < m + 1 / 2) : nearest q = m := by
  unfold nearest
  by_cases hbelow : q < m
  · -- rounding up
    obtain ⟨k, rfl⟩ : ∃ k, m = k + 1 := by
      refine Nat.exists_eq_succ_of_ne_zero ?_
      rintro rfl
      exact absurd hpos (not_le.mpr (by exact_mod_cast hbelow))
    push_cast at *
    have hfloor : ⌊q⌋₊ = k := by
      rw [Nat.floor_eq_iff hpos]
      constructor <;> linarith
    rw [hfloor, if_neg]
    rintro (hlt | ⟨heq, heven⟩)
    · linarith
    · have := (hodd (by omega)).1
      linarith
  · have hfloor : ⌊q⌋₊ = m := by
      rw [Nat.floor_eq_iff hpos]
      constructor <;> linarith
    rw [hfloor, if_pos]
    by_cases hlt : q - m < 1 / 2
    · exact Or.inl hlt
    · have heq : q - m = 1 / 2 := by linarith
      refine Or.inr ⟨heq, ?_⟩
      by_contra hnot
      have := (hodd (by omega)).2
      linarith

theorem nearest_zero : nearest 0 = 0 := by
  simp [nearest]

@[simp] theorem ofRat_zero : ofRat neg 0 = .zero neg := by
  rw [ofRat, zero_div, nearest_zero, if_neg (by norm_num), ofParts, dif_neg (by norm_num),
    if_pos rfl]

variable {x : Binary64}

theorem ofParts_self : ofParts neg x.mantissa x.exponent = .nonzero neg x := by
  rw [ofParts, dif_pos ⟨x.pos, x.lt, x.min_le, x.le_max, x.canonical⟩]

theorem log_eq {e : Int} (hlow : (2 : ℚ) ^ e ≤ q) (hhigh : q < 2 ^ (e + 1)) : Int.log 2 q = e := by
  have hpos : 0 < q := lt_of_lt_of_le (zpow_pos (by norm_num) e) hlow
  have hle : e ≤ Int.log 2 q :=
    (Int.zpow_le_iff_le_log (by norm_num) hpos).mp (by exact_mod_cast hlow)
  have hlt : Int.log 2 q < e + 1 :=
    (Int.lt_zpow_iff_log_lt (by norm_num) hpos).mp (by exact_mod_cast hhigh)
  omega

theorem two_zpow_add (k : Nat) (e : Int) : (2 : ℚ) ^ ((k : Int) + e) = 2 ^ k * 2 ^ e := by
  rw [zpow_add₀ (by norm_num), zpow_natCast]

/-- **What is near a number is read as it.** -/
theorem ofRat_of_near (h : x.Near q) : ofRat neg q = .nonzero neg x := by
  have hscale : (0 : ℚ) < 2 ^ x.exponent := zpow_pos (by norm_num) _
  have hqpos : 0 < q := lt_of_lt_of_le Binary64.low_pos h.low_le
  have hmlt : (x.mantissa : ℚ) + 1 ≤ 2 ^ 53 := by exact_mod_cast x.lt
  -- the number of units of the last bit
  obtain ⟨s, hs⟩ : ∃ s, q = s * 2 ^ x.exponent := ⟨q / 2 ^ x.exponent, by field_simp⟩
  have hspos : 0 ≤ s := by
    by_contra hneg
    have := mul_neg_of_neg_of_pos (not_le.mp hneg) hscale
    linarith
  have hdiv : q / 2 ^ x.exponent = s := by rw [hs, mul_div_assoc, div_self hscale.ne', mul_one]
  have hhigh : s ≤ x.mantissa + 1 / 2 := by
    have hle := h.le_high
    rw [Binary64.high, hs] at hle
    exact le_of_mul_le_mul_right hle hscale
  have hhalf : (x.mantissa : ℚ) - 1 / 2 ≤ s := by
    have hle := Binary64.half_le_low.trans h.low_le
    rw [hs] at hle
    exact le_of_mul_le_mul_right hle hscale
  have hodd : x.mantissa % 2 = 1 → (x.mantissa : ℚ) - 1 / 2 < s ∧ s < x.mantissa + 1 / 2 := by
    intro hodd
    rw [Binary64.Near, if_neg (by omega)] at h
    have hlow := lt_of_le_of_lt Binary64.half_le_low h.1
    have hhigh := h.2
    rw [hs] at hlow
    rw [Binary64.high, hs] at hhigh
    exact ⟨lt_of_mul_lt_mul_right hlow hscale.le, lt_of_mul_lt_mul_right hhigh hscale.le⟩
  have hnearest : nearest s = x.mantissa := nearest_eq hspos hhalf hhigh hodd
  have hbelow : q < 2 ^ ((53 : ℕ) + x.exponent : Int) := by
    rw [two_zpow_add, hs]
    refine mul_lt_mul_of_pos_right ?_ hscale
    linarith
  by_cases hbits : x.exponent = -1074 ∨ (2 : ℚ) ^ 52 ≤ s
  · have hlast : lastBit q = x.exponent := by
      have hmin := x.min_le
      unfold lastBit
      rcases hbits with hsub | hbits
      · -- no smaller exponent is left
        have hlt : Int.log 2 q < (53 : ℕ) + x.exponent :=
          (Int.lt_zpow_iff_log_lt (by norm_num) hqpos).mp (by exact_mod_cast hbelow)
        rw [hsub] at hlt ⊢
        omega
      · have hlog : Int.log 2 q = (52 : ℕ) + x.exponent := by
          refine log_eq ?_ ?_
          · rw [two_zpow_add, hs]
            exact mul_le_mul_of_nonneg_right hbits hscale.le
          · rw [show ((52 : ℕ) + x.exponent + 1 : Int) = (53 : ℕ) + x.exponent by push_cast; ring]
            exact hbelow
        rw [hlog]
        push_cast
        omega
    have hne : x.mantissa ≠ 2 ^ 53 := x.lt.ne
    rw [ofRat, hlast, hdiv, hnearest, if_neg hne, ofParts_self]
  · -- just below a power of two: one more bit is kept, and rounding carries
    push Not at hbits
    have hmin := x.min_le
    have hcanonical := x.canonical.resolve_right hbits.1
    have hmantissa : x.mantissa = 2 ^ 52 := by
      by_contra hne
      have hmore : (2 : ℚ) ^ 52 + 1 ≤ x.mantissa := by exact_mod_cast lt_of_le_of_ne hcanonical (Ne.symm hne)
      linarith [hbits.2]
    have hexp : -1074 < x.exponent := lt_of_le_of_ne hmin (Ne.symm hbits.1)
    have hquarter : (2 : ℚ) ^ 52 - 1 / 4 ≤ s := by
      have hle := h.low_le
      rw [Binary64.low, if_pos ⟨hmantissa, hexp⟩, hmantissa, hs] at hle
      have := le_of_mul_le_mul_right hle hscale
      push_cast at this
      exact this
    have hhalved : (2 : ℚ) ^ (x.exponent - 1) = 2 ^ x.exponent / 2 := by
      rw [zpow_sub_one₀ (by norm_num)]
      ring
    have hlast : lastBit q = x.exponent - 1 := by
      have hlog : Int.log 2 q = (52 : ℕ) + (x.exponent - 1) := by
        refine log_eq ?_ ?_
        · rw [two_zpow_add, hhalved, hs]
          linarith [mul_le_mul_of_nonneg_right hquarter hscale.le]
        · rw [show ((52 : ℕ) + (x.exponent - 1) + 1 : Int) = (52 : ℕ) + x.exponent by push_cast; ring,
            two_zpow_add, hs]
          exact mul_lt_mul_of_pos_right hbits.2 hscale
      unfold lastBit
      rw [hlog]
      push_cast
      omega
    have hdouble : q / 2 ^ (x.exponent - 1) = 2 * s := by
      rw [hhalved, hs]
      field_simp
    have hcarry : nearest (2 * s) = 2 ^ 53 := by
      refine nearest_eq (by linarith) ?_ ?_ fun hodd => ?_
      · push_cast
        linarith
      · push_cast
        linarith [hbits.2]
      · norm_num at hodd
    rw [ofRat, hlast, hdouble, hcarry, if_pos rfl, sub_add_cancel, ← hmantissa, ofParts_self]

end Double
