/-
Numbers as Python and as JavaScript write them.

Both languages write a float with the digits of its shortest decimal.  They differ in when they
use an exponent, in how they write it, and in a `.0` after a whole number.

* `jsText_eq_nat` — JavaScript writes the digits of a whole number if and only if they are its
  shortest decimal;
* `chars_jsText` — what characters there are in these texts.
-/
import Rosclaw.Lib.Binary64

namespace Decimal

open List

variable (d : Decimal)

/-- `str` of a natural number. -/
abbrev digitText (n : Nat) : List Char := Nat.toDigits 10 n

def fixedText : List Char :=
  let digits := digitText d.digits
  if 0 ≤ d.exponent then digits ++ List.replicate d.exponent.toNat '0'
  else if 0 < d.pointPos then digits.take d.pointPos.toNat ++ '.' :: digits.drop d.pointPos.toNat
  else '0' :: '.' :: (List.replicate (-d.pointPos).toNat '0' ++ digits)

def mantissaText : List Char :=
  match digitText d.digits with
  | c :: c' :: cs => c :: '.' :: c' :: cs
  | cs => cs

def exponentText (write : Nat → List Char) : List Char :=
  (if 0 < d.pointPos then '+' else '-') :: write (d.pointPos - 1).natAbs

def twoDigits (n : Nat) : List Char := if n < 10 then '0' :: digitText n else digitText n

def pythonRepr : List Char :=
  if -4 < d.pointPos ∧ d.pointPos ≤ 16 then
    d.fixedText ++ if 0 ≤ d.exponent then ['.', '0'] else []
  else d.mantissaText ++ 'e' :: d.exponentText twoDigits

/-- `String`. -/
def jsText : List Char :=
  if -6 < d.pointPos ∧ d.pointPos ≤ 21 then d.fixedText
  else d.mantissaText ++ 'e' :: d.exponentText digitText

/-! ### The characters of a text -/

variable {N m n : Nat} {c : Char}

theorem isDigit_of_mem (h : c ∈ digitText n) : c.isDigit = true :=
  Nat.isDigit_of_mem_toDigits (by norm_num) (by norm_num) h

theorem mem_fixedText (h : c ∈ d.fixedText) : c.isDigit = true ∨ c = '.' := by
  unfold fixedText at h
  dsimp only at h
  split at h
  · rcases mem_append.mp h with h | h
    · exact .inl (isDigit_of_mem h)
    · obtain rfl := eq_of_mem_replicate h
      exact .inl rfl
  · split at h
    · rcases mem_append.mp h with h | h
      · exact .inl (isDigit_of_mem (mem_of_mem_take h))
      · rcases mem_cons.mp h with rfl | h
        · exact .inr rfl
        · exact .inl (isDigit_of_mem (mem_of_mem_drop h))
    · rcases mem_cons.mp h with rfl | h
      · exact .inl rfl
      rcases mem_cons.mp h with rfl | h
      · exact .inr rfl
      rcases mem_append.mp h with h | h
      · obtain rfl := eq_of_mem_replicate h
        exact .inl rfl
      · exact .inl (isDigit_of_mem h)

theorem mem_mantissaText (h : c ∈ d.mantissaText) : c.isDigit = true ∨ c = '.' := by
  have hdigit : ∀ c ∈ digitText d.digits, c.isDigit = true := fun c hc => isDigit_of_mem hc
  unfold mantissaText at h
  split at h
  · next c₁ c₂ cs hdigits =>
    rw [hdigits] at hdigit
    rcases mem_cons.mp h with rfl | h
    · exact .inl (hdigit _ mem_cons_self)
    rcases mem_cons.mp h with rfl | h
    · exact .inr rfl
    · exact .inl (hdigit _ (mem_cons_of_mem _ h))
  · exact .inl (hdigit _ h)

def isNumeral (c : Char) : Bool := c.isDigit || c = '.' || c = 'e' || c = '+' || c = '-'

theorem isNumeral_of_plain (h : c.isDigit = true ∨ c = '.') : isNumeral c = true := by
  rcases h with h | rfl
  · simp [isNumeral, h]
  · rfl

theorem chars_exponent {write : Nat → List Char} (hwrite : ∀ n, ∀ c ∈ write n, c.isDigit = true) :
    ∀ c ∈ d.mantissaText ++ 'e' :: d.exponentText write, isNumeral c = true := by
  intro c h
  rcases mem_append.mp h with h | h
  · exact isNumeral_of_plain (d.mem_mantissaText h)
  rcases mem_cons.mp h with rfl | h
  · rfl
  rcases mem_cons.mp h with rfl | h
  · split <;> rfl
  · exact isNumeral_of_plain (.inl (hwrite _ c h))

theorem isDigit_twoDigits (n : Nat) : ∀ c ∈ twoDigits n, c.isDigit = true := by
  intro c h
  unfold twoDigits at h
  split at h
  · rcases mem_cons.mp h with rfl | h
    · rfl
    · exact isDigit_of_mem h
  · exact isDigit_of_mem h

theorem chars_jsText : ∀ c ∈ d.jsText, isNumeral c = true := by
  intro c h
  unfold jsText at h
  split at h
  · exact isNumeral_of_plain (d.mem_fixedText h)
  · exact d.chars_exponent (fun _ _ h => isDigit_of_mem h) c h

theorem chars_pythonRepr : ∀ c ∈ d.pythonRepr, isNumeral c = true := by
  intro c h
  unfold pythonRepr at h
  split at h
  · rcases mem_append.mp h with h | h
    · exact isNumeral_of_plain (d.mem_fixedText h)
    · split at h
      · simp only [mem_cons, not_mem_nil, or_false] at h
        rcases h with rfl | rfl <;> rfl
      · cases h
  · exact d.chars_exponent isDigit_twoDigits c h

/-! ### Whole numbers -/

theorem toDigits_mul_pow (hn : 0 < n) (e : Nat) :
    digitText (n * 10 ^ e) = digitText n ++ List.replicate e '0' := by
  induction e with
  | zero => simp
  | succ e ih =>
    simp only [digitText] at ih ⊢
    have happend := Nat.toDigits_append_toDigits (b := 10) (n := n * 10 ^ e) (d := 0) (by norm_num)
      (by positivity) (by norm_num)
    rw [show n * 10 ^ (e + 1) = 10 * (n * 10 ^ e) + 0 by ring, ← happend, ih,
      replicate_succ', append_assoc]
    rfl

theorem digitText_inj : digitText m = digitText n ↔ m = n := by
  constructor
  · intro h
    rw [← Nat.ofDigitChars_ten_toDigits (n := m), ← Nat.ofDigitChars_ten_toDigits (n := n)]
    exact congrArg (fun t => Nat.ofDigitChars 10 t 0) h
  · rintro rfl
    rfl

theorem digitText_cons (hn : 0 < n) : ∃ c cs, digitText n = c :: cs ∧ c ≠ '0' := by
  induction n using Nat.strong_induction_on with
  | _ n ih =>
    by_cases hsmall : n < 10
    · refine ⟨Nat.digitChar n, [], Nat.toDigits_of_lt_base hsmall, ?_⟩
      have hall : ∀ n < 10, 0 < n → Nat.digitChar n ≠ '0' := by decide
      exact hall n hsmall hn
    · obtain ⟨c, cs, hdigits, hc⟩ := ih (n / 10) (by omega) (by omega)
      refine ⟨c, cs ++ [Nat.digitChar (n % 10)], ?_, hc⟩
      rw [digitText, Nat.toDigits_of_base_le (by norm_num) (by omega)]
      rw [digitText] at hdigits
      rw [hdigits, cons_append]

theorem dropWhile_twoDigits (hn : 0 < n) : (twoDigits n).dropWhile (· = '0') = digitText n := by
  obtain ⟨c, cs, hdigits, hc⟩ := digitText_cons hn
  have hdrop : (digitText n).dropWhile (· = '0') = digitText n := by
    rw [hdigits, dropWhile_cons_of_neg (by simpa using hc)]
  unfold twoDigits
  split
  · rw [dropWhile_cons_of_pos (by simp), hdrop]
  · exact hdrop

variable {d}

/-- JavaScript writes a whole number out if and only if its digits, without the zeros at the end,
are the shortest. -/
theorem jsText_eq_nat (hpos : 0 < d.digits) (hlast : ¬ 10 ∣ d.digits) :
    d.jsText = digitText N ↔ d.value = N ∧ N < 10 ^ 21 := by
  have hdigit : ∀ c ∈ digitText N, c.isDigit = true := fun c hc => isDigit_of_mem hc
  constructor
  · intro h
    unfold jsText at h
    split at h
    · next hfixed =>
      unfold fixedText at h
      dsimp only at h
      split at h
      · next hwhole =>
        obtain ⟨e, he⟩ := Int.eq_ofNat_of_zero_le hwhole
        rw [he, Int.toNat_natCast, ← toDigits_mul_pow hpos, digitText_inj] at h
        have hvalue : d.value = N := by
          rw [value, he, zpow_natCast, ← h]
          push_cast
          rfl
        have hlt : (N : ℚ) < 10 ^ (21 : Int) := by
          rw [← hvalue]
          exact d.value_lt.trans_le (zpow_le_zpow_right₀ (by norm_num) hfixed.2)
        rw [show ((21 : Int)) = ((21 : ℕ) : Int) from rfl, zpow_natCast] at hlt
        exact ⟨hvalue, by exact_mod_cast hlt⟩
      · -- there is a point in the text
        have hpoint : '.' ∈ digitText N := by
          rw [← h]
          split <;> simp
        cases hdigit _ hpoint
    · have he : 'e' ∈ digitText N := by
        rw [← h]
        simp
      cases hdigit _ he
  · rintro ⟨hvalue, hlt⟩
    obtain ⟨e, he⟩ := Int.eq_ofNat_of_zero_le (exponent_nonneg hvalue hlast)
    have hN : d.digits * 10 ^ e = N := by
      rw [value, he, zpow_natCast] at hvalue
      exact_mod_cast hvalue
    have hbefore : 0 < d.pointPos := by
      have := Nat.length_toDigits_pos (b := 10) (n := d.digits)
      rw [pointPos, he]
      omega
    have hsmall : d.pointPos ≤ 21 := by
      have hle := le_value hpos
      rw [hvalue] at hle
      have hcast : (N : ℚ) < 10 ^ (21 : Int) := by exact_mod_cast hlt
      have := (zpow_lt_zpow_iff_right₀ (by norm_num)).mp (hle.trans_lt hcast)
      omega
    rw [jsText, if_pos ⟨by omega, hsmall⟩, fixedText, he,
      if_pos (Int.natCast_nonneg e), Int.toNat_natCast, ← toDigits_mul_pow hpos, hN]

end Decimal
