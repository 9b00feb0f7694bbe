/-
Binary64 floating-point numbers and their shortest decimals.

A decimal stands for a number if it rounds to it.  Among the decimals that do, printing takes
one with as few digits as possible, and of these the nearest.

* `Near` — what rounds to it, to nearest and ties to even;
* `near_shortest`, `shortest_coarsest` — the decimal rounds to the number, and no decimal on
  a coarser grid does;
* `round` — the number that an integer rounds to.
-/
import Mathlib.Algebra.Order.Field.Power
import Mathlib.Algebra.Order.Floor.Semiring
import Mathlib.Data.Rat.Floor
import Mathlib.Tactic.FieldSimp
import Mathlib.Tactic.Linarith
import Mathlib.Tactic.NormNum
import Mathlib.Tactic.Positivity
import Mathlib.Tactic.Ring

/-- A positive finite number in its canonical form. -/
structure Binary64 where
  mantissa : Nat
  exponent : Int
  pos : 0 < mantissa
  lt : mantissa < 2 ^ 53
  min_le : -1074 ≤ exponent
  le_max : exponent ≤ 971
  canonical : 2 ^ 52 ≤ mantissa ∨ exponent = -1074
deriving DecidableEq

/-- The decimal `digits * 10 ^ exponent`. -/
structure Decimal where
  digits : Nat
  exponent : Int
deriving DecidableEq, Repr

namespace Decimal

def value (d : Decimal) : ℚ := d.digits * 10 ^ d.exponent

def pointPos (d : Decimal) : Int := (Nat.toDigits 10 d.digits).length + d.exponent

theorem value_lt (d : Decimal) : d.value < 10 ^ d.pointPos := by
  have hdigits : d.digits < 10 ^ (Nat.toDigits 10 d.digits).length :=
    (Nat.length_toDigits_le_iff (by norm_num) Nat.length_toDigits_pos).mp (Nat.le_refl _)
  have hcast : (d.digits : ℚ) < 10 ^ (Nat.toDigits 10 d.digits).length := by exact_mod_cast hdigits
  rw [value, pointPos, zpow_add₀ (by norm_num), zpow_natCast]
  exact mul_lt_mul_of_pos_right hcast (zpow_pos (by norm_num) _)

variable {d : Decimal}

theorem le_value (h : 0 < d.digits) : (10 : ℚ) ^ (d.pointPos - 1) ≤ d.value := by
  have hdigits : (10 : ℚ) ^ ((Nat.toDigits 10 d.digits).length - 1 : Int) ≤ d.digits := by
    by_cases hone : (Nat.toDigits 10 d.digits).length = 1
    · rw [hone]
      norm_num
      exact_mod_cast h
    · have hlen := Nat.length_toDigits_pos (b := 10) (n := d.digits)
      have hle : 10 ^ ((Nat.toDigits 10 d.digits).length - 1) ≤ d.digits := by
        by_contra hlt
        have := (Nat.length_toDigits_le_iff (by norm_num) (by omega)).mpr (not_le.mp hlt)
        omega
      rw [← Nat.cast_one, ← Nat.cast_sub hlen, zpow_natCast]
      exact_mod_cast hle
  rw [value, pointPos, add_sub_right_comm, zpow_add₀ (by norm_num)]
  exact mul_le_mul_of_nonneg_right hdigits (zpow_pos (by norm_num) _).le

theorem exponent_nonneg {N : Nat} (h : d.value = N) (hlast : ¬ 10 ∣ d.digits) : 0 ≤ d.exponent := by
  by_contra hneg
  obtain ⟨e, he⟩ := Int.eq_ofNat_of_zero_le (by omega : 0 ≤ -d.exponent - 1)
  have hexp : d.exponent = -((e + 1 : ℕ) : Int) := by omega
  rw [value, hexp, zpow_neg, zpow_natCast] at h
  have hdigits : (d.digits : ℚ) = N * 10 ^ (e + 1) := by
    have hten : (10 : ℚ) ^ (e + 1) ≠ 0 := by positivity
    field_simp at h
    linarith
  have hnat : d.digits = N * 10 ^ (e + 1) := by exact_mod_cast hdigits
  exact hlast (hnat ▸ Dvd.dvd.mul_left (dvd_pow_self 10 (by omega)) N)

end Decimal

namespace Binary64

variable (x : Binary64)

def value : ℚ := x.mantissa * 2 ^ x.exponent

/-- Halfway to the number before; at a power of two this one is nearer. -/
def low : ℚ :=
  ((x.mantissa : ℚ) - if x.mantissa = 2 ^ 52 ∧ -1074 < x.exponent then 1 / 4 else 1 / 2) *
    2 ^ x.exponent

def high : ℚ := ((x.mantissa : ℚ) + 1 / 2) * 2 ^ x.exponent

def Near (q : ℚ) : Prop :=
  if x.mantissa % 2 = 0 then x.low ≤ q ∧ q ≤ x.high else x.low < q ∧ q < x.high

instance (q : ℚ) : Decidable (x.Near q) := by
  unfold Near
  infer_instance

/-- The last multiple of `10 ^ t` that is not above the number. -/
def below (t : Int) : Nat := ⌊x.value / 10 ^ t⌋₊

/-- A multiple of `10 ^ t` rounds to the number. -/
def Meets (t : Int) : Prop :=
  x.Near (x.below t * 10 ^ t) ∨ x.Near ((x.below t + 1 : ℕ) * 10 ^ t)

instance (t : Int) : Decidable (x.Meets t) := inferInstanceAs (Decidable (_ ∨ _))

/-- The first grid that does, from `10 ^ t` downwards. -/
def grid : Nat → Int → Int
  | 0, t => t
  | fuel + 1, t => if x.Meets t then t else grid fuel (t - 1)

def top : Nat := (Nat.toDigits 10 ⌊x.high⌋₊).length

def point : Int := x.grid (x.top + 1074) x.top

def shortest : Decimal :=
  let n := x.below x.point
  let down := x.value - n * 10 ^ x.point
  let up := (n + 1 : ℕ) * 10 ^ x.point - x.value
  if x.Near (n * 10 ^ x.point) ∧ (¬ x.Near ((n + 1 : ℕ) * 10 ^ x.point) ∨ down < up ∨
      down = up ∧ n % 2 = 0) then ⟨n, x.point⟩
  else ⟨n + 1, x.point⟩

/-! ### What rounds to the number -/

variable {x}

variable {n : Nat} {q q' : ℚ} (fuel : Nat) (t : Int)

theorem pow_pos : (0 : ℚ) < 10 ^ t := zpow_pos (by norm_num) t

theorem value_pos : 0 < x.value := mul_pos (Nat.cast_pos.mpr x.pos) (zpow_pos (by norm_num) _)

theorem low_lt_value : x.low < x.value := by
  refine mul_lt_mul_of_pos_right ?_ (zpow_pos (by norm_num) _)
  split <;> linarith

theorem value_lt_high : x.value < x.high := by
  refine mul_lt_mul_of_pos_right ?_ (zpow_pos (by norm_num) _)
  linarith

theorem low_pos : 0 < x.low := by
  have hone : (1 : ℚ) ≤ x.mantissa := by exact_mod_cast x.pos
  refine mul_pos ?_ (zpow_pos (by norm_num) _)
  split <;> linarith

theorem Near.low_le (h : x.Near q) : x.low ≤ q := by
  unfold Near at h
  split at h
  · exact h.1
  · exact h.1.le

theorem Near.le_high (h : x.Near q) : q ≤ x.high := by
  unfold Near at h
  split at h
  · exact h.2
  · exact h.2.le

theorem near_value : x.Near x.value := by
  unfold Near
  split
  · exact ⟨low_lt_value.le, value_lt_high.le⟩
  · exact ⟨low_lt_value, value_lt_high⟩

theorem Near.of_le (h : x.Near q) (hq : q ≤ q') (hvalue : q' ≤ x.value) : x.Near q' := by
  unfold Near at h ⊢
  by_cases heven : x.mantissa % 2 = 0
  · rw [if_pos heven] at h ⊢
    exact ⟨h.1.trans hq, hvalue.trans value_lt_high.le⟩
  · rw [if_neg heven] at h ⊢
    exact ⟨h.1.trans_le hq, hvalue.trans_lt value_lt_high⟩

theorem Near.of_ge (h : x.Near q) (hq : q' ≤ q) (hvalue : x.value ≤ q') : x.Near q' := by
  unfold Near at h ⊢
  by_cases heven : x.mantissa % 2 = 0
  · rw [if_pos heven] at h ⊢
    exact ⟨low_lt_value.le.trans hvalue, hq.trans h.2⟩
  · rw [if_neg heven] at h ⊢
    exact ⟨low_lt_value.trans_le hvalue, hq.trans_lt h.2⟩

theorem below_le : (x.below t : ℚ) * 10 ^ t ≤ x.value := by
  have hfloor := Nat.floor_le (div_pos value_pos (pow_pos t)).le (a := x.value / 10 ^ t)
  rwa [le_div_iff₀ (pow_pos t)] at hfloor

theorem lt_above : x.value < (x.below t + 1 : ℕ) * 10 ^ t := by
  have hfloor := Nat.lt_floor_add_one (x.value / 10 ^ t)
  rw [div_lt_iff₀ (pow_pos t)] at hfloor
  exact_mod_cast hfloor

theorem meets_of_near {t : Int} (h : x.Near (n * 10 ^ t)) : x.Meets t := by
  rcases le_or_gt ((n : ℚ) * 10 ^ t) x.value with hle | hgt
  · left
    refine h.of_le ?_ (below_le t)
    have hn : n ≤ x.below t := Nat.le_floor ((le_div_iff₀ (pow_pos t)).mpr hle)
    have hcast : (n : ℚ) ≤ x.below t := by exact_mod_cast hn
    exact mul_le_mul_of_nonneg_right hcast (pow_pos t).le
  · right
    refine h.of_ge ?_ (lt_above t).le
    have hn : x.below t + 1 ≤ n := by
      refine Nat.succ_le_of_lt ((Nat.floor_lt (div_pos value_pos (pow_pos t)).le).mpr ?_)
      rwa [div_lt_iff₀ (pow_pos t)]
    have hcast : ((x.below t + 1 : ℕ) : ℚ) ≤ n := by exact_mod_cast hn
    exact mul_le_mul_of_nonneg_right hcast (pow_pos t).le

/-! ### The coarsest grid -/

theorem high_lt : x.high < 10 ^ x.top := by
  have hdigits : ⌊x.high⌋₊ < 10 ^ x.top :=
    (Nat.length_toDigits_le_iff (by norm_num) Nat.length_toDigits_pos).mp (Nat.le_refl _)
  calc x.high < ⌊x.high⌋₊ + 1 := Nat.lt_floor_add_one _
    _ ≤ 10 ^ x.top := by exact_mod_cast hdigits

theorem not_meets_of_top {t : Int} (ht : (x.top : Int) < t) : ¬ x.Meets t := by
  have hnear : ∀ n : Nat, ¬ x.Near (n * 10 ^ t) := by
    intro n h
    cases n with
    | zero =>
      have hlow := h.low_le
      rw [Nat.cast_zero, zero_mul] at hlow
      exact absurd low_pos hlow.not_gt
    | succ n =>
      have hgrid : (10 : ℚ) ^ x.top ≤ 10 ^ t := by
        rw [← zpow_natCast]
        exact zpow_le_zpow_right₀ (by norm_num) ht.le
      have hone : (1 : ℚ) ≤ (n + 1 : ℕ) := by exact_mod_cast Nat.le_add_left 1 n
      have hbig : (10 : ℚ) ^ t ≤ (n + 1 : ℕ) * 10 ^ t := by
        nlinarith [pow_pos t]
      linarith [h.le_high, high_lt (x := x)]
  rintro (h | h)
  · exact hnear _ h
  · exact hnear _ h

theorem grid_spec (hfuel : ∃ t' ≤ t, t - fuel ≤ t' ∧ x.Meets t') :
    x.Meets (x.grid fuel t) ∧ ∀ t', x.grid fuel t < t' → t' ≤ t → ¬ x.Meets t' := by
  induction fuel generalizing t with
  | zero =>
    obtain ⟨t', hle, hge, hmeets⟩ := hfuel
    obtain rfl : t' = t := by omega
    exact ⟨hmeets, fun t'' hlt hle' => absurd hlt (by show ¬ t' < t''; omega)⟩
  | succ fuel ih =>
    rw [grid]
    split
    · next hmeets => exact ⟨hmeets, fun t'' hlt hle' => absurd hlt (by omega)⟩
    · next hnot =>
      obtain ⟨t', hle, hge, hmeets⟩ := hfuel
      have hne : t' ≠ t := fun heq => hnot (heq ▸ hmeets)
      obtain ⟨hfound, hfirst⟩ := ih (t - 1) ⟨t', by omega, by push_cast at hge; omega, hmeets⟩
      refine ⟨hfound, fun t'' hlt hle' => ?_⟩
      by_cases heq : t'' = t
      · rwa [heq]
      · exact hfirst t'' hlt (by omega)

theorem meets_min : x.Meets (min 0 x.exponent) := by
  have hexact : ∃ n : Nat, (n : ℚ) * 10 ^ (min 0 x.exponent) = x.value := by
    rcases le_total 0 x.exponent with h | h
    · obtain ⟨e, he⟩ := Int.eq_ofNat_of_zero_le h
      refine ⟨x.mantissa * 2 ^ e, ?_⟩
      rw [min_eq_left h, value, he, zpow_natCast]
      push_cast
      rw [mul_one]
    · obtain ⟨e, he⟩ := Int.eq_ofNat_of_zero_le (neg_nonneg.mpr h)
      refine ⟨x.mantissa * 5 ^ e, ?_⟩
      have hexp : x.exponent = -(e : Int) := by omega
      rw [min_eq_right h, value, hexp, zpow_neg, zpow_neg, zpow_natCast, zpow_natCast]
      push_cast
      rw [show (10 : ℚ) = 2 * 5 by norm_num, mul_pow]
      field_simp
  obtain ⟨n, hn⟩ := hexact
  refine meets_of_near (n := n) ?_
  rw [hn]
  exact near_value

theorem point_spec : x.Meets x.point ∧ ∀ t, x.point < t → ¬ x.Meets t := by
  obtain ⟨hmeets, hfirst⟩ := grid_spec (x.top + 1074) x.top
    ⟨min 0 x.exponent, by omega, by have := x.min_le; omega, meets_min⟩
  refine ⟨hmeets, fun t ht => ?_⟩
  by_cases htop : t ≤ x.top
  · exact hfirst t ht htop
  · exact not_meets_of_top (by omega)

/-! ### The decimal that is printed -/

theorem shortest_exponent : x.shortest.exponent = x.point := by
  unfold shortest
  dsimp only
  split <;> rfl

theorem near_shortest : x.Near x.shortest.value := by
  unfold shortest Decimal.value
  dsimp only
  split
  · next h => exact h.1
  · next h =>
    rcases point_spec.1 with hbelow | habove
    · by_contra hnot
      exact h ⟨hbelow, .inl hnot⟩
    · exact habove

theorem shortest_coarsest {t : Int} (ht : x.shortest.exponent < t) : ¬ x.Near (n * 10 ^ t) := by
  rw [shortest_exponent] at ht
  exact fun h => point_spec.2 t ht (meets_of_near h)

theorem digits_pos : 0 < x.shortest.digits := by
  rcases Nat.eq_zero_or_pos x.shortest.digits with hzero | hpos
  · have hlow := near_shortest.low_le (x := x)
    rw [Decimal.value, hzero, Nat.cast_zero, zero_mul] at hlow
    exact absurd low_pos hlow.not_gt
  · exact hpos

theorem not_dvd_digits : ¬ 10 ∣ x.shortest.digits := by
  rintro ⟨n, hn⟩
  refine shortest_coarsest (x := x) (n := n) (Int.lt_succ _) ?_
  have hvalue : (n : ℚ) * 10 ^ (x.shortest.exponent + 1) = x.shortest.value := by
    rw [Decimal.value, hn, zpow_add_one₀ (by norm_num)]
    push_cast
    ring
  show x.Near (n * 10 ^ (x.shortest.exponent + 1))
  rw [hvalue]
  exact near_shortest

/-! ### Whole numbers -/

theorem half_le_low : ((x.mantissa : ℚ) - 1 / 2) * 2 ^ x.exponent ≤ x.low := by
  refine mul_le_mul_of_nonneg_right ?_ (zpow_pos (by norm_num) _).le
  split <;> linarith

theorem exponent_neg (hfraction : ∀ N : Nat, x.value ≠ N) : x.exponent < 0 := by
  by_contra hpos
  obtain ⟨e, he⟩ := Int.eq_ofNat_of_zero_le (not_lt.mp hpos)
  refine hfraction (x.mantissa * 2 ^ e) ?_
  rw [value, he]
  push_cast
  rw [zpow_natCast]

theorem not_near_nat (hfraction : ∀ N : Nat, x.value ≠ N) (N : Nat) : ¬ x.Near N := by
  intro h
  obtain ⟨e, he⟩ := Int.eq_ofNat_of_zero_le (neg_nonneg.mpr (exponent_neg hfraction).le)
  have hexp : x.exponent = -(e : Int) := by omega
  have htwo : (0 : ℚ) < 2 ^ e := by positivity
  -- both are multiples of the same power of two, and less than one multiple apart
  have hlow := half_le_low.trans h.low_le
  have hhigh : (N : ℚ) ≤ ((x.mantissa : ℚ) + 1 / 2) * 2 ^ x.exponent := h.le_high
  rw [hexp, zpow_neg, zpow_natCast, ← div_eq_mul_inv, div_le_iff₀ htwo] at hlow
  rw [hexp, zpow_neg, zpow_natCast, ← div_eq_mul_inv, le_div_iff₀ htwo] at hhigh
  have hless : (x.mantissa : ℚ) < (N * 2 ^ e + 1 : ℕ) := by
    push_cast
    linarith
  have hmore : ((N * 2 ^ e : ℕ) : ℚ) < (x.mantissa + 1 : ℕ) := by
    push_cast
    linarith
  have hsame : x.mantissa = N * 2 ^ e := by
    have := Nat.cast_lt.mp hless
    have := Nat.cast_lt.mp hmore
    omega
  refine hfraction N ?_
  rw [value, hexp, zpow_neg, zpow_natCast, hsame]
  push_cast
  field_simp

theorem shortest_fraction (hfraction : ∀ N : Nat, x.value ≠ N) : x.shortest.exponent < 0 := by
  by_contra hpos
  obtain ⟨e, he⟩ := Int.eq_ofNat_of_zero_le (not_lt.mp hpos)
  refine not_near_nat hfraction (x.shortest.digits * 10 ^ e) ?_
  have hvalue : ((x.shortest.digits * 10 ^ e : ℕ) : ℚ) = x.shortest.value := by
    rw [Decimal.value, he, zpow_natCast]
    push_cast
    rfl
  rw [hvalue]
  exact near_shortest

theorem pointPos_le (hfraction : ∀ N : Nat, x.value ≠ N) : x.shortest.pointPos ≤ 16 := by
  have hhigh : x.high < 10 ^ (16 : Int) := by
    have hmantissa : (x.mantissa : ℚ) + 1 ≤ 2 ^ 53 := by exact_mod_cast x.lt
    have hscale : (2 : ℚ) ^ x.exponent ≤ 1 := by
      rw [← zpow_zero (2 : ℚ)]
      exact zpow_le_zpow_right₀ (by norm_num) (exponent_neg hfraction).le
    calc x.high ≤ ((x.mantissa : ℚ) + 1 / 2) * 1 := mul_le_mul_of_nonneg_left hscale (by positivity)
      _ < 10 ^ (16 : Int) := by norm_num at hmantissa ⊢; linarith
  have hle := (Decimal.le_value (digits_pos (x := x))).trans near_shortest.le_high
  have := (zpow_lt_zpow_iff_right₀ (by norm_num)).mp (hle.trans_lt hhigh)
  omega

/-- A number from `10 ^ 21` on has more than twenty-one. -/
theorem lt_pointPos (hlarge : (10 : ℚ) ^ 21 ≤ x.value) : 21 < x.shortest.pointPos := by
  have hdecimal : (10 : ℚ) ^ 21 ≤ x.shortest.value := by
    rcases hlarge.eq_or_lt with heq | hlt
    · -- `10 ^ 21` is itself a decimal of one digit
      have hnear : x.Near ((1 : ℕ) * 10 ^ (21 : Int)) := by
        rw [Nat.cast_one, one_mul]
        have := near_value (x := x)
        rwa [← heq] at this
      have hcoarse : 21 ≤ x.shortest.exponent := by
        by_contra hlt
        exact shortest_coarsest (not_le.mp hlt) hnear
      have hone : (1 : ℚ) ≤ x.shortest.digits := by exact_mod_cast digits_pos
      calc (10 : ℚ) ^ 21 = 10 ^ (21 : Int) := by norm_num
        _ ≤ 10 ^ x.shortest.exponent := zpow_le_zpow_right₀ (by norm_num) hcoarse
        _ ≤ x.shortest.value := le_mul_of_one_le_left (zpow_pos (by norm_num) _).le hone
    · refine le_trans ?_ (half_le_low.trans near_shortest.low_le)
      rcases le_or_gt x.exponent 21 with hsmall | hbig
      · -- `10 ^ 21` is a multiple of the last bit, and less
        have hnonneg : 0 ≤ x.exponent := by
          by_contra hneg
          have hmantissa : (x.mantissa : ℚ) ≤ 2 ^ 53 := by exact_mod_cast x.lt.le
          have hscale : (2 : ℚ) ^ x.exponent ≤ 1 := by
            rw [← zpow_zero (2 : ℚ)]
            exact zpow_le_zpow_right₀ (by norm_num) (not_le.mp hneg).le
          have hvalue : x.value ≤ x.mantissa * 1 :=
            mul_le_mul_of_nonneg_left hscale (Nat.cast_nonneg _)
          have hbound : (2 : ℚ) ^ 53 < 10 ^ 21 := by norm_num
          linarith
        obtain ⟨e, he⟩ := Int.eq_ofNat_of_zero_le hnonneg
        have hten : (10 : ℚ) ^ 21 = (5 ^ 21 * 2 ^ (21 - e) : ℕ) * 2 ^ e := by
          have hsplit : (2 : ℚ) ^ 21 = 2 ^ (21 - e) * 2 ^ e := by
            rw [← pow_add]
            congr 1
            omega
          rw [show (10 : ℚ) = 5 * 2 by norm_num, mul_pow, hsplit, Nat.cast_mul, Nat.cast_pow,
            Nat.cast_pow, mul_assoc]
          norm_num
        have htwo : (0 : ℚ) < 2 ^ e := by positivity
        rw [value, he, zpow_natCast, hten] at hlt
        rw [he, zpow_natCast, hten]
        have hless := Nat.cast_lt.mp (lt_of_mul_lt_mul_right hlt htwo.le)
        have hcast : ((5 ^ 21 * 2 ^ (21 - e) + 1 : ℕ) : ℚ) ≤ x.mantissa := by exact_mod_cast hless
        refine mul_le_mul_of_nonneg_right ?_ htwo.le
        push_cast at hcast ⊢
        linarith
      · have hnormal : (2 : ℚ) ^ 52 ≤ x.mantissa := by
          rcases x.canonical with h | h
          · exact_mod_cast h
          · omega
        have hscale : (2 : ℚ) ^ (22 : Int) ≤ 2 ^ x.exponent :=
          zpow_le_zpow_right₀ (by norm_num) (by omega)
        have hhalf : (2 : ℚ) ^ 52 - 1 / 2 ≤ x.mantissa - 1 / 2 := by linarith
        have hnonneg : (0 : ℚ) ≤ x.mantissa - 1 / 2 := by
          have : (1 : ℚ) ≤ 2 ^ 52 := by norm_num
          linarith
        calc (10 : ℚ) ^ 21 ≤ ((2 : ℚ) ^ 52 - 1 / 2) * 2 ^ (22 : Int) := by norm_num
          _ ≤ ((x.mantissa : ℚ) - 1 / 2) * 2 ^ x.exponent :=
            mul_le_mul hhalf hscale (by positivity) hnonneg
  have := (zpow_lt_zpow_iff_right₀ (by norm_num)).mp
    ((by norm_num : (10 : ℚ) ^ (21 : Int) = 10 ^ 21).trans_le hdecimal |>.trans_lt
      (Decimal.value_lt x.shortest))
  exact this

/-! ### Rounding whole numbers -/

/-- `n / 2 ^ s`, to nearest and ties to even. -/
def roundEven (n s : Nat) : Nat :=
  if 2 ^ s < 2 * (n % 2 ^ s) ∨ 2 ^ s = 2 * (n % 2 ^ s) ∧ n / 2 ^ s % 2 = 1 then n / 2 ^ s + 1
  else n / 2 ^ s

/-- The number with this mantissa and exponent, unless the exponent is too large. -/
def make? (m : Nat) (e : Int) : Option Binary64 :=
  if h : 2 ^ 52 ≤ m ∧ m < 2 ^ 53 ∧ -1074 ≤ e ∧ e ≤ 971 then
    some ⟨m, e, lt_of_lt_of_le (by norm_num) h.1, h.2.1, h.2.2.1, h.2.2.2, .inl h.1⟩
  else none

/-- The number that a positive whole number rounds to; one that is too large has none. -/
def ofNat? (n : Nat) : Option Binary64 :=
  if n.log2 ≤ 52 then make? (n * 2 ^ (52 - n.log2)) (n.log2 - 52)
  else if roundEven n (n.log2 - 52) = 2 ^ 53 then make? (2 ^ 52) (n.log2 - 51)
  else make? (roundEven n (n.log2 - 52)) (n.log2 - 52)

end Binary64
