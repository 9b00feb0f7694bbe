/-
Number literals of JSON texts.

* `scan_int`, `scan_repr` — what Python writes for an integer or a float is scanned as a literal
  with the same value.
-/
import Mathlib.Data.List.TakeWhile
import Rosclaw.Lib.Double
import Rosclaw.Lib.JsonText

structure Numeral where
  neg : Bool
  whole : List Char
  fraction : List Char
  exponent : Option Int
deriving DecidableEq

namespace Numeral

open JsonText Decimal List Nat

def isFloat (n : Numeral) : Bool := n.fraction ≠ [] || n.exponent.isSome

def decimal (n : Numeral) : Decimal where
  digits := Nat.ofDigitChars 10 (n.whole ++ n.fraction) 0
  exponent := n.exponent.getD 0 - n.fraction.length

def int (n : Numeral) : Int :=
  if n.neg then -(Nat.ofDigitChars 10 n.whole 0 : Int) else Nat.ofDigitChars 10 n.whole 0

/-! ### Scanning -/

/-- `\d*`, and what is after it. -/
def scanDigits (t : List Char) : List Char × List Char :=
  (t.takeWhile Char.isDigit, t.dropWhile Char.isDigit)

/-- `-?`. -/
def scanMinus (t : List Char) : Bool × List Char :=
  match t with
  | c :: t' => if c = '-' then (true, t') else (false, t)
  | [] => (false, [])

/-- `[-+]?`. -/
def scanSign (t : List Char) : Bool × List Char :=
  match t with
  | c :: t' => if c = '+' then (false, t') else scanMinus t
  | [] => (false, [])

/-- `0|[1-9]\d*`. -/
def scanWhole (t : List Char) : Option (List Char × List Char) :=
  match t with
  | c :: t' => if c = '0' then some (['0'], t') else if c.isDigit then some (scanDigits t) else none
  | [] => none

/-- `(\.\d+)?`. -/
def scanFraction (t : List Char) : List Char × List Char :=
  match t with
  | c :: t' => if c = '.' ∧ (scanDigits t').1 ≠ [] then scanDigits t' else ([], t)
  | [] => ([], [])

/-- `([eE][-+]?\d+)?`. -/
def scanExponent (t : List Char) : Option Int × List Char :=
  match t with
  | c :: t' =>
      let sign := scanSign t'
      let ds := scanDigits sign.2
      if (c = 'e' ∨ c = 'E') ∧ ds.1 ≠ [] then
        (some (if sign.1 then -(Nat.ofDigitChars 10 ds.1 0 : Int) else Nat.ofDigitChars 10 ds.1 0),
          ds.2)
      else (none, t)
  | [] => (none, [])

/-- The longest literal at the beginning of the text, and what is after it. -/
def scan (t : List Char) : Option (Numeral × List Char) :=
  (scanWhole (scanMinus t).2).map fun whole =>
    let fraction := scanFraction whole.2
    let exponent := scanExponent fraction.2
    (⟨(scanMinus t).1, whole.1, fraction.1, exponent.1⟩, exponent.2)

/-! ### The parts of a literal -/

def NoDigit (y : List Char) : Prop := ∀ c ∈ y.head?, c.isDigit = false

variable {c : Char} {ds fraction t whole : List Char} {n : Numeral} (neg : Bool)

theorem scanDigits_append {y : List Char} (hds : ∀ c ∈ ds, c.isDigit = true) (hy : NoDigit y) :
    scanDigits (ds ++ y) = (ds, y) := by
  have hstop : y.takeWhile Char.isDigit = [] ∧ y.dropWhile Char.isDigit = y := by
    cases y with
    | nil => exact ⟨rfl, rfl⟩
    | cons c y =>
      have hc : c.isDigit = false := hy c rfl
      exact ⟨takeWhile_cons_of_neg (by rw [hc]; decide),
        dropWhile_cons_of_neg (by rw [hc]; decide)⟩
  rw [scanDigits, takeWhile_append_of_pos hds, dropWhile_append_of_pos hds, hstop.1,
    hstop.2, append_nil]

variable {y : List Char}

theorem scanMinus_signChars (hy : '-' ∉ y.head?) :
    scanMinus (Double.signChars neg ++ y) = (neg, y) := by
  cases neg with
  | true => rfl
  | false =>
    cases y with
    | nil => rfl
    | cons c y =>
      have hc : c ≠ '-' := fun h => hy (by rw [h]; rfl)
      exact if_neg hc

theorem scanWhole_append {y : List Char} (hc : c ≠ '0') (hds : ∀ d ∈ c :: ds, d.isDigit = true)
    (hy : NoDigit y) : scanWhole (c :: ds ++ y) = some (c :: ds, y) := by
  show (if c = '0' then _ else if c.isDigit then some (scanDigits (c :: ds ++ y)) else none) = _
  rw [if_neg hc, if_pos (hds c mem_cons_self), scanDigits_append hds hy]

theorem scanFraction_append {y : List Char} (hne : ds ≠ []) (hds : ∀ d ∈ ds, d.isDigit = true)
    (hy : NoDigit y) : scanFraction ('.' :: ds ++ y) = (ds, y) := by
  have hscan := scanDigits_append hds hy
  rw [cons_append, scanFraction, hscan, if_pos ⟨rfl, hne⟩]

theorem scanFraction_none (hy : '.' ∉ y.head?) : scanFraction y = ([], y) := by
  cases y with
  | nil => rfl
  | cons c y =>
    have hc : c ≠ '.' := fun h => hy (by rw [h]; rfl)
    exact if_neg fun h => hc h.1

theorem scanExponent_none (he : 'e' ∉ y.head?) (hE : 'E' ∉ y.head?) :
    scanExponent y = (none, y) := by
  cases y with
  | nil => rfl
  | cons c y =>
    have hc : ¬ (c = 'e' ∨ c = 'E') := by
      rintro (rfl | rfl)
      · exact he rfl
      · exact hE rfl
    exact if_neg fun h => hc h.1

theorem scanExponent_append {y : List Char} (hne : ds ≠ []) (hds : ∀ d ∈ ds, d.isDigit = true)
    (hy : NoDigit y) :
    scanExponent ('e' :: (if neg then '-' else '+') :: ds ++ y) =
      (some (if neg then -(Nat.ofDigitChars 10 ds 0 : Int) else Nat.ofDigitChars 10 ds 0), y) := by
  have hsign : scanSign ((if neg then '-' else '+') :: (ds ++ y)) = (neg, ds ++ y) := by
    cases neg <;> rfl
  have hscan := scanDigits_append hds hy
  simp only [cons_append, scanExponent, hsign, hscan]
  rw [if_pos ⟨Or.inl trivial, hne⟩]

theorem scan_append {exponent : Option Int} {y₁ y₂ y₃ y : List Char} (hminus : '-' ∉ y₁.head?)
    (hwhole : scanWhole y₁ = some (whole, y₂)) (hfraction : scanFraction y₂ = (fraction, y₃))
    (hexponent : scanExponent y₃ = (exponent, y)) :
    scan (Double.signChars neg ++ y₁) = some (⟨neg, whole, fraction, exponent⟩, y) := by
  simp only [scan, scanMinus_signChars neg hminus, hwhole, hfraction, hexponent, Option.map_some]

theorem scan_head {y : List Char} (h : scan t = some (n, y)) :
    ∃ c ∈ t.head?, c = '-' ∨ c.isDigit = true := by
  cases t with
  | nil => cases h
  | cons c t =>
    refine ⟨c, rfl, ?_⟩
    by_cases hminus : c = '-'
    · exact Or.inl hminus
    · refine Or.inr ?_
      have hscan : scanMinus (c :: t) = (false, c :: t) := if_neg hminus
      rw [scan, hscan] at h
      obtain ⟨p, hp, -⟩ := Option.map_eq_some_iff.mp h
      rw [scanWhole] at hp
      by_cases hzero : c = '0'
      · rw [hzero]
        rfl
      · rw [if_neg hzero] at hp
        by_contra hdigit
        rw [if_neg hdigit] at hp
        cases hp

theorem isDigit_zero : ∀ c ∈ ['0'], c.isDigit = true := by
  intro c hc
  rw [mem_singleton.mp hc]
  rfl

theorem scan_whole {y : List Char} (h : scan t = some (n, y)) :
    n.whole ≠ [] ∧ ∀ c ∈ n.whole, c.isDigit = true := by
  rw [scan] at h
  obtain ⟨⟨whole, t'⟩, hwhole, heq⟩ := Option.map_eq_some_iff.mp h
  obtain ⟨rfl, -⟩ := Prod.mk.inj heq
  show whole ≠ [] ∧ ∀ c ∈ whole, c.isDigit = true
  cases hs : (scanMinus t).2 with
  | nil =>
    rw [hs] at hwhole
    cases hwhole
  | cons c z =>
    rw [hs, scanWhole] at hwhole
    split at hwhole
    · obtain ⟨rfl, -⟩ := Prod.mk.inj (Option.some.inj hwhole)
      exact ⟨cons_ne_nil _ _, isDigit_zero⟩
    · split at hwhole
      · next hdigit =>
        obtain ⟨rfl, -⟩ := Prod.mk.inj (Option.some.inj hwhole)
        refine ⟨?_, fun d hd => mem_takeWhile_imp hd⟩
        rw [takeWhile_cons_of_pos hdigit]
        exact cons_ne_nil _ _
      · cases hwhole

theorem ofDigitChars_lt (hds : ∀ c ∈ ds, c.isDigit = true) :
    Nat.ofDigitChars 10 ds 0 < 10 ^ ds.length := by
  induction ds with
  | nil => decide
  | cons c ds ih =>
    have hrest := ih fun d hd => hds d (mem_cons_of_mem _ hd)
    have hc : c.toNat - '0'.toNat ≤ 9 := by
      have hdigit := hds c mem_cons_self
      rw [Char.isDigit, Bool.and_eq_true, decide_eq_true_eq, decide_eq_true_eq] at hdigit
      have hle : c.toNat ≤ 57 := hdigit.2
      show c.toNat - 48 ≤ 9
      omega
    rw [ofDigitChars_cons, ofDigitChars_eq_ofDigitChars_zero, mul_zero, zero_add,
      length_cons, pow_succ]
    have hmul := mul_le_mul_left (10 ^ ds.length) hc
    omega

theorem length_int_le {y : List Char} (h : scan t = some (n, y)) :
    (digitText n.int.natAbs).length ≤ n.whole.length := by
  obtain ⟨hne, hdigits⟩ := scan_whole h
  have habs : n.int.natAbs = Nat.ofDigitChars 10 n.whole 0 := by
    unfold int
    split
    · rw [Int.natAbs_neg, Int.natAbs_natCast]
    · exact Int.natAbs_natCast _
  rw [habs, length_toDigits_le_iff (by norm_num) (length_pos_of_ne_nil hne)]
  exact ofDigitChars_lt hdigits

/-! ### What Python writes -/

theorem delimited_head (hy : Delimited y) (hc : isDelimiter c = false) : c ∉ y.head? := by
  intro hmem
  cases (hy c hmem).symm.trans hc

theorem noDigit_of_delimited (hy : Delimited y) : NoDigit y := by
  intro c hc
  by_contra hdigit
  rw [Bool.not_eq_false] at hdigit
  have hdelimiter := hy c hc
  unfold isDelimiter at hdelimiter
  simp only [Bool.or_eq_true, decide_eq_true_eq] at hdelimiter
  rcases hdelimiter with (rfl | rfl) | rfl
  all_goals cases hdigit

theorem noDigit_cons (hc : c.isDigit = false) (y : List Char) : NoDigit (c :: y) := by
  intro d hd
  cases hd
  exact hc

theorem not_minus_of_digit (hc : c.isDigit = true) (y : List Char) : '-' ∉ (c :: y).head? := by
  intro h
  obtain rfl : c = '-' := Option.some.inj h
  cases hc

theorem digitText_shape {n : Nat} (hn : 0 < n) :
    ∃ c cs, digitText n = c :: cs ∧ c ≠ '0' ∧ ∀ d ∈ c :: cs, d.isDigit = true := by
  obtain ⟨c, cs, hdigits, hc⟩ := digitText_cons hn
  exact ⟨c, cs, hdigits, hc, fun d hd => isDigit_of_mem (hdigits ▸ hd)⟩

/-- `str(n)` as a literal. -/
theorem scan_int (n : Nat) (hy : Delimited y) :
    scan (Double.signChars neg ++ (digitText n ++ y)) = some (⟨neg, digitText n, [], none⟩, y) := by
  have hfraction := scanFraction_none (delimited_head hy (c := '.') rfl)
  have hexponent := scanExponent_none (delimited_head hy (c := 'e') rfl)
    (delimited_head hy (c := 'E') rfl)
  rcases Nat.eq_zero_or_pos n with rfl | hn
  · exact scan_append neg (not_minus_of_digit (c := '0') rfl _) rfl hfraction hexponent
  · obtain ⟨c, cs, hdigits, hc, hall⟩ := digitText_shape hn
    rw [hdigits]
    exact scan_append neg (not_minus_of_digit (hall c List.mem_cons_self) _)
      (scanWhole_append hc hall (noDigit_of_delimited hy)) hfraction hexponent

variable {d : Decimal}

theorem scan_fixed (hpos : 0 < d.digits) (hy : Delimited y) : ∃ n, scan (Double.signChars neg ++
        (d.fixedText ++ (if 0 ≤ d.exponent then ['.', '0'] else []) ++ y)) = some (n, y) ∧
      n.neg = neg ∧ n.isFloat = true ∧ n.decimal.value = d.value := by
  have hexponent := scanExponent_none (delimited_head hy (c := 'e') rfl)
    (delimited_head hy (c := 'E') rfl)
  have hnodigit := noDigit_of_delimited hy
  obtain ⟨c, cs, hdigits, hc, hall⟩ := digitText_shape hpos
  have hvalue : Nat.ofDigitChars 10 (digitText d.digits) 0 = d.digits := ofDigitChars_ten_toDigits
  have hpointPos : d.pointPos = (digitText d.digits).length + d.exponent := rfl
  unfold fixedText
  dsimp only
  by_cases hwhole : 0 ≤ d.exponent
  · -- zeros before the point, and one after it
    obtain ⟨e, he⟩ := Int.eq_ofNat_of_zero_le hwhole
    have hzeros : ∀ x ∈ c :: (cs ++ List.replicate e '0'), x.isDigit = true := by
      intro x hx
      rw [← cons_append] at hx
      rcases mem_append.mp hx with hx | hx
      · exact hall x hx
      · rw [eq_of_mem_replicate hx]
        rfl
    rw [if_pos hwhole, if_pos hwhole, he, Int.toNat_natCast, hdigits]
    refine ⟨⟨neg, c :: (cs ++ List.replicate e '0'), ['0'], none⟩, ?_, rfl, rfl, ?_⟩
    · rw [cons_append, append_assoc]
      refine scan_append neg (not_minus_of_digit (hall c mem_cons_self) _)
        (scanWhole_append hc hzeros (noDigit_cons rfl _))
        (scanFraction_append (cons_ne_nil _ _) isDigit_zero hnodigit) hexponent
    · show (⟨Nat.ofDigitChars 10 (c :: (cs ++ List.replicate e '0') ++ ['0']) 0, _⟩ : Decimal).value
        = _
      have hwhole' : Nat.ofDigitChars 10 (c :: (cs ++ List.replicate e '0') ++ ['0']) 0 =
          10 * (10 ^ e * d.digits) := by
        rw [← cons_append, ← hdigits, ofDigitChars_append, ofDigitChars_append,
          ofDigitChars_replicate_zero, hvalue]
        rfl
      rw [hwhole', Decimal.value, Decimal.value, he]
      push_cast
      rw [zpow_natCast]
      norm_num
      ring
  · rw [if_neg hwhole, if_neg hwhole, append_nil]
    by_cases hpoint : 0 < d.pointPos
    · -- the point is between two digits
      rw [if_pos hpoint]
      obtain ⟨p, hp⟩ := Int.eq_ofNat_of_zero_le hpoint.le
      have hpp : 0 < p := by omega
      have hlt : p < (digitText d.digits).length := by omega
      obtain ⟨p', rfl⟩ : ∃ p', p = p' + 1 := ⟨p - 1, by omega⟩
      rw [hp, Int.toNat_natCast]
      have hdrop : (digitText d.digits).drop (p' + 1) ≠ [] := by
        intro hnil
        rw [drop_eq_nil_iff] at hnil
        omega
      have hdrop' : ∀ x ∈ (digitText d.digits).drop (p' + 1), x.isDigit = true := fun x hx =>
        isDigit_of_mem (mem_of_mem_drop hx)
      have htake : (digitText d.digits).take (p' + 1) = c :: cs.take p' := by
        rw [hdigits, take_succ_cons]
      have htake' : ∀ x ∈ c :: cs.take p', x.isDigit = true := fun x hx =>
        isDigit_of_mem (mem_of_mem_take (htake ▸ hx))
      refine ⟨⟨neg, (digitText d.digits).take (p' + 1), (digitText d.digits).drop (p' + 1), none⟩,
        ?_, rfl, ?_, ?_⟩
      · rw [htake, append_assoc, cons_append]
        refine scan_append neg (not_minus_of_digit (hall c mem_cons_self) _)
          (scanWhole_append hc htake' (noDigit_cons rfl _))
          (scanFraction_append hdrop hdrop' hnodigit) hexponent
      · show (decide (_ ≠ []) || _) = true
        rw [decide_eq_true hdrop]
        rfl
      · show (⟨Nat.ofDigitChars 10 (List.take _ _ ++ List.drop _ _) 0, _⟩ : Decimal).value = _
        rw [take_append_drop, hvalue, length_drop]
        have hexp : (0 : Int) - ((digitText d.digits).length - (p' + 1) : ℕ) = d.exponent := by
          omega
        rw [Option.getD_none, hexp]
    · -- the number begins after the point
      rw [if_neg hpoint]
      obtain ⟨z, hz⟩ := Int.eq_ofNat_of_zero_le (by omega : 0 ≤ -d.pointPos)
      rw [hz, Int.toNat_natCast]
      have hall' : ∀ x ∈ List.replicate z '0' ++ digitText d.digits, x.isDigit = true := by
        intro x hx
        rcases mem_append.mp hx with hx | hx
        · rw [eq_of_mem_replicate hx]
          rfl
        · exact isDigit_of_mem hx
      have hne : List.replicate z '0' ++ digitText d.digits ≠ [] := by
        rw [hdigits]
        simp
      refine ⟨⟨neg, ['0'], List.replicate z '0' ++ digitText d.digits, none⟩, ?_, rfl, ?_, ?_⟩
      · exact scan_append neg (not_minus_of_digit (c := '0') rfl _) rfl
          (scanFraction_append hne hall' hnodigit) hexponent
      · show (decide (_ ≠ []) || _) = true
        rw [decide_eq_true hne]
        rfl
      · show (⟨Nat.ofDigitChars 10 (['0'] ++ (List.replicate z '0' ++ digitText d.digits)) 0, _⟩ :
          Decimal).value = _
        rw [ofDigitChars_append, ofDigitChars_append, show Nat.ofDigitChars 10 ['0'] 0 = 0
          from rfl, ofDigitChars_replicate_zero, mul_zero, hvalue, length_append,
          length_replicate]
        have hexp : (0 : Int) - (z + (digitText d.digits).length : ℕ) = d.exponent := by
          omega
        rw [Option.getD_none, hexp]

theorem ofDigitChars_twoDigits (n : Nat) : Nat.ofDigitChars 10 (twoDigits n) 0 = n := by
  unfold twoDigits
  split
  · exact ofDigitChars_ten_toDigits
  · exact ofDigitChars_ten_toDigits

theorem twoDigits_ne_nil (n : Nat) : twoDigits n ≠ [] := by
  unfold twoDigits
  split
  · exact cons_ne_nil _ _
  · exact ne_nil_of_length_pos length_toDigits_pos

theorem scan_exponent (hpos : 0 < d.digits) (hy : Delimited y) :
    ∃ n, scan (Double.signChars neg ++ (d.mantissaText ++ 'e' :: d.exponentText twoDigits ++ y)) =
        some (n, y) ∧
      n.neg = neg ∧ n.isFloat = true ∧ n.decimal.value = d.value := by
  have hnodigit := noDigit_of_delimited hy
  obtain ⟨c, cs, hdigits, hc, hall⟩ := digitText_shape hpos
  have hvalue : Nat.ofDigitChars 10 (c :: cs) 0 = d.digits := by
    rw [← hdigits]
    exact ofDigitChars_ten_toDigits
  have htail : ∀ x ∈ cs, x.isDigit = true := fun x hx => hall x (mem_cons_of_mem _ hx)
  -- the exponent and its sign
  have hexponent : scanExponent ('e' :: d.exponentText twoDigits ++ y) =
      (some (d.pointPos - 1), y) := by
    have happend := scanExponent_append (!decide (0 < d.pointPos))
      (twoDigits_ne_nil (d.pointPos - 1).natAbs) (isDigit_twoDigits _) hnodigit
    rw [ofDigitChars_twoDigits] at happend
    have htext : 'e' :: d.exponentText twoDigits =
        'e' :: (if (!decide (0 < d.pointPos)) = true then '-' else '+') ::
          twoDigits (d.pointPos - 1).natAbs := by
      unfold exponentText
      by_cases hsign : 0 < d.pointPos <;> simp [hsign]
    rw [htext, happend]
    by_cases hsign : 0 < d.pointPos
    · rw [if_neg (by simp [hsign])]
      congr
      omega
    · rw [if_pos (by simp [hsign])]
      congr
      omega
  have hnumeral : d.digits * (10 : ℚ) ^ (d.pointPos - 1 - (cs.length : Int)) = d.value := by
    have hlength : d.pointPos = (cs.length + 1 : ℕ) + d.exponent := by
      rw [← length_cons (a := c), ← hdigits]
      rfl
    rw [Decimal.value, hlength]
    congr 2
    omega
  cases cs with
  | nil =>
    refine ⟨⟨neg, [c], [], some (d.pointPos - 1)⟩, ?_, rfl, rfl, ?_⟩
    · have hmantissa : d.mantissaText = [c] := by simp only [mantissaText, hdigits]
      rw [hmantissa]
      refine scan_append neg (not_minus_of_digit (hall c mem_cons_self) _)
        (scanWhole_append hc hall (noDigit_cons rfl _)) ?_ hexponent
      exact scanFraction_none (by simp)
    · show (⟨Nat.ofDigitChars 10 ([c] ++ []) 0, _⟩ : Decimal).value = _
      rw [append_nil, hvalue]
      exact hnumeral
  | cons c' cs =>
    refine ⟨⟨neg, [c], c' :: cs, some (d.pointPos - 1)⟩, ?_, rfl, rfl, ?_⟩
    · have hmantissa : d.mantissaText = c :: '.' :: c' :: cs := by
        simp only [mantissaText, hdigits]
      rw [hmantissa]
      have hone : ∀ x ∈ [c], x.isDigit = true := fun x hx => hall x (by simp_all)
      refine scan_append neg (not_minus_of_digit (hall c mem_cons_self) _)
        (scanWhole_append hc hone (noDigit_cons rfl _)) ?_ hexponent
      have hfraction := scanFraction_append (y := 'e' :: d.exponentText twoDigits ++ y)
        (cons_ne_nil c' cs) htail (noDigit_cons rfl _)
      simpa using hfraction
    · show (⟨Nat.ofDigitChars 10 ([c] ++ c' :: cs) 0, _⟩ : Decimal).value = _
      rw [singleton_append, hvalue]
      exact hnumeral

/-- **`repr(x)` is scanned as a literal of the same value.** -/
theorem scan_repr {x : Double} (h : x.repr? = some t) (hy : Delimited y) :
    ∃ n, scan (t ++ y) = some (n, y) ∧ n.isFloat = true ∧
      Double.ofRat n.neg n.decimal.value = x := by
  cases x with
  | zero neg =>
    cases h
    refine ⟨⟨neg, ['0'], ['0'], none⟩, ?_, rfl, ?_⟩
    · rw [append_assoc]
      exact scan_append neg (not_minus_of_digit (c := '0') rfl _) rfl
        (scanFraction_append (cons_ne_nil _ _) isDigit_zero (noDigit_of_delimited hy))
        (scanExponent_none (delimited_head hy (c := 'e') rfl) (delimited_head hy (c := 'E') rfl))
    · have hzero : (⟨neg, ['0'], ['0'], none⟩ : Numeral).decimal.value = 0 := by
        show ((0 : ℕ) : ℚ) * _ = 0
        rw [cast_zero, zero_mul]
      rw [hzero, Double.ofRat_zero]
  | nonzero neg b =>
    cases h
    have hwritten : ∃ n, scan (Double.signChars neg ++ (b.shortest.pythonRepr ++ y)) = some (n, y) ∧
        n.neg = neg ∧ n.isFloat = true ∧ n.decimal.value = b.shortest.value := by
      unfold pythonRepr
      split
      · exact scan_fixed neg Binary64.digits_pos hy
      · exact scan_exponent neg Binary64.digits_pos hy
    obtain ⟨n, hscan, rfl, hfloat, hvalue⟩ := hwritten
    rw [append_assoc]
    refine ⟨n, hscan, hfloat, ?_⟩
    rw [hvalue, Double.ofRat_of_near _ Binary64.near_shortest]
  | inf neg => cases h

end Numeral
