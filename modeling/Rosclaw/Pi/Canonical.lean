/-
Canonical JSON in two languages (`contracts/pi/canonical.py`, `extension/context-injection.ts`).

The daemon hashes what `canonical_dumps` makes of a context envelope, and the agent what
`canonicalJson` makes of the envelope that it has received.  The texts have to be the same.  They
are, unless a number or the order of two keys comes out differently: an integer and a whole float
below `1e21` are written out by Python and by their shortest digits in JavaScript; `repr` uses an
exponent from `1e-5` downwards, JavaScript from `1e-7`; and the keys are sorted by code points
on one side and by UTF-16 code units on the other.

* `Portable` — the values that do not come out differently;
* `canonical_iff` — the texts are the same for these values and for no others.
A text is its characters; it has one encoding in UTF-8.
-/
import Mathlib.Data.List.Lex
import Mathlib.Data.List.Sort
import Rosclaw.Lib.JsonText
import Rosclaw.Lib.NumberText

namespace Rosclaw.Pi

open JsonText Decimal List

inductive Float64
  | zero (neg : Bool)
  | nonzero (neg : Bool) (x : Binary64)
deriving DecidableEq

/-- A JSON value of an envelope; its strings are those that UTF-8 can encode. -/
inductive Json
  | null
  | bool (b : Bool)
  | int (n : Int)
  | float (x : Float64)
  | str (s : String)
  | list (xs : List Json)
  | dict (kvs : List (String × Json))

inductive JsNumber
  | zero (neg : Bool)
  | nonzero (neg : Bool) (x : Binary64)
  | infinite (neg : Bool)
deriving DecidableEq

/-- What `JSON.parse` returns. -/
inductive JsValue
  | null
  | bool (b : Bool)
  | num (x : JsNumber)
  | str (s : String)
  | arr (xs : List JsValue)
  | obj (kvs : List (String × JsValue))

/-! ### Python -/

def signText (neg : Bool) : List Char := if neg then ['-'] else []

/-- `str(n)`. -/
def intText (n : Int) : List Char := signText (n < 0) ++ digitText n.natAbs

def boolText (b : Bool) : List Char := if b then ['t', 'r', 'u', 'e'] else ['f', 'a', 'l', 's', 'e']

def nullText : List Char := ['n', 'u', 'l', 'l']

/-- `exponent.lstrip("0") or "0"`. -/
def stripZeros (digits : List Char) : List Char :=
  if digits.dropWhile (· = '0') = [] then ['0'] else digits.dropWhile (· = '0')

/-- The exponent of a `repr`, with its sign, without leading zeros. -/
def shortExponent : List Char → List Char
  | [] => stripZeros []
  | c :: digits => if c = '+' ∨ c = '-' then c :: stripZeros digits else stripZeros (c :: digits)

def stripExponent (text : List Char) : List Char :=
  if 'e' ∈ text ∨ 'E' ∈ text then
    let lower := text.map Char.toLower
    lower.takeWhile (· ≠ 'e') ++ 'e' :: shortExponent (lower.dropWhile (· ≠ 'e')).tail
  else text

/-- `x.is_integer()`. -/
def isWhole (x : Binary64) : Bool := x.value.den = 1

/-- `_js_number` of a float. -/
def jsNumber : Float64 → List Char
  | .zero _ => ['0']
  | .nonzero neg x =>
      if isWhole x ∧ x.value < 10 ^ 21 then
        intText (if neg then -⌊x.value⌋₊ else ⌊x.value⌋₊)
      else stripExponent (signText neg ++ x.shortest.pythonRepr)

/-- `sorted(value.keys())`, of keys with the texts of their values. -/
def sortedByCode {α : Type} (kvs : List (String × α)) : List (String × α) :=
  kvs.insertionSort fun e e' => e.1.toList ≤ e'.1.toList

def member (e : String × List Char) : List Char := quote e.1 ++ ':' :: e.2

def arrayText (ts : List (List Char)) : List Char := '[' :: (joinTexts ts ++ [']'])

def objectText (ms : List (String × List Char)) : List Char :=
  '{' :: (joinTexts (ms.map member) ++ ['}'])

mutual

def canonicalDumps : Json → List Char
  | .null => nullText
  | .bool b => boolText b
  | .int n => intText n
  | .float x => jsNumber x
  | .str s => quote s
  | .list xs => arrayText (dumpsItems xs)
  | .dict kvs => objectText (sortedByCode (dumpsEntries kvs))

def dumpsItems : List Json → List (List Char)
  | [] => []
  | x :: xs => canonicalDumps x :: dumpsItems xs

def dumpsEntries : List (String × Json) → List (String × List Char)
  | [] => []
  | (k, v) :: kvs => (k, canonicalDumps v) :: dumpsEntries kvs

end

/-! ### The wire -/

def parsedInt (n : Int) : JsNumber :=
  if n = 0 then .zero false
  else match Binary64.ofNat? n.natAbs with
    | some x => .nonzero (n < 0) x
    | none => .infinite (n < 0)

/-- A float goes over the wire as its `repr`, whose nearest number it is. -/
def parsedFloat : Float64 → JsNumber
  | .zero neg => .zero neg
  | .nonzero neg x => .nonzero neg x

mutual

/-- `JSON.parse(json.dumps(v, ensure_ascii=False))`. -/
def received : Json → JsValue
  | .null => .null
  | .bool b => .bool b
  | .int n => .num (parsedInt n)
  | .float x => .num (parsedFloat x)
  | .str s => .str s
  | .list xs => .arr (receivedItems xs)
  | .dict kvs => .obj (receivedEntries kvs)

def receivedItems : List Json → List JsValue
  | [] => []
  | x :: xs => received x :: receivedItems xs

def receivedEntries : List (String × Json) → List (String × JsValue)
  | [] => []
  | (k, v) :: kvs => (k, received v) :: receivedEntries kvs

end

/-! ### TypeScript -/

/-- `JSON.stringify` of a number. -/
def JsNumber.stringify : JsNumber → List Char
  | .zero _ => ['0']
  | .nonzero neg x => signText neg ++ x.shortest.jsText
  | .infinite _ => nullText

def units (c : Char) : List Nat :=
  if c.toNat < 0x10000 then [c.toNat]
  else [0xD800 + (c.toNat - 0x10000) / 0x400, 0xDC00 + (c.toNat - 0x10000) % 0x400]

def utf16 (s : String) : List Nat := s.toList.flatMap units

/-- `Object.keys(record).sort()`, of keys with the texts of their values. -/
def sortedByUnit {α : Type} (kvs : List (String × α)) : List (String × α) :=
  kvs.insertionSort fun e e' => utf16 e.1 ≤ utf16 e'.1

mutual

def canonicalJson : JsValue → List Char
  | .null => nullText
  | .bool b => boolText b
  | .num x => x.stringify
  | .str s => quote s
  | .arr xs => arrayText (jsonItems xs)
  | .obj kvs => objectText (sortedByUnit (jsonEntries kvs))

def jsonItems : List JsValue → List (List Char)
  | [] => []
  | x :: xs => canonicalJson x :: jsonItems xs

def jsonEntries : List (String × JsValue) → List (String × List Char)
  | [] => []
  | (k, v) :: kvs => (k, canonicalJson v) :: jsonEntries kvs

end

/-! ### The values that come out the same -/

/-- The digits of the integer, without the zeros at its end, are the shortest of the number that
it is parsed to; so they are up to `2 ^ 53`. -/
def PortableInt (n : Int) : Prop :=
  n = 0 ∨ n.natAbs < 10 ^ 21 ∧ ∃ x, Binary64.ofNat? n.natAbs = some x ∧ x.shortest.value = n.natAbs

/-- The same for a whole float below `1e21`; and the first digit of any other one is not the
fifth or the sixth after the point. -/
def PortableFloat : Float64 → Prop
  | .zero _ => True
  | .nonzero _ x =>
      if isWhole x ∧ x.value < 10 ^ 21 then x.shortest.value = x.value
      else x.shortest.pointPos ≠ -4 ∧ x.shortest.pointPos ≠ -5

def SameOrder (keys : List String) : Prop :=
  ∀ k ∈ keys, ∀ k' ∈ keys, k.toList ≤ k'.toList → utf16 k ≤ utf16 k'

mutual

def Portable : Json → Prop
  | .int n => PortableInt n
  | .float x => PortableFloat x
  | .list xs => PortableItems xs
  | .dict kvs => SameOrder (kvs.map Prod.fst) ∧ PortableEntries kvs
  | _ => True

def PortableItems : List Json → Prop
  | [] => True
  | x :: xs => Portable x ∧ PortableItems xs

def PortableEntries : List (String × Json) → Prop
  | [] => True
  | (_, v) :: kvs => Portable v ∧ PortableEntries kvs

end

mutual

def Distinct : Json → Prop
  | .list xs => DistinctItems xs
  | .dict kvs => (kvs.map Prod.fst).Nodup ∧ DistinctEntries kvs
  | _ => True

def DistinctItems : List Json → Prop
  | [] => True
  | x :: xs => Distinct x ∧ DistinctItems xs

def DistinctEntries : List (String × Json) → Prop
  | [] => True
  | (_, v) :: kvs => Distinct v ∧ DistinctEntries kvs

end

/-- What the Python side can place in an envelope. -/
structure Payload where
  value : Json
  distinct : Distinct value

/-! ### Numbers -/

variable {c c' : Char} {k k' : String} {t y y' : List Char} (neg : Bool) (x : Float64)
  (kvs : List (String × Json))

theorem isNumeral_of_mem {n : Int} (h : c ∈ intText n) : isNumeral c = true := by
  rcases mem_append.mp h with h | h
  · unfold signText at h
    split at h
    · obtain rfl := mem_singleton.mp h
      rfl
    · cases h
  · simp [isNumeral, isDigit_of_mem h]

theorem stringify_parsedInt (n : Int) : (parsedInt n).stringify = intText n ↔ PortableInt n := by
  unfold parsedInt PortableInt
  by_cases hzero : n = 0
  · subst hzero
    simp [JsNumber.stringify, intText, signText]
  rw [if_neg hzero]
  have hor : ∀ {p : Prop}, (n = 0 ∨ p) ↔ p := or_iff_right hzero
  rw [hor]
  cases hround : Binary64.ofNat? n.natAbs with
  | none =>
    refine ⟨fun h => ?_, fun h => ?_⟩
    · have hn : isNumeral 'n' = true := isNumeral_of_mem (n := n) (by
        rw [← h]
        exact mem_cons_self)
      cases hn
    · obtain ⟨-, x, hx, -⟩ := h
      cases hx
  | some x =>
    show signText _ ++ _ = signText _ ++ _ ↔ _
    rw [append_cancel_left_eq, jsText_eq_nat Binary64.digits_pos Binary64.not_dvd_digits]
    constructor
    · rintro ⟨hvalue, hlt⟩
      exact ⟨hlt, x, rfl, hvalue⟩
    · rintro ⟨hlt, y, hy, hvalue⟩
      cases hy
      exact ⟨hvalue, hlt⟩

theorem toLower_of_isNumeral (h : isNumeral c = true) : c.toLower = c := by
  have hnot : ¬ (c.val ≥ 'A'.val ∧ c.val ≤ 'Z'.val) := by
    rintro ⟨hlow, hhigh⟩
    simp only [isNumeral, Char.isDigit, Bool.or_eq_true, Bool.and_eq_true, decide_eq_true_eq] at h
    rcases h with (((⟨-, h⟩ | rfl) | rfl) | rfl) | rfl
    · exact absurd (UInt32.le_trans hlow h) (by decide)
    · exact absurd hlow (by decide)
    · exact absurd hhigh (by decide)
    · exact absurd hlow (by decide)
    · exact absurd hlow (by decide)
  exact dif_neg hnot

theorem stripExponent_plain (h : ∀ c ∈ t, c.isDigit = true ∨ c = '.' ∨ c = '-') :
    stripExponent t = t := by
  have hnot : ¬ ('e' ∈ t ∨ 'E' ∈ t) := by
    rintro (he | he)
    · rcases h _ he with h | h | h <;> cases h
    · rcases h _ he with h | h | h <;> cases h
  rw [stripExponent, if_neg hnot]

/-- The exponent of a `repr` becomes that of JavaScript. -/
theorem stripExponent_exponent (h : ∀ c ∈ t, c.isDigit = true ∨ c = '.' ∨ c = '-') (d : Decimal)
    (hpos : d.pointPos ≠ 1) :
    stripExponent (t ++ 'e' :: d.exponentText twoDigits) = t ++ 'e' :: d.exponentText digitText := by
  have hnumeral : ∀ c ∈ t ++ 'e' :: d.exponentText twoDigits, isNumeral c = true := by
    intro c hc
    rcases mem_append.mp hc with hc | hc
    · rcases h c hc with h | rfl | rfl
      · simp [isNumeral, h]
      · rfl
      · rfl
    · exact d.chars_exponent isDigit_twoDigits c (mem_append_right _ hc)
  have hlower : (t ++ 'e' :: d.exponentText twoDigits).map Char.toLower =
      t ++ 'e' :: d.exponentText twoDigits := by
    refine (map_congr_left fun c hc => ?_).trans (map_id _)
    exact toLower_of_isNumeral (hnumeral c hc)
  have hne : ∀ c ∈ t, c ≠ 'e' := by
    rintro c hc rfl
    rcases h _ hc with h | h | h <;> cases h
  have hmantissa : (t ++ 'e' :: d.exponentText twoDigits).takeWhile (· ≠ 'e') = t := by
    rw [takeWhile_append_of_pos (by simpa using hne), takeWhile_cons_of_neg (by simp),
      append_nil]
  have hexponent : (t ++ 'e' :: d.exponentText twoDigits).dropWhile (· ≠ 'e') =
      'e' :: d.exponentText twoDigits := by
    rw [dropWhile_append_of_pos (by simpa using hne), dropWhile_cons_of_neg (by simp)]
  have hdigits := dropWhile_twoDigits (n := (d.pointPos - 1).natAbs) (by omega)
  have hsign : (if 0 < d.pointPos then '+' else '-') = '+' ∨
      (if 0 < d.pointPos then '+' else '-') = '-' := by
    split
    · exact .inl rfl
    · exact .inr rfl
  rw [stripExponent, if_pos (.inl (by simp)), hlower]
  dsimp only
  rw [hmantissa, hexponent, tail_cons, exponentText, shortExponent, if_pos hsign, stripZeros,
    hdigits, if_neg Nat.toDigits_ne_nil, exponentText]

theorem plain_signText (h : ∀ c ∈ t, c.isDigit = true ∨ c = '.') :
    ∀ c ∈ signText neg ++ t, c.isDigit = true ∨ c = '.' ∨ c = '-' := by
  intro c hc
  rcases mem_append.mp hc with hc | hc
  · unfold signText at hc
    split at hc
    · exact .inr (.inr (mem_singleton.mp hc))
    · cases hc
  · exact (h c hc).imp_right .inl

/-- A `repr` without a `.0` comes out as in JavaScript, unless only Python uses an exponent. -/
theorem stripExponent_pythonRepr {d : Decimal} (hfraction : d.exponent < 0 ∨ 21 < d.pointPos)
    (hsixteen : d.pointPos ≤ 16 ∨ 21 < d.pointPos) :
    signText neg ++ d.jsText = stripExponent (signText neg ++ d.pythonRepr) ↔
      d.pointPos ≠ -4 ∧ d.pointPos ≠ -5 := by
  have hexponent : d.pointPos ≠ 1 → stripExponent
      (signText neg ++ (d.mantissaText ++ 'e' :: d.exponentText twoDigits)) =
        signText neg ++ (d.mantissaText ++ 'e' :: d.exponentText digitText) := by
    intro hpos
    rw [← append_assoc, ← append_assoc]
    exact stripExponent_exponent (plain_signText neg fun c hc => d.mem_mantissaText hc) d hpos
  unfold Decimal.pythonRepr Decimal.jsText
  by_cases hfixed : -4 < d.pointPos ∧ d.pointPos ≤ 16
  · rw [if_pos hfixed, if_pos (by omega), if_neg (by omega), append_nil,
      stripExponent_plain (plain_signText neg fun c hc => d.mem_fixedText hc)]
    exact iff_of_true rfl (by omega)
  · rw [if_neg hfixed, hexponent (by omega)]
    by_cases hjs : -6 < d.pointPos ∧ d.pointPos ≤ 21
    · rw [if_pos hjs]
      refine iff_of_false (fun h => ?_) (by omega)
      -- only one of the texts has an exponent
      have he : 'e' ∈ signText neg ++ d.fixedText := by
        rw [h]
        simp
      rcases plain_signText neg (fun c hc => d.mem_fixedText hc) _ he with h | h | h <;> cases h
    · rw [if_neg hjs]
      exact iff_of_true rfl (by omega)

theorem value_ne_nat {x : Binary64} (h : isWhole x = false) (N : Nat) : x.value ≠ N := by
  intro hvalue
  rw [isWhole, hvalue] at h
  simp at h

theorem stringify_parsedFloat : (parsedFloat x).stringify = jsNumber x ↔ PortableFloat x := by
  cases x with
  | zero neg => exact iff_of_true rfl trivial
  | nonzero neg x =>
    show signText neg ++ x.shortest.jsText = _ ↔ _
    unfold jsNumber PortableFloat
    dsimp only
    by_cases hwhole : isWhole x ∧ x.value < 10 ^ 21
    · rw [if_pos hwhole, if_pos hwhole]
      have hvalue : x.value = ⌊x.value⌋₊ := by
        have hden : x.value.den = 1 := by simpa [isWhole] using hwhole.1
        have hnonneg : 0 ≤ x.value.num := Rat.num_nonneg.mpr Binary64.value_pos.le
        obtain ⟨N, hN⟩ := Int.eq_ofNat_of_zero_le hnonneg
        have hcast : x.value = N := by
          rw [← Rat.num_div_den x.value, hden, hN]
          simp
        rw [hcast, Nat.floor_natCast]
      set N := ⌊x.value⌋₊
      have hpos : 0 < N := by
        have := Binary64.value_pos (x := x)
        rw [hvalue] at this
        exact_mod_cast this
      have hlt : N < 10 ^ 21 := by
        have := hwhole.2
        rw [hvalue] at this
        exact_mod_cast this
      have htext : intText (if neg then -(N : Int) else N) = signText neg ++ digitText N := by
        cases neg
        · simp [intText, signText]
        · simp [intText, signText, hpos]
      rw [htext, append_cancel_left_eq,
        jsText_eq_nat Binary64.digits_pos Binary64.not_dvd_digits, hvalue]
      exact and_iff_left hlt
    · rw [if_neg hwhole, if_neg hwhole]
      refine stripExponent_pythonRepr neg ?_ ?_
      · by_cases hlarge : (10 : ℚ) ^ 21 ≤ x.value
        · exact .inr (Binary64.lt_pointPos hlarge)
        · refine .inl (Binary64.shortest_fraction (value_ne_nat ?_))
          rw [← Bool.not_eq_true]
          exact fun h => hwhole ⟨h, not_le.mp hlarge⟩
      · by_cases hlarge : (10 : ℚ) ^ 21 ≤ x.value
        · exact .inr (Binary64.lt_pointPos hlarge)
        · refine .inl (Binary64.pointPos_le (value_ne_nat ?_))
          rw [← Bool.not_eq_true]
          exact fun h => hwhole ⟨h, not_le.mp hlarge⟩

/-! ### The order of the keys -/

theorem units_append_inj {y y' : List Nat} (h : units c ++ y = units c' ++ y') :
    c = c' ∧ y = y' := by
  have hc : c.toNat < 0xD800 ∨ 0xDFFF < c.toNat ∧ c.toNat < 0x110000 := c.valid
  have hc' : c'.toNat < 0xD800 ∨ 0xDFFF < c'.toNat ∧ c'.toNat < 0x110000 := c'.valid
  unfold units at h
  split at h
  · split at h
    · obtain ⟨hhead, rfl⟩ := List.cons.inj h
      exact ⟨Char.toNat_inj.mp hhead, rfl⟩
    · -- a surrogate is no character
      have hhead := (List.cons.inj h).1
      omega
  · split at h
    · have hhead := (List.cons.inj h).1
      omega
    · obtain ⟨hhigh, htail⟩ := List.cons.inj h
      obtain ⟨hlow, rfl⟩ := List.cons.inj htail
      exact ⟨Char.toNat_inj.mp (by omega), rfl⟩

theorem units_ne_nil (c : Char) : units c ≠ [] := by
  unfold units
  split <;> simp

theorem utf16_inj (h : utf16 k = utf16 k') : k = k' := by
  have hlist : ∀ {cs cs' : List Char}, cs.flatMap units = cs'.flatMap units → cs = cs' := by
    intro cs
    induction cs with
    | nil =>
      intro cs' h
      cases cs' with
      | nil => rfl
      | cons c' cs' =>
        rw [flatMap_nil, flatMap_cons] at h
        exact absurd (append_eq_nil_iff.mp h.symm).1 (units_ne_nil c')
    | cons c cs ih =>
      intro cs' h
      cases cs' with
      | nil =>
        rw [flatMap_nil, flatMap_cons] at h
        exact absurd (append_eq_nil_iff.mp h).1 (units_ne_nil c)
      | cons c' cs' =>
        rw [flatMap_cons, flatMap_cons] at h
        obtain ⟨rfl, hrest⟩ := units_append_inj h
        rw [ih hrest]
  exact String.toList_inj.mp (hlist h)

section Sorting

variable {α β : Type}

variable {e : String × α} {kvs : List (String × α)} (f : α → β)

theorem sortedByCode_map (kvs : List (String × α)) :
    sortedByCode (kvs.map fun e => (e.1, f e.2)) = (sortedByCode kvs).map fun e => (e.1, f e.2) :=
  (map_insertionSort (fun e e' : String × α => e.1.toList ≤ e'.1.toList)
    (fun e e' : String × β => e.1.toList ≤ e'.1.toList) (fun e => (e.1, f e.2)) kvs
    fun _ _ _ _ => Iff.rfl).symm

theorem sortedByUnit_map (kvs : List (String × α)) :
    sortedByUnit (kvs.map fun e => (e.1, f e.2)) = (sortedByUnit kvs).map fun e => (e.1, f e.2) :=
  (map_insertionSort (fun e e' : String × α => utf16 e.1 ≤ utf16 e'.1)
    (fun e e' : String × β => utf16 e.1 ≤ utf16 e'.1) (fun e => (e.1, f e.2)) kvs
    fun _ _ _ _ => Iff.rfl).symm

theorem mem_sortedByCode : e ∈ sortedByCode kvs ↔ e ∈ kvs := mem_insertionSort _

theorem mem_sortedByUnit : e ∈ sortedByUnit kvs ↔ e ∈ kvs := mem_insertionSort _

instance totalByCode : Std.Total fun e e' : String × α => e.1.toList ≤ e'.1.toList :=
  ⟨fun e e' => le_total e.1.toList e'.1.toList⟩

instance transByCode : IsTrans (String × α) fun e e' => e.1.toList ≤ e'.1.toList :=
  ⟨fun _ _ _ h h' => le_trans h h'⟩

instance totalByUnit : Std.Total fun e e' : String × α => utf16 e.1 ≤ utf16 e'.1 :=
  ⟨fun e e' => le_total (utf16 e.1) (utf16 e'.1)⟩

instance transByUnit : IsTrans (String × α) fun e e' => utf16 e.1 ≤ utf16 e'.1 :=
  ⟨fun _ _ _ h h' => le_trans h h'⟩

theorem pairwise_or {r : α → α → Prop} {l : List α} (h : l.Pairwise r) {a b : α} (ha : a ∈ l)
    (hb : b ∈ l) : a = b ∨ r a b ∨ r b a := by
  induction h with
  | nil => cases ha
  | cons hhead _ ih =>
    rcases mem_cons.mp ha with rfl | ha'
    · rcases mem_cons.mp hb with rfl | hb'
      · exact .inl rfl
      · exact .inr (.inl (hhead b hb'))
    · rcases mem_cons.mp hb with rfl | hb'
      · exact .inr (.inr (hhead a ha'))
      · exact ih ha' hb'

theorem sorted_eq_iff (hnodup : (kvs.map Prod.fst).Nodup) :
    sortedByCode kvs = sortedByUnit kvs ↔ SameOrder (kvs.map Prod.fst) := by
  have hcode : (sortedByCode kvs).Pairwise fun e e' => e.1.toList ≤ e'.1.toList :=
    pairwise_insertionSort _ _
  have hunit : (sortedByUnit kvs).Pairwise fun e e' => utf16 e.1 ≤ utf16 e'.1 :=
    pairwise_insertionSort _ _
  constructor
  · intro heq k hk k' hk' hle
    obtain ⟨e, he, rfl⟩ := mem_map.mp hk
    obtain ⟨e', he', rfl⟩ := mem_map.mp hk'
    rw [← heq] at hunit
    rcases pairwise_or (hcode.and hunit) (mem_sortedByCode.mpr he) (mem_sortedByCode.mpr he') with
      rfl | h | h
    · exact le_refl _
    · exact h.2
    · rw [String.toList_inj.mp (le_antisymm hle h.1)]
  · intro hsame
    have hunit' : (sortedByCode kvs).Pairwise fun e e' => utf16 e.1 ≤ utf16 e'.1 := by
      refine hcode.imp_of_mem fun he he' hle => ?_
      exact hsame _ (mem_map.mpr ⟨_, mem_sortedByCode.mp he, rfl⟩) _
        (mem_map.mpr ⟨_, mem_sortedByCode.mp he', rfl⟩) hle
    have hperm : (sortedByCode kvs).Perm (sortedByUnit kvs) :=
      (perm_insertionSort _ _).trans (perm_insertionSort _ _).symm
    refine hperm.eq_of_pairwise (fun e e' he he' h h' => ?_) hunit' hunit
    exact inj_on_of_nodup_map hnodup (mem_sortedByCode.mp he) (mem_sortedByUnit.mp he')
      (utf16_inj (le_antisymm h h'))

end Sorting

/-! ### The texts -/

theorem dumpsEntries_eq : dumpsEntries kvs = kvs.map fun e => (e.1, canonicalDumps e.2) := by
  induction kvs with
  | nil => rfl
  | cons e kvs ih => rw [dumpsEntries, ih, map_cons]

theorem jsonEntries_eq :
    jsonEntries (receivedEntries kvs) = kvs.map fun e => (e.1, canonicalJson (received e.2)) := by
  induction kvs with
  | nil => rfl
  | cons e kvs ih => rw [receivedEntries, jsonEntries, ih, map_cons]

theorem portableEntries_iff {kvs : List (String × Json)} :
    PortableEntries kvs ↔ ∀ e ∈ kvs, Portable e.2 := by
  induction kvs with
  | nil => simp [PortableEntries]
  | cons e kvs ih => simp [PortableEntries, ih]

mutual

theorem canonicalJson_of_portable : ∀ {v : Json}, Distinct v → Portable v →
    canonicalJson (received v) = canonicalDumps v
  | .null, _, _ => rfl
  | .bool _, _, _ => rfl
  | .int n, _, h => (stringify_parsedInt n).mpr h
  | .float x, _, h => (stringify_parsedFloat x).mpr h
  | .str _, _, _ => rfl
  | .list xs, hdistinct, h => by
    rw [received, canonicalJson, canonicalDumps, jsonItems_of_portable hdistinct h]
  | .dict kvs, hdistinct, h => by
    have hentries := jsonEntries_of_portable hdistinct.2 h.2
    rw [received, canonicalJson, canonicalDumps, hentries, dumpsEntries_eq, sortedByUnit_map,
      sortedByCode_map, (sorted_eq_iff hdistinct.1).mpr h.1]

theorem jsonItems_of_portable : ∀ {xs : List Json}, DistinctItems xs → PortableItems xs →
    jsonItems (receivedItems xs) = dumpsItems xs
  | [], _, _ => rfl
  | x :: xs, hdistinct, h => by
    rw [receivedItems, jsonItems, dumpsItems, canonicalJson_of_portable hdistinct.1 h.1,
      jsonItems_of_portable hdistinct.2 h.2]

theorem jsonEntries_of_portable : ∀ {kvs : List (String × Json)}, DistinctEntries kvs →
    PortableEntries kvs → jsonEntries (receivedEntries kvs) = dumpsEntries kvs
  | [], _, _ => rfl
  | (k, v) :: kvs, hdistinct, h => by
    rw [receivedEntries, jsonEntries, dumpsEntries, canonicalJson_of_portable hdistinct.1 h.1,
      jsonEntries_of_portable hdistinct.2 h.2]

end

/-! ### Reading the values off the texts -/

/-- Two texts of a value tell that it is portable, whatever follows. -/
def Tells (v : Json) : Prop :=
  ∀ y y', Delimited y → Delimited y' → canonicalJson (received v) ++ y = canonicalDumps v ++ y' →
    Portable v ∧ y = y'

theorem not_delimiter_of_isNumeral (h : isNumeral c = true) : isDelimiter c = false := by
  cases hc : isDelimiter c with
  | false => rfl
  | true =>
    simp only [isDelimiter, Bool.or_eq_true, decide_eq_true_eq] at hc
    rcases hc with (rfl | rfl) | rfl <;> cases h

theorem mem_stringify {x : JsNumber} (hc : c ∈ x.stringify) : isNumeral c = true ∨ c ∈ nullText := by
  cases x with
  | zero neg =>
    obtain rfl := mem_singleton.mp hc
    exact .inl rfl
  | nonzero neg x =>
    refine .inl ?_
    rcases mem_append.mp hc with hc | hc
    · unfold signText at hc
      split at hc
      · obtain rfl := mem_singleton.mp hc
        rfl
      · cases hc
    · exact x.shortest.chars_jsText c hc
  | infinite neg => exact .inr hc

theorem not_delimiter_stringify (x : JsNumber) : ∀ c ∈ x.stringify, isDelimiter c = false := by
  intro c hc
  rcases mem_stringify hc with hc | hc
  · exact not_delimiter_of_isNumeral hc
  · simp only [nullText, mem_cons, not_mem_nil, or_false] at hc
    rcases hc with rfl | rfl | rfl | rfl <;> rfl

theorem mem_stripExponent (ht : ∀ c ∈ t, isNumeral c = true) (h : c ∈ stripExponent t) :
    isNumeral c = true := by
  unfold stripExponent at h
  split at h
  · have hlower : t.map Char.toLower = t :=
      (map_congr_left fun c hc => toLower_of_isNumeral (ht c hc)).trans (map_id _)
    rw [hlower] at h
    dsimp only at h
    have hzeros : ∀ {ds : List Char}, (∀ c ∈ ds, isNumeral c = true) → ∀ c ∈ stripZeros ds,
        isNumeral c = true := by
      intro ds hds c hc
      unfold stripZeros at hc
      split at hc
      · obtain rfl := mem_singleton.mp hc
        rfl
      · exact hds c ((dropWhile_sublist _).subset hc)
    have hexponent : ∀ {ds : List Char}, (∀ c ∈ ds, isNumeral c = true) → ∀ c ∈ shortExponent ds,
        isNumeral c = true := by
      intro ds hds c hc
      cases ds with
      | nil => exact hzeros hds c hc
      | cons c₁ ds =>
        rw [shortExponent] at hc
        split at hc
        · rcases mem_cons.mp hc with rfl | hc
          · exact hds _ mem_cons_self
          · exact hzeros (fun c hc => hds c (mem_cons_of_mem _ hc)) c hc
        · exact hzeros hds c hc
    rcases mem_append.mp h with h | h
    · exact ht c ((takeWhile_sublist _).subset h)
    rcases mem_cons.mp h with rfl | h
    · rfl
    · refine hexponent (fun c hc => ?_) c h
      exact ht c ((dropWhile_sublist _).subset (mem_of_mem_tail hc))
  · exact ht c h

theorem isNumeral_jsNumber : ∀ c ∈ jsNumber x, isNumeral c = true := by
  intro c hc
  cases x with
  | zero neg =>
    obtain rfl := mem_singleton.mp hc
    rfl
  | nonzero neg x =>
    unfold jsNumber at hc
    dsimp only at hc
    split at hc
    · exact isNumeral_of_mem hc
    · refine mem_stripExponent (fun c hc => ?_) hc
      rcases mem_append.mp hc with hc | hc
      · unfold signText at hc
        split at hc
        · obtain rfl := mem_singleton.mp hc
          rfl
        · cases hc
      · exact x.shortest.chars_pythonRepr c hc

theorem not_delimiter_jsNumber : ∀ c ∈ jsNumber x, isDelimiter c = false :=
  fun c hc => not_delimiter_of_isNumeral (isNumeral_jsNumber x c hc)

theorem joinTexts_cons (t : List Char) (ts : List (List Char)) (z : List Char) :
    joinTexts (t :: ts) ++ z = t ++ if ts = [] then z else ',' :: (joinTexts ts ++ z) := by
  cases ts with
  | nil => rfl
  | cons t' ts =>
    rw [joinTexts, if_neg (by simp), append_assoc]
    rfl

theorem delimited_rest (ts : List (List Char)) (hc : isDelimiter c = true) (z : List Char) :
    Delimited (if ts = [] then c :: z else ',' :: (joinTexts ts ++ c :: z)) := by
  split
  · exact delimited_cons.mpr hc
  · exact delimited_cons.mpr rfl

theorem members_inj {kvs : List (String × Json)} (hnodup : (kvs.map Prod.fst).Nodup)
    (htells : ∀ e ∈ kvs, Tells e.2) (es es' : List (String × Json)) (hes : ∀ e ∈ es, e ∈ kvs)
    (hes' : ∀ e ∈ es', e ∈ kvs)
    (h : joinTexts (es.map fun e => member (e.1, canonicalJson (received e.2))) ++ '}' :: y =
      joinTexts (es'.map fun e => member (e.1, canonicalDumps e.2)) ++ '}' :: y') :
    es = es' ∧ (∀ e ∈ es, Portable e.2) ∧ y = y' := by
  induction es generalizing es' with
  | nil =>
    cases es' with
    | nil => exact ⟨rfl, by simp, (List.cons.inj h).2⟩
    | cons e' es' =>
      rw [List.map_cons, joinTexts_cons] at h
      cases (List.cons.inj h).1
  | cons e es ih =>
    cases es' with
    | nil =>
      rw [List.map_cons, joinTexts_cons] at h
      cases (List.cons.inj h).1
    | cons e' es' =>
      rw [List.map_cons, List.map_cons, joinTexts_cons, joinTexts_cons, member, member,
        List.append_assoc, List.append_assoc] at h
      obtain ⟨hkey, hvalue⟩ := quote_append_inj h
      obtain rfl : e = e' := List.inj_on_of_nodup_map hnodup (hes e List.mem_cons_self)
        (hes' e' List.mem_cons_self) hkey
      obtain ⟨hportable, hrest⟩ := htells e (hes e List.mem_cons_self) _ _
        (delimited_rest _ rfl y) (delimited_rest _ rfl y') (List.cons.inj hvalue).2
      have hes₁ : ∀ e ∈ es, e ∈ kvs := fun e he => hes e (List.mem_cons_of_mem _ he)
      have hes₁' : ∀ e ∈ es', e ∈ kvs := fun e he => hes' e (List.mem_cons_of_mem _ he)
      cases es with
      | nil =>
        cases es' with
        | nil =>
          refine ⟨rfl, ?_, (List.cons.inj hrest).2⟩
          intro e₁ he₁
          rw [List.mem_singleton.mp he₁]
          exact hportable
        | cons e₁' es' => cases (List.cons.inj hrest).1
      | cons e₁ es =>
        cases es' with
        | nil => cases (List.cons.inj hrest).1
        | cons e₁' es' =>
          obtain ⟨hsame, hall, hy⟩ := ih _ hes₁ hes₁' (List.cons.inj hrest).2
          refine ⟨by rw [hsame], ?_, hy⟩
          intro e₂ he₂
          rcases List.mem_cons.mp he₂ with rfl | he₂
          · exact hportable
          · exact hall e₂ he₂

mutual

theorem tells : ∀ {v : Json}, Distinct v → Tells v
  | .null, _ => fun _ _ _ _ h => ⟨trivial, append_cancel_left h⟩
  | .bool _, _ => fun _ _ _ _ h => ⟨trivial, append_cancel_left h⟩
  | .int n, _ => by
    intro y y' hy hy' h
    obtain ⟨htext, hrest⟩ := token_append_inj (not_delimiter_stringify _)
      (fun c hc => not_delimiter_of_isNumeral (isNumeral_of_mem hc)) hy hy' h
    exact ⟨(stringify_parsedInt n).mp htext, hrest⟩
  | .float x, _ => by
    intro y y' hy hy' h
    obtain ⟨htext, hrest⟩ := token_append_inj (not_delimiter_stringify _)
      (not_delimiter_jsNumber x) hy hy' h
    exact ⟨(stringify_parsedFloat x).mp htext, hrest⟩
  | .str _, _ => fun _ _ _ _ h => ⟨trivial, (quote_append_inj h).2⟩
  | .list xs, hdistinct => by
    intro y y' _ _ h
    rw [received, canonicalJson, canonicalDumps, arrayText, arrayText, cons_append,
      cons_append, append_assoc, append_assoc] at h
    exact tellsItems hdistinct (List.cons.inj h).2
  | .dict kvs, hdistinct => by
    intro y y' _ _ h
    rw [received, canonicalJson, canonicalDumps, jsonEntries_eq, dumpsEntries_eq,
      sortedByUnit_map fun v => canonicalJson (received v), sortedByCode_map, objectText,
      objectText, cons_append, cons_append, append_assoc, append_assoc,
      map_map, map_map] at h
    obtain ⟨hsame, hall, hrest⟩ := members_inj hdistinct.1 (tellsEntries hdistinct.2)
      (sortedByUnit kvs) (sortedByCode kvs) (fun _ => mem_sortedByUnit.mp)
      (fun _ => mem_sortedByCode.mp) (List.cons.inj h).2
    refine ⟨⟨(sorted_eq_iff hdistinct.1).mp hsame.symm, ?_⟩, hrest⟩
    exact portableEntries_iff.mpr fun e he => hall e (mem_sortedByUnit.mpr he)

theorem tellsItems : ∀ {xs : List Json}, DistinctItems xs → ∀ {y y' : List Char},
    joinTexts (jsonItems (receivedItems xs)) ++ (']' :: y) =
      joinTexts (dumpsItems xs) ++ (']' :: y') → PortableItems xs ∧ y = y'
  | [], _, _, _, h => ⟨trivial, (List.cons.inj h).2⟩
  | [x], hdistinct, y, y', h => by
    obtain ⟨hportable, hrest⟩ := tells hdistinct.1 (']' :: y) (']' :: y') (delimited_cons.mpr rfl)
      (delimited_cons.mpr rfl) h
    exact ⟨⟨hportable, trivial⟩, (List.cons.inj hrest).2⟩
  | x :: x' :: xs, hdistinct, y, y', h => by
    rw [receivedItems, jsonItems, dumpsItems, joinTexts_cons, joinTexts_cons] at h
    obtain ⟨hportable, hrest⟩ := tells hdistinct.1 _ _ (delimited_rest _ rfl y)
      (delimited_rest _ rfl y') h
    obtain ⟨hall, hy⟩ := tellsItems hdistinct.2 (List.cons.inj hrest).2
    exact ⟨⟨hportable, hall⟩, hy⟩

theorem tellsEntries : ∀ {kvs : List (String × Json)}, DistinctEntries kvs → ∀ e ∈ kvs, Tells e.2
  | [], _, _, he => by cases he
  | (k, v) :: kvs, hdistinct, e, he => by
    rcases mem_cons.mp he with rfl | he
    · exact tells hdistinct.1
    · exact tellsEntries hdistinct.2 e he

end

/-- **The two texts of a value are the same if and only if it is portable.** -/
theorem canonical_iff (p : Payload) :
    canonicalJson (received p.value) = canonicalDumps p.value ↔ Portable p.value := by
  constructor
  · intro h
    exact (tells p.distinct [] [] delimited_nil delimited_nil (congrArg (· ++ []) h)).1
  · exact canonicalJson_of_portable p.distinct

end Rosclaw.Pi
