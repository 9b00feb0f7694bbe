/-
Timezone-aware timestamps and their ISO-8601 text.

A timestamp is a local civil time and an offset from UTC, in microseconds.
`fromisoformat` reads the ISO-8601 texts that Python 3.11 reads: a date by month or by
week, a time to the hour, minute, second or below, with or without the separators, and a
zone.

* `daysOfCivil_civilOfDays` — a day number survives the trip through the
  calendar;
* `fromisoformat_localText` — printing and reading back is the identity.
-/
import Rosclaw.Lib.PyVal

namespace DateTime

/-! ### The calendar -/

/-- Year, month and day of the day number `n`, day 0 being 0000-03-01.  Years
start in March here, so that the leap day is the last day of its year. -/
def civilOfDays (n : Nat) : Nat × Nat × Nat :=
  let era := n / 146097
  let doe := n % 146097
  let c := min (doe / 36524) 3
  let doc := doe - 36524 * c
  let q := doc / 1461
  let doq := doc % 1461
  let a := min (doq / 365) 3
  let doy := doq - 365 * a
  let mp := (5 * doy + 2) / 153
  let d := doy - (153 * mp + 2) / 5 + 1
  let y := 400 * era + 100 * c + 4 * q + a
  if mp < 10 then (y, mp + 3, d) else (y + 1, mp - 9, d)

/-- The day number of the `d`-th day (from 0) of the `mp`-th month (March is 0)
of the year `y` that starts in March. -/
def daysOfMarch (y mp d : Nat) : Nat :=
  146097 * (y / 400)
    + (365 * (y % 400) + y % 400 / 4 - y % 400 / 100 + ((153 * mp + 2) / 5 + d))

def daysOfCivil (y m d : Nat) : Nat :=
  if m ≤ 2 then daysOfMarch (y - 1) (m + 9) (d - 1) else daysOfMarch y (m - 3) (d - 1)

variable {a c doy era q : Nat} (n : Nat)

/-- The cycles add up: `c` centuries, `q` four-year groups, `a` years and then
the day of the year. -/
theorem daysOfMarch_cycles (mp d : Nat) (hc : c ≤ 3) (hq : q ≤ 24) (ha : a ≤ 3) :
    daysOfMarch (400 * era + 100 * c + 4 * q + a) mp d
      = 146097 * era + (36524 * c + 1461 * q + 365 * a + ((153 * mp + 2) / 5 + d)) := by
  have hera : (400 * era + 100 * c + 4 * q + a) / 400 = era := by omega
  have hyoe : (400 * era + 100 * c + 4 * q + a) % 400 = 100 * c + 4 * q + a := by omega
  rw [daysOfMarch, hera, hyoe]
  omega

theorem monthDay_bounds (h : doy ≤ 365) :
    (5 * doy + 2) / 153 ≤ 11 ∧ (153 * ((5 * doy + 2) / 153) + 2) / 5 ≤ doy := by
  omega

theorem daysOfCivil_civilOfDays :
    daysOfCivil (civilOfDays n).1 (civilOfDays n).2.1 (civilOfDays n).2.2 = n := by
  obtain ⟨era, hera⟩ : ∃ era, era = n / 146097 := ⟨_, rfl⟩
  obtain ⟨doe, hdoe⟩ : ∃ doe, doe = n % 146097 := ⟨_, rfl⟩
  obtain ⟨c, hcdef⟩ : ∃ c, c = min (doe / 36524) 3 := ⟨_, rfl⟩
  obtain ⟨doc, hdoc⟩ : ∃ doc, doc = doe - 36524 * c := ⟨_, rfl⟩
  obtain ⟨q, hqdef⟩ : ∃ q, q = doc / 1461 := ⟨_, rfl⟩
  obtain ⟨doq, hdoq⟩ : ∃ doq, doq = doc % 1461 := ⟨_, rfl⟩
  obtain ⟨a, hadef⟩ : ∃ a, a = min (doq / 365) 3 := ⟨_, rfl⟩
  obtain ⟨doy, hdoy⟩ : ∃ doy, doy = doq - 365 * a := ⟨_, rfl⟩
  obtain ⟨mp, hmpdef⟩ : ∃ mp, mp = (5 * doy + 2) / 153 := ⟨_, rfl⟩
  have hcivil : civilOfDays n = if mp < 10 then
        (400 * era + 100 * c + 4 * q + a, mp + 3, doy - (153 * mp + 2) / 5 + 1)
      else
        (400 * era + 100 * c + 4 * q + a + 1, mp - 9, doy - (153 * mp + 2) / 5 + 1) := by
    simp only [civilOfDays, ← hera, ← hdoe, ← hcdef, ← hdoc, ← hqdef, ← hdoq, ← hadef,
      ← hdoy, ← hmpdef]
  have hc : c ≤ 3 := by omega
  have hq : q ≤ 24 := by omega
  have ha : a ≤ 3 := by omega
  have hdoy365 : doy ≤ 365 := by omega
  have hsum : 36524 * c + 1461 * q + 365 * a + doy = doe := by omega
  have hn : 146097 * era + doe = n := by omega
  obtain ⟨hmp, hmd⟩ := monthDay_bounds hdoy365
  rw [← hmpdef] at hmp hmd
  have hday : (153 * mp + 2) / 5 + (doy - (153 * mp + 2) / 5 + 1 - 1) = doy := by omega
  rw [hcivil]
  by_cases hlt : mp < 10
  · have hm : ¬ mp + 3 ≤ 2 := by omega
    have hmp' : mp + 3 - 3 = mp := by omega
    rw [if_pos hlt]
    show daysOfCivil _ (mp + 3) _ = n
    rw [daysOfCivil, if_neg hm, hmp', daysOfMarch_cycles _ _ hc hq ha, hday]
    omega
  · have hm : mp - 9 ≤ 2 := by omega
    have hmp' : mp - 9 + 9 = mp := by omega
    have hy : 400 * era + 100 * c + 4 * q + a + 1 - 1 = 400 * era + 100 * c + 4 * q + a := by
      omega
    rw [if_neg hlt]
    show daysOfCivil (400 * era + 100 * c + 4 * q + a + 1) (mp - 9) _ = n
    rw [daysOfCivil, if_pos hm, hmp', hy, daysOfMarch_cycles _ _ hc hq ha, hday]
    omega

theorem month_bounds : 1 ≤ (civilOfDays n).2.1 ∧ (civilOfDays n).2.1 ≤ 12 := by
  simp only [civilOfDays]
  split <;> simp only <;> omega

theorem day_bounds : 1 ≤ (civilOfDays n).2.2 ∧ (civilOfDays n).2.2 ≤ 31 := by
  simp only [civilOfDays]
  split <;> simp only <;> omega

/-- The years have four digits up to day 3652365. -/
theorem year_lt {n : Nat} (h : n < 3652365) : (civilOfDays n).1 < 10000 := by
  have hn := daysOfCivil_civilOfDays n
  have hmonth := month_bounds n
  by_contra hyear
  generalize (civilOfDays n).1 = y at hn hyear
  generalize (civilOfDays n).2.1 = m at hn hmonth
  -- the 1st of January 10000 is no day before 3652365
  unfold daysOfCivil daysOfMarch at hn
  split at hn <;> omega

/-! ### Digits -/

/-- The last `k` decimal digits of `n`. -/
def pad : Nat → Nat → List Nat
  | 0, _ => []
  | k + 1, n => pad k (n / 10) ++ [48 + n % 10]

/-- Read `k` decimal digits after the number `acc`. -/
def readNum : Nat → Nat → List Nat → Option (Nat × List Nat)
  | 0, acc, s => some (acc, s)
  | k + 1, acc, c :: s =>
    if 48 ≤ c ∧ c ≤ 57 then readNum k (acc * 10 + (c - 48)) s else none
  | _ + 1, _, [] => none

theorem readNum_succ (k acc : Nat) (s : List Nat) :
    readNum (k + 1) acc s = (readNum k acc s).bind fun r => readNum 1 r.1 r.2 := by
  induction k generalizing acc s with
  | zero => rfl
  | succ k ih =>
    cases s with
    | nil => rfl
    | cons c s =>
      by_cases hc : 48 ≤ c ∧ c ≤ 57
      · rw [readNum, if_pos hc, ih, readNum, if_pos hc]
      · rw [readNum, if_neg hc, readNum, if_neg hc, Option.bind_none]

theorem readNum_pad (k acc n : Nat) (s : List Nat) (h : n < 10 ^ k) :
    readNum k acc (pad k n ++ s) = some (acc * 10 ^ k + n, s) := by
  induction k generalizing n s with
  | zero =>
    have h0 : n = 0 := by simpa using h
    simp [readNum, pad, h0]
  | succ k ih =>
    have hdiv : n / 10 < 10 ^ k := by
      rw [Nat.pow_succ] at h
      omega
    have hdigit : 48 ≤ 48 + n % 10 ∧ 48 + n % 10 ≤ 57 := by omega
    have hnum : (acc * 10 ^ k + n / 10) * 10 + (48 + n % 10 - 48) = acc * 10 ^ (k + 1) + n := by
      rw [Nat.pow_succ, ← Nat.mul_assoc]
      omega
    rw [readNum_succ, pad, List.append_assoc, ih _ _ hdiv, Option.bind_some]
    simp only [List.cons_append, List.nil_append, readNum, if_pos hdigit, hnum]

/-- Read the one character `c`. -/
def expect (c : Nat) : List Nat → Option (List Nat)
  | [] => none
  | x :: s => if x = c then some s else none

@[simp] theorem expect_cons (c : Nat) (s : List Nat) : expect c (c :: s) = some s := by
  simp [expect]

end DateTime

/-- A timestamp: local microseconds since 0000-03-01T00:00 and the offset from
UTC in microseconds.  The year is between 1 and 9999.  An offset below a second is read back
as UTC; no timestamp that was read has one. -/
structure DateTime where
  micros : Nat
  offset : Int
  micros_bounds : 26438400000000 ≤ micros ∧ micros < 315564336000000000
  offset_bounds : offset.natAbs < 86400000000 ∧ (offset = 0 ∨ 1000000 ≤ offset.natAbs)
deriving DecidableEq, Repr

namespace DateTime

instance : Inhabited DateTime := ⟨26438400000000, 0, by decide, by decide⟩

def second : DateTime := ⟨26438400000001, 0, by decide, by decide⟩

/-- The moment on the UTC time line, which is what comparison compares. -/
def instant (t : DateTime) : Int := t.micros - t.offset

/-- The timestamp with these microseconds and offset, when it exists. -/
def ofParts (micros : Nat) (offset : Int) : Option DateTime :=
  if h : 26438400000000 ≤ micros ∧ micros < 315564336000000000 then
    if h' : offset.natAbs < 86400000000 ∧ (offset = 0 ∨ 1000000 ≤ offset.natAbs) then
      some ⟨micros, offset, h, h'⟩
    else none
  else none

variable {micros n us : Nat} {offset : Int} {tail : Bool} (zone : Option Int) (t : DateTime)

@[simp] theorem ofParts_self : ofParts t.micros t.offset = some t := by
  rw [ofParts, dif_pos t.micros_bounds, dif_pos t.offset_bounds]

theorem ofParts_eq_some {t : DateTime} (h : ofParts micros offset = some t) :
    t.micros = micros ∧ t.offset = offset := by
  unfold ofParts at h
  split at h
  · split at h
    · cases h
      exact ⟨rfl, rfl⟩
    · simp at h
  · simp at h

/-- `t + timedelta(milliseconds=n)`; past year 9999 it raises. -/
def addMillis (t : DateTime) (n : Nat) : Option DateTime :=
  ofParts (t.micros + n * 1000) t.offset

theorem instant_addMillis {t t' : DateTime} (h : t.addMillis n = some t') :
    t'.instant = t.instant + n * 1000 := by
  obtain ⟨hm, ho⟩ := ofParts_eq_some h
  simp only [instant]
  omega

/-! ### The text -/

/-- `.ffffff`, or nothing for a whole second. -/
def fractionText (us : Nat) : List Nat := if us = 0 then [] else 46 :: pad 6 us

/-- `HH:MM[:SS[.ffffff]]` of a number of microseconds. -/
def offsetClock (us : Nat) : List Nat :=
  pad 2 (us / 3600000000) ++ 58 :: (pad 2 (us / 60000000 % 60) ++
    if us % 60000000 = 0 then []
    else 58 :: (pad 2 (us / 1000000 % 60) ++ fractionText (us % 1000000)))

/-- The zone in `t.isoformat()`. -/
def offsetText (offset : Int) : List Nat :=
  (if 0 ≤ offset then 43 else 45) :: offsetClock offset.natAbs

def localText (t : DateTime) (zone : List Nat) : List Nat :=
  let days := t.micros / 86400000000
  let us := t.micros % 86400000000
  let (y, m, d) := civilOfDays days
  pad 4 y ++ 45 :: (pad 2 m ++ 45 :: (pad 2 d ++ 84 :: (pad 2 (us / 3600000000) ++ 58 ::
    (pad 2 (us / 60000000 % 60) ++ 58 :: (pad 2 (us / 1000000 % 60) ++
      (fractionText (us % 1000000) ++ zone))))))

/-- `s.replace("+00:00", "Z")`. -/
def utcToZ : List Nat → List Nat
  | 43 :: 48 :: 48 :: 58 :: 48 :: 48 :: cs => 90 :: utcToZ cs
  | c :: cs => c :: utcToZ cs
  | [] => []

/-- `s.replace("Z", "+00:00")`. -/
def zToUtc (cs : List Nat) : List Nat :=
  cs.flatMap fun c => if c = 90 then [43, 48, 48, 58, 48, 48] else [c]

/-- `t.isoformat().replace("+00:00", "Z")`. -/
def isoformat (t : DateTime) : PyStr := ⟨utcToZ (t.localText (offsetText t.offset))⟩

/-- `t.isoformat()`. -/
def utcText (t : DateTime) : PyStr := ⟨t.localText (offsetText t.offset)⟩

/-! ### Reading it -/

def isDigit (c : Nat) : Bool := 48 ≤ c && c ≤ 57

/-- Where the date ends: at the 7th, 8th or 10th character. -/
def separator (s : List Nat) : Option Nat :=
  if s.length < 7 then none
  else if s.length = 7 then some 7
  else if s[4]? = some 45 then
    if s[5]? ≠ some 87 then some 10
    else if s[8]? ≠ some 45 then some 8
    else if s.length = 9 then none
    -- `YYYY-Www-##`: a time after a hyphen rather than a day and a digit
    else if s[10]?.any isDigit then some 8 else some 10
  else if s[4]? = some 87 then
    let digits := ((s.drop 7).takeWhile isDigit).length
    if digits < 2 then some (7 + digits) else if digits % 2 = 1 then some 7 else some 8
  else some 8

/-- The Monday of the first ISO week of a year. -/
def week1Monday (y : Nat) : Nat :=
  let first := daysOfCivil y 1 1
  let weekday := (first + 2) % 7
  if 3 < weekday then first - weekday + 7 else first - weekday

/-- `date.fromisocalendar`. -/
def dayOfWeek (y week day : Nat) : Option Nat :=
  if 1 ≤ y ∧ 1 ≤ week ∧ week1Monday y + (week - 1) * 7 < week1Monday (y + 1) ∧ 1 ≤ day ∧ day ≤ 7
  then some (week1Monday y + (week - 1) * 7 + (day - 1))
  else none

/-- The day number of `YYYY-MM-DD`, `YYYYMMDD`, `YYYY-Www[-D]` or `YYYYWww[D]`. -/
def readDate (s : List Nat) : Option Nat := do
  let (y, s) ← readNum 4 0 s
  let sep := s.head? = some 45
  let s := if sep then s.tail else s
  if s.head? = some 87 then
    let (week, s) ← readNum 2 0 s.tail
    if s = [] then dayOfWeek y week 1
    else
      let s ← if sep then expect 45 s else some s
      let (day, _) ← readNum 1 0 s
      dayOfWeek y week day
  else
    let (m, s) ← readNum 2 0 s
    let s ← if sep then expect 45 s else some s
    let (d, s) ← readNum 2 0 s
    let days := daysOfCivil y m d
    -- a date that the calendar does not have names no day
    if s = [] ∧ civilOfDays days = (y, m, d) then some days else none

/-- The digits after the point; those from the 7th on say nothing.  What follows them is
looked at only where the text ends, and a NUL ends it. -/
def readFraction (tail : Bool) (s : List Nat) : Option Nat :=
  let k := min 6 s.length
  (readNum k 0 s).bind fun r =>
    if tail ∨ (r.2.dropWhile isDigit).headD 0 = 0 then some (r.1 * 10 ^ (6 - k)) else none

/-- `k` fields of two digits at most and a fraction.  `sep` says whether a colon stands
between them, once the first is read; `tail`, whether a zone follows. -/
def readFields (tail : Bool) : Option Bool → Nat → List Nat → Option (List Nat × Nat)
  | _, 0, s => (readFraction tail s).map ([], ·)
  | sep, k + 1, s =>
    (readNum 2 0 s).bind fun r =>
      match r.2 with
      | [] => some ([r.1], 0)
      | [c] => if tail ∨ c = 0 then some ([r.1], 0) else none
      | c :: s =>
        let colon := sep.getD (c = 58)
        let more s := (readFields tail colon k s).map fun q => (r.1 :: q.1, q.2)
        if colon ∧ c = 58 then more s
        else if c = 46 ∨ c = 44 then (readFraction tail s).map ([r.1], ·)
        else if colon then none else more (c :: s)

/-- The microseconds of the fields of a clock. -/
def clockMicros (r : List Nat × Nat) : Nat :=
  r.1.getD 0 0 * 3600000000 + r.1.getD 1 0 * 60000000 + r.1.getD 2 0 * 1000000 + r.2

/-- A fraction of a second alone is no offset. -/
def zoneOffset (sign : Nat) (r : List Nat × Nat) : Option Int :=
  let us : Int := if clockMicros (r.1, 0) = 0 then 0 else clockMicros r
  if us < 86400000000 then some (if sign = 45 then -us else us) else none

def notSign (c : Nat) : Bool := c ≠ 43 && c ≠ 45 && c ≠ 90

def readZone : List Nat → Option (Option Int)
  | [] => some none
  | sign :: s =>
    if sign = 90 then if s.headD 0 = 0 then some (some 0) else none
    else ((readFields false none 3 s).bind (zoneOffset sign)).map some

/-- The time of the day and the offset. -/
def readTime (s : List Nat) : Option (Nat × Option Int) := do
  let clock ← readFields (s.any fun c => !notSign c) none 3 (s.takeWhile notSign)
  let zone ← readZone (s.dropWhile notSign)
  if clock.1.getD 0 0 < 24 ∧ clock.1.getD 1 0 < 60 ∧ clock.1.getD 2 0 < 60 then
    some (clockMicros clock, zone)
  else none

/-- `datetime.fromisoformat`: local microseconds and the offset. -/
def fromisoformat (s : PyStr) : Option (Nat × Option Int) := do
  let n ← separator s.codes
  let days ← readDate (s.codes.take n)
  let (us, zone) ← match s.codes.drop n with
    | [] => some (0, none)
    -- no other character may be a surrogate
    | _ :: s => if s.any fun c => 0xD800 ≤ c && c < 0xE000 then none else readTime s
  some (days * 86400000000 + us, zone)

/-- Reading a text as an aware timestamp; `zone` stands in for a missing zone. -/
def parse (zone : Option Int) (s : PyStr) : Option DateTime :=
  (fromisoformat s).bind fun p => (p.2.or zone).bind fun offset => ofParts p.1 offset

/-- `datetime.fromisoformat(s.replace("Z", "+00:00"))`. -/
def parseUtc (zone : Option Int) (s : PyStr) : Option DateTime := parse zone ⟨zToUtc s.codes⟩

/-- The text denotes an earlier time; one without a zone is read as UTC, and one that denotes
no time is never past. -/
def past (now : DateTime) (text : PyStr) : Bool :=
  (parse (some 0) text).any fun t => t.instant < now.instant

theorem length_pad (k n : Nat) : (pad k n).length = k := by
  induction k generalizing n with
  | zero => rfl
  | succ k ih => rw [pad, List.length_append, ih, List.length_singleton]

theorem pad_digits (k n : Nat) : ∀ c ∈ pad k n, 48 ≤ c ∧ c ≤ 57 := by
  induction k generalizing n with
  | zero => simp [pad]
  | succ k ih =>
    intro c hc
    rw [pad, List.mem_append, List.mem_singleton] at hc
    rcases hc with hc | rfl
    · exact ih _ c hc
    · omega

/-- Digits, colons and points. -/
def Clock (s : List Nat) : Prop := ∀ c ∈ s, (48 ≤ c ∧ c ≤ 57) ∨ c = 58 ∨ c = 46

theorem Clock.append {s s' : List Nat} (h : Clock s) (h' : Clock s') : Clock (s ++ s') :=
  fun c hc => (List.mem_append.mp hc).elim (h c) (h' c)

theorem Clock.colon {s : List Nat} (h : Clock s) : Clock (58 :: s) :=
  fun c hc => (List.mem_cons.mp hc).elim (fun h58 => .inr (.inl h58)) (h c)

theorem clock_pad (k n : Nat) : Clock (pad k n) := fun c hc => .inl (pad_digits k n c hc)

theorem clock_fractionText (us : Nat) : Clock (fractionText us) := by
  unfold fractionText
  split
  · exact fun c hc => absurd hc List.not_mem_nil
  · exact fun c hc => (List.mem_cons.mp hc).elim (fun h46 => .inr (.inr h46)) (clock_pad 6 us c)

theorem clock_offsetClock (us : Nat) : Clock (offsetClock us) := by
  refine (clock_pad _ _).append (.colon ((clock_pad _ _).append ?_))
  split
  · exact fun c hc => absurd hc List.not_mem_nil
  · exact .colon ((clock_pad _ _).append (clock_fractionText _))

theorem Clock.notSign {s : List Nat} (h : Clock s) : ∀ c ∈ s, notSign c = true := by
  intro c hc
  have := h c hc
  simp only [DateTime.notSign, Bool.and_eq_true, decide_eq_true_eq]
  omega

theorem readFraction_pad (h : us < 1000000) : readFraction tail (pad 6 us) = some us := by
  have hread := readNum_pad 6 0 us [] h
  rw [List.append_nil, Nat.zero_mul, Nat.zero_add] at hread
  simp [readFraction, length_pad, hread]

section Fields

variable {sep : Option Bool} {k n c : Nat} {s : List Nat}

theorem readFields_last (h : n < 100) : readFields tail sep (k + 1) (pad 2 n) = some ([n], 0) := by
  have hread := readNum_pad 2 0 n [] h
  rw [List.append_nil, Nat.zero_mul, Nat.zero_add] at hread
  rw [readFields, hread, Option.bind_some]

theorem readFields_colon (h : n < 100) (hsep : sep.getD true = true) :
    readFields tail sep (k + 1) (pad 2 n ++ 58 :: c :: s) =
      (readFields tail (some true) k (c :: s)).map fun q => (n :: q.1, q.2) := by
  rw [readFields, readNum_pad 2 0 n _ h, Option.bind_some, Nat.zero_mul, Nat.zero_add]
  cases sep with
  | none => rfl
  | some colon =>
    obtain rfl : colon = true := hsep
    rfl

theorem readFields_fraction (h : n < 100) (hus : us < 1000000) :
    readFields tail (some true) (k + 1) (pad 2 n ++ fractionText us) = some ([n], us) := by
  unfold fractionText
  split
  · case isTrue h0 =>
    rw [List.append_nil, readFields_last h, h0]
  · have hpad : pad 6 us = (48 + us / 10 / 10 / 10 / 10 / 10 % 10) :: (pad 6 us).tail := rfl
    have hfraction : readFraction tail (pad 6 us) = some us := readFraction_pad hus
    rw [readFields, readNum_pad 2 0 n _ h, Option.bind_some]
    rw [hpad] at hfraction ⊢
    simp [hfraction]

theorem readFields_clock {h m s : Nat} (hh : h < 100) (hm : m < 100) (hs : s < 100)
    (hus : us < 1000000) :
    readFields tail none 3
        (pad 2 h ++ 58 :: (pad 2 m ++ 58 :: (pad 2 s ++ fractionText us))) =
      some ([h, m, s], us) := by
  have hlast : readFields tail (some true) 1 (pad 2 s ++ fractionText us) = some ([s], us) :=
    readFields_fraction hs hus
  have hmiddle : readFields tail (some true) 2 (pad 2 m ++ 58 :: (pad 2 s ++ fractionText us)) =
      (readFields tail (some true) 1 (pad 2 s ++ fractionText us)).map
        fun q => (m :: q.1, q.2) := readFields_colon hm rfl
  have hfirst : readFields tail none 3
      (pad 2 h ++ 58 :: (pad 2 m ++ 58 :: (pad 2 s ++ fractionText us))) =
        (readFields tail (some true) 2 (pad 2 m ++ 58 :: (pad 2 s ++ fractionText us))).map
          fun q => (h :: q.1, q.2) := readFields_colon hh rfl
  rw [hfirst, hmiddle, hlast]
  rfl

end Fields

theorem readFields_offsetClock (h : us < 86400000000) :
    (readFields tail none 3 (offsetClock us)).map (fun r => (clockMicros (r.1, 0), clockMicros r)) =
      some (us / 1000000 * 1000000, us) := by
  unfold offsetClock
  split
  · case isTrue h0 =>
    have hread : readFields tail none 3 (pad 2 (us / 3600000000) ++ 58 ::
        pad 2 (us / 60000000 % 60)) =
          (readFields tail (some true) 2 (pad 2 (us / 60000000 % 60))).map
            fun q => (us / 3600000000 :: q.1, q.2) := readFields_colon (by omega) rfl
    have hlast : readFields tail (some true) 2 (pad 2 (us / 60000000 % 60)) =
        some ([us / 60000000 % 60], 0) := readFields_last (by omega)
    rw [List.append_nil, hread, hlast]
    simp only [Option.map_some, clockMicros, List.getD_cons_zero, List.getD_cons_succ,
      List.getD_nil, Option.some.injEq, Prod.mk.injEq]
    omega
  · rw [readFields_clock (by omega) (by omega) (by omega) (by omega)]
    simp only [Option.map_some, clockMicros, List.getD_cons_zero, List.getD_cons_succ,
      Option.some.injEq, Prod.mk.injEq]
    omega

theorem readZone_offsetText
    (h : offset.natAbs < 86400000000 ∧ (offset = 0 ∨ 1000000 ≤ offset.natAbs)) :
    readZone (offsetText offset) = some (some offset) := by
  have hclock : (readFields false none 3 (offsetClock offset.natAbs)).map
      (fun r => (clockMicros (r.1, 0), clockMicros r)) =
        some (offset.natAbs / 1000000 * 1000000, offset.natAbs) := readFields_offsetClock h.1
  obtain ⟨r, hr, hmicros⟩ := Option.map_eq_some_iff.mp hclock
  obtain ⟨hwhole, hall⟩ := Prod.mk.inj hmicros
  have hsign : (if 0 ≤ offset then 43 else 45) ≠ 90 := by split <;> decide
  rw [offsetText, readZone, if_neg hsign, hr, Option.bind_some, zoneOffset]
  by_cases hzero : offset.natAbs / 1000000 * 1000000 = 0
  · obtain rfl : offset = 0 := by omega
    rw [hwhole, if_pos hzero]
    rfl
  · have hlt : (offset.natAbs : Int) < 86400000000 := by omega
    rw [hwhole, if_neg hzero, hall, if_pos hlt, Option.map_some]
    by_cases hpos : 0 ≤ offset
    · rw [if_pos hpos, if_neg (by decide), Int.natAbs_of_nonneg hpos]
    · rw [if_neg hpos, if_pos rfl, Int.ofNat_natAbs_of_nonpos (by omega), Int.neg_neg]

theorem readTime_text {h m s : Nat} (hh : h < 24) (hm : m < 60) (hs : s < 60) (hus : us < 1000000)
    (hbounds : offset.natAbs < 86400000000 ∧ (offset = 0 ∨ 1000000 ≤ offset.natAbs)) :
    readTime (pad 2 h ++ 58 :: (pad 2 m ++ 58 :: (pad 2 s ++ (fractionText us ++
        offsetText offset)))) =
      some (h * 3600000000 + m * 60000000 + s * 1000000 + us, some offset) := by
  have hclock := ((clock_pad 2 h).append (.colon ((clock_pad 2 m).append (.colon
    ((clock_pad 2 s).append (clock_fractionText us)))))).notSign
  have hsplit : pad 2 h ++ 58 :: (pad 2 m ++ 58 :: (pad 2 s ++ (fractionText us ++
      offsetText offset))) = (pad 2 h ++ 58 :: (pad 2 m ++ 58 :: (pad 2 s ++ fractionText us))) ++
        offsetText offset := by
    simp only [List.append_assoc, List.cons_append]
  have hzone := readZone_offsetText hbounds
  have hfields : readFields true none 3
      (pad 2 h ++ 58 :: (pad 2 m ++ 58 :: (pad 2 s ++ fractionText us))) = some ([h, m, s], us) :=
    readFields_clock (by omega) (by omega) (by omega) hus
  have hsign : notSign (if 0 ≤ offset then 43 else 45) = false := by split <;> rfl
  rw [offsetText] at hzone hsplit ⊢
  have hany : (pad 2 h ++ 58 :: (pad 2 m ++ 58 :: (pad 2 s ++ fractionText us)) ++
      (if 0 ≤ offset then 43 else 45) :: offsetClock offset.natAbs).any (fun c => !notSign c) =
        true := by
    rw [List.any_append, List.any_cons, hsign, Bool.not_false, Bool.true_or, Bool.or_true]
  rw [hsplit, readTime, hany, List.takeWhile_append_of_pos hclock,
    List.dropWhile_append_of_pos hclock, List.takeWhile_cons_of_neg (by simp [hsign]),
    List.dropWhile_cons_of_neg (by simp [hsign]), List.append_nil, hfields, hzone]
  simp only [Option.bind_eq_bind, Option.bind_some, List.getD_cons_zero, List.getD_cons_succ, hh,
    hm, hs, and_self, if_true, clockMicros]

theorem readDate_text {y m d : Nat} (hy : y < 10 ^ 4) (hm : m < 10 ^ 2) (hd : d < 10 ^ 2)
    (hcivil : civilOfDays (daysOfCivil y m d) = (y, m, d)) :
    readDate (pad 4 y ++ 45 :: (pad 2 m ++ 45 :: pad 2 d)) = some (daysOfCivil y m d) := by
  have hlast := readNum_pad 2 0 d [] hd
  have hweek : (pad 2 m ++ 45 :: pad 2 d).head? ≠ some 87 := by
    show some (48 + m / 10 % 10) ≠ some 87
    rw [ne_eq, Option.some.injEq]
    omega
  rw [List.append_nil] at hlast
  rw [readDate, readNum_pad 4 0 y _ hy]
  simp only [Option.bind_eq_bind, Option.bind_some, List.head?_cons, if_true, List.tail_cons,
    if_neg hweek, readNum_pad 2 0 m _ hm, expect_cons, hlast, Nat.zero_mul, Nat.zero_add, hcivil,
    and_self]

theorem separator_text {y m d : Nat} (s : List Nat) :
    separator (pad 4 y ++ 45 :: (pad 2 m ++ 45 :: (pad 2 d ++ 84 :: s))) = some 10 := by
  have hweek : 48 + m / 10 % 10 ≠ 87 := by omega
  have hpad4 : pad 4 y = [48 + y / 10 / 10 / 10 % 10, 48 + y / 10 / 10 % 10, 48 + y / 10 % 10,
    48 + y % 10] := rfl
  have hpad : ∀ n, pad 2 n = [48 + n / 10 % 10, 48 + n % 10] := fun _ => rfl
  simp [separator, hpad4, hpad, hweek]

theorem lt_offsetText (offset : Int) : ∀ c ∈ offsetText offset, c < 59 := by
  intro c hc
  rcases List.mem_cons.mp hc with rfl | hc
  · split <;> decide
  · have := clock_offsetClock _ c hc
    omega

/-- **Printing a timestamp and reading it back is the identity.** -/
theorem fromisoformat_localText :
    fromisoformat ⟨t.localText (offsetText t.offset)⟩ = some (t.micros, some t.offset) := by
  have hb := t.micros_bounds
  have hy : (civilOfDays (t.micros / 86400000000)).1 < 10 ^ 4 := year_lt (by omega)
  have hm := month_bounds (t.micros / 86400000000)
  have hd := day_bounds (t.micros / 86400000000)
  have hdays := daysOfCivil_civilOfDays (t.micros / 86400000000)
  rcases hc : civilOfDays (t.micros / 86400000000) with ⟨y, m, d⟩
  rw [hc] at hy hm hd hdays
  simp only at hy hm hd hdays
  obtain ⟨us, hus⟩ : ∃ us, us = t.micros % 86400000000 := ⟨_, rfl⟩
  obtain ⟨clock, hclock⟩ : ∃ clock, clock = pad 2 (us / 3600000000) ++ 58 ::
    (pad 2 (us / 60000000 % 60) ++ 58 :: (pad 2 (us / 1000000 % 60) ++
      (fractionText (us % 1000000) ++ offsetText t.offset))) := ⟨_, rfl⟩
  have htext : t.localText (offsetText t.offset) =
      pad 4 y ++ 45 :: (pad 2 m ++ 45 :: (pad 2 d ++ 84 :: clock)) := by
    rw [localText]
    simp only [hc, ← hus, ← hclock]
  have hsplit : pad 4 y ++ 45 :: (pad 2 m ++ 45 :: (pad 2 d ++ 84 :: clock)) =
      (pad 4 y ++ 45 :: (pad 2 m ++ 45 :: pad 2 d)) ++ 84 :: clock := by
    simp only [List.append_assoc, List.cons_append]
  have hlength : (pad 4 y ++ 45 :: (pad 2 m ++ 45 :: pad 2 d)).length = 10 := rfl
  have hdate := readDate_text (m := m) (d := d) hy (by omega) (by omega) (by rw [hdays, hc])
  have htime := readTime_text (by omega : us / 3600000000 < 24) (by omega : us / 60000000 % 60 < 60)
    (by omega : us / 1000000 % 60 < 60) (by omega : us % 1000000 < 1000000) t.offset_bounds
  rw [← hclock] at htime
  have hascii : ∀ c ∈ clock, c < 59 := by
    intro c hin
    have hlt : Clock (pad 2 (us / 3600000000) ++ 58 :: (pad 2 (us / 60000000 % 60) ++ 58 ::
        (pad 2 (us / 1000000 % 60) ++ fractionText (us % 1000000)))) :=
      (clock_pad _ _).append (.colon ((clock_pad _ _).append (.colon ((clock_pad _ _).append
        (clock_fractionText _)))))
    have happend : clock = (pad 2 (us / 3600000000) ++ 58 :: (pad 2 (us / 60000000 % 60) ++ 58 ::
        (pad 2 (us / 1000000 % 60) ++ fractionText (us % 1000000)))) ++ offsetText t.offset := by
      rw [hclock]
      simp only [List.append_assoc, List.cons_append]
    rw [happend] at hin
    rcases List.mem_append.mp hin with hin | hin
    · have := hlt c hin
      omega
    · exact lt_offsetText _ c hin
  have hany : clock.any (fun c => 0xD800 ≤ c && c < 0xE000) = false := by
    refine List.any_eq_false.mpr fun c hin => ?_
    have := hascii c hin
    simp only [Bool.and_eq_true, decide_eq_true_eq]
    omega
  rw [fromisoformat, htext, separator_text, hsplit]
  simp only [Option.bind_eq_bind, Option.bind_some]
  rw [List.take_left' hlength, List.drop_left' hlength, hdate]
  simp only [Option.bind_some, hany, Bool.false_eq_true, if_false, htime, hdays, Option.some.injEq,
    Prod.mk.injEq, and_true]
  omega

@[simp] theorem parse_localText : parse zone ⟨t.localText (offsetText t.offset)⟩ = some t := by
  rw [parse, fromisoformat_localText, Option.bind_some]
  exact ofParts_self t

theorem zToUtc_utcToZ {cs : List Nat} (h : 90 ∉ cs) : zToUtc (utcToZ cs) = cs := by
  fun_induction utcToZ cs with
  | case1 cs ih =>
    rw [zToUtc, List.flatMap_cons, if_pos rfl]
    have hcs : 90 ∉ cs := fun hin => h (by simp [hin])
    exact congrArg ([43, 48, 48, 58, 48, 48] ++ ·) (ih hcs)
  | case2 c cs hne ih =>
    rw [List.mem_cons, not_or] at h
    rw [zToUtc, List.flatMap_cons, if_neg (Ne.symm h.1)]
    exact congrArg ([c] ++ ·) (ih h.2)
  | case3 => rfl

theorem z_not_mem_localText : 90 ∉ t.localText (offsetText t.offset) := by
  have hpad : ∀ k n, 90 ∉ pad k n := by
    intro k n hin
    have := pad_digits k n 90 hin
    omega
  have hfraction : ∀ us, 90 ∉ fractionText us := by
    intro us hin
    have := clock_fractionText us 90 hin
    omega
  have hoffset : 90 ∉ offsetText t.offset := by
    intro hin
    have := lt_offsetText _ 90 hin
    omega
  rw [localText]
  simp [hpad, hfraction, hoffset]

@[simp] theorem parseUtc_isoformat : parseUtc zone t.isoformat = some t := by
  rw [parseUtc, isoformat, zToUtc_utcToZ t.z_not_mem_localText, parse_localText]

theorem isoformat_ne_nil : t.isoformat.codes ≠ [] := by
  intro h
  have hread := parseUtc_isoformat none t
  rw [parseUtc, h] at hread
  cases hread

end DateTime
