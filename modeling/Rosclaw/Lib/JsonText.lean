/-
JSON texts: strings in quotes, tokens, and members between commas.

* `quote_append_inj` — from a text that begins with a quoted string both can be read off;
* `token_append_inj` — the same for texts that contain no delimiter.
-/
import Mathlib.Data.Char
import Mathlib.Data.List.Basic

namespace JsonText

open List

/-- `"`. -/
def mark : Char := Char.ofNat 34

def backslash : Char := Char.ofNat 92

/-- The characters with an escape of their own: `"`, the backslash, and backspace, tab, line
feed, form feed and carriage return. -/
def shortEscapes : List (Nat × Char) :=
  [(34, mark), (92, backslash), (8, 'b'), (9, 't'), (10, 'n'), (12, 'f'), (13, 'r')]

def escape (c : Char) : List Char :=
  match shortEscapes.lookup c.toNat with
  | some e => [backslash, e]
  | none =>
      if c.toNat < 32 then
        [backslash, 'u', '0', '0', Nat.digitChar (c.toNat / 16), Nat.digitChar (c.toNat % 16)]
      else [c]

def quote (s : String) : List Char := mark :: (s.toList.flatMap escape ++ [mark])

def joinTexts : List (List Char) → List Char
  | [] => []
  | [t] => t
  | t :: t' :: ts => t ++ ',' :: joinTexts (t' :: ts)

/-! ### Reading a quoted string -/

def hexValue (c : Char) : Nat := if c.toNat < 58 then c.toNat - 48 else c.toNat - 87

def unescape : List Char → Option (Char × List Char)
  | [] => none
  | c :: x =>
      if c = backslash then
        match x with
        | 'u' :: _ :: _ :: a :: b :: y => some (Char.ofNat (16 * hexValue a + hexValue b), y)
        | e :: y => (shortEscapes.find? fun p => p.2 = e).map fun p => (Char.ofNat p.1, y)
        | [] => none
      else some (c, x)

theorem control_escape : ∀ n < 32, ∀ y, shortEscapes.lookup n = none →
    unescape ([backslash, 'u', '0', '0', Nat.digitChar (n / 16), Nat.digitChar (n % 16)] ++ y) =
      some (Char.ofNat n, y) := by
  intro n hn y hnone
  have hvalue : 16 * hexValue (Nat.digitChar (n / 16)) + hexValue (Nat.digitChar (n % 16)) = n := by
    have hall : ∀ n < 32, 16 * hexValue (Nat.digitChar (n / 16)) + hexValue (Nat.digitChar (n % 16)) = n := by
      decide
    exact hall n hn
  show some (Char.ofNat _, y) = _
  rw [hvalue]

theorem short_escape {n : Nat} {e : Char} (h : shortEscapes.lookup n = some e) (y : List Char) :
    unescape ([backslash, e] ++ y) = some (Char.ofNat n, y) := by
  obtain ⟨l₁, l₂, hsplit, -⟩ := lookup_eq_some_iff.mp h
  have hmem : (n, e) ∈ shortEscapes := by
    rw [hsplit]
    simp
  simp only [shortEscapes, mem_cons, not_mem_nil, or_false, Prod.mk.injEq] at hmem
  rcases hmem with ⟨rfl, rfl⟩ | ⟨rfl, rfl⟩ | ⟨rfl, rfl⟩ | ⟨rfl, rfl⟩ | ⟨rfl, rfl⟩ | ⟨rfl, rfl⟩ | ⟨rfl, rfl⟩
  all_goals rfl

variable {s s' : String} {t t' y y' : List Char} (c : Char)

/-- What `escape` has written is read. -/
theorem unescape_escape (y : List Char) : unescape (escape c ++ y) = some (c, y) := by
  unfold escape
  split
  · next e hlookup =>
    rw [short_escape hlookup, Char.ofNat_toNat]
  · next hnone =>
    split
    · next hcontrol =>
      rw [control_escape c.toNat hcontrol y hnone, Char.ofNat_toNat]
    · have hne : c ≠ backslash := by
        rintro rfl
        cases hnone
      show (if c = backslash then _ else some (c, y)) = _
      rw [if_neg hne]

theorem escape_ne_mark (y z : List Char) : escape c ++ y ≠ mark :: z := by
  unfold escape
  split
  · intro h
    cases (List.cons.inj h).1
  · next hnone =>
    split
    · intro h
      cases (List.cons.inj h).1
    · intro h
      obtain rfl : c = mark := (List.cons.inj h).1
      cases hnone

theorem escapes_append_inj {s s' : List Char}
    (h : s.flatMap escape ++ mark :: y = s'.flatMap escape ++ mark :: y') : s = s' ∧ y = y' := by
  induction s generalizing s' with
  | nil =>
    cases s' with
    | nil => exact ⟨rfl, (List.cons.inj h).2⟩
    | cons c' s' =>
      rw [flatMap_cons, append_assoc] at h
      exact absurd h.symm (escape_ne_mark c' _ _)
  | cons c s ih =>
    cases s' with
    | nil =>
      rw [flatMap_cons, append_assoc] at h
      exact absurd h (escape_ne_mark c _ _)
    | cons c' s' =>
      rw [flatMap_cons, flatMap_cons, append_assoc, append_assoc] at h
      have hread := congrArg unescape h
      rw [unescape_escape, unescape_escape, Option.some_inj, Prod.mk.injEq] at hread
      obtain ⟨rfl, hrest⟩ := hread
      obtain ⟨rfl, rfl⟩ := ih hrest
      exact ⟨rfl, rfl⟩

theorem quote_append_inj (h : quote s ++ y = quote s' ++ y') : s = s' ∧ y = y' := by
  rw [quote, quote, cons_append, cons_append, append_assoc, append_assoc] at h
  obtain ⟨hs, hy⟩ := escapes_append_inj (List.cons.inj h).2
  exact ⟨String.toList_inj.mp hs, hy⟩

/-! ### Tokens -/

def isDelimiter (c : Char) : Bool := c = ',' || c = ']' || c = '}'

def Delimited (y : List Char) : Prop := ∀ c ∈ y.head?, isDelimiter c = true

@[simp] theorem delimited_nil : Delimited [] := by simp [Delimited]

@[simp] theorem delimited_cons {c : Char} : Delimited (c :: y) ↔ isDelimiter c = true := by
  simp [Delimited]

theorem token_append_inj (ht : ∀ c ∈ t, isDelimiter c = false)
    (ht' : ∀ c ∈ t', isDelimiter c = false) (hy : Delimited y) (hy' : Delimited y')
    (h : t ++ y = t' ++ y') : t = t' ∧ y = y' := by
  induction t generalizing t' with
  | nil =>
    cases t' with
    | nil => exact ⟨rfl, h⟩
    | cons c' t' =>
      rw [nil_append, cons_append] at h
      rw [h, delimited_cons, ht' c' mem_cons_self] at hy
      cases hy
  | cons c t ih =>
    cases t' with
    | nil =>
      rw [nil_append, cons_append] at h
      rw [← h, delimited_cons, ht c mem_cons_self] at hy'
      cases hy'
    | cons c' t' =>
      rw [cons_append, cons_append, List.cons.injEq] at h
      obtain ⟨rfl, hrest⟩ := h
      obtain ⟨rfl, rfl⟩ := ih (fun d hd => ht d (mem_cons_of_mem _ hd))
        (fun d hd => ht' d (mem_cons_of_mem _ hd)) hrest
      exact ⟨rfl, rfl⟩

end JsonText
