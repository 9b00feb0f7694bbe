/-
Python's string operations, on the code points of a string.

* `encodable_take` — a slice of a text with a UTF-8 form has one.
-/
import Rosclaw.Lib.PyVal

namespace PyStr

/-- `s[:n]`. -/
def take (n : Nat) (s : PyStr) : PyStr := ⟨s.codes.take n⟩

def startsWith (s p : PyStr) : Bool := p.codes.isPrefixOf s.codes

/-- `p in s`. -/
def contains (s p : PyStr) : Bool := s.codes.tails.any fun t => p.codes.isPrefixOf t

/-- The pieces of a text between the separators, last piece first as it is found. -/
def splitCodes (sep : Nat → Bool) : List Nat → List Nat → List PyStr
  | piece, [] => [⟨piece.reverse⟩]
  | piece, c :: cs =>
      if sep c then ⟨piece.reverse⟩ :: splitCodes sep [] cs else splitCodes sep (c :: piece) cs

/-- `re.split` at the characters that separate. -/
def splitAt (sep : Nat → Bool) (s : PyStr) : List PyStr := splitCodes sep [] s.codes

/-- `s.lower()` where the result can be an ASCII letter: the ASCII letters and the two
characters whose lower case is ASCII. -/
def lower (s : PyStr) : PyStr :=
  ⟨s.codes.flatMap fun c =>
    if 65 ≤ c ∧ c ≤ 90 then [c + 32]
    else if c = 0x130 then [105, 0x307]
    else if c = 0x212A then [107]
    else [c]⟩

/-- `str(n)`. -/
def ofNat (n : Nat) : PyStr := ofString (toString n)

/-- `str(n)`. -/
def ofInt (n : Int) : PyStr := ofString (toString n)

def isEmpty (s : PyStr) : Bool := s.codes.isEmpty

/-- `s < t`, by code points. -/
def lt (s t : PyStr) : Bool := s.codes < t.codes

/-- The occurrences of `old` that do not overlap, replaced from the left.  The number says how
much of the last occurrence is still to be passed over. -/
def replaceCodes (old new : List Nat) : Nat → List Nat → List Nat
  | _, [] => []
  | skip + 1, _ :: cs => replaceCodes old new skip cs
  | 0, c :: cs =>
      if old.isPrefixOf (c :: cs) then new ++ replaceCodes old new (old.length - 1) cs
      else c :: replaceCodes old new 0 cs

/-- `s.replace(old, new)`, for an `old` that is not empty. -/
def replace (s old new : PyStr) : PyStr := ⟨replaceCodes old.codes new.codes 0 s.codes⟩

def isBoundary (c : Nat) : Bool :=
  (10 ≤ c && c ≤ 13) || (28 ≤ c && c ≤ 30) || c = 0x85 || c = 0x2028 || c = 0x2029

/-- The lines of a text, with the characters of the first one that are read already. -/
def linesAfter : List Nat → List Nat → List PyStr
  | line, [] => if line.isEmpty then [] else [⟨line.reverse⟩]
  | line, 13 :: 10 :: cs => ⟨line.reverse⟩ :: linesAfter [] cs
  | line, c :: cs =>
      if isBoundary c then ⟨line.reverse⟩ :: linesAfter [] cs else linesAfter (c :: line) cs

def splitlines (s : PyStr) : List PyStr := linesAfter [] s.codes

theorem contains_cons {c : Nat} {cs : List Nat} {p : PyStr} :
    (⟨c :: cs⟩ : PyStr).contains p = (p.codes.isPrefixOf (c :: cs) || (⟨cs⟩ : PyStr).contains p) :=
  rfl

theorem encodable_take {s : PyStr} (n : Nat) (h : s.encodable = true) :
    (s.take n).encodable = true := by
  rw [encodable, List.all_eq_true] at h ⊢
  intro c hc
  exact h c (List.mem_of_mem_take hc)

example : ("a___b" : PyStr).replace "__" "." = "a._b" := by decide

end PyStr
