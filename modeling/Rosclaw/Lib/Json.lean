/-
JSON as Python's `json` module writes and reads it, with `ensure_ascii=False` and
`separators=(",", ":")`.

Writing is split in two: `check` is what can be raised, in the order of the encoder, and `text` is
the text if nothing is.  Reading is split too: `parse` scans a text to a document, which still has
its number literals and all its members, and `Doc.eval` is the value that is built of it.

* `Doc.Writable` — the documents whose values can be written and encoded again.
`limit` is how many containers the interpreter lets be nested before it raises `RecursionError`.
-/
import Rosclaw.Lib.Dict
import Rosclaw.Lib.JsonNumber
import Rosclaw.Lib.PyVal

inductive Json
  | null
  | bool (b : Bool)
  | int (n : Int)
  | float (x : Double)
  | str (s : PyStr)
  | arr (xs : List Json)
  | obj (kvs : List (PyStr × Json))

namespace Json

open JsonText Decimal

instance : Inhabited Json := ⟨.null⟩

def isObject : Json → Bool
  | .obj _ => true
  | _ => false

/-- What the module raises: a `ValueError`, or a `RecursionError`. -/
inductive Fault
  | value
  | recursion
deriving DecidableEq, Repr

/-- `sys.get_int_max_str_digits()`. -/
def maxStrDigits : Nat := 4300

/-- An integer that `str` and `int` convert. -/
def intFits (n : Int) : Bool := (digitText n.natAbs).length ≤ maxStrDigits

/-! ### Writing -/

def quoted (s : PyStr) : List Char := mark :: (s.codes.flatMap (fun c => escape (Char.ofNat c)) ++ [mark])

mutual

def text : Json → List Char
  | .null => ['n', 'u', 'l', 'l']
  | .bool b => if b then ['t', 'r', 'u', 'e'] else ['f', 'a', 'l', 's', 'e']
  | .int n => Double.signChars (n < 0) ++ digitText n.natAbs
  | .float x => x.repr?.getD []
  | .str s => quoted s
  | .arr xs => '[' :: (joinTexts (texts xs) ++ [']'])
  | .obj kvs => '{' :: (joinTexts (members kvs) ++ ['}'])

def texts : List Json → List (List Char)
  | [] => []
  | x :: xs => text x :: texts xs

def members : List (PyStr × Json) → List (List Char)
  | [] => []
  | (k, v) :: kvs => (quoted k ++ ':' :: text v) :: members kvs

end

mutual

/-- What `json.dumps` raises. -/
def check (limit : Nat) : Json → Except Fault Unit
  | .int n => if intFits n then .ok () else .error .value
  | .float x => if x.isFinite then .ok () else .error .value
  | .arr xs => match limit with
    | 0 => .error .recursion
    | limit + 1 => checkItems limit xs
  | .obj kvs => match limit with
    | 0 => .error .recursion
    | limit + 1 => checkEntries limit kvs
  | _ => .ok ()

def checkItems (limit : Nat) : List Json → Except Fault Unit
  | [] => .ok ()
  | x :: xs => do
      check limit x
      checkItems limit xs

def checkEntries (limit : Nat) : List (PyStr × Json) → Except Fault Unit
  | [] => .ok ()
  | (_, v) :: kvs => do
      check limit v
      checkEntries limit kvs

end

mutual

def encodable : Json → Bool
  | .str s => s.codes.all fun c => decide (c.isValidChar)
  | .arr xs => encodableItems xs
  | .obj kvs => encodableEntries kvs
  | _ => true

def encodableItems : List Json → Bool
  | [] => true
  | x :: xs => encodable x && encodableItems xs

def encodableEntries : List (PyStr × Json) → Bool
  | [] => true
  | (k, v) :: kvs => (k.codes.all fun c => decide (c.isValidChar)) && encodable v && encodableEntries kvs

end

/-! ### Documents -/

/-- A document: what a text says before numbers are converted and dictionaries are built. -/
inductive Doc
  | null
  | bool (b : Bool)
  | int (n : Int)
  | float (n : Numeral)
  | str (s : PyStr)
  | arr (ds : List Doc)
  | obj (es : List (PyStr × Doc))

/-- `dict(pairs)`: a key stays where it came first, and has its last value. -/
def dictOf {α : Type} : List (PyStr × α) → List (PyStr × α)
  | [] => []
  | (k, v) :: es => (k, (Dict.getList k (dictOf es)).getD v) :: (dictOf es).filter (·.1 ≠ k)

namespace Doc

mutual

def eval : Doc → Json
  | .null => .null
  | .bool b => .bool b
  | .int n => .int n
  | .float n => .float (Double.ofRat n.neg n.decimal.value)
  | .str s => .str s
  | .arr ds => .arr (evalItems ds)
  | .obj es => .obj (dictOf (evalEntries es))

def evalItems : List Doc → List Json
  | [] => []
  | d :: ds => eval d :: evalItems ds

def evalEntries : List (PyStr × Doc) → List (PyStr × Json)
  | [] => []
  | (k, d) :: es => (k, eval d) :: evalEntries es

end

end Doc

/-! ### Reading -/

def isSpace (c : Char) : Bool := c = ' ' || c = '\t' || c = '\n' || c = '\r'

def skip (t : List Char) : List Char := t.dropWhile isSpace

def hexDigit? (c : Char) : Option Nat :=
  if 48 ≤ c.toNat ∧ c.toNat ≤ 57 then some (c.toNat - 48)
  else if 97 ≤ c.toNat ∧ c.toNat ≤ 102 then some (c.toNat - 87)
  else if 65 ≤ c.toNat ∧ c.toNat ≤ 70 then some (c.toNat - 55)
  else none

/-- The four digits after `\u`. -/
def unit? (a b c d : Char) : Option Nat := do
  return 4096 * (← hexDigit? a) + 256 * (← hexDigit? b) + 16 * (← hexDigit? c) + (← hexDigit? d)

def escaped? (e : Char) : Option Nat :=
  if e = '/' then some 47 else (shortEscapes.find? fun p => p.2 = e).map Prod.fst

/-- A code unit, which joins with a low surrogate after it if it is a high one. -/
def pairCons (n : Nat) (cs : List Nat) : List Nat :=
  match cs with
  | low :: cs' =>
      if 0xD800 ≤ n ∧ n ≤ 0xDBFF ∧ 0xDC00 ≤ low ∧ low ≤ 0xDFFF then
        (0x10000 + (n - 0xD800) * 0x400 + (low - 0xDC00)) :: cs'
      else n :: cs
  | [] => [n]

def scanString : List Char → Option (List Nat × List Char)
  | [] => none
  | c :: t =>
      if c = mark then some ([], t)
      else if c.toNat < 32 then none
      else if c = backslash then
        match t with
        | e :: t' =>
            if e = 'u' then
              match t' with
              | h₁ :: h₂ :: h₃ :: h₄ :: t'' => (unit? h₁ h₂ h₃ h₄).bind fun n =>
                  (scanString t'').map fun p => (pairCons n p.1, p.2)
              | _ => none
            else (escaped? e).bind fun n => (scanString t').map fun p => (n :: p.1, p.2)
        | [] => none
      else (scanString t).map fun p => (c.toNat :: p.1, p.2)

def scanAtom (t : List Char) : Except Fault (Doc × List Char) :=
  if ['n', 'u', 'l', 'l'].isPrefixOf t then .ok (.null, t.drop 4)
  else if ['t', 'r', 'u', 'e'].isPrefixOf t then .ok (.bool true, t.drop 4)
  else if ['f', 'a', 'l', 's', 'e'].isPrefixOf t then .ok (.bool false, t.drop 5)
  else match Numeral.scan t with
    | none => .error .value
    | some (n, t') =>
        if n.isFloat then .ok (.float n, t')
        else if n.whole.length ≤ maxStrDigits then .ok (.int n.int, t')
        else .error .value

mutual

/-- `scan_once`.  The fuel is more than twice the length of the text. -/
def scanValue : Nat → Nat → List Char → Except Fault (Doc × List Char)
  | 0, _, _ => .error .value
  | _ + 1, _, [] => .error .value
  | fuel + 1, limit, c :: t =>
      if c = mark then
        match scanString t with
        | some (s, t') => .ok (.str ⟨s⟩, t')
        | none => .error .value
      else if c = '[' then
        match limit with
        | 0 => .error .recursion
        | limit + 1 =>
            if (skip t).head? = some ']' then .ok (.arr [], (skip t).tail)
            else (scanItems fuel limit (skip t)).map fun p => (.arr p.1, p.2)
      else if c = '{' then
        match limit with
        | 0 => .error .recursion
        | limit + 1 =>
            if (skip t).head? = some '}' then .ok (.obj [], (skip t).tail)
            else (scanMembers fuel limit (skip t)).map fun p => (.obj p.1, p.2)
      else scanAtom (c :: t)

def scanItems : Nat → Nat → List Char → Except Fault (List Doc × List Char)
  | 0, _, _ => .error .value
  | fuel + 1, limit, t => do
      let p ← scanValue fuel limit t
      match skip p.2 with
      | c :: t' =>
          if c = ']' then .ok ([p.1], t')
          else if c = ',' then (scanItems fuel limit (skip t')).map fun q => (p.1 :: q.1, q.2)
          else .error .value
      | [] => .error .value

def scanMembers : Nat → Nat → List Char → Except Fault (List (PyStr × Doc) × List Char)
  | 0, _, _ => .error .value
  | _ + 1, _, [] => .error .value
  | fuel + 1, limit, c :: t =>
      if c = mark then
        match scanString t with
        | none => .error .value
        | some (k, t₁) =>
            if (skip t₁).head? = some ':' then do
              let p ← scanValue fuel limit (skip (skip t₁).tail)
              match skip p.2 with
              | c :: t' =>
                  if c = '}' then .ok ([(⟨k⟩, p.1)], t')
                  else if c = ',' then
                    (scanMembers fuel limit (skip t')).map fun q => ((⟨k⟩, p.1) :: q.1, q.2)
                  else .error .value
              | [] => .error .value
            else .error .value
      else .error .value

end

def parse (limit : Nat) (t : List Char) : Except Fault Doc := do
  let p ← scanValue (2 * (skip t).length + 1) limit (skip t)
  if skip p.2 = [] then .ok p.1 else .error .value

def loads (limit : Nat) (t : List Char) : Except Fault Json := (parse limit t).map Doc.eval

end Json
