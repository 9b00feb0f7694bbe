/-
Python values as data, and what a JSON round trip makes of them.

A Python string is a sequence of code points and may hold unpaired surrogates;
a Python float is a rational, an infinity or NaN.  `PyVal` is the closure of
these under lists, tuples and dictionaries, with `object` for everything
`json.dumps` refuses.  The keys of a dictionary are texts; `keyed` is one that has a
key of another type, which no value read from JSON is.  The entries of a dictionary
are listed in some order; lookup and `==` do not see it, and it is not changed by
`canon`.

* `canon_eq_of_tupleFree` — a value without tuples and without such keys that
  serialises comes back unchanged.
-/
import Mathlib.Algebra.Order.Ring.Unbundled.Rat
import Mathlib.Algebra.Ring.Nat
import Mathlib.Data.List.Dedup
import Mathlib.Data.List.Lex
import Mathlib.Data.List.Sort
import Mathlib.Data.Rat.Defs

structure PyStr where
  codes : List Nat
deriving DecidableEq, Repr

namespace PyStr

def ofString (s : String) : PyStr := ⟨s.toList.map Char.toNat⟩

instance : Coe String PyStr := ⟨ofString⟩

instance : Append PyStr := ⟨fun s t => ⟨s.codes ++ t.codes⟩⟩

instance : Inhabited PyStr := ⟨⟨[]⟩⟩

@[simp] theorem ofString_inj {s t : String} : ofString s = ofString t ↔ s = t := by
  constructor
  · intro h
    have hcodes : s.toList.map Char.toNat = t.toList.map Char.toNat := congrArg codes h
    exact String.ext_iff.mpr ((List.map_inj_right fun _ _ => Char.toNat_inj.mp).mp hcodes)
  · rintro rfl
    rfl

@[simp] theorem codes_append (s t : PyStr) : (s ++ t).codes = s.codes ++ t.codes := rfl

def isSurrogate (c : Nat) : Bool := 0xD800 ≤ c && c ≤ 0xDFFF

/-- `s.encode("utf-8")` succeeds. -/
def encodable (s : PyStr) : Bool := s.codes.all fun c => !isSurrogate c

theorem encodable_append (s t : PyStr) : (s ++ t).encodable = (s.encodable && t.encodable) := by
  simp [encodable]

@[simp] theorem encodable_ofString (s : String) : (ofString s).encodable = true := by
  simp only [encodable, ofString, List.all_map, List.all_eq_true, Function.comp_apply,
    isSurrogate, Bool.not_eq_true', Bool.and_eq_false_iff, decide_eq_false_iff_not]
  intro c _
  have hc : c.toNat < 0xD800 ∨ 0xDFFF < c.toNat ∧ c.toNat < 0x110000 := c.valid
  omega

/-- The characters of `str.isspace`. -/
def isSpace (c : Nat) : Bool :=
  (9 ≤ c && c ≤ 13) || (28 ≤ c && c ≤ 32) || c = 0x85 || c = 0xA0 || c = 0x1680 ||
    (0x2000 ≤ c && c ≤ 0x200A) || c = 0x2028 || c = 0x2029 || c = 0x202F || c = 0x205F ||
    c = 0x3000

/-- `not s.strip()`. -/
def isBlank (s : PyStr) : Bool := s.codes.all isSpace

def strip (s : PyStr) : PyStr :=
  ⟨((s.codes.dropWhile isSpace).reverse.dropWhile isSpace).reverse⟩

def hasControl (s : PyStr) : Bool := s.codes.any (· < 0x20)

def length (s : PyStr) : Nat := s.codes.length

/-- `s.upper()` where the result can be an ASCII word: the ASCII letters and the
characters whose upper case is ASCII. -/
def upper (s : PyStr) : PyStr :=
  ⟨s.codes.flatMap fun c =>
    if 97 ≤ c ∧ c ≤ 122 then [c - 32]
    else if c = 0x131 then [73]
    else if c = 0x17F then [83]
    else if c = 0xDF then [83, 83]
    else if c = 0xFB00 then [70, 70]
    else if c = 0xFB01 then [70, 73]
    else if c = 0xFB02 then [70, 76]
    else if c = 0xFB03 then [70, 70, 73]
    else if c = 0xFB04 then [70, 70, 76]
    else if c = 0xFB05 then [83, 84]
    else if c = 0xFB06 then [83, 84]
    else [c]⟩

def removePrefix (s p : PyStr) : PyStr :=
  if p.codes.isPrefixOf s.codes then ⟨s.codes.drop p.codes.length⟩ else s

/-- `s <= t`, by code points. -/
def le (s t : PyStr) : Bool := s.codes ≤ t.codes

def sortedSet (xs : List PyStr) : List PyStr := xs.dedup.insertionSort fun s t => le s t = true

/-- `f"{s!r}"` for a string without quotes or escapes. -/
def quoted (s : PyStr) : PyStr := "'" ++ s ++ "'"

@[simp] theorem mem_sortedSet {s : PyStr} {xs : List PyStr} : s ∈ sortedSet xs ↔ s ∈ xs := by
  rw [sortedSet, List.mem_insertionSort, List.mem_dedup]

theorem nodup_sortedSet (xs : List PyStr) : (sortedSet xs).Nodup :=
  (List.perm_insertionSort _ _).nodup_iff.mpr (List.nodup_dedup xs)

instance : Std.Total fun s t : PyStr => le s t = true :=
  ⟨fun s t => by simpa [le] using le_total s.codes t.codes⟩

instance : IsTrans PyStr fun s t => le s t = true :=
  ⟨fun s t u hst htu => by
    simp only [le, decide_eq_true_eq] at hst htu ⊢
    exact le_trans hst htu⟩

@[simp] theorem sortedSet_sortedSet (xs : List PyStr) :
    sortedSet (sortedSet xs) = sortedSet xs := by
  have hsorted : (sortedSet xs).Pairwise fun s t => le s t = true := List.pairwise_insertionSort _ _
  show List.insertionSort _ (sortedSet xs).dedup = _
  rw [(nodup_sortedSet xs).dedup]
  exact hsorted.insertionSort_eq

end PyStr

/-- A Python float; a finite one is the rational it denotes. -/
inductive PyFloat
  | finite (q : Rat)
  | inf
  | negInf
  | nan
deriving DecidableEq, Repr

/-- `x < y`. -/
def PyFloat.lt : PyFloat → PyFloat → Bool
  | .finite p, .finite q => p < q
  | .finite _, .inf | .negInf, .finite _ | .negInf, .inf => true
  | _, _ => false

/-- `x <= y`. -/
def PyFloat.le (x y : PyFloat) : Bool := x.lt y || (x = y && x ≠ .nan)

/-- A key of a dictionary; a float comes with its `repr`, and `other` is a key that
`json.dumps` refuses. -/
inductive PyKey
  | str (s : PyStr)
  | int (n : Int)
  | float (x : PyFloat) (repr : PyStr)
  | bool (b : Bool)
  | none
  | other (tag : Nat)
deriving DecidableEq

namespace PyKey

/-- The number that a key is compared as. -/
def number? : PyKey → Option Rat
  | .int n => some n
  | .float (.finite q) _ => some q
  | .bool b => some (if b then 1 else 0)
  | _ => Option.none

/-- `k == k'`. -/
def same (k k' : PyKey) : Bool := k = k' || k.number?.isSome && k.number? = k'.number?

/-- The text that `json.dumps(..., allow_nan=False)` writes for a key. -/
def text? : PyKey → Option PyStr
  | .str s => some s
  | .int n => some (PyStr.ofString (toString n))
  | .float (.finite _) repr => some repr
  | .bool b => some (PyStr.ofString (if b then "true" else "false"))
  | .none => some (PyStr.ofString "null")
  | _ => Option.none

def isStr : PyKey → Bool
  | .str _ => true
  | _ => false

/-- `sorted(d.items())`, which compares no text and no `None` to another key. -/
def sortItems {α : Type} (kvs : List (PyKey × α)) : Option (List (PyKey × α)) :=
  if kvs.all fun e => e.1.isStr then some kvs
  else if kvs.all fun e => e.1.number?.isSome then
    some (kvs.insertionSort fun e e' => e.1.number?.getD 0 ≤ e'.1.number?.getD 0)
  else if kvs.length ≤ 1 then some kvs
  else Option.none

def textItems {α : Type} : List (PyKey × α) → Option (List (PyStr × α))
  | [] => some []
  | (k, v) :: kvs => k.text?.bind fun s => (textItems kvs).map ((s, v) :: ·)

end PyKey

inductive PyVal
  | none
  | bool (b : Bool)
  | int (n : Int)
  | float (x : PyFloat)
  | str (s : PyStr)
  | list (xs : List PyVal)
  | tuple (xs : List PyVal)
  | dict (kvs : List (PyStr × PyVal))
  | keyed (kvs : List (PyKey × PyVal))
  | object (tag : Nat)

namespace PyVal

instance : Inhabited PyVal := ⟨.none⟩

/-- `d.get(key, default)` on the entries of a dictionary. -/
def getEntry (key : PyStr) (default : PyVal) : List (PyStr × PyVal) → PyVal
  | [] => default
  | (k, v) :: kvs => if k = key then v else getEntry key default kvs

/-- The value of a key in some entries. -/
def getKey (key : PyKey) (default : PyVal) : List (PyKey × PyVal) → PyVal
  | [] => default
  | (k, v) :: kvs => if k.same key then v else getKey key default kvs

/-- `v.get(key, default)`; what is no dictionary has no entries. -/
def getD (v : PyVal) (key : String) (default : PyVal) : PyVal :=
  match v with
  | .dict kvs => getEntry key default kvs
  | .keyed kvs => getKey (.str (PyStr.ofString key)) default kvs
  | _ => default

/-- `v.get(key)`; a missing key gives `None`. -/
def get (v : PyVal) (key : String) : PyVal := v.getD key .none

/-- `d[key] = x`. -/
def setEntry (key : PyStr) (x : PyVal) : List (PyStr × PyVal) → List (PyStr × PyVal)
  | [] => [(key, x)]
  | (k, v) :: kvs => if k = key then (k, x) :: kvs else (k, v) :: setEntry key x kvs

/-- `d[key] = x`, in a dictionary of any keys. -/
def setKey (key : PyKey) (x : PyVal) : List (PyKey × PyVal) → List (PyKey × PyVal)
  | [] => [(key, x)]
  | (k, v) :: kvs => if k.same key then (k, x) :: kvs else (k, v) :: setKey key x kvs

@[simp] theorem getD_dict_nil (key : String) (default : PyVal) :
    (PyVal.dict []).getD key default = default := rfl

@[simp] theorem getD_dict_cons (k key : String) (v default : PyVal) (kvs : List (PyStr × PyVal)) :
    (PyVal.dict ((↑k, v) :: kvs)).getD key default
      = if k = key then v else (PyVal.dict kvs).getD key default := by
  simp [getD, getEntry]

def isDict : PyVal → Bool
  | .dict _ => true
  | .keyed kvs => kvs.any fun e => !e.1.isStr
  | _ => false

@[simp] theorem isDict_dict (kvs : List (PyStr × PyVal)) : (PyVal.dict kvs).isDict = true := rfl

/-- `bool(v)`. -/
def truthy : PyVal → Bool
  | .none => false
  | .bool b => b
  | .int n => n ≠ 0
  | .float (.finite q) => q ≠ 0
  | .float _ => true
  | .str s => s.codes ≠ []
  | .list xs => !xs.isEmpty
  | .tuple xs => !xs.isEmpty
  | .dict kvs => !kvs.isEmpty
  | .keyed kvs => !kvs.isEmpty
  | .object _ => true

@[simp] theorem truthy_bool (b : Bool) : (PyVal.bool b).truthy = b := rfl

@[simp] theorem truthy_dict_cons (e : PyStr × PyVal) (kvs : List (PyStr × PyVal)) :
    (PyVal.dict (e :: kvs)).truthy = true := rfl

/-- What `isinstance(v, dict)` lets through. -/
abbrev Dictionary := {v : PyVal // v.isDict = true}

namespace Dictionary

def ofEntries (kvs : List (PyStr × PyVal)) : Dictionary := ⟨.dict kvs, rfl⟩

/-- The dictionary of some keys and values, each key once. -/
def ofItems (kvs : List (PyKey × PyVal)) : Dictionary :=
  if h : kvs.any (fun e => !e.1.isStr) = true then ⟨.keyed kvs, h⟩
  else .ofEntries (kvs.filterMap fun e => match e.1 with
    | .str s => some (s, e.2)
    | _ => Option.none)

instance : Inhabited Dictionary := ⟨.ofEntries []⟩

theorem eq_empty_of_falsy {d : Dictionary} (h : d.1.truthy = false) : d = .ofEntries [] := by
  obtain ⟨v, hv⟩ := d
  refine Subtype.ext ?_
  cases v with
  | dict kvs =>
    cases kvs with
    | nil => rfl
    | cons e kvs => cases h
  | keyed kvs =>
    cases kvs with
    | nil => cases hv
    | cons e kvs => cases h
  | _ => cases hv

end Dictionary

def isList : PyVal → Bool
  | .list _ => true
  | _ => false

/-! ### The JSON round trip -/

mutual

/-- `json.loads(json.dumps(v, allow_nan=False))`. -/
def canon : PyVal → Option PyVal
  | .none => some .none
  | .bool b => some (.bool b)
  | .int n => some (.int n)
  | .float (.finite q) => some (.float (.finite q))
  | .float _ => Option.none
  | .str s => some (.str s)
  | .list xs => (canonList xs).map .list
  | .tuple xs => (canonList xs).map .list
  | .dict kvs => (canonEntries kvs).map .dict
  | .keyed kvs =>
      (canonKeyed kvs).bind fun es =>
        (PyKey.sortItems es).bind fun sorted => (PyKey.textItems sorted).map .dict
  | .object _ => Option.none

def canonList : List PyVal → Option (List PyVal)
  | [] => some []
  | x :: xs => (canon x).bind fun y => (canonList xs).map (y :: ·)

def canonEntries : List (PyStr × PyVal) → Option (List (PyStr × PyVal))
  | [] => some []
  | (k, v) :: kvs => (canon v).bind fun w => (canonEntries kvs).map ((k, w) :: ·)

def canonKeyed : List (PyKey × PyVal) → Option (List (PyKey × PyVal))
  | [] => some []
  | (k, v) :: kvs => (canon v).bind fun w => (canonKeyed kvs).map ((k, w) :: ·)

end

mutual

/-- There is no tuple in the value, and no key but texts. -/
def tupleFree : PyVal → Bool
  | .list xs => tupleFreeList xs
  | .tuple _ | .keyed _ => false
  | .dict kvs => tupleFreeEntries kvs
  | _ => true

def tupleFreeList : List PyVal → Bool
  | [] => true
  | x :: xs => tupleFree x && tupleFreeList xs

def tupleFreeEntries : List (PyStr × PyVal) → Bool
  | [] => true
  | (_, v) :: kvs => tupleFree v && tupleFreeEntries kvs

end

mutual

/-- **A value without tuples and other keys that serialises comes back unchanged.** -/
theorem canon_eq_of_tupleFree : ∀ {v w : PyVal}, v.tupleFree = true → canon v = some w → w = v
  | .none, w, _, h | .bool _, w, _, h | .int _, w, _, h | .str _, w, _, h => by
    simpa [canon, eq_comm] using h
  | .float x, w, _, h => by
    cases x with
    | finite q => simpa [canon, eq_comm] using h
    | inf | negInf | nan => simp [canon] at h
  | .list xs, w, ht, h => by
    obtain ⟨ys, hys, rfl⟩ := Option.map_eq_some_iff.mp h
    rw [canonList_eq_of_tupleFree ht hys]
  | .tuple xs, w, ht, _ => by simp [tupleFree] at ht
  | .keyed kvs, w, ht, _ => by simp [tupleFree] at ht
  | .dict kvs, w, ht, h => by
    obtain ⟨kvs', hkvs, rfl⟩ := Option.map_eq_some_iff.mp h
    rw [canonEntries_eq_of_tupleFree ht hkvs]
  | .object _, w, _, h => by simp [canon] at h

theorem canonList_eq_of_tupleFree :
    ∀ {xs ys : List PyVal}, tupleFreeList xs = true → canonList xs = some ys → ys = xs
  | [], ys, _, h => by simpa [canonList, eq_comm] using h
  | x :: xs, ys, ht, h => by
    rw [tupleFreeList, Bool.and_eq_true] at ht
    obtain ⟨y, hy, h⟩ := Option.bind_eq_some_iff.mp h
    obtain ⟨ys', hys, rfl⟩ := Option.map_eq_some_iff.mp h
    rw [canon_eq_of_tupleFree ht.1 hy, canonList_eq_of_tupleFree ht.2 hys]

theorem canonEntries_eq_of_tupleFree : ∀ {kvs kvs' : List (PyStr × PyVal)},
      tupleFreeEntries kvs = true → canonEntries kvs = some kvs' → kvs' = kvs
  | [], kvs', _, h => by simpa [canonEntries, eq_comm] using h
  | (k, v) :: kvs, kvs', ht, h => by
    rw [tupleFreeEntries, Bool.and_eq_true] at ht
    obtain ⟨w, hw, h⟩ := Option.bind_eq_some_iff.mp h
    obtain ⟨kvs'', hkvs, rfl⟩ := Option.map_eq_some_iff.mp h
    rw [canon_eq_of_tupleFree ht.1 hw, canonEntries_eq_of_tupleFree ht.2 hkvs]

end

mutual

def encodable : PyVal → Bool
  | .str s => s.encodable
  | .list xs => encodableList xs
  | .tuple xs => encodableList xs
  | .dict kvs => encodableEntries kvs
  | .keyed kvs => encodableKeyed kvs
  | _ => true

def encodableList : List PyVal → Bool
  | [] => true
  | x :: xs => encodable x && encodableList xs

def encodableEntries : List (PyStr × PyVal) → Bool
  | [] => true
  | (k, v) :: kvs => k.encodable && encodable v && encodableEntries kvs

def encodableKeyed : List (PyKey × PyVal) → Bool
  | [] => true
  | (k, v) :: kvs => k.text?.all PyStr.encodable && encodable v && encodableKeyed kvs

end

mutual

def depth : PyVal → Nat
  | .list xs => depthList xs + 1
  | .tuple xs => depthList xs + 1
  | .dict kvs => depthEntries kvs + 1
  | .keyed kvs => depthKeyed kvs + 1
  | _ => 0

def depthList : List PyVal → Nat
  | [] => 0
  | x :: xs => max (depth x) (depthList xs)

def depthEntries : List (PyStr × PyVal) → Nat
  | [] => 0
  | (_, v) :: kvs => max (depth v) (depthEntries kvs)

def depthKeyed : List (PyKey × PyVal) → Nat
  | [] => 0
  | (_, v) :: kvs => max (depth v) (depthKeyed kvs)

end

/-! ### Equality -/

def number? : PyVal → Option PyFloat
  | .bool b => some (.finite (if b then 1 else 0))
  | .int n => some (.finite n)
  | .float x => some x
  | _ => Option.none

mutual

/-- `a == b`. -/
def pyEq : PyVal → PyVal → Bool
  | .none, .none => true
  | .str s, .str t => s = t
  | .list xs, .list ys => pyEqList xs ys
  | .tuple xs, .tuple ys => pyEqList xs ys
  | .dict kvs, .dict kvs' => kvs.length = kvs'.length && pyEqEntries kvs kvs'
  | .keyed kvs, .keyed kvs' => kvs.length = kvs'.length && pyEqKeyed kvs kvs'
  | .object m, .object n => m = n
  | v, w =>
    match number? v, number? w with
    | some x, some y => x = y && x ≠ .nan
    | _, _ => false
termination_by structural v => v

def pyEqList : List PyVal → List PyVal → Bool
  | [], [] => true
  | x :: xs, y :: ys => pyEq x y && pyEqList xs ys
  | _, _ => false
termination_by structural v => v

def pyEqEntries : List (PyStr × PyVal) → List (PyStr × PyVal) → Bool
  | [], _ => true
  | (k, v) :: kvs, kvs' =>
    kvs'.any (fun e => e.1 = k) && pyEq v (getEntry k .none kvs') && pyEqEntries kvs kvs'
termination_by structural v => v

def pyEqKeyed : List (PyKey × PyVal) → List (PyKey × PyVal) → Bool
  | [], _ => true
  | (k, v) :: kvs, kvs' =>
    kvs'.any (fun e => e.1.same k) && pyEq v (getKey k .none kvs') && pyEqKeyed kvs kvs'
termination_by structural v => v

end

end PyVal
