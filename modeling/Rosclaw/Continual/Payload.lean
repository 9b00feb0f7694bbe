/-
Payloads of service events, and what JSON makes of them (`feedback/contracts.py`,
`continual/services/persistence.py`).

`canonical_hash` turns the keys of dictionaries into strings by `str`, but does not look into
lists; `json` writes keys its own way.  Both sort the keys before they are written.

* `Plain` — no tuple, no key but strings, no pair of surrogates that a text would join;
* `norm_dumps_iff` — these are the payloads that are read as they were written;
* `jsonValue_plain`, `dumps_dumps` — and their hash is the hash of what is read.
-/
import Rosclaw.Lib.Text

namespace Rosclaw.Continual

open List Option

inductive Key
  | str (s : PyStr)
  | int (n : Int)
  | float (x : PyFloat)
  | bool (b : Bool)
  | none
deriving DecidableEq

inductive Value
  | none
  | bool (b : Bool)
  | int (n : Int)
  | float (x : PyFloat)
  | str (s : PyStr)
  | list (xs : List Value)
  | tuple (xs : List Value)
  | dict (kvs : List (Key × Value))
  | object (tag : Nat)

/-! ### Surrogates -/

def joins (high low : Nat) : Bool :=
  0xD800 ≤ high && high ≤ 0xDBFF && 0xDC00 ≤ low && low ≤ 0xDFFF

def joint (high low : Nat) : Nat := 0x10000 + (high - 0xD800) * 0x400 + (low - 0xDC00)

def joinCodes : List Nat → List Nat
  | high :: low :: cs =>
      if joins high low then joint high low :: joinCodes cs else high :: joinCodes (low :: cs)
  | [c] => [c]
  | [] => []

/-- `json.loads(json.dumps(s))`. -/
def joined (s : PyStr) : PyStr := ⟨joinCodes s.codes⟩

theorem le_joint (high low : Nat) : 0x10000 ≤ joint high low := by
  unfold joint
  omega

variable {c : Nat} {kvs : List (Key × α)} (cs : List Nat)

theorem not_joins_left (hc : 0x10000 ≤ c) (low : Nat) : joins c low = false := by
  simp only [joins, Bool.and_eq_false_iff, decide_eq_false_iff_not]
  omega

theorem not_joins_right (hc : 0x10000 ≤ c) (high : Nat) : joins high c = false := by
  simp only [joins, Bool.and_eq_false_iff, decide_eq_false_iff_not]
  omega

theorem joinCodes_cons {cs : List Nat} (h : ∀ low ∈ cs.head?, joins c low = false) :
    joinCodes (c :: cs) = c :: joinCodes cs := by
  cases cs with
  | nil => rfl
  | cons low cs =>
    rw [joinCodes, h low rfl]
    rfl

theorem head_joinCodes : ∀ c ∈ (joinCodes cs).head?, c ∈ cs.head? ∨ 0x10000 ≤ c := by
  intro c hc
  rcases cs with _ | ⟨high, _ | ⟨low, cs⟩⟩
  · exact .inl hc
  · exact .inl hc
  · rw [joinCodes] at hc
    split at hc
    · obtain rfl := Option.some.inj hc
      exact .inr (le_joint high low)
    · exact .inl hc

theorem joinCodes_joinCodes : joinCodes (joinCodes cs) = joinCodes cs := by
  induction cs using joinCodes.induct with
  | case1 high low cs hjoins ih =>
    have hjoint : ∀ c ∈ (joinCodes cs).head?, joins (joint high low) c = false := fun c _ =>
      not_joins_left (le_joint high low) c
    rw [joinCodes, if_pos hjoins, joinCodes_cons hjoint, ih]
  | case2 high low cs hjoins ih =>
    have hstays : ∀ c ∈ (joinCodes (low :: cs)).head?, joins high c = false := by
      intro c hc
      rcases head_joinCodes (low :: cs) c hc with hhead | hge
      · cases hhead
        exact Bool.eq_false_iff.mpr hjoins
      · exact not_joins_right hge high
    rw [joinCodes, if_neg hjoins, joinCodes_cons hstays, ih]
  | case3 c => rfl
  | case4 => rfl

@[simp] theorem joined_joined (s : PyStr) : joined (joined s) = joined s :=
  congrArg PyStr.mk (joinCodes_joinCodes s.codes)

/-! ### Keys -/

namespace Key

/-- `str(key)`; `repr` is that of floats. -/
def text (repr : PyFloat → String) : Key → PyStr
  | .str s => s
  | .int n => .ofInt n
  | .float x => repr x
  | .bool b => if b then "True" else "False"
  | .none => "None"

/-- The text that `json` writes for a key. -/
def jsonText (repr : PyFloat → String) : Key → Option PyStr
  | .str s => some (joined s)
  | .int n => some (.ofInt n)
  | .float (.finite q) => some (repr (.finite q))
  | .float _ => Option.none
  | .bool b => some (if b then "true" else "false")
  | .none => some "null"

def number? : Key → Option PyFloat
  | .int n => some (.finite n)
  | .float x => some x
  | .bool b => some (.finite (if b then 1 else 0))
  | .str _ | .none => Option.none

def codes : Key → List Nat
  | .str s => s.codes
  | _ => []

def isStr : Key → Bool
  | .str _ => true
  | _ => false

def plain : Key → Bool
  | .str s => joined s = s
  | _ => false

end Key

variable {α β : Type}

def sortStrs (kvs : List (Key × α)) : List (Key × α) :=
  kvs.insertionSort fun e e' => e.1.codes ≤ e'.1.codes

/-- `sorted(d.items())`, which compares no string and no `None` to another key. -/
def sortItems (kvs : List (Key × α)) : Option (List (Key × α)) :=
  if kvs.all fun e => e.1.isStr then some (sortStrs kvs)
  else if kvs.all fun e => e.1.number?.isSome then
    some (kvs.insertionSort fun e e' =>
      (e.1.number?.getD .nan).le (e'.1.number?.getD .nan) = true)
  else if kvs.length ≤ 1 then some kvs
  else none

def textKeys (repr : PyFloat → String) : List (Key × α) → Option (List (Key × α))
  | [] => some []
  | (k, v) :: kvs =>
      (k.jsonText repr).bind fun s => (textKeys repr kvs).map ((.str s, v) :: ·)

section

variable (repr : PyFloat → String)

mutual

/-- `_json_value`, for which a list is no mapping and no tuple.  Keys that become the same string
are different in `json`, which cannot sort them and raises. -/
def jsonValue : Value → Value
  | .tuple xs => .list (jsonItems xs)
  | .dict kvs => .dict (jsonEntries kvs)
  | v => v

def jsonItems : List Value → List Value
  | [] => []
  | x :: xs => jsonValue x :: jsonItems xs

def jsonEntries : List (Key × Value) → List (Key × Value)
  | [] => []
  | (k, v) :: kvs => (.str (k.text repr), jsonValue v) :: jsonEntries kvs

end

mutual

/-- `json.loads(json.dumps(v, sort_keys=True, allow_nan=False))`. -/
def dumps : Value → Option Value
  | .none => some .none
  | .bool b => some (.bool b)
  | .int n => some (.int n)
  | .float (.finite q) => some (.float (.finite q))
  | .float _ => Option.none
  | .str s => some (.str (joined s))
  | .list xs => (dumpsItems xs).map .list
  | .tuple xs => (dumpsItems xs).map .list
  | .dict kvs => (dumpsEntries kvs).bind fun es =>
      (sortItems es).bind fun sorted => (textKeys repr sorted).map .dict
  | .object _ => Option.none

def dumpsItems : List Value → Option (List Value)
  | [] => some []
  | x :: xs => (dumps x).bind fun y => (dumpsItems xs).map (y :: ·)

def dumpsEntries : List (Key × Value) → Option (List (Key × Value))
  | [] => some []
  | (k, v) :: kvs => (dumps v).bind fun w => (dumpsEntries kvs).map ((k, w) :: ·)

end

end

mutual

/-- What Python's `==` sees: the entries without their order. -/
def norm : Value → Value
  | .list xs => .list (normItems xs)
  | .tuple xs => .tuple (normItems xs)
  | .dict kvs => .dict (sortStrs (normEntries kvs))
  | v => v

def normItems : List Value → List Value
  | [] => []
  | x :: xs => norm x :: normItems xs

def normEntries : List (Key × Value) → List (Key × Value)
  | [] => []
  | (k, v) :: kvs => (k, norm v) :: normEntries kvs

end

mutual

/-- JSON gives the value back as it was. -/
def Plain : Value → Prop
  | .str s => joined s = s
  | .list xs => PlainItems xs
  | .tuple _ => False
  | .dict kvs => PlainEntries kvs
  | _ => True

def PlainItems : List Value → Prop
  | [] => True
  | x :: xs => Plain x ∧ PlainItems xs

def PlainEntries : List (Key × Value) → Prop
  | [] => True
  | (k, v) :: kvs => (k.plain = true ∧ Plain v) ∧ PlainEntries kvs

end

/-! ### The order of keys -/

theorem plainEntries_iff {kvs : List (Key × Value)} :
    PlainEntries kvs ↔ ∀ e ∈ kvs, e.1.plain = true ∧ Plain e.2 := by
  induction kvs with
  | nil => simp [PlainEntries]
  | cons e kvs ih => rw [PlainEntries, ih, forall_mem_cons]

theorem isStr_of_plain {k : Key} (h : k.plain = true) : k.isStr = true := by
  cases k with
  | str s => rfl
  | _ => cases h

theorem mem_sortStrs {kvs : List (Key × α)} {e : Key × α} : e ∈ sortStrs kvs ↔ e ∈ kvs :=
  mem_insertionSort _

instance totalCodes : Std.Total fun e e' : Key × α => e.1.codes ≤ e'.1.codes :=
  ⟨fun e e' => le_total e.1.codes e'.1.codes⟩

instance transCodes : IsTrans (Key × α) fun e e' => e.1.codes ≤ e'.1.codes :=
  ⟨fun _ _ _ => le_trans⟩

theorem sortStrs_sortStrs (kvs : List (Key × α)) : sortStrs (sortStrs kvs) = sortStrs kvs :=
  (pairwise_insertionSort _ kvs).insertionSort_eq

theorem sortItems_plain (h : ∀ e ∈ kvs, e.1.plain = true) :
    sortItems kvs = some (sortStrs kvs) := by
  have hall : (kvs.all fun e => e.1.isStr) = true :=
    all_eq_true.mpr fun e he => isStr_of_plain (h e he)
  rw [sortItems, if_pos hall]

theorem textKeys_plain (repr : PyFloat → String) (h : ∀ e ∈ kvs, e.1.plain = true) :
    textKeys repr kvs = some kvs := by
  induction kvs with
  | nil => rfl
  | cons e kvs ih =>
    obtain ⟨k, v⟩ := e
    have hk : k.plain = true := h _ mem_cons_self
    cases k with
    | str s =>
      have hjoined : joined s = s := of_decide_eq_true hk
      rw [textKeys, Key.jsonText, bind_some, hjoined,
        ih fun e he => h e (mem_cons_of_mem _ he), map_some]
    | _ => cases hk

/-! ### What is written is plain -/

@[simp] theorem joined_ofString (s : String) : joined (.ofString s) = .ofString s := by
  have hcodes : ∀ cs : List Char, joinCodes (cs.map Char.toNat) = cs.map Char.toNat := by
    intro cs
    induction cs with
    | nil => rfl
    | cons c cs ih =>
      have hnot : ∀ low, joins c.toNat low = false := by
        intro low
        have hc : c.toNat < 0xD800 ∨ 0xDFFF < c.toNat ∧ c.toNat < 0x110000 := c.valid
        simp only [joins, Bool.and_eq_false_iff, decide_eq_false_iff_not]
        omega
      rw [map_cons, joinCodes_cons fun low _ => hnot low, ih]
  exact congrArg PyStr.mk (hcodes s.toList)

section

variable {repr : PyFloat → String}

theorem joined_jsonText {k : Key} {s : PyStr} (h : k.jsonText repr = some s) : joined s = s := by
  cases k with
  | str t =>
    cases h
    exact joined_joined t
  | int n =>
    cases h
    exact joined_ofString _
  | float x =>
    cases x with
    | finite q =>
      cases h
      exact joined_ofString _
    | _ => cases h
  | bool b =>
    cases h
    cases b <;> exact joined_ofString _
  | none =>
    cases h
    exact joined_ofString _

variable {kvs sorted ts : List (Key × α)} {v w : Value}

theorem mem_textKeys (h : textKeys repr kvs = some ts) :
    ∀ e ∈ ts, e.1.plain = true ∧ ∃ e' ∈ kvs, e'.2 = e.2 := by
  induction kvs generalizing ts with
  | nil =>
    cases h
    exact fun e he => by cases he
  | cons e₀ kvs ih =>
    obtain ⟨k, v⟩ := e₀
    obtain ⟨s, hs, h⟩ := bind_eq_some_iff.mp h
    obtain ⟨ts', hts, rfl⟩ := map_eq_some_iff.mp h
    intro e he
    rcases mem_cons.mp he with rfl | he
    · exact ⟨decide_eq_true (joined_jsonText hs), _, mem_cons_self, rfl⟩
    · obtain ⟨hplain, e', he', heq⟩ := ih hts e he
      exact ⟨hplain, e', mem_cons_of_mem _ he', heq⟩

theorem mem_sortItems (h : sortItems kvs = some sorted) : ∀ e ∈ sorted, e ∈ kvs := by
  unfold sortItems at h
  split at h
  · cases h
    exact fun e => mem_sortStrs.mp
  · split at h
    · cases h
      exact fun e => (mem_insertionSort _).mp
    · split at h
      · cases h
        exact fun e he => he
      · cases h

mutual

theorem plain_of_dumps : ∀ {v w : Value}, dumps repr v = some w → Plain w
  | .none, w, h | .bool _, w, h | .int _, w, h => by
    cases h
    trivial
  | .float x, w, h => by
    cases x with
    | finite q =>
      cases h
      trivial
    | _ => cases h
  | .str s, w, h => by
    cases h
    exact joined_joined s
  | .list xs, w, h | .tuple xs, w, h => by
    obtain ⟨ys, hys, rfl⟩ := map_eq_some_iff.mp h
    exact plainItems_of_dumps hys
  | .dict kvs, w, h => by
    obtain ⟨es, hes, h⟩ := bind_eq_some_iff.mp h
    obtain ⟨sorted, hsorted, h⟩ := bind_eq_some_iff.mp h
    obtain ⟨ts, hts, rfl⟩ := map_eq_some_iff.mp h
    refine plainEntries_iff.mpr fun e he => ?_
    obtain ⟨hplain, e', he', heq⟩ := mem_textKeys hts e he
    rw [← heq]
    exact ⟨hplain, plainValues_of_dumps hes e' (mem_sortItems hsorted e' he')⟩
  | .object _, w, h => by cases h

theorem plainItems_of_dumps : ∀ {xs ys : List Value}, dumpsItems repr xs = some ys → PlainItems ys
  | [], ys, h => by
    cases h
    trivial
  | x :: xs, ys, h => by
    obtain ⟨y, hy, h⟩ := bind_eq_some_iff.mp h
    obtain ⟨ys', hys, rfl⟩ := map_eq_some_iff.mp h
    exact ⟨plain_of_dumps hy, plainItems_of_dumps hys⟩

theorem plainValues_of_dumps :
    ∀ {kvs es : List (Key × Value)}, dumpsEntries repr kvs = some es → ∀ e ∈ es, Plain e.2
  | [], es, h => by
    cases h
    exact fun e he => by cases he
  | (k, v) :: kvs, es, h => by
    obtain ⟨w, hw, h⟩ := bind_eq_some_iff.mp h
    obtain ⟨es', hes, rfl⟩ := map_eq_some_iff.mp h
    intro e he
    rcases mem_cons.mp he with rfl | he
    · exact plain_of_dumps hw
    · exact plainValues_of_dumps hes e he

end

/-! ### What is plain is read as it was written -/

theorem dumpsEntries_self {es : List (Key × Value)} (h : ∀ e ∈ es, dumps repr e.2 = some e.2) :
    dumpsEntries repr es = some es := by
  induction es with
  | nil => rfl
  | cons e es ih =>
    rw [dumpsEntries, h e mem_cons_self, bind_some,
      ih fun e he => h e (mem_cons_of_mem _ he), map_some]

mutual

theorem dumps_plain : ∀ {v w : Value}, Plain v → dumps repr v = some w → w = norm v
  | .none, w, _, h | .bool _, w, _, h | .int _, w, _, h => (Option.some.inj h).symm
  | .float x, w, _, h => by
    cases x with
    | finite q => exact (Option.some.inj h).symm
    | _ => cases h
  | .str s, w, hv, h => by
    cases h
    exact congrArg Value.str hv
  | .list xs, w, hv, h => by
    obtain ⟨ys, hys, rfl⟩ := map_eq_some_iff.mp h
    rw [dumpsItems_plain hv hys, norm]
  | .tuple xs, w, hv, _ => absurd hv (by simp [Plain])
  | .dict kvs, w, hv, h => by
    obtain ⟨es, hes, h⟩ := bind_eq_some_iff.mp h
    obtain ⟨hes, hkeys⟩ := dumpsEntries_plain hv hes
    rw [sortItems_plain hkeys, bind_some,
      textKeys_plain repr fun e he => hkeys e (mem_sortStrs.mp he)] at h
    cases h
    rw [norm, hes]
  | .object _, w, _, h => by cases h

theorem dumpsItems_plain :
    ∀ {xs ys : List Value}, PlainItems xs → dumpsItems repr xs = some ys → ys = normItems xs
  | [], ys, _, h => (Option.some.inj h).symm
  | x :: xs, ys, hx, h => by
    obtain ⟨y, hy, h⟩ := bind_eq_some_iff.mp h
    obtain ⟨ys', hys, rfl⟩ := map_eq_some_iff.mp h
    rw [normItems, dumps_plain hx.1 hy, dumpsItems_plain hx.2 hys]

theorem dumpsEntries_plain :
    ∀ {kvs es : List (Key × Value)}, PlainEntries kvs → dumpsEntries repr kvs = some es →
      es = normEntries kvs ∧ ∀ e ∈ es, e.1.plain = true
  | [], es, _, h => by
    cases h
    exact ⟨rfl, fun e he => by cases he⟩
  | (k, v) :: kvs, es, hkv, h => by
    obtain ⟨w, hw, h⟩ := bind_eq_some_iff.mp h
    obtain ⟨es', hes, rfl⟩ := map_eq_some_iff.mp h
    obtain ⟨hnorm, hkeys⟩ := dumpsEntries_plain hkv.2 hes
    refine ⟨?_, forall_mem_cons.mpr ⟨hkv.1.1, hkeys⟩⟩
    rw [normEntries, dumps_plain hkv.1.2 hw, hnorm]

end

mutual

theorem dumps_dumps : ∀ {v w : Value}, Plain v → dumps repr v = some w → dumps repr w = some w
  | .none, w, _, h | .bool _, w, _, h | .int _, w, _, h => by
    cases h
    rfl
  | .float x, w, _, h => by
    cases x with
    | finite q =>
      cases h
      rfl
    | _ => cases h
  | .str s, w, _, h => by
    cases h
    rw [dumps, joined_joined]
  | .list xs, w, hv, h => by
    obtain ⟨ys, hys, rfl⟩ := map_eq_some_iff.mp h
    rw [dumps, dumpsItems_dumps hv hys, map_some]
  | .tuple xs, w, hv, _ => absurd hv (by simp [Plain])
  | .dict kvs, w, hv, h => by
    obtain ⟨es, hes, h⟩ := bind_eq_some_iff.mp h
    have hkeys := (dumpsEntries_plain hv hes).2
    have hsorted : ∀ e ∈ sortStrs es, e.1.plain = true := fun e he =>
      hkeys e (mem_sortStrs.mp he)
    rw [sortItems_plain hkeys, bind_some, textKeys_plain repr hsorted] at h
    cases h
    have hwritten : dumpsEntries repr (sortStrs es) = some (sortStrs es) :=
      dumpsEntries_self fun e he => dumpsValues_dumps hv hes e (mem_sortStrs.mp he)
    rw [dumps, hwritten, bind_some, sortItems_plain hsorted, sortStrs_sortStrs,
      bind_some, textKeys_plain repr hsorted, map_some]
  | .object _, w, _, h => by cases h

theorem dumpsItems_dumps : ∀ {xs ys : List Value}, PlainItems xs → dumpsItems repr xs = some ys →
      dumpsItems repr ys = some ys
  | [], ys, _, h => by
    cases h
    rfl
  | x :: xs, ys, hx, h => by
    obtain ⟨y, hy, h⟩ := bind_eq_some_iff.mp h
    obtain ⟨ys', hys, rfl⟩ := map_eq_some_iff.mp h
    rw [dumpsItems, dumps_dumps hx.1 hy, bind_some, dumpsItems_dumps hx.2 hys, map_some]

theorem dumpsValues_dumps :
    ∀ {kvs es : List (Key × Value)}, PlainEntries kvs → dumpsEntries repr kvs = some es →
      ∀ e ∈ es, dumps repr e.2 = some e.2
  | [], es, _, h => by
    cases h
    exact fun e he => by cases he
  | (k, v) :: kvs, es, hkv, h => by
    obtain ⟨w, hw, h⟩ := bind_eq_some_iff.mp h
    obtain ⟨es', hes, rfl⟩ := map_eq_some_iff.mp h
    intro e he
    rcases mem_cons.mp he with rfl | he
    · exact dumps_dumps hkv.1.2 hw
    · exact dumpsValues_dumps hkv.2 hes e he

end

mutual

theorem jsonValue_plain : ∀ {v : Value}, Plain v → jsonValue repr v = v
  | .tuple xs, hv => absurd hv (by simp [Plain])
  | .dict kvs, hv => by rw [jsonValue, jsonEntries_plain hv]
  | .none, _ | .bool _, _ | .int _, _ | .float _, _ | .str _, _ | .list _, _ | .object _, _ => rfl

theorem jsonEntries_plain :
    ∀ {kvs : List (Key × Value)}, PlainEntries kvs → jsonEntries repr kvs = kvs
  | [], _ => rfl
  | (.str s, v) :: kvs, hkv => by
    rw [jsonEntries, jsonValue_plain hkv.1.2, jsonEntries_plain hkv.2]
    rfl
  | (.int _, _) :: _, hkv | (.float _, _) :: _, hkv | (.bool _, _) :: _, hkv
  | (.none, _) :: _, hkv => by cases hkv.1.1

end

mutual

theorem plain_norm : ∀ {v : Value}, Plain (norm v) ↔ Plain v
  | .none | .bool _ | .int _ | .float _ | .str _ | .object _ => Iff.rfl
  | .list xs => plainItems_norm
  | .tuple xs => Iff.rfl
  | .dict kvs => by
    have hsorted : PlainEntries (sortStrs (normEntries kvs)) ↔ PlainEntries (normEntries kvs) := by
      rw [plainEntries_iff, plainEntries_iff]
      exact forall_congr' fun e => by rw [mem_sortStrs]
    exact hsorted.trans plainEntries_norm

theorem plainItems_norm : ∀ {xs : List Value}, PlainItems (normItems xs) ↔ PlainItems xs
  | [] => Iff.rfl
  | _ :: _ => and_congr plain_norm plainItems_norm

theorem plainEntries_norm :
    ∀ {kvs : List (Key × Value)}, PlainEntries (normEntries kvs) ↔ PlainEntries kvs
  | [] => Iff.rfl
  | (_, _) :: _ => and_congr (and_congr_right fun _ => plain_norm) plainEntries_norm

end

/-- **A value is read as it was written if and only if it is plain.** -/
theorem norm_dumps_iff (h : dumps repr v = some w) : norm w = norm v ↔ Plain v := by
  constructor
  · intro heq
    have hw : Plain (norm w) := plain_norm.mpr (plain_of_dumps h)
    rw [heq] at hw
    exact plain_norm.mp hw
  · intro hv
    rw [← dumps_plain (plain_of_dumps h) (dumps_dumps hv h)]
    exact dumps_plain hv h

end

end Rosclaw.Continual
