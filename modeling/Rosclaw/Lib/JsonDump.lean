/-
`json.dumps` with the defaults of the module, and `json.loads` of what it writes.

Unlike the JSON of `Lib.PyJson` this one has NaN and the infinities, and every string, since what
is not ASCII is written in escapes of UTF-16 code units.  A text is here a `Dump`: its members
stand in the order of the text, a key can come twice, and a number that is written is read as it
was.

* `normal` — the members once each, with their last values, in the order of their keys; two texts
  say the same when these are equal;
* `dumpsSorted_decode` — a text that is read is written in this form;
* `normal_of_dumps` — **the sorted text of a value is that of its decoded text if and only if it is
  in this form**.
How `sorted` arranges numbers of which one is a NaN is left open.  Values that are nested too deep
for the interpreter are left out.
-/
import Rosclaw.Lib.PyJson

namespace JsonDump

open PyJson List Option

/-! ### Strings -/

abbrev Units := List (Fin 65536)

def unitsOf (c : Nat) : Units :=
  if c < 0x10000 then [Fin.ofNat 65536 c]
  else [Fin.ofNat 65536 (0xD800 + (c - 0x10000) / 0x400),
    Fin.ofNat 65536 (0xDC00 + (c - 0x10000) % 0x400)]

def units (s : PyStr) : Units := s.codes.flatMap unitsOf

def join : Units → List Nat
  | [] => []
  | u :: us => Json.pairCons u.val (join us)

def string (us : Units) : PyStr := ⟨join us⟩

theorem unitsOf_val (u : Fin 65536) : unitsOf u.val = [u] := by
  have hu : Fin.ofNat 65536 u.val = u := Fin.ext (Nat.mod_eq_of_lt u.isLt)
  rw [unitsOf, if_pos u.isLt, hu]

variable {l u : Fin 65536}

theorem unitsOf_pair (hu : 0xD800 ≤ u.val ∧ u.val ≤ 0xDBFF) (hl : 0xDC00 ≤ l.val ∧ l.val ≤ 0xDFFF) :
    unitsOf (0x10000 + (u.val - 0xD800) * 0x400 + (l.val - 0xDC00)) = [u, l] := by
  have hhigh : Fin.ofNat 65536
      (0xD800 + (0x10000 + (u.val - 0xD800) * 0x400 + (l.val - 0xDC00) - 0x10000) / 0x400) = u := by
    refine Fin.ext ?_
    rw [Fin.val_ofNat]
    omega
  have hlow : Fin.ofNat 65536
      (0xDC00 + (0x10000 + (u.val - 0xD800) * 0x400 + (l.val - 0xDC00) - 0x10000) % 0x400) = l := by
    refine Fin.ext ?_
    rw [Fin.val_ofNat]
    omega
  rw [unitsOf, if_neg (by omega), hhigh, hlow]

theorem units_string (us : Units) : units (string us) = us := by
  induction us with
  | nil => rfl
  | cons u us ih =>
    rw [units, string] at *
    simp only at ih
    show (Json.pairCons u.val (join us)).flatMap unitsOf = u :: us
    cases hjoin : join us with
    | nil =>
      rw [hjoin] at ih
      rw [← ih]
      show unitsOf u.val ++ [] = [u]
      rw [unitsOf_val, append_nil]
    | cons low cs =>
      rw [hjoin] at ih
      rw [Json.pairCons]
      split
      · next hpair =>
        -- the code unit after it was read as itself
        have hlow : unitsOf low = [Fin.ofNat 65536 low] := by rw [unitsOf, if_pos (by omega)]
        rw [flatMap_cons, hlow] at ih
        have hval : (Fin.ofNat 65536 low).val = low := Nat.mod_eq_of_lt (by omega)
        have hunits := unitsOf_pair (u := u) (l := Fin.ofNat 65536 low) ⟨hpair.1, hpair.2.1⟩
          (by rw [hval]; exact hpair.2.2)
        rw [hval] at hunits
        rw [flatMap_cons, hunits, ← ih]
        rfl
      · rw [flatMap_cons, unitsOf_val, ih]
        rfl

/-! ### Texts -/

/-- What a text says; an integer has no more digits than `int` and `str` convert. -/
inductive Dump
  | null
  | bool (b : Bool)
  | int (n : Int) (fits : Json.intFits n = true)
  | float (x : Double)
  | nan
  | str (s : Units)
  | arr (ds : List Dump)
  | obj (es : List (Units × Dump))

def keyUnits? : Key → Option Units
  | .str s => some (units s)
  | .nan => some (units "NaN")
  | .float (.inf neg) => some (units (if neg then "-Infinity" else "Infinity"))
  | k => k.text?.map units

/-- A number, for `<` among keys. -/
def rank : Key → Int × ℚ
  | .int n => (0, n)
  | .bool b => (0, if b then 1 else 0)
  | .float (.nonzero neg x) => (0, if neg then -x.value else x.value)
  | .float (.inf neg) => (if neg then -1 else 1, 0)
  | _ => (0, 0)

def rankLe (k k' : Key) : Bool :=
  (rank k).1 < (rank k').1 || ((rank k).1 = (rank k').1 && (rank k).2 ≤ (rank k').2)

def isNumber : Key → Bool
  | .str _ | .none => false
  | _ => true

section Sorting

variable {α : Type}

/-- `sorted(d.items())`; among numbers of which one is a NaN it finds some order. -/
def sortItems (nanOrder : List Key → List Nat) (kvs : List (Key × α)) : Option (List (Key × α)) :=
  if kvs.all fun e => e.1.isStr then some (kvs.insertionSort fun e e' => e.1.codes ≤ e'.1.codes)
  else if kvs.all fun e => isNumber e.1 then
    if kvs.any fun e => e.1 = .nan then
      some ((nanOrder (kvs.map Prod.fst)).filterMap fun i => kvs[i]?)
    else some (kvs.insertionSort fun e e' => rankLe e.1 e'.1 = true)
  else if kvs.length ≤ 1 then some kvs
  else none

def textKeys : List (Key × α) → Option (List (Units × α))
  | [] => some []
  | (k, v) :: kvs => (keyUnits? k).bind fun us => (textKeys kvs).map ((us, v) :: ·)

end Sorting

mutual

def dumps : PyObj → Option Dump
  | .none => some .null
  | .bool b => some (.bool b)
  | .int n => if h : Json.intFits n = true then some (.int n h) else none
  | .float x => some (.float x)
  | .nan => some .nan
  | .str s => some (.str (units s))
  | .list xs => (dumpsItems xs).map .arr
  | .tuple xs => (dumpsItems xs).map .arr
  | .dict kvs => (dumpsEntries kvs).bind fun es => (textKeys es).map .obj
  | .other _ => none

def dumpsItems : List PyObj → Option (List Dump)
  | [] => some []
  | x :: xs => (dumps x).bind fun d => (dumpsItems xs).map (d :: ·)

def dumpsEntries : List (Key × PyObj) → Option (List (Key × Dump))
  | [] => some []
  | (k, v) :: kvs => (dumps v).bind fun d => (dumpsEntries kvs).map ((k, d) :: ·)

end

mutual

/-- `json.dumps(v, sort_keys=True)`. -/
def dumpsSorted (nanOrder : List Key → List Nat) : PyObj → Option Dump
  | .none => some .null
  | .bool b => some (.bool b)
  | .int n => if h : Json.intFits n = true then some (.int n h) else none
  | .float x => some (.float x)
  | .nan => some .nan
  | .str s => some (.str (units s))
  | .list xs => (dumpsSortedItems nanOrder xs).map .arr
  | .tuple xs => (dumpsSortedItems nanOrder xs).map .arr
  | .dict kvs => (dumpsSortedEntries nanOrder kvs).bind fun es =>
      (sortItems nanOrder es).bind fun sorted => (textKeys sorted).map .obj
  | .other _ => none

def dumpsSortedItems (nanOrder : List Key → List Nat) : List PyObj → Option (List Dump)
  | [] => some []
  | x :: xs => (dumpsSorted nanOrder x).bind fun d =>
      (dumpsSortedItems nanOrder xs).map (d :: ·)

def dumpsSortedEntries (nanOrder : List Key → List Nat) :
    List (Key × PyObj) → Option (List (Key × Dump))
  | [] => some []
  | (k, v) :: kvs => (dumpsSorted nanOrder v).bind fun d =>
      (dumpsSortedEntries nanOrder kvs).map ((k, d) :: ·)

end

mutual

/-- `json.loads`. -/
def decode : Dump → PyObj
  | .null => .none
  | .bool b => .bool b
  | .int n _ => .int n
  | .float x => .float x
  | .nan => .nan
  | .str s => .str (string s)
  | .arr ds => .list (decodeItems ds)
  | .obj es => .dict ((Json.dictOf (decodeEntries es)).map fun e => (Key.str e.1, e.2))

def decodeItems : List Dump → List PyObj
  | [] => []
  | d :: ds => decode d :: decodeItems ds

def decodeEntries : List (Units × Dump) → List (PyStr × PyObj)
  | [] => []
  | (k, d) :: es => (string k, decode d) :: decodeEntries es

end

def byKey {α : Type} (es : List (PyStr × α)) : List (PyStr × α) :=
  es.insertionSort fun e e' => e.1.codes ≤ e'.1.codes

mutual

/-- Every object with its members once each and in the order of their keys. -/
def normal : Dump → Dump
  | .arr ds => .arr (normalItems ds)
  | .obj es => .obj ((byKey (Json.dictOf (normalEntries es))).map fun e => (units e.1, e.2))
  | d => d

def normalItems : List Dump → List Dump
  | [] => []
  | d :: ds => normal d :: normalItems ds

def normalEntries : List (Units × Dump) → List (PyStr × Dump)
  | [] => []
  | (k, d) :: es => (string k, normal d) :: normalEntries es

end

mutual

def Canonical : Dump → Prop
  | .arr ds => CanonicalItems ds
  | .obj es => (es.Pairwise fun e e' => (string e.1).codes < (string e'.1).codes) ∧
      CanonicalEntries es
  | _ => True

def CanonicalItems : List Dump → Prop
  | [] => True
  | d :: ds => Canonical d ∧ CanonicalItems ds

def CanonicalEntries : List (Units × Dump) → Prop
  | [] => True
  | (_, d) :: es => Canonical d ∧ CanonicalEntries es

end

/-! ### Lists of members -/

section Members

variable {α β : Type}

theorem decodeEntries_eq (es : List (Units × Dump)) :
    decodeEntries es = (es.map fun e => (string e.1, e.2)).map fun e => (e.1, decode e.2) := by
  induction es with
  | nil => rfl
  | cons e es ih => rw [decodeEntries, ih, map_cons, map_cons]

theorem normalEntries_eq (es : List (Units × Dump)) :
    normalEntries es = (es.map fun e => (string e.1, e.2)).map fun e => (e.1, normal e.2) := by
  induction es with
  | nil => rfl
  | cons e es ih => rw [normalEntries, ih, map_cons, map_cons]

theorem canonicalEntries_iff {es : List (Units × Dump)} :
    CanonicalEntries es ↔ ∀ e ∈ es, Canonical e.2 := by
  induction es with
  | nil => simp [CanonicalEntries]
  | cons e es ih => simp [CanonicalEntries, ih]

variable {es es' : List (PyStr × α)} {kvs kvs' : List (Key × α)} (f : α → β)

theorem getList_map_snd (k : PyStr) (es : List (PyStr × α)) :
    Dict.getList k (es.map fun e => (e.1, f e.2)) = (Dict.getList k es).map f := by
  induction es with
  | nil => rfl
  | cons e es ih =>
    rw [map_cons, Dict.getList, Dict.getList, ih]
    split <;> rfl

theorem dictOf_map (es : List (PyStr × α)) :
    Json.dictOf (es.map fun e => (e.1, f e.2)) = (Json.dictOf es).map fun e => (e.1, f e.2) := by
  induction es with
  | nil => rfl
  | cons e es ih =>
    have hget : (Dict.getList e.1 ((Json.dictOf es).map fun e => (e.1, f e.2))).getD (f e.2)
        = f ((Dict.getList e.1 (Json.dictOf es)).getD e.2) := by
      rw [getList_map_snd]
      cases Dict.getList e.1 (Json.dictOf es) <;> rfl
    rw [List.map_cons, Json.dictOf, ih, Json.dictOf, List.map_cons, hget, List.filter_map]
    rfl

theorem mem_of_getList {k : PyStr} {v : α} (h : Dict.getList k es = some v) : (k, v) ∈ es := by
  induction es with
  | nil => cases h
  | cons e es ih =>
    rw [Dict.getList] at h
    split at h
    · next hk =>
      rw [← Option.some.inj h, ← hk]
      exact mem_cons_self ..
    · exact mem_cons_of_mem _ (ih h)

theorem mem_of_mem_dictOf {e : PyStr × α} (h : e ∈ Json.dictOf es) : e ∈ es := by
  induction es generalizing e with
  | nil => exact h
  | cons e' es ih =>
    rw [Json.dictOf] at h
    rcases mem_cons.mp h with rfl | h
    · cases hget : Dict.getList e'.1 (Json.dictOf es) with
      | none => exact mem_cons_self ..
      | some v =>
        rw [getD_some]
        exact mem_cons_of_mem _ (ih (mem_of_getList hget))
    · exact mem_cons_of_mem _ (ih (mem_filter.mp h).1)

theorem textKeys_str (es : List (PyStr × α)) :
    textKeys (es.map fun e => (Key.str e.1, e.2)) = some (es.map fun e => (units e.1, e.2)) := by
  induction es with
  | nil => rfl
  | cons e es ih =>
    rw [map_cons, textKeys, ih]
    rfl

theorem textKeys_eq_some {es : List (Units × α)} (h : textKeys kvs = some es) :
    es = kvs.map fun e => ((keyUnits? e.1).getD [], e.2) := by
  induction kvs generalizing es with
  | nil =>
    rw [textKeys, some_inj] at h
    rw [← h, map_nil]
  | cons e kvs ih =>
    obtain ⟨us, hus, h⟩ := bind_eq_some_iff.mp h
    obtain ⟨es', hes, rfl⟩ := map_eq_some_iff.mp h
    rw [map_cons, ← ih hes, hus]
    rfl

theorem filterMap_range (l : List α) : (List.range l.length).filterMap (fun i => l[i]?) = l := by
  induction l with
  | nil => rfl
  | cons a l ih =>
    rw [length_cons, range_succ_eq_map, filterMap_cons, filterMap_map]
    simp only [List.getElem?_cons_zero, Function.comp_def, List.getElem?_cons_succ, ih]

theorem perm_sortItems {nanOrder : List Key → List Nat}
    (hnan : ∀ ks, (nanOrder ks).Perm (List.range ks.length))
    (h : sortItems nanOrder kvs = some kvs') : kvs'.Perm kvs := by
  rw [sortItems] at h
  split at h
  · cases h
    exact perm_insertionSort _ _
  · split at h
    · split at h
      · cases h
        have hperm := (hnan (kvs.map Prod.fst)).filterMap fun i => kvs[i]?
        rw [length_map, filterMap_range] at hperm
        exact hperm
      · cases h
        exact perm_insertionSort _ _
    · split at h
      · cases h
        exact List.Perm.refl _
      · cases h

theorem sortItems_str (nanOrder : List Key → List Nat) (es : List (PyStr × α)) :
    sortItems nanOrder (es.map fun e => (Key.str e.1, e.2))
      = some ((byKey es).map fun e => (Key.str e.1, e.2)) := by
  have hall : ((es.map fun e => (Key.str e.1, e.2)).all fun e => e.1.isStr) = true := by
    rw [List.all_map, List.all_eq_true]
    exact fun _ _ => rfl
  rw [sortItems, if_pos hall, Option.some_inj, byKey]
  exact (List.map_insertionSort (fun e e' : PyStr × α => e.1.codes ≤ e'.1.codes)
    (fun e e' : Key × α => e.1.codes ≤ e'.1.codes) (fun e => (Key.str e.1, e.2)) es
    fun _ _ _ _ => Iff.rfl).symm

theorem perm_byKey (es : List (PyStr × α)) : (byKey es).Perm es := perm_insertionSort _ _

theorem pairwise_byKey (h : (es.map Prod.fst).Nodup) :
    (byKey es).Pairwise fun e e' => e.1.codes < e'.1.codes := by
  have htotal : Std.Total fun e e' : PyStr × α => e.1.codes ≤ e'.1.codes :=
    ⟨fun e e' => le_total e.1.codes e'.1.codes⟩
  have htrans : IsTrans (PyStr × α) fun e e' => e.1.codes ≤ e'.1.codes := ⟨fun _ _ _ => le_trans⟩
  have hle : (byKey es).Pairwise fun e e' => e.1.codes ≤ e'.1.codes := pairwise_insertionSort _ _
  have hne : (byKey es).Pairwise fun e e' => e.1 ≠ e'.1 :=
    pairwise_map.mp (((perm_byKey es).map Prod.fst).nodup_iff.mpr h)
  exact (hle.and hne).imp fun hboth =>
    lt_of_le_of_ne hboth.1 fun heq => hboth.2 (codes_inj heq)

theorem byKey_eq (hperm : es.Perm es') (h : es'.Pairwise fun e e' => e.1.codes < e'.1.codes) :
    byKey es = es' := by
  have hnodup : (es'.map Prod.fst).Nodup :=
    pairwise_map.mpr (h.imp fun hlt heq => hlt.ne (congrArg PyStr.codes heq))
  have hsorted := pairwise_byKey ((hperm.map Prod.fst).nodup_iff.mpr hnodup)
  refine List.Perm.eq_of_pairwise (fun a b _ _ hab hba => ?_) hsorted h
    ((perm_byKey es).trans hperm)
  exact absurd hba hab.asymm

end Members

/-! ### Reading and writing again -/

mutual

/-- **A text that is read is written in its normal form.** -/
theorem dumpsSorted_decode (nanOrder : List Key → List Nat) :
    ∀ d : Dump, dumpsSorted nanOrder (decode d) = some (normal d)
  | .null | .bool _ | .float _ | .nan => rfl
  | .int n h => by
    rw [decode, dumpsSorted, dif_pos h]
    rfl
  | .str s => by
    rw [decode, dumpsSorted, units_string]
    rfl
  | .arr ds => by
    rw [decode, dumpsSorted, dumpsSorted_decodeItems nanOrder ds, Option.map_some, normal]
  | .obj es => by
    have hentries := dumpsSorted_decodeEntries nanOrder es
    -- the dictionary has some of the members
    have hkept : ∀ kvs : List (PyStr × Dump), (∀ e ∈ kvs, e ∈ es.map fun e => (string e.1, e.2)) →
        dumpsSortedEntries nanOrder (kvs.map fun e => (Key.str e.1, decode e.2))
          = some (kvs.map fun e => (Key.str e.1, normal e.2)) := by
      intro kvs hkvs
      induction kvs with
      | nil => rfl
      | cons e kvs ih =>
        obtain ⟨e', he', heq⟩ := List.mem_map.mp (hkvs e (List.mem_cons_self ..))
        have hvalue : dumpsSorted nanOrder (decode e.2) = some (normal e.2) := by
          rw [← heq]
          exact hentries e' he'
        rw [List.map_cons, dumpsSortedEntries, hvalue, Option.bind_some,
          ih fun e he => hkvs e (List.mem_cons_of_mem _ he), Option.map_some, List.map_cons]
    have hdict := hkept (Json.dictOf (es.map fun e => (string e.1, e.2)))
      fun e he => mem_of_mem_dictOf he
    rw [decode, decodeEntries_eq, dictOf_map, List.map_map, dumpsSorted]
    rw [show ((fun e : PyStr × PyObj => (Key.str e.1, e.2)) ∘ fun e : PyStr × Dump =>
      (e.1, decode e.2)) = fun e => (Key.str e.1, decode e.2) from rfl, hdict, Option.bind_some]
    rw [show ((Json.dictOf (es.map fun e => (string e.1, e.2))).map
        fun e => (Key.str e.1, normal e.2))
      = ((Json.dictOf (es.map fun e => (string e.1, e.2))).map fun e => (e.1, normal e.2)).map
        fun e => (Key.str e.1, e.2) by rw [List.map_map]; rfl]
    rw [sortItems_str, Option.bind_some, textKeys_str, Option.map_some, normal, normalEntries_eq,
      dictOf_map]

theorem dumpsSorted_decodeItems (nanOrder : List Key → List Nat) :
    ∀ ds : List Dump, dumpsSortedItems nanOrder (decodeItems ds) = some (normalItems ds)
  | [] => rfl
  | d :: ds => by
    rw [decodeItems, dumpsSortedItems, dumpsSorted_decode nanOrder d, bind_some,
      dumpsSorted_decodeItems nanOrder ds, map_some, normalItems]

theorem dumpsSorted_decodeEntries (nanOrder : List Key → List Nat) :
    ∀ es : List (Units × Dump), ∀ e ∈ es, dumpsSorted nanOrder (decode e.2) = some (normal e.2)
  | [], e, he => absurd he not_mem_nil
  | (k, d) :: es, e, he => by
    rcases mem_cons.mp he with rfl | he
    · exact dumpsSorted_decode nanOrder d
    · exact dumpsSorted_decodeEntries nanOrder es e he

end

mutual

theorem canonical_normal : ∀ d : Dump, Canonical (normal d)
  | .null | .bool _ | .int _ _ | .float _ | .nan | .str _ => trivial
  | .arr ds => canonical_normalItems ds
  | .obj es => by
    have hentries := canonical_normalEntries es
    rw [normal, Canonical, canonicalEntries_iff]
    constructor
    · refine List.pairwise_map.mpr ((pairwise_byKey (Json.nodup_dictOf _)).imp_of_mem ?_)
      intro e e' he he' hlt
      -- the keys were read from code units
      have hkey : ∀ {e : PyStr × Dump}, e ∈ byKey (Json.dictOf (normalEntries es)) →
          string (units e.1) = e.1 := by
        intro e he
        have hmem := mem_of_mem_dictOf ((perm_byKey _).mem_iff.mp he)
        rw [normalEntries_eq, List.map_map] at hmem
        obtain ⟨e₀, -, rfl⟩ := List.mem_map.mp hmem
        show string (units (string e₀.1)) = string e₀.1
        rw [units_string]
      rw [hkey he, hkey he']
      exact hlt
    · intro e he
      obtain ⟨e', he', rfl⟩ := List.mem_map.mp he
      exact hentries e' (mem_of_mem_dictOf ((perm_byKey _).mem_iff.mp he'))

theorem canonical_normalItems : ∀ ds : List Dump, CanonicalItems (normalItems ds)
  | [] => trivial
  | d :: ds => ⟨canonical_normal d, canonical_normalItems ds⟩

theorem canonical_normalEntries : ∀ es : List (Units × Dump), ∀ e ∈ normalEntries es, Canonical e.2
  | [], e, he => absurd he not_mem_nil
  | (k, d) :: es, e, he => by
    rw [normalEntries] at he
    rcases mem_cons.mp he with rfl | he
    · exact canonical_normal d
    · exact canonical_normalEntries es e he

end

/-! ### Writing twice -/

section Twice

variable {nanOrder : List Key → List Nat} (hnan : ∀ ks, (nanOrder ks).Perm (List.range ks.length))
include hnan

mutual

theorem normal_of_dumps_of_canonical : ∀ {v : PyObj} {d c : Dump}, dumps v = some d →
    dumpsSorted nanOrder v = some c → Canonical c → normal d = c
  | .none, d, c, hd, hc, _ | .bool _, d, c, hd, hc, _ | .float _, d, c, hd, hc, _
  | .nan, d, c, hd, hc, _ | .str _, d, c, hd, hc, _ => by
    cases hd
    cases hc
    rfl
  | .int n, d, c, hd, hc, _ => by
    rw [dumps] at hd
    rw [dumpsSorted] at hc
    split at hd
    · next h =>
      rw [dif_pos h] at hc
      cases hd
      cases hc
      rfl
    · cases hd
  | .list xs, d, c, hd, hc, hcanon | .tuple xs, d, c, hd, hc, hcanon => by
    obtain ⟨ds, hds, rfl⟩ := Option.map_eq_some_iff.mp hd
    obtain ⟨cs, hcs, rfl⟩ := Option.map_eq_some_iff.mp hc
    rw [normal, normalItems_of_dumps hds hcs hcanon]
  | .dict kvs, d, c, hd, hc, hcanon => by
    obtain ⟨es, hes, hd⟩ := Option.bind_eq_some_iff.mp hd
    obtain ⟨ds, hds, rfl⟩ := Option.map_eq_some_iff.mp hd
    obtain ⟨es', hes', hc⟩ := Option.bind_eq_some_iff.mp hc
    obtain ⟨sorted, hsorted, hc⟩ := Option.bind_eq_some_iff.mp hc
    obtain ⟨cs, hcs, rfl⟩ := Option.map_eq_some_iff.mp hc
    rw [Canonical, canonicalEntries_iff] at hcanon
    obtain ⟨hkeys, hvalues⟩ := hcanon
    have hperm := perm_sortItems hnan hsorted
    have hcs' := textKeys_eq_some hcs
    have hvalues' : ∀ e ∈ es', Canonical e.2 := by
      intro e he
      have hmem : ((keyUnits? e.1).getD [], e.2) ∈ cs := by
        rw [hcs']
        exact List.mem_map_of_mem (f := fun e : Key × Dump => ((keyUnits? e.1).getD [], e.2))
          (hperm.mem_iff.mpr he)
      exact hvalues _ hmem
    -- the members of both texts are the same, in two orders
    have hmap := entries_of_dumps hes hes' hvalues'
    have hds' : (ds.map fun e => (e.1, normal e.2)).Perm cs := by
      rw [textKeys_eq_some hds, hcs', List.map_map]
      have heq : (es.map fun e => ((keyUnits? e.1).getD [], normal e.2))
          = es'.map fun e => ((keyUnits? e.1).getD [], e.2) := by
        rw [hmap, List.map_map]
        rfl
      exact (List.Perm.of_eq heq).trans (hperm.symm.map _)
    have hstrings : (ds.map fun e => (string e.1, normal e.2)).Perm
        (cs.map fun e => (string e.1, e.2)) := by
      have := hds'.map fun e => (string e.1, e.2)
      rw [List.map_map] at this
      exact this
    have hpairwise : (cs.map fun e => (string e.1, e.2)).Pairwise
        fun e e' => e.1.codes < e'.1.codes := List.pairwise_map.mpr hkeys
    have hnodup : ((ds.map fun e => (string e.1, normal e.2)).map Prod.fst).Nodup := by
      refine ((hstrings.map Prod.fst).nodup_iff).mpr (List.pairwise_map.mpr ?_)
      exact hpairwise.imp fun hlt heq => hlt.ne (congrArg PyStr.codes heq)
    have hentries : normalEntries ds = ds.map fun e => (string e.1, normal e.2) := by
      rw [normalEntries_eq, List.map_map]
      rfl
    rw [normal, hentries, Json.dictOf_self hnodup, byKey_eq hstrings hpairwise, List.map_map]
    have hid : (fun e : PyStr × Dump => (units e.1, e.2)) ∘ (fun e : Units × Dump =>
        (string e.1, e.2)) = id := by
      funext e
      show (units (string e.1), e.2) = e
      rw [units_string]
    rw [hid, List.map_id]
  | .other _, d, _, hd, _, _ => by cases hd

theorem normalItems_of_dumps : ∀ {xs : List PyObj} {ds cs : List Dump},
    dumpsItems xs = some ds → dumpsSortedItems nanOrder xs = some cs → CanonicalItems cs →
    normalItems ds = cs
  | [], ds, cs, hd, hc, _ => by
    cases hd
    cases hc
    rfl
  | x :: xs, ds, cs, hd, hc, hcanon => by
    obtain ⟨d, hd₁, hd⟩ := bind_eq_some_iff.mp hd
    obtain ⟨ds', hd₂, rfl⟩ := map_eq_some_iff.mp hd
    obtain ⟨c, hc₁, hc⟩ := bind_eq_some_iff.mp hc
    obtain ⟨cs', hc₂, rfl⟩ := map_eq_some_iff.mp hc
    rw [normalItems, normal_of_dumps_of_canonical hd₁ hc₁ hcanon.1,
      normalItems_of_dumps hd₂ hc₂ hcanon.2]

theorem entries_of_dumps : ∀ {kvs : List (Key × PyObj)} {es es' : List (Key × Dump)},
    dumpsEntries kvs = some es → dumpsSortedEntries nanOrder kvs = some es' →
    (∀ e ∈ es', Canonical e.2) → es' = es.map fun e => (e.1, normal e.2)
  | [], es, es', hd, hc, _ => by
    cases hd
    cases hc
    rfl
  | (k, v) :: kvs, es, es', hd, hc, hcanon => by
    obtain ⟨d, hd₁, hd⟩ := bind_eq_some_iff.mp hd
    obtain ⟨ds, hd₂, rfl⟩ := map_eq_some_iff.mp hd
    obtain ⟨c, hc₁, hc⟩ := bind_eq_some_iff.mp hc
    obtain ⟨cs, hc₂, rfl⟩ := map_eq_some_iff.mp hc
    have hcanon₁ := hcanon (k, c) (mem_cons_self ..)
    rw [map_cons, normal_of_dumps_of_canonical hd₁ hc₁ hcanon₁,
      entries_of_dumps hd₂ hc₂ fun e he => hcanon e (mem_cons_of_mem _ he)]

end

variable {c d : Dump}

/-- **The decoded text of a value has the sorted text of the value if and only if this is in its
normal form.** -/
theorem normal_of_dumps {v : PyObj} (hd : dumps v = some d) (hc : dumpsSorted nanOrder v = some c) :
    normal d = c ↔ Canonical c := by
  constructor
  · intro h
    rw [← h]
    exact canonical_normal d
  · exact normal_of_dumps_of_canonical hnan hd hc

end Twice

end JsonDump
