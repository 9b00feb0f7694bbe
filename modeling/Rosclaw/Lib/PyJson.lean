/-
Python values in JSON with sorted keys.

The keys of a dictionary may be of any type that `json.dumps` accepts.  The members are sorted by
the keys before these are turned into texts; of what is read back the keys are texts, by which it
is sorted when it is written again.

* `arrange_laws`, `reencoded` — **a text is written again as it was if and only if the value is
  ordered**.
-/
import Rosclaw.Lib.JsonLaws

namespace PyJson

open Json List Option

inductive Key
  | str (s : PyStr)
  | int (n : Int)
  | float (x : Double)
  | nan
  | bool (b : Bool)
  | none
deriving DecidableEq

/-- A Python value; `other` is what `json` does not write. -/
inductive PyObj
  | none
  | bool (b : Bool)
  | int (n : Int)
  | float (x : Double)
  | nan
  | str (s : PyStr)
  | list (xs : List PyObj)
  | tuple (xs : List PyObj)
  | dict (kvs : List (Key × PyObj))
  | other (tag : Nat)

def ofChars (t : List Char) : PyStr := ⟨t.map Char.toNat⟩

namespace Key

def chars? : Key → Option (List Char)
  | .int n => if intFits n then some (Json.text (.int n)) else Option.none
  | .float x => x.repr?
  | .bool b => some (Json.text (.bool b))
  | .none => some (Json.text .null)
  | _ => Option.none

/-- The text that `json` writes for a key. -/
def text? : Key → Option PyStr
  | .str s => some s
  | k => k.chars?.map ofChars

/-- The number that a key is compared as; keys that are not finite raise later. -/
def number? : Key → Option ℚ
  | .int n => some n
  | .float (.zero _) => some 0
  | .float (.nonzero neg x) => some (if neg then -x.value else x.value)
  | .bool b => some (if b then 1 else 0)
  | _ => Option.none

def isStr : Key → Bool
  | .str _ => true
  | _ => false

def codes : Key → List Nat
  | .str s => s.codes
  | _ => []

/-- `k == k'`, of keys that are not NaN. -/
def Same (k k' : Key) : Prop := k = k' ∨ ∃ q, k.number? = some q ∧ k'.number? = some q

theorem Same.symm {k k' : Key} (h : k.Same k') : k'.Same k := by
  rcases h with heq | ⟨q, hq, hq'⟩
  · exact .inl heq.symm
  · exact .inr ⟨q, hq', hq⟩

end Key

variable {α : Type}

/-- `sorted(d.items())`, which compares no string and no `None` to another key. -/
def sortItems (kvs : List (Key × α)) : Option (List (Key × α)) :=
  if kvs.all fun e => e.1.isStr then some (kvs.insertionSort fun e e' => e.1.codes ≤ e'.1.codes)
  else if kvs.all fun e => e.1.number?.isSome then
    some (kvs.insertionSort fun e e' => e.1.number?.getD 0 ≤ e'.1.number?.getD 0)
  else if kvs.length ≤ 1 then some kvs
  else none

def textKeys : List (Key × α) → Option (List (PyStr × α))
  | [] => some []
  | (k, v) :: kvs => k.text?.bind fun s => (textKeys kvs).map ((s, v) :: ·)

mutual

/-- What `json.dumps(v, sort_keys=True)` writes. -/
def arrange : PyObj → Option Json
  | .none => some .null
  | .bool b => some (.bool b)
  | .int n => some (.int n)
  | .float x => some (.float x)
  | .nan => Option.none
  | .str s => some (.str s)
  | .list xs => (arrangeItems xs).map .arr
  | .tuple xs => (arrangeItems xs).map .arr
  | .dict kvs => (arrangeEntries kvs).bind fun es =>
      (sortItems es).bind fun sorted => (textKeys sorted).map .obj
  | .other _ => Option.none

def arrangeItems : List PyObj → Option (List Json)
  | [] => some []
  | x :: xs => (arrange x).bind fun y => (arrangeItems xs).map (y :: ·)

def arrangeEntries : List (Key × PyObj) → Option (List (Key × Json))
  | [] => some []
  | (k, v) :: kvs => (arrange v).bind fun w => (arrangeEntries kvs).map ((k, w) :: ·)

end

def encoded (limit : Nat) (w : Json) : Option (List Char) :=
  if check limit w = .ok () ∧ w.encodable = true then some (text w) else none

/-- `json.dumps(v, sort_keys=True, separators=(",", ":"), ensure_ascii=False, allow_nan=False)`, and
the encoding of its text in UTF-8. -/
def canonicalJson (limit : Nat) (v : PyObj) : Option (List Char) :=
  (arrange v).bind (encoded limit)

mutual

/-- What `json.loads` returns. -/
def ofJson : Json → PyObj
  | .null => .none
  | .bool b => .bool b
  | .int n => .int n
  | .float x => .float x
  | .str s => .str s
  | .arr xs => .list (ofItems xs)
  | .obj kvs => .dict (ofEntries kvs)

def ofItems : List Json → List PyObj
  | [] => []
  | x :: xs => ofJson x :: ofItems xs

def ofEntries : List (PyStr × Json) → List (Key × PyObj)
  | [] => []
  | (k, v) :: kvs => (.str k, ofJson v) :: ofEntries kvs

end

mutual

def WellFormed : PyObj → Prop
  | .list xs | .tuple xs => WellFormedItems xs
  | .dict kvs => (kvs.map Prod.fst).Pairwise (fun k k' => ¬ k.Same k') ∧ WellFormedEntries kvs
  | _ => True

def WellFormedItems : List PyObj → Prop
  | [] => True
  | x :: xs => WellFormed x ∧ WellFormedItems xs

def WellFormedEntries : List (Key × PyObj) → Prop
  | [] => True
  | (_, v) :: kvs => WellFormed v ∧ WellFormedEntries kvs

end

def KeysOrdered (keys : List Key) : Prop :=
  ∀ k ∈ keys, ∀ k' ∈ keys, ∀ q q', k.number? = some q → k'.number? = some q' → q < q' →
    ∀ s s', k.text? = some s → k'.text? = some s' → s.codes < s'.codes

mutual

/-- The numbers among the keys of a dictionary are in the order of their texts. -/
def Ordered : PyObj → Prop
  | .list xs | .tuple xs => OrderedItems xs
  | .dict kvs => KeysOrdered (kvs.map Prod.fst) ∧ OrderedEntries kvs
  | _ => True

def OrderedItems : List PyObj → Prop
  | [] => True
  | x :: xs => Ordered x ∧ OrderedItems xs

def OrderedEntries : List (Key × PyObj) → Prop
  | [] => True
  | (_, v) :: kvs => Ordered v ∧ OrderedEntries kvs

end

mutual

def Ascending : Json → Prop
  | .arr xs => AscendingItems xs
  | .obj kvs => (kvs.map Prod.fst).Pairwise (fun s s' => s.codes < s'.codes) ∧ AscendingEntries kvs
  | _ => True

def AscendingItems : List Json → Prop
  | [] => True
  | x :: xs => Ascending x ∧ AscendingItems xs

def AscendingEntries : List (PyStr × Json) → Prop
  | [] => True
  | (_, v) :: kvs => Ascending v ∧ AscendingEntries kvs

end

/-! ### The texts of keys -/

def readKey (t : List Char) : Option Key :=
  if t = Json.text (.bool true) then some (.bool true)
  else if t = Json.text (.bool false) then some (.bool false)
  else if t = Json.text .null then some .none
  else (Numeral.scan t).map fun p =>
    if p.1.isFloat then .float (Double.ofRat p.1.neg p.1.decimal.value) else .int p.1.int

variable {es : List (PyStr × Json)} {limit : Nat} {q q' : ℚ} {s s' : PyStr} {t t' y : List Char}

theorem readKey_of_scan {n : Numeral} (h : Numeral.scan t = some (n, y)) :
    readKey t = some (if n.isFloat then .float (Double.ofRat n.neg n.decimal.value)
      else .int n.int) := by
  have hne : ∀ c cs, c.isDigit = false → c ≠ '-' → t ≠ c :: cs := by
    rintro c cs hdigit hminus rfl
    obtain ⟨d, hd, hhead⟩ := Numeral.scan_head h
    cases hd
    rcases hhead with hhead | hhead
    · exact hminus hhead
    · cases hdigit.symm.trans hhead
  have htrue : t ≠ Json.text (.bool true) := hne 't' _ rfl (by decide)
  have hfalse : t ≠ Json.text (.bool false) := hne 'f' _ rfl (by decide)
  have hnull : t ≠ Json.text .null := hne 'n' _ rfl (by decide)
  rw [readKey, if_neg htrue, if_neg hfalse, if_neg hnull, h, map_some]

variable {k : Key}

theorem readKey_chars (ht : k.chars? = some t) : readKey t = some k := by
  cases k with
  | int n =>
    rw [Key.chars?] at ht
    split at ht
    · cases ht
      obtain ⟨m, hscan, hfloat, -, hint⟩ := scan_intText n JsonText.delimited_nil
      rw [append_nil] at hscan
      rw [readKey_of_scan hscan, hfloat, if_neg Bool.false_ne_true, hint]
    · cases ht
  | float x =>
    obtain ⟨m, hscan, hfloat, hvalue⟩ := Numeral.scan_repr ht JsonText.delimited_nil
    rw [append_nil] at hscan
    rw [readKey_of_scan hscan, hfloat, if_pos rfl, hvalue]
  | bool b =>
    cases ht
    cases b with
    | true => rw [readKey, if_pos rfl]
    | false => rw [readKey, if_neg (by decide), if_pos rfl]
  | none =>
    cases ht
    rw [readKey, if_neg (by decide), if_neg (by decide), if_pos rfl]
  | _ => cases ht

theorem ofChars_inj (h : ofChars t = ofChars t') : t = t' :=
  (List.map_inj_right fun _ _ => Char.toNat_inj.mp).mp (PyStr.mk.inj h)

theorem validStr_ofChars (t : List Char) : Json.validStr (ofChars t) = true := by
  rw [Json.validStr, ofChars, List.all_map, List.all_eq_true]
  exact fun c _ => decide_eq_true c.valid

theorem key_eq_of_text {k k' : Key} (hk : k.isStr = false) (hk' : k'.isStr = false)
    (hs : k.text? = some s) (hs' : k'.text? = some s) : k = k' := by
  have hchars : ∀ {k : Key}, k.isStr = false → k.text? = k.chars?.map ofChars := by
    intro k hk
    cases k with
    | str s => cases hk
    | _ => rfl
  rw [hchars hk] at hs
  rw [hchars hk'] at hs'
  obtain ⟨t, ht, rfl⟩ := map_eq_some_iff.mp hs
  obtain ⟨t', ht', heq⟩ := map_eq_some_iff.mp hs'
  obtain rfl := ofChars_inj heq
  have hread := readKey_chars ht
  rw [readKey_chars ht'] at hread
  exact (Option.some.inj hread).symm

theorem not_isStr_of_number (hq : k.number? = some q) : k.isStr = false := by
  cases k with
  | str s => cases hq
  | _ => rfl

theorem number_eq_of_text {k k' : Key} (hq : k.number? = some q) (hq' : k'.number? = some q')
    (hs : k.text? = some s) (hs' : k'.text? = some s) : q = q' := by
  obtain rfl := key_eq_of_text (not_isStr_of_number hq) (not_isStr_of_number hq') hs hs'
  exact Option.some.inj (hq.symm.trans hq')

/-! ### The order of the members -/

theorem sortItems_cases {kvs sorted : List (Key × α)} (h : sortItems kvs = some sorted) :
    sorted.Perm kvs ∧ ((∀ e ∈ sorted, e.1.isStr = true) ∧
          sorted.Pairwise (fun e e' => e.1.codes ≤ e'.1.codes) ∨
        (∀ e ∈ sorted, e.1.number?.isSome = true) ∧
          sorted.Pairwise (fun e e' => e.1.number?.getD 0 ≤ e'.1.number?.getD 0) ∨
        sorted.length ≤ 1) := by
  rw [sortItems] at h
  split at h
  · case isTrue hstr =>
    cases h
    have hperm := perm_insertionSort (fun e e' : Key × α => e.1.codes ≤ e'.1.codes) kvs
    refine ⟨hperm, .inl ⟨fun e he => ?_, ?_⟩⟩
    · exact all_eq_true.mp hstr e (hperm.subset he)
    · have htotal : Std.Total fun e e' : Key × α => e.1.codes ≤ e'.1.codes :=
        ⟨fun e e' => le_total e.1.codes e'.1.codes⟩
      have htrans : IsTrans (Key × α) fun e e' => e.1.codes ≤ e'.1.codes := ⟨fun _ _ _ => le_trans⟩
      exact pairwise_insertionSort _ kvs
  · split at h
    · case isTrue hnum =>
      cases h
      have hperm := perm_insertionSort
        (fun e e' : Key × α => e.1.number?.getD 0 ≤ e'.1.number?.getD 0) kvs
      refine ⟨hperm, .inr (.inl ⟨fun e he => ?_, ?_⟩)⟩
      · exact all_eq_true.mp hnum e (hperm.subset he)
      · have htotal : Std.Total fun e e' : Key × α =>
            e.1.number?.getD 0 ≤ e'.1.number?.getD 0 :=
          ⟨fun e e' => le_total (e.1.number?.getD 0) (e'.1.number?.getD 0)⟩
        have htrans : IsTrans (Key × α) fun e e' =>
            e.1.number?.getD 0 ≤ e'.1.number?.getD 0 := ⟨fun _ _ _ => le_trans⟩
        exact pairwise_insertionSort _ kvs
    · split at h
      · case isTrue hone =>
        cases h
        exact ⟨.refl _, .inr (.inr hone)⟩
      · cases h

def Key.text (k : Key) : PyStr := k.text?.getD ⟨[]⟩

theorem textKeys_some {kvs : List (Key × α)} {es : List (PyStr × α)} (h : textKeys kvs = some es) :
    es = kvs.map (fun e => (e.1.text, e.2)) ∧ ∀ e ∈ kvs, e.1.text? = some e.1.text := by
  induction kvs generalizing es with
  | nil =>
    cases h
    exact ⟨rfl, fun e he => by cases he⟩
  | cons e kvs ih =>
    rw [textKeys] at h
    obtain ⟨s, hs, h⟩ := bind_eq_some_iff.mp h
    obtain ⟨es, hes, rfl⟩ := map_eq_some_iff.mp h
    obtain ⟨rfl, htexts⟩ := ih hes
    have htext : e.1.text = s := by rw [Key.text, hs, getD_some]
    refine ⟨by rw [map_cons, htext], fun d hd => ?_⟩
    rcases mem_cons.mp hd with rfl | hd
    · rw [htext]
      exact hs
    · exact htexts d hd

theorem text_of_isStr (h : k.isStr = true) : k = .str k.text ∧ k.codes = k.text.codes := by
  cases k with
  | str s => exact ⟨rfl, rfl⟩
  | _ => cases h

theorem number_of_isStr (h : k.isStr = true) : k.number? = none := by
  cases k with
  | str s => rfl
  | _ => cases h

theorem codes_inj (h : s.codes = s'.codes) : s = s' := by
  cases s
  exact congrArg PyStr.mk h

/-- Members that have been sorted: no text is there twice, and the texts are sorted too if and only
if the keys are in the order of their texts. -/
theorem sorted_texts {es : List (Key × α)} (hcases : (∀ e ∈ es, e.1.isStr = true) ∧
          es.Pairwise (fun e e' => e.1.codes ≤ e'.1.codes) ∨
        (∀ e ∈ es, e.1.number?.isSome = true) ∧
          es.Pairwise (fun e e' => e.1.number?.getD 0 ≤ e'.1.number?.getD 0) ∨
        es.length ≤ 1)
    (htext : ∀ e ∈ es, e.1.text? = some e.1.text)
    (hsame : es.Pairwise fun e e' => ¬ e.1.Same e'.1) :
    es.Pairwise (fun e e' => e.1.text ≠ e'.1.text) ∧
      (es.Pairwise (fun e e' => e.1.text.codes < e'.1.text.codes) ↔
        KeysOrdered (es.map Prod.fst)) := by
  rcases hcases with ⟨hstr, hsorted⟩ | ⟨hnum, hsorted⟩ | hone
  · have hne : es.Pairwise fun e e' => e.1.text ≠ e'.1.text := by
      refine hsame.imp_of_mem fun he he' hsame heq => hsame (.inl ?_)
      rw [(text_of_isStr (hstr _ he)).1, heq]
      exact (text_of_isStr (hstr _ he')).1.symm
    refine ⟨hne, fun _ k hk k' _ q q' hq => ?_, fun _ => ?_⟩
    · obtain ⟨e, he, rfl⟩ := mem_map.mp hk
      rw [number_of_isStr (hstr e he)] at hq
      cases hq
    · refine (hsorted.and hne).imp_of_mem fun he he' hboth => ?_
      obtain ⟨hle, hne⟩ := hboth
      rw [(text_of_isStr (hstr _ he)).2, (text_of_isStr (hstr _ he')).2] at hle
      exact lt_of_le_of_ne hle fun heq => hne (codes_inj heq)
  · have hnumber : ∀ e ∈ es, e.1.number? = some (e.1.number?.getD 0) := by
      intro e he
      obtain ⟨q, hq⟩ := isSome_iff_exists.mp (hnum e he)
      rw [hq, getD_some]
    have hlt : es.Pairwise fun e e' => e.1.number?.getD 0 < e'.1.number?.getD 0 := by
      refine (hsorted.and hsame).imp_of_mem fun he he' hboth => ?_
      refine lt_of_le_of_ne hboth.1 fun heq => hboth.2 (.inr ⟨_, hnumber _ he, ?_⟩)
      rw [heq]
      exact hnumber _ he'
    refine ⟨?_, fun hasc => ?_, fun hordered => ?_⟩
    · refine hlt.imp_of_mem fun he he' hlt heq => hlt.ne ?_
      have htext' := htext _ he'
      rw [← heq] at htext'
      exact number_eq_of_text (hnumber _ he) (hnumber _ he') (htext _ he) htext'
    · -- two members come in one of the two orders, which is that of both
      let R : Key × α → Key × α → Prop := fun e e' => e.1.number?.getD 0 < e'.1.number?.getD 0 ∧
        e.1.text.codes < e'.1.text.codes
      have hR : es.Pairwise fun e e' => e = e' ∨ R e e' ∨ R e' e :=
        (hlt.and hasc).imp fun h => .inr (.inl h)
      have hsymm : Std.Symm fun e e' => e = e' ∨ R e e' ∨ R e' e :=
        ⟨fun _ _ h => h.imp Eq.symm Or.symm⟩
      have hall := List.Pairwise.forall_of_forall (fun _ _ => .inl rfl) hR
      intro k hk k' hk' q q' hq hq' hqq s s' hs hs'
      obtain ⟨e, he, rfl⟩ := mem_map.mp hk
      obtain ⟨e', he', rfl⟩ := mem_map.mp hk'
      obtain rfl := Option.some.inj ((htext e he).symm.trans hs)
      obtain rfl := Option.some.inj ((htext e' he').symm.trans hs')
      obtain rfl := Option.some.inj ((hnumber e he).symm.trans hq)
      obtain rfl := Option.some.inj ((hnumber e' he').symm.trans hq')
      rcases hall he he' with rfl | h | h
      · exact absurd hqq (lt_irrefl _)
      · exact h.2
      · exact absurd hqq h.1.asymm
    · exact hlt.imp_of_mem fun he he' hlt => hordered _ (mem_map_of_mem he) _
        (mem_map_of_mem he') _ _ (hnumber _ he) (hnumber _ he') hlt _ _ (htext _ he)
        (htext _ he')
  · rcases es with _ | ⟨e, _ | ⟨e', es⟩⟩
    · refine ⟨.nil, fun _ k hk => ?_, fun _ => .nil⟩
      cases hk
    · refine ⟨pairwise_singleton _ _, fun _ k hk k' hk' q q' hq hq' hqq => ?_,
        fun _ => pairwise_singleton _ _⟩
      obtain rfl := mem_singleton.mp hk
      obtain rfl := mem_singleton.mp hk'
      obtain rfl := Option.some.inj (hq.symm.trans hq')
      exact absurd hqq (lt_irrefl _)
    · rw [length_cons, length_cons] at hone
      omega

theorem ascendingEntries_iff {kvs : List (PyStr × Json)} :
    AscendingEntries kvs ↔ ∀ e ∈ kvs, Ascending e.2 := by
  induction kvs with
  | nil => exact iff_of_true trivial (forall_mem_nil _)
  | cons e kvs ih => rw [AscendingEntries, ih, forall_mem_cons]

mutual

/-- What is written of a value has no key twice, and is in the order of its keys if and only if the
value is ordered. -/
theorem arrange_laws : ∀ {v : PyObj} {w : Json}, arrange v = some w → WellFormed v →
    w.Distinct ∧ (Ascending w ↔ Ordered v)
  | .none, _, h, _ | .bool _, _, h, _ | .int _, _, h, _ | .float _, _, h, _ | .str _, _, h, _ => by
    rw [arrange] at h
    cases h
    exact ⟨trivial, Iff.rfl⟩
  | .nan, _, h, _ | .other _, _, h, _ => by cases h
  | .list xs, w, h, hv | .tuple xs, w, h, hv => by
    rw [arrange] at h
    obtain ⟨ys, hys, rfl⟩ := Option.map_eq_some_iff.mp h
    rw [WellFormed] at hv
    rw [Json.Distinct, Ascending, Ordered]
    exact arrangeItems_laws hys hv
  | .dict kvs, w, h, hv => by
    rw [arrange] at h
    obtain ⟨es, hes, h⟩ := Option.bind_eq_some_iff.mp h
    obtain ⟨sorted, hsorted, h⟩ := Option.bind_eq_some_iff.mp h
    obtain ⟨texts, htexts, rfl⟩ := Option.map_eq_some_iff.mp h
    rw [WellFormed] at hv
    obtain ⟨hkeys, hdistinct, hordered⟩ := arrangeEntries_laws hes hv.2
    obtain ⟨hperm, hcases⟩ := sortItems_cases hsorted
    obtain ⟨rfl, htext⟩ := textKeys_some htexts
    -- the members keep their keys, in another order
    have hsame : sorted.Pairwise fun e e' => ¬ e.1.Same e'.1 := by
      have hmap : (es.map Prod.fst).Pairwise fun k k' => ¬ k.Same k' := by
        rw [hkeys]
        exact hv.1
      exact (hperm.symm.pairwise_iff fun h h' => h h'.symm).mp (List.pairwise_map.mp hmap)
    obtain ⟨hne, hasc⟩ := sorted_texts hcases htext hsame
    have hmem : ∀ k, k ∈ sorted.map Prod.fst ↔ k ∈ kvs.map Prod.fst := by
      intro k
      rw [← hkeys]
      exact (hperm.map Prod.fst).mem_iff
    have hK : KeysOrdered (sorted.map Prod.fst) ↔ KeysOrdered (kvs.map Prod.fst) := by
      simp only [KeysOrdered, hmem]
    have hfst : (sorted.map fun e => (e.1.text, e.2)).map Prod.fst =
        sorted.map fun e => e.1.text := by
      rw [List.map_map]
      rfl
    rw [Json.Distinct, Ascending, Ordered, distinctEntries_iff, ascendingEntries_iff, hfst,
      List.forall_mem_map, List.forall_mem_map, List.pairwise_map, hasc, hK, ← hordered]
    refine ⟨⟨List.pairwise_map.mpr hne, fun e he => hdistinct e (hperm.subset he)⟩, ?_⟩
    exact and_congr_right fun _ => ⟨fun hall e he => hall e (hperm.symm.subset he),
      fun hall e he => hall e (hperm.subset he)⟩

theorem arrangeItems_laws : ∀ {xs : List PyObj} {ys : List Json}, arrangeItems xs = some ys →
    WellFormedItems xs → Json.DistinctItems ys ∧ (AscendingItems ys ↔ OrderedItems xs)
  | [], _, h, _ => by
    rw [arrangeItems] at h
    cases h
    exact ⟨trivial, Iff.rfl⟩
  | x :: xs, _, h, hv => by
    rw [arrangeItems] at h
    obtain ⟨y, hy, h⟩ := bind_eq_some_iff.mp h
    obtain ⟨ys, hys, rfl⟩ := map_eq_some_iff.mp h
    rw [WellFormedItems] at hv
    rw [Json.DistinctItems, AscendingItems, OrderedItems]
    have hhead := arrange_laws hy hv.1
    have htail := arrangeItems_laws hys hv.2
    exact ⟨⟨hhead.1, htail.1⟩, and_congr hhead.2 htail.2⟩

theorem arrangeEntries_laws : ∀ {kvs : List (Key × PyObj)} {es : List (Key × Json)},
    arrangeEntries kvs = some es → WellFormedEntries kvs →
    es.map Prod.fst = kvs.map Prod.fst ∧ (∀ e ∈ es, e.2.Distinct) ∧
      ((∀ e ∈ es, Ascending e.2) ↔ OrderedEntries kvs)
  | [], _, h, _ => by
    rw [arrangeEntries] at h
    cases h
    refine ⟨rfl, fun e he => ?_, fun _ => trivial, fun _ e he => ?_⟩
    · cases he
    · cases he
  | (k, v) :: kvs, _, h, hv => by
    rw [arrangeEntries] at h
    obtain ⟨w, hw, h⟩ := bind_eq_some_iff.mp h
    obtain ⟨es, hes, rfl⟩ := map_eq_some_iff.mp h
    rw [WellFormedEntries] at hv
    have hhead := arrange_laws hw hv.1
    obtain ⟨hkeys, hdistinct, hordered⟩ := arrangeEntries_laws hes hv.2
    rw [forall_mem_cons, forall_mem_cons, OrderedEntries, map_cons, map_cons, hkeys]
    exact ⟨rfl, ⟨hhead.1, hdistinct⟩, and_congr hhead.2 hordered⟩

end

variable {kvs : List (Key × PyObj)} {v : PyObj}

theorem mem_arrangeEntries {es : List (Key × Json)}
    (h : arrangeEntries kvs = some es) (hmem : (k, v) ∈ kvs) :
    ∃ w, arrange v = some w ∧ (k, w) ∈ es := by
  induction kvs generalizing es with
  | nil => cases hmem
  | cons e kvs ih =>
    rw [arrangeEntries] at h
    obtain ⟨w, hw, h⟩ := bind_eq_some_iff.mp h
    obtain ⟨es, hes, rfl⟩ := map_eq_some_iff.mp h
    rcases mem_cons.mp hmem with rfl | hmem
    · exact ⟨w, hw, .head _⟩
    · obtain ⟨w', hw', hmem'⟩ := ih hes hmem
      exact ⟨w', hw', .tail _ hmem'⟩

variable {w : Json}

theorem mem_arrange (h : arrange (.dict kvs) = some w) (hmem : (k, v) ∈ kvs) :
    ∃ es y, w = .obj es ∧ arrange v = some y ∧ k.text? = some k.text ∧ (k.text, y) ∈ es := by
  rw [arrange] at h
  obtain ⟨es, hes, h⟩ := bind_eq_some_iff.mp h
  obtain ⟨sorted, hsorted, h⟩ := bind_eq_some_iff.mp h
  obtain ⟨texts, htexts, rfl⟩ := map_eq_some_iff.mp h
  obtain ⟨rfl, htext⟩ := textKeys_some htexts
  obtain ⟨y, hy, hmem'⟩ := mem_arrangeEntries hes hmem
  have hin := (sortItems_cases hsorted).1.symm.subset hmem'
  exact ⟨_, y, rfl, hy, htext _ hin, mem_map.mpr ⟨_, hin, rfl⟩⟩

/-! ### What is read back -/

theorem encoded_iff : encoded limit w = some t ↔ w.Plain ∧ w.depth ≤ limit ∧ t = text w := by
  rw [encoded, ← and_assoc, ← check_iff]
  split
  · case isTrue h =>
    exact ⟨fun ht => ⟨h, (Option.some.inj ht).symm⟩, fun ht => congrArg some ht.2.symm⟩
  · case isFalse h => exact ⟨fun ht => (by cases ht), fun ht => absurd ht.1 h⟩

theorem keys_ofEntries (kvs : List (PyStr × Json)) :
    (ofEntries kvs).map Prod.fst = (kvs.map Prod.fst).map Key.str := by
  induction kvs with
  | nil => rfl
  | cons e kvs ih => rw [ofEntries, map_cons, ih, map_cons, map_cons]

theorem not_same_str (h : s ≠ s') : ¬ (Key.str s).Same (.str s') := by
  rintro (heq | ⟨q, hq, -⟩)
  · exact h (Key.str.inj heq)
  · cases hq

theorem pairwise_not_same {ss : List PyStr} (h : ss.Nodup) :
    (ss.map Key.str).Pairwise fun k k' => ¬ k.Same k' := pairwise_map.mpr (h.imp not_same_str)

mutual

theorem wellFormed_ofJson : ∀ {w : Json}, w.Distinct → WellFormed (ofJson w)
  | .null, _ | .bool _, _ | .int _, _ | .float _, _ | .str _, _ => trivial
  | .arr xs, h => by
    rw [ofJson, WellFormed]
    exact wellFormed_ofItems h
  | .obj kvs, h => by
    rw [ofJson, WellFormed, keys_ofEntries]
    exact ⟨pairwise_not_same h.1, wellFormed_ofEntries h.2⟩

theorem wellFormed_ofItems : ∀ {xs : List Json}, Json.DistinctItems xs →
    WellFormedItems (ofItems xs)
  | [], _ => trivial
  | _ :: _, h => ⟨wellFormed_ofJson h.1, wellFormed_ofItems h.2⟩

theorem wellFormed_ofEntries : ∀ {kvs : List (PyStr × Json)}, Json.DistinctEntries kvs →
    WellFormedEntries (ofEntries kvs)
  | [], _ => trivial
  | _ :: _, h => ⟨wellFormed_ofJson h.1, wellFormed_ofEntries h.2⟩

end

mutual

theorem ordered_ofJson : ∀ w : Json, Ordered (ofJson w)
  | .null | .bool _ | .int _ | .float _ | .str _ => trivial
  | .arr xs => by
    rw [ofJson, Ordered]
    exact ordered_ofItems xs
  | .obj kvs => by
    rw [ofJson, Ordered, keys_ofEntries]
    refine ⟨fun k hk _ _ q _ hq => ?_, ordered_ofEntries kvs⟩
    obtain ⟨s, -, rfl⟩ := mem_map.mp hk
    cases hq

theorem ordered_ofItems : ∀ xs : List Json, OrderedItems (ofItems xs)
  | [] => trivial
  | x :: xs => ⟨ordered_ofJson x, ordered_ofItems xs⟩

theorem ordered_ofEntries : ∀ kvs : List (PyStr × Json), OrderedEntries (ofEntries kvs)
  | [] => trivial
  | e :: kvs => ⟨ordered_ofJson e.2, ordered_ofEntries kvs⟩

end

theorem sortItems_ascending {kvs : List (PyStr × α)}
    (h : (kvs.map Prod.fst).Pairwise fun s s' => s.codes < s'.codes) :
    sortItems (kvs.map fun e => (Key.str e.1, e.2)) =
      some (kvs.map fun e => (Key.str e.1, e.2)) := by
  have hstr : ((kvs.map fun e => (Key.str e.1, e.2)).all fun e => e.1.isStr) = true := by
    rw [List.all_map, List.all_eq_true]
    exact fun _ _ => rfl
  rw [sortItems, if_pos hstr]
  refine congrArg some (List.Pairwise.insertionSort_eq ?_)
  exact List.pairwise_map.mpr ((List.pairwise_map.mp h).imp fun hlt => hlt.le)

theorem textKeys_str (kvs : List (PyStr × α)) :
    textKeys (kvs.map fun e => (Key.str e.1, e.2)) = some kvs := by
  induction kvs with
  | nil => rfl
  | cons e kvs ih => rw [map_cons, textKeys, Key.text?, bind_some, ih, map_some]

mutual

theorem arrange_ofJson : ∀ {w : Json}, Ascending w → arrange (ofJson w) = some w
  | .null, _ | .bool _, _ | .int _, _ | .float _, _ | .str _, _ => rfl
  | .arr xs, h => by
    rw [ofJson, arrange, arrange_ofItems h, map_some]
  | .obj kvs, h => by
    rw [ofJson, arrange, arrange_ofEntries h.2, bind_some, sortItems_ascending h.1,
      bind_some, textKeys_str, map_some]

theorem arrange_ofItems : ∀ {xs : List Json}, AscendingItems xs →
    arrangeItems (ofItems xs) = some xs
  | [], _ => rfl
  | x :: xs, h => by
    rw [ofItems, arrangeItems, arrange_ofJson h.1, bind_some, arrange_ofItems h.2, map_some]

theorem arrange_ofEntries : ∀ {kvs : List (PyStr × Json)}, AscendingEntries kvs →
    arrangeEntries (ofEntries kvs) = some (kvs.map fun e => (Key.str e.1, e.2))
  | [], _ => rfl
  | (k, w) :: kvs, h => by
    rw [ofEntries, arrangeEntries, arrange_ofJson h.1, bind_some, arrange_ofEntries h.2,
      map_some, map_cons]

end

/-- **A text is read and written again as it is, if and only if its value is ordered.** -/
theorem reencoded (hv : WellFormed v) (h : canonicalJson limit v = some t) :
    ∃ w, arrange v = some w ∧ loads limit t = .ok w ∧
      (canonicalJson limit (ofJson w) = some t ↔ Ordered v) := by
  rw [canonicalJson] at h
  obtain ⟨w, hw, ht⟩ := bind_eq_some_iff.mp h
  obtain ⟨hplain, hdepth, rfl⟩ := encoded_iff.mp ht
  obtain ⟨hdistinct, hordered⟩ := arrange_laws hw hv
  refine ⟨w, hw, loads_text hplain hdistinct hdepth, ?_⟩
  rw [← hordered, canonicalJson]
  constructor
  · intro hagain
    obtain ⟨w', hw', ht'⟩ := bind_eq_some_iff.mp hagain
    obtain ⟨hplain', -, htext⟩ := encoded_iff.mp ht'
    obtain ⟨hdistinct', hordered'⟩ := arrange_laws hw' (wellFormed_ofJson hdistinct)
    obtain rfl := text_inj hplain hdistinct hplain' hdistinct' htext
    exact hordered'.mpr (ordered_ofJson w)
  · intro hasc
    rw [arrange_ofJson hasc, bind_some]
    exact ht

/-! ### Values of one text -/

mutual

/-- What `json.loads` returns: lists, and dictionaries whose keys are strings. -/
def Decoded : PyObj → Prop
  | .list xs => DecodedItems xs
  | .dict kvs => DecodedEntries kvs
  | .nan | .tuple _ | .other _ => False
  | _ => True

def DecodedItems : List PyObj → Prop
  | [] => True
  | x :: xs => Decoded x ∧ DecodedItems xs

def DecodedEntries : List (Key × PyObj) → Prop
  | [] => True
  | (k, v) :: kvs => (k.isStr = true ∧ Decoded v) ∧ DecodedEntries kvs

end

mutual

/-- `v == v'`, without identifying an integer with a float or a boolean: dictionaries have the same
keys, and the same values for them. -/
def Alike : PyObj → PyObj → Prop
  | .list xs, .list ys => AlikeItems xs ys
  | .dict kvs, .dict kvs' => AlikeEntries kvs kvs' ∧ ∀ k ∈ kvs'.map Prod.fst, k ∈ kvs.map Prod.fst
  | v, v' => v = v'

def AlikeItems : List PyObj → List PyObj → Prop
  | [], [] => True
  | x :: xs, y :: ys => Alike x y ∧ AlikeItems xs ys
  | _, _ => False

def AlikeEntries : List (Key × PyObj) → List (Key × PyObj) → Prop
  | [], _ => True
  | (k, v) :: kvs, kvs' => (∃ v', (k, v') ∈ kvs' ∧ Alike v v') ∧ AlikeEntries kvs kvs'

end

mutual

theorem decoded_ofJson : ∀ w : Json, Decoded (ofJson w)
  | .null | .bool _ | .int _ | .float _ | .str _ => trivial
  | .arr xs => decoded_ofItems xs
  | .obj kvs => decoded_ofEntries kvs

theorem decoded_ofItems : ∀ xs : List Json, DecodedItems (ofItems xs)
  | [] => trivial
  | x :: xs => ⟨decoded_ofJson x, decoded_ofItems xs⟩

theorem decoded_ofEntries : ∀ kvs : List (PyStr × Json), DecodedEntries (ofEntries kvs)
  | [] => trivial
  | e :: kvs => ⟨⟨rfl, decoded_ofJson e.2⟩, decoded_ofEntries kvs⟩

end

theorem decodedItems_iff {xs : List PyObj} : DecodedItems xs ↔ ∀ x ∈ xs, Decoded x := by
  induction xs with
  | nil => exact iff_of_true trivial (forall_mem_nil _)
  | cons x xs ih => rw [DecodedItems, ih, forall_mem_cons]

theorem decodedEntries_iff : DecodedEntries kvs ↔ ∀ e ∈ kvs, e.1.isStr = true ∧ Decoded e.2 := by
  induction kvs with
  | nil => exact iff_of_true trivial (forall_mem_nil _)
  | cons e kvs ih => rw [DecodedEntries, ih, forall_mem_cons]

theorem of_mem_arrangeEntries {es : List (Key × Json)}
    (h : arrangeEntries kvs = some es) (hmem : (k, w) ∈ es) :
    ∃ v, arrange v = some w ∧ (k, v) ∈ kvs := by
  induction kvs generalizing es with
  | nil =>
    rw [arrangeEntries] at h
    cases h
    cases hmem
  | cons e kvs ih =>
    rw [arrangeEntries] at h
    obtain ⟨w', hw', h⟩ := bind_eq_some_iff.mp h
    obtain ⟨es, hes, rfl⟩ := map_eq_some_iff.mp h
    rcases mem_cons.mp hmem with heq | hmem
    · obtain ⟨rfl, rfl⟩ := Prod.mk.inj heq
      exact ⟨e.2, hw', .head _⟩
    · obtain ⟨v, hv, hin⟩ := ih hes hmem
      exact ⟨v, hv, .tail _ hin⟩

theorem of_mem_arrange (h : arrange (.dict kvs) = some (.obj es)) (hmem : (s, w) ∈ es) :
    ∃ k v, k.text? = some s ∧ arrange v = some w ∧ (k, v) ∈ kvs := by
  rw [arrange] at h
  obtain ⟨entries, hentries, h⟩ := bind_eq_some_iff.mp h
  obtain ⟨sorted, hsorted, h⟩ := bind_eq_some_iff.mp h
  obtain ⟨texts, htexts, heq⟩ := map_eq_some_iff.mp h
  obtain rfl := Json.obj.inj heq
  obtain ⟨rfl, htext⟩ := textKeys_some htexts
  obtain ⟨e, he, heq⟩ := mem_map.mp hmem
  obtain ⟨rfl, rfl⟩ := Prod.mk.inj heq
  have hperm := (sortItems_cases hsorted).1
  obtain ⟨v, hv, hin⟩ := of_mem_arrangeEntries hentries (hperm.subset he)
  exact ⟨e.1, v, htext e he, hv, hin⟩

theorem kinds_of_arrange (h : arrange (.dict kvs) = some w) :
    (∀ k ∈ kvs.map Prod.fst, k.isStr = true) ∨ ∀ k ∈ kvs.map Prod.fst, k.isStr = false := by
  rw [arrange] at h
  obtain ⟨es, hes, h⟩ := bind_eq_some_iff.mp h
  obtain ⟨sorted, hsorted, h⟩ := bind_eq_some_iff.mp h
  obtain ⟨hperm, hcases⟩ := sortItems_cases hsorted
  have hmem : ∀ k ∈ kvs.map Prod.fst, ∃ e ∈ sorted, e.1 = k := by
    intro k hk
    obtain ⟨e, he, rfl⟩ := mem_map.mp hk
    obtain ⟨w', -, hin⟩ := mem_arrangeEntries hes he
    exact ⟨_, hperm.symm.subset hin, rfl⟩
  rcases hcases with ⟨hstr, -⟩ | ⟨hnum, -⟩ | hone
  · refine .inl fun k hk => ?_
    obtain ⟨e, he, rfl⟩ := hmem k hk
    exact hstr e he
  · refine .inr fun k hk => ?_
    obtain ⟨e, he, rfl⟩ := hmem k hk
    obtain ⟨q, hq⟩ := isSome_iff_exists.mp (hnum e he)
    exact not_isStr_of_number hq
  · rcases sorted with _ | ⟨e, _ | ⟨e', es⟩⟩
    · refine .inl fun k hk => ?_
      obtain ⟨e, he, -⟩ := hmem k hk
      cases he
    · have hthe : ∀ k ∈ kvs.map Prod.fst, k = e.1 := by
        intro k hk
        obtain ⟨e', he', rfl⟩ := hmem k hk
        rw [mem_singleton.mp he']
      cases hstr : e.1.isStr with
      | true => exact .inl fun k hk => (hthe k hk).symm ▸ hstr
      | false => exact .inr fun k hk => (hthe k hk).symm ▸ hstr
    · rw [length_cons, length_cons] at hone
      omega

theorem key_eq_of_kind {k k' : Key} (h : k.isStr = k'.isStr) (hs : k.text? = some s)
    (hs' : k'.text? = some s) : k = k' := by
  cases hk : k.isStr with
  | false => exact key_eq_of_text hk (h.symm.trans hk) hs hs'
  | true =>
    have htext := (text_of_isStr hk).1
    have htext' := (text_of_isStr (h.symm.trans hk)).1
    rw [htext, htext', Key.text, Key.text, hs, hs']

theorem eq_ofJson (h : arrange v = some w) (harr : ∀ ys, w ≠ .arr ys)
    (hobj : ∀ es, w ≠ .obj es) : v = ofJson w := by
  cases v with
  | list xs | tuple xs =>
    rw [arrange] at h
    obtain ⟨ys, -, rfl⟩ := map_eq_some_iff.mp h
    exact absurd rfl (harr ys)
  | dict kvs =>
    rw [arrange] at h
    obtain ⟨es, -, h⟩ := bind_eq_some_iff.mp h
    obtain ⟨sorted, -, h⟩ := bind_eq_some_iff.mp h
    obtain ⟨texts, -, rfl⟩ := map_eq_some_iff.mp h
    exact absurd rfl (hobj texts)
  | nan | other tag => cases h
  | _ =>
    rw [arrange] at h
    cases h
    rfl

theorem list_of_arrange {ys : List Json} (hv : Decoded v)
    (h : arrange v = some (.arr ys)) : ∃ xs, v = .list xs ∧ arrangeItems xs = some ys := by
  cases v with
  | list xs =>
    rw [arrange] at h
    obtain ⟨ys', hys', heq⟩ := map_eq_some_iff.mp h
    obtain rfl := Json.arr.inj heq
    exact ⟨xs, rfl, hys'⟩
  | tuple xs => exact hv.elim
  | dict kvs =>
    rw [arrange] at h
    obtain ⟨es, -, h⟩ := bind_eq_some_iff.mp h
    obtain ⟨sorted, -, h⟩ := bind_eq_some_iff.mp h
    obtain ⟨texts, -, heq⟩ := map_eq_some_iff.mp h
    cases heq
  | _ => cases h

theorem dict_of_arrange (h : arrange v = some (.obj es)) : ∃ kvs, v = .dict kvs := by
  cases v with
  | dict kvs => exact ⟨kvs, rfl⟩
  | list xs | tuple xs =>
    rw [arrange] at h
    obtain ⟨ys, -, heq⟩ := map_eq_some_iff.mp h
    cases heq
  | _ => cases h

/-- Two dictionaries of one text, whose keys are of one kind, have the same keys; the values have
the same texts. -/
theorem entries_of_arrange {kvs kvs' : List (Key × PyObj)}
    (h : arrange (.dict kvs) = some (.obj es)) (h' : arrange (.dict kvs') = some (.obj es))
    (hkinds : ∀ k ∈ kvs.map Prod.fst, ∀ k' ∈ kvs'.map Prod.fst, k.isStr = k'.isStr) :
    ∀ e ∈ kvs, ∃ v', (e.1, v') ∈ kvs' ∧ ∃ y, arrange e.2 = some y ∧ arrange v' = some y := by
  intro e he
  obtain ⟨es', y, heq, hy, htext, hin⟩ := mem_arrange h he
  obtain rfl := Json.obj.inj heq
  obtain ⟨k', v', hk', hv', hin'⟩ := of_mem_arrange h' hin
  have hkind := hkinds e.1 (mem_map_of_mem he) k' (mem_map_of_mem hin')
  obtain rfl := key_eq_of_kind hkind htext hk'
  exact ⟨v', hin', y, hy, hv'⟩

theorem keys_of_entries {kvs kvs' : List (Key × PyObj)} (h : ∀ e ∈ kvs, ∃ v', (e.1, v') ∈ kvs') :
    ∀ k ∈ kvs.map Prod.fst, k ∈ kvs'.map Prod.fst := by
  intro k hk
  obtain ⟨e, he, rfl⟩ := mem_map.mp hk
  obtain ⟨v', hin⟩ := h e he
  exact mem_map.mpr ⟨_, hin, rfl⟩

mutual

/-- **What is read from JSON and has one text is the same.** -/
theorem alike_of_arrange : ∀ {v v' : PyObj} {w : Json}, Decoded v → Decoded v' →
    arrange v = some w → arrange v' = some w → Alike v v'
  | .none, v', w, _, _, h, h' | .bool _, v', w, _, _, h, h' | .int _, v', w, _, _, h, h'
  | .float _, v', w, _, _, h, h' | .str _, v', w, _, _, h, h' => by
    rw [arrange] at h
    cases h
    obtain rfl := eq_ofJson h' (fun _ h => by cases h) (fun _ h => by cases h)
    exact rfl
  | .nan, _, _, hv, _, _, _ | .tuple _, _, _, hv, _, _, _ | .other _, _, _, hv, _, _, _ => hv.elim
  | .list xs, v', w, hv, hv', h, h' => by
    rw [arrange] at h
    obtain ⟨ys, hys, rfl⟩ := map_eq_some_iff.mp h
    obtain ⟨xs', rfl, hys'⟩ := list_of_arrange hv' h'
    exact alikeItems_of_arrange hv hv' hys hys'
  | .dict kvs, v', w, hv, hv', h, h' => by
    obtain ⟨es, rfl⟩ : ∃ es, w = .obj es := by
      rw [arrange] at h
      obtain ⟨_, -, h⟩ := bind_eq_some_iff.mp h
      obtain ⟨_, -, h⟩ := bind_eq_some_iff.mp h
      obtain ⟨texts, -, rfl⟩ := map_eq_some_iff.mp h
      exact ⟨texts, rfl⟩
    obtain ⟨kvs', rfl⟩ := dict_of_arrange h'
    have hstr := fun e he => (decodedEntries_iff.mp hv e he).1
    have hstr' := fun e he => (decodedEntries_iff.mp hv' e he).1
    have hkinds : ∀ k ∈ kvs.map Prod.fst, ∀ k' ∈ kvs'.map Prod.fst, k.isStr = k'.isStr := by
      intro k hk k' hk'
      obtain ⟨e, he, rfl⟩ := mem_map.mp hk
      obtain ⟨e', he', rfl⟩ := mem_map.mp hk'
      rw [hstr e he, hstr' e' he']
    have hentries := entries_of_arrange h h' hkinds
    have hentries' := entries_of_arrange h' h fun k hk k' hk' => (hkinds k' hk' k hk).symm
    refine ⟨alikeEntries_of_arrange (fun e he => ?_) (fun e he => ?_) hentries,
      keys_of_entries fun e he => (hentries' e he).imp fun _ h => h.1⟩
    · exact (decodedEntries_iff.mp hv e he).2
    · exact (decodedEntries_iff.mp hv' e he).2

theorem alikeItems_of_arrange : ∀ {xs xs' : List PyObj} {ys : List Json}, DecodedItems xs →
    DecodedItems xs' → arrangeItems xs = some ys → arrangeItems xs' = some ys → AlikeItems xs xs'
  | [], xs', ys, _, _, h, h' => by
    rw [arrangeItems] at h
    cases h
    cases xs' with
    | nil => trivial
    | cons x' xs' =>
      rw [arrangeItems] at h'
      obtain ⟨_, -, h'⟩ := bind_eq_some_iff.mp h'
      obtain ⟨_, -, heq⟩ := map_eq_some_iff.mp h'
      cases heq
  | x :: xs, xs', ys, hv, hv', h, h' => by
    rw [arrangeItems] at h
    obtain ⟨y, hy, h⟩ := bind_eq_some_iff.mp h
    obtain ⟨ys, hys, rfl⟩ := map_eq_some_iff.mp h
    cases xs' with
    | nil =>
      rw [arrangeItems] at h'
      cases h'
    | cons x' xs' =>
      rw [arrangeItems] at h'
      obtain ⟨y', hy', h'⟩ := bind_eq_some_iff.mp h'
      obtain ⟨ys', hys', heq⟩ := map_eq_some_iff.mp h'
      obtain ⟨rfl, rfl⟩ := List.cons.inj heq
      exact ⟨alike_of_arrange hv.1 hv'.1 hy hy', alikeItems_of_arrange hv.2 hv'.2 hys hys'⟩

theorem alikeEntries_of_arrange : ∀ {kvs kvs' : List (Key × PyObj)},
    (∀ e ∈ kvs, Decoded e.2) → (∀ e ∈ kvs', Decoded e.2) →
    (∀ e ∈ kvs, ∃ v', (e.1, v') ∈ kvs' ∧ ∃ y, arrange e.2 = some y ∧ arrange v' = some y) →
    AlikeEntries kvs kvs'
  | [], _, _, _, _ => trivial
  | (k, v) :: kvs, kvs', hv, hv', h => by
    obtain ⟨v', hin, y, hy, hy'⟩ := h (k, v) (.head _)
    have hhead : Decoded v := hv (k, v) (.head _)
    exact ⟨⟨v', hin, alike_of_arrange hhead (hv' _ hin) hy hy'⟩,
      alikeEntries_of_arrange (fun e he => hv e (.tail _ he)) hv' fun e he => h e (.tail _ he)⟩

end

end PyJson
