/-
Reading Python values.

* `getD`, `truthy`, `dataOf` — `d.get(key, default)`, `bool(v)`, `v or {}`;
* `entriesOf_laws` — of a value read from JSON, `dict(v)` has no key twice, and its values are
  values read from JSON;
* `common_text` — in two dictionaries of one text, the values of a key have one text.
-/
import Rosclaw.Lib.PyJson

namespace PyJson

open List Option

/-! ### Dictionaries -/

/-- `d.get(s)`, if it is there. -/
def lookup (s : PyStr) : List (Key × PyObj) → Option PyObj
  | [] => none
  | (k, v) :: kvs => if k = .str s then some v else lookup s kvs

/-- `d.get(s, default)`. -/
def getD (kvs : List (Key × PyObj)) (s : String) (default : PyObj) : PyObj :=
  (lookup s kvs).getD default

@[simp] theorem getD_nil (s : String) (default : PyObj) : getD [] s default = default := rfl

@[simp] theorem getD_cons (k s : String) (v default : PyObj) (kvs : List (Key × PyObj)) :
    getD ((.str (PyStr.ofString k), v) :: kvs) s default =
      if k = s then v else getD kvs s default := by
  rw [getD, lookup]
  by_cases h : k = s
  · rw [if_pos h, if_pos (by rw [h]), getD_some]
  · rw [if_neg h, if_neg fun heq => h (PyStr.ofString_inj.mp (Key.str.inj heq)), getD]

variable {d es kvs kvs' : List (Key × PyObj)} {default v v' x : PyObj} {e p : Key × PyObj}
  {k k' : Key} {ks ks' : List Key} {limit n : Nat} {w : Json} {xs : List PyObj}

theorem mem_of_lookup {s : PyStr} (h : lookup s kvs = some v) : (.str s, v) ∈ kvs := by
  induction kvs with
  | nil => cases h
  | cons e kvs ih =>
    rw [lookup] at h
    split at h
    · case isTrue hk =>
      cases h
      exact mem_cons.mpr (.inl (by rw [← hk]))
    · exact .tail _ (ih h)

theorem getD_cases (kvs : List (Key × PyObj)) (s : String) (default : PyObj) :
    (∃ k, (k, getD kvs s default) ∈ kvs) ∨ getD kvs s default = default := by
  cases h : lookup s kvs with
  | some v => exact .inl ⟨_, by rw [getD, h]; exact mem_of_lookup h⟩
  | none => exact .inr (by rw [getD, h, getD_none])

/-- `k == k'`. -/
def sameKey (k k' : Key) : Bool := k = k' || k.number?.isSome && k.number? = k'.number?

theorem sameKey_iff : sameKey k k' = true ↔ k.Same k' := by
  rw [sameKey, Bool.or_eq_true, decide_eq_true_eq, Bool.and_eq_true, decide_eq_true_eq, Key.Same]
  refine or_congr_right ?_
  constructor
  · rintro ⟨hsome, heq⟩
    obtain ⟨q, hq⟩ := isSome_iff_exists.mp hsome
    exact ⟨q, hq, heq.symm.trans hq⟩
  · rintro ⟨q, hq, hq'⟩
    exact ⟨by rw [hq, isSome_some], hq.trans hq'.symm⟩

/-- `d[k] = v`; a key that is there stays as it is. -/
def setEntry (k : Key) (v : PyObj) : List (Key × PyObj) → List (Key × PyObj)
  | [] => [(k, v)]
  | (k', v') :: kvs => if sameKey k' k then (k', v) :: kvs else (k', v') :: setEntry k v kvs

/-! ### Conversions -/

/-- `bool(v)`. -/
def truthy : PyObj → Bool
  | .none => false
  | .bool b => b
  | .int n => n ≠ 0
  | .float (.zero _) => false
  | .str s => s.codes ≠ []
  | .list xs | .tuple xs => !xs.isEmpty
  | .dict kvs => !kvs.isEmpty
  | _ => true

/-- `v or {}`, which is to be a dictionary. -/
def dataOf (v : PyObj) : Option (List (Key × PyObj)) :=
  if truthy v then
    match v with
    | .dict kvs => some kvs
    | _ => none
  else some []

def Key.obj : Key → PyObj
  | .str s => .str s
  | .int n => .int n
  | .float x => .float x
  | .nan => .nan
  | .bool b => .bool b
  | .none => .none

def keyOf : PyObj → Option Key
  | .str s => some (.str s)
  | .int n => some (.int n)
  | .float x => some (.float x)
  | .nan => some .nan
  | .bool b => some (.bool b)
  | .none => some .none
  | _ => Option.none

def pairOf : PyObj → Option (Key × PyObj)
  | .list [a, b] | .tuple [a, b] => (keyOf a).map fun k => (k, b)
  | .str ⟨[a, b]⟩ => some (.str ⟨[a]⟩, .str ⟨[b]⟩)
  | .dict [(k, _), (k', _)] => some (k, k'.obj)
  | _ => none

def setItems : List PyObj → List (Key × PyObj) → Option (List (Key × PyObj))
  | [], d => some d
  | x :: xs, d => (pairOf x).bind fun p => setItems xs (setEntry p.1 p.2 d)

/-- `dict(v)`; the elements of a text have one character. -/
def entriesOf : PyObj → Option (List (Key × PyObj))
  | .dict kvs => some kvs
  | .list xs | .tuple xs => setItems xs []
  | .str ⟨[]⟩ => some []
  | _ => none

/-! ### What is read from JSON -/

/-- A value that `json.loads` can return. -/
def Loaded (v : PyObj) : Prop := Decoded v ∧ WellFormed v

def LoadedEntries (kvs : List (Key × PyObj)) : Prop :=
  (kvs.map Prod.fst).Pairwise (fun k k' => ¬ k.Same k') ∧ ∀ e ∈ kvs, Loaded e.2

theorem wellFormedEntries_iff : WellFormedEntries kvs ↔ ∀ e ∈ kvs, WellFormed e.2 := by
  induction kvs with
  | nil => exact iff_of_true trivial (forall_mem_nil _)
  | cons e kvs ih => rw [WellFormedEntries, ih, forall_mem_cons]

theorem wellFormedItems_iff : WellFormedItems xs ↔ ∀ x ∈ xs, WellFormed x := by
  induction xs with
  | nil => exact iff_of_true trivial (forall_mem_nil _)
  | cons x xs ih => rw [WellFormedItems, ih, forall_mem_cons]

theorem loaded_list (h : Loaded (.list xs)) : ∀ x ∈ xs, Loaded x :=
  fun x hx => ⟨decodedItems_iff.mp h.1 x hx, wellFormedItems_iff.mp h.2 x hx⟩

theorem loaded_dict (h : Loaded (.dict kvs)) : LoadedEntries kvs := by
  obtain ⟨hdecoded, hkeys, hvalues⟩ := h
  refine ⟨hkeys, fun e he => ⟨?_, ?_⟩⟩
  · exact (decodedEntries_iff.mp hdecoded e he).2
  · exact wellFormedEntries_iff.mp hvalues e he

theorem LoadedEntries.wellFormed (h : LoadedEntries kvs) : WellFormed (.dict kvs) :=
  ⟨h.1, wellFormedEntries_iff.mpr fun e he => (h.2 e he).2⟩

theorem LoadedEntries.getD (h : LoadedEntries kvs) (s : String) (hdefault : Loaded default) :
    Loaded (getD kvs s default) := by
  rcases getD_cases kvs s default with ⟨k, hmem⟩ | heq
  · exact h.2 _ hmem
  · rw [heq]
    exact hdefault

theorem loaded_ofJson (h : w.Distinct) : Loaded (ofJson w) :=
  ⟨decoded_ofJson w, wellFormed_ofJson h⟩

theorem mem_setEntry (h : e ∈ setEntry k v d) : e.2 = v ∨ e ∈ d := by
  induction d with
  | nil =>
    rw [setEntry, mem_singleton] at h
    exact .inl (by rw [h])
  | cons e' d ih =>
    rw [setEntry] at h
    split at h
    · rcases mem_cons.mp h with rfl | h
      · exact .inl rfl
      · exact .inr (.tail _ h)
    · rcases mem_cons.mp h with rfl | h
      · exact .inr (.head _)
      · exact (ih h).imp id (.tail _)

theorem key_of_mem_setEntry (h : k' ∈ (setEntry k v d).map Prod.fst) :
    k' = k ∨ k' ∈ d.map Prod.fst := by
  induction d with
  | nil =>
    rw [setEntry, map_singleton, mem_singleton] at h
    exact .inl h
  | cons e d ih =>
    rw [setEntry] at h
    split at h
    · exact .inr h
    · rw [map_cons, mem_cons] at h
      rcases h with rfl | h
      · exact .inr (.head _)
      · exact (ih h).imp id (.tail _)

theorem setEntry_keys (h : (d.map Prod.fst).Pairwise fun k k' => ¬ k.Same k') :
    ((setEntry k v d).map Prod.fst).Pairwise fun k k' => ¬ k.Same k' := by
  induction d with
  | nil => exact pairwise_singleton _ _
  | cons e d ih =>
    rw [map_cons, pairwise_cons] at h
    rw [setEntry]
    split
    · exact pairwise_cons.mpr h
    · case isFalse hsame =>
      rw [map_cons, pairwise_cons]
      refine ⟨fun k' hk' => ?_, ih h.2⟩
      rcases key_of_mem_setEntry hk' with rfl | hk'
      · exact fun hs => hsame (sameKey_iff.mpr hs)
      · exact h.1 k' hk'

theorem LoadedEntries.setEntry (h : LoadedEntries d) (hv : Loaded v) :
    LoadedEntries (setEntry k v d) := by
  refine ⟨setEntry_keys h.1, fun e he => ?_⟩
  rcases mem_setEntry he with heq | he
  · rw [heq]
    exact hv
  · exact h.2 e he

theorem loaded_pairOf (h : Loaded x) (hp : pairOf x = some p) : Loaded p.2 := by
  unfold pairOf at hp
  split at hp
  · obtain ⟨k, -, rfl⟩ := map_eq_some_iff.mp hp
    exact loaded_list h _ (.tail _ (.head _))
  · exact h.1.elim
  · cases hp
    exact ⟨trivial, trivial⟩
  · case h_4 k v k' v' =>
    cases hp
    obtain ⟨-, ⟨hk', -⟩, -⟩ := h.1
    cases k' with
    | str s => exact ⟨trivial, trivial⟩
    | _ => cases hk'
  · cases hp

theorem setItems_laws (hxs : ∀ x ∈ xs, Loaded x) (hd : LoadedEntries d)
    (h : setItems xs d = some es) : LoadedEntries es := by
  induction xs generalizing d with
  | nil =>
    cases h
    exact hd
  | cons x xs ih =>
    rw [setItems] at h
    obtain ⟨p, hp, h⟩ := bind_eq_some_iff.mp h
    have hx := loaded_pairOf (hxs x (.head _)) hp
    exact ih (fun x hx => hxs x (.tail _ hx)) (hd.setEntry hx) h

theorem loadedEntries_nil : LoadedEntries [] := ⟨.nil, fun e he => by cases he⟩

/-- **`dict(v)` of a value read from JSON** has no key twice, and values that are as read. -/
theorem entriesOf_laws (hv : Loaded v) (h : entriesOf v = some es) : LoadedEntries es := by
  unfold entriesOf at h
  split at h
  · cases h
    exact loaded_dict hv
  · exact setItems_laws (loaded_list hv) loadedEntries_nil h
  · exact hv.1.elim
  · cases h
    exact loadedEntries_nil
  · cases h

/-! ### Dictionaries of one text -/

theorem value_unique (h : (kvs.map Prod.fst).Pairwise fun k k' => ¬ k.Same k') (hv : (k, v) ∈ kvs)
    (hv' : (k, v') ∈ kvs) : v = v' := by
  induction kvs with
  | nil => cases hv
  | cons e kvs ih =>
    rw [map_cons, pairwise_cons] at h
    have hother : ∀ x, (k, x) ∈ kvs → e.1 ≠ k := by
      intro x hx heq
      exact h.1 k (mem_map_of_mem hx) (.inl heq)
    rcases mem_cons.mp hv with heq | hin
    · rcases mem_cons.mp hv' with heq' | hin'
      · exact (Prod.mk.inj (heq.trans heq'.symm)).2
      · exact absurd (congrArg Prod.fst heq).symm (hother v' hin')
    · rcases mem_cons.mp hv' with heq' | hin'
      · exact absurd (congrArg Prod.fst heq').symm (hother v hin)
      · exact ih h.2 hin hin'

theorem common_text (h : arrange (.dict kvs) = some w) (h' : arrange (.dict kvs') = some w)
    (hkinds : ∀ k ∈ kvs.map Prod.fst, ∀ k' ∈ kvs'.map Prod.fst, k.isStr = k'.isStr)
    (hkeys : (kvs'.map Prod.fst).Pairwise fun k k' => ¬ k.Same k') (hv : (k, v) ∈ kvs)
    (hv' : (k, v') ∈ kvs') : ∃ y, arrange v = some y ∧ arrange v' = some y := by
  obtain ⟨es, -, rfl, -⟩ := mem_arrange h hv
  obtain ⟨v'', hin, hy⟩ := entries_of_arrange h h' hkinds _ hv
  obtain rfl := value_unique hkeys hv' hin
  exact hy

theorem arrangeEntries_some (h : ∀ e ∈ kvs, ∃ w, arrange e.2 = some w) :
    ∃ es, arrangeEntries kvs = some es := by
  induction kvs with
  | nil => exact ⟨[], rfl⟩
  | cons e kvs ih =>
    obtain ⟨w, hw⟩ := h e (.head _)
    obtain ⟨es, hes⟩ := ih fun e he => h e (.tail _ he)
    exact ⟨(e.1, w) :: es, by rw [arrangeEntries, hw, bind_some, hes, map_some]⟩

theorem textKeys_of_isStr {α : Type} {es : List (Key × α)} (h : ∀ e ∈ es, e.1.isStr = true) :
    textKeys es = some (es.map fun e => (e.1.text, e.2)) := by
  induction es with
  | nil => rfl
  | cons e es ih =>
    have htext : e.1.text? = some e.1.text := by
      rw [(text_of_isStr (h e (.head _))).1]
      rfl
    rw [textKeys, htext, bind_some, ih fun e he => h e (.tail _ he), map_some, map_cons]

/-- What can be written and encoded, with so many containers nested. -/
def Writable (n : Nat) (v : PyObj) : Prop := ∃ w, arrange v = some w ∧ w.Plain ∧ w.depth ≤ n

theorem canonicalJson_isSome (h : Writable limit v) : ∃ t, canonicalJson limit v = some t := by
  obtain ⟨w, hw, hplain, hdepth⟩ := h
  refine ⟨Json.text w, ?_⟩
  rw [canonicalJson, hw, bind_some]
  exact encoded_iff.mpr ⟨hplain, hdepth, rfl⟩

theorem plain_entries {es : List (PyStr × Json)}
    (h : ∀ e ∈ es, Json.validStr e.1 = true ∧ e.2.Plain ∧ e.2.depth ≤ n) :
    Json.PlainEntries es ∧ Json.depthEntries es ≤ n := by
  induction es with
  | nil => exact ⟨trivial, Nat.zero_le n⟩
  | cons e es ih =>
    obtain ⟨hvalid, hplain, hdepth⟩ := h e (.head _)
    obtain ⟨hrest, hbound⟩ := ih fun e he => h e (.tail _ he)
    exact ⟨⟨⟨hvalid, hplain⟩, hrest⟩, Nat.max_le.mpr ⟨hdepth, hbound⟩⟩

theorem writable_dict (hkeys : ∀ e ∈ kvs, e.1.isStr = true ∧ Json.validStr e.1.text = true)
    (hvalues : ∀ e ∈ kvs, Writable n e.2) : Writable (n + 1) (.dict kvs) := by
  obtain ⟨es, hes⟩ := arrangeEntries_some fun e he => (hvalues e he).imp fun _ h => h.1
  have hfrom : ∀ e ∈ es, ∃ v, arrange v = some e.2 ∧ (e.1, v) ∈ kvs := by
    intro e he
    exact of_mem_arrangeEntries hes he
  have hstr : ∀ e ∈ es, e.1.isStr = true := by
    intro e he
    obtain ⟨v, -, hin⟩ := hfrom e he
    exact (hkeys _ hin).1
  obtain ⟨sorted, hsorted, hperm⟩ : ∃ sorted, sortItems es = some sorted ∧ sorted.Perm es := by
    refine ⟨_, ?_, perm_insertionSort (fun e e' => e.1.codes ≤ e'.1.codes) es⟩
    rw [sortItems, if_pos (all_eq_true.mpr hstr)]
  have htexts := textKeys_of_isStr fun e he => hstr e (hperm.subset he)
  have hall : ∀ d ∈ sorted.map fun e => (e.1.text, e.2),
      Json.validStr d.1 = true ∧ d.2.Plain ∧ d.2.depth ≤ n := by
    intro d hd
    obtain ⟨e, he, rfl⟩ := mem_map.mp hd
    obtain ⟨v, hv, hin⟩ := hfrom e (hperm.subset he)
    obtain ⟨w, hw, hplain, hdepth⟩ := hvalues _ hin
    obtain rfl := Option.some.inj (hv.symm.trans hw)
    exact ⟨(hkeys _ hin).2, hplain, hdepth⟩
  refine ⟨.obj (sorted.map fun e : Key × Json => (e.1.text, e.2)), ?_, (plain_entries hall).1,
    Nat.succ_le_succ (plain_entries hall).2⟩
  rw [arrange, hes, bind_some, hsorted, bind_some, htexts, map_some]

theorem kinds_of_all {b : Bool} (h : ∀ k ∈ ks, k.isStr = b) (h' : ∀ k ∈ ks', k.isStr = b) :
    ∀ k ∈ ks, ∀ k' ∈ ks', k.isStr = k'.isStr := fun k hk k' hk' => (h k hk).trans (h' k' hk').symm

theorem keys_of_alikeEntries (h : AlikeEntries kvs kvs') :
    ∀ k ∈ kvs.map Prod.fst, k ∈ kvs'.map Prod.fst := by
  induction kvs with
  | nil => exact fun k hk => by cases hk
  | cons e kvs ih =>
    obtain ⟨⟨v', hin, -⟩, h⟩ := h
    intro k hk
    rw [map_cons, mem_cons] at hk
    rcases hk with rfl | hk
    · exact mem_map.mpr ⟨_, hin, rfl⟩
    · exact ih h k hk

/-- **Dictionaries of one text are alike if and only if their keys are of one kind**: the keys of
both are strings, or of neither. -/
theorem alike_iff_kinds (hkvs : LoadedEntries kvs) (hkvs' : LoadedEntries kvs')
    (h : arrange (.dict kvs) = some w) (h' : arrange (.dict kvs') = some w) :
    Alike (.dict kvs) (.dict kvs') ↔
      ((∀ k ∈ kvs.map Prod.fst, k.isStr = true) ↔ ∀ k ∈ kvs'.map Prod.fst, k.isStr = true) := by
  constructor
  · rintro ⟨hentries, hkeys⟩
    have hkeys' := keys_of_alikeEntries hentries
    exact ⟨fun hstr k hk => hstr k (hkeys k hk), fun hstr k hk => hstr k (hkeys' k hk)⟩
  · intro hiff
    have hkinds : ∀ k ∈ kvs.map Prod.fst, ∀ k' ∈ kvs'.map Prod.fst, k.isStr = k'.isStr := by
      by_cases hstr : ∀ k ∈ kvs.map Prod.fst, k.isStr = true
      · exact kinds_of_all hstr (hiff.mp hstr)
      · have hother := (kinds_of_arrange h).resolve_left hstr
        have hother' := (kinds_of_arrange h').resolve_left fun hall => hstr (hiff.mpr hall)
        exact kinds_of_all hother hother'
    obtain ⟨es, rfl⟩ : ∃ es, w = .obj es := by
      rw [arrange] at h
      obtain ⟨_, -, h⟩ := bind_eq_some_iff.mp h
      obtain ⟨_, -, h⟩ := bind_eq_some_iff.mp h
      obtain ⟨es, -, rfl⟩ := map_eq_some_iff.mp h
      exact ⟨es, rfl⟩
    have hentries := entries_of_arrange h h' hkinds
    have hentries' := entries_of_arrange h' h fun k hk k' hk' => (hkinds k' hk' k hk).symm
    refine ⟨alikeEntries_of_arrange (fun e he => (hkvs.2 e he).1) (fun e he => (hkvs'.2 e he).1)
      hentries, keys_of_entries fun e he => (hentries' e he).imp fun _ h => h.1⟩

end PyJson
