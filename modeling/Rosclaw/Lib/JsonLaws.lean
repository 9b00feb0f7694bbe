/-
What `json.loads` makes of the text of a value, and of any other text.

* `loads_text` — the text of a value is read as the value, if it can be encoded and is not nested
  too deeply;
* `text_inj` — so different values have different texts;
* `parse_within` — what is read is not nested too deeply, and its integers can be written again;
* `plain_eval_iff`, `depth_eval`, `distinct_eval` — what of a document reaches its value.
-/
import Rosclaw.Lib.Json

namespace Json

open JsonText Decimal List Nat Option

/-! ### Values -/

def validStr (s : PyStr) : Bool := s.codes.all fun c => decide c.isValidChar

mutual

def Plain : Json → Prop
  | .int n => intFits n = true
  | .float x => x.isFinite = true
  | .str s => validStr s = true
  | .arr xs => PlainItems xs
  | .obj kvs => PlainEntries kvs
  | _ => True

def PlainItems : List Json → Prop
  | [] => True
  | x :: xs => Plain x ∧ PlainItems xs

def PlainEntries : List (PyStr × Json) → Prop
  | [] => True
  | (k, v) :: kvs => (validStr k = true ∧ Plain v) ∧ PlainEntries kvs

end

mutual

def Distinct : Json → Prop
  | .arr xs => DistinctItems xs
  | .obj kvs => (kvs.map Prod.fst).Nodup ∧ DistinctEntries kvs
  | _ => True

def DistinctItems : List Json → Prop
  | [] => True
  | x :: xs => Distinct x ∧ DistinctItems xs

def DistinctEntries : List (PyStr × Json) → Prop
  | [] => True
  | (_, v) :: kvs => Distinct v ∧ DistinctEntries kvs

end

mutual

def depth : Json → Nat
  | .arr xs => depthItems xs + 1
  | .obj kvs => depthEntries kvs + 1
  | _ => 0

def depthItems : List Json → Nat
  | [] => 0
  | x :: xs => max (depth x) (depthItems xs)

def depthEntries : List (PyStr × Json) → Nat
  | [] => 0
  | (_, v) :: kvs => max (depth v) (depthEntries kvs)

end

variable {A B α : Type} {c e : Char} {codes k s : List Nat} {kvs : List (PyStr × Json)} {n : Nat}
  {v w : Json}

theorem bind_ok_iff {x : Except Fault A} {f : A → Except Fault B} {b : B} :
    x >>= f = .ok b ↔ ∃ a, x = .ok a ∧ f a = .ok b := by
  cases x with
  | error e =>
    constructor
    · intro h
      cases h
    · rintro ⟨a, ha, -⟩
      cases ha
  | ok a =>
    constructor
    · exact fun h => ⟨a, rfl, h⟩
    · rintro ⟨a', ha, h⟩
      cases ha
      exact h

theorem then_ok_iff {x y : Except Fault Unit} :
    (x >>= fun _ => y) = .ok () ↔ x = .ok () ∧ y = .ok () := by
  rw [bind_ok_iff]
  exact ⟨fun ⟨_, hx, hy⟩ => ⟨hx, hy⟩, fun ⟨hx, hy⟩ => ⟨(), hx, hy⟩⟩

mutual

/-- **What can be written and encoded.** -/
theorem check_iff : ∀ {limit : Nat} {v : Json},
    check limit v = .ok () ∧ v.encodable = true ↔ v.Plain ∧ v.depth ≤ limit
  | limit, .null | limit, .bool _ => by simp [check, encodable, Plain, depth]
  | limit, .str s => by simp [check, encodable, Plain, depth, validStr]
  | limit, .int n => by
    cases hfits : intFits n <;> simp [check, encodable, Plain, depth, hfits]
  | limit, .float x => by
    cases hfinite : x.isFinite <;> simp [check, encodable, Plain, depth, hfinite]
  | 0, .arr xs => by simp [check, depth]
  | limit + 1, .arr xs => by
    simpa only [check, encodable, Plain, depth, add_le_add_iff_right] using @checkItems_iff limit xs
  | 0, .obj kvs => by simp [check, depth]
  | limit + 1, .obj kvs => by
    simpa only [check, encodable, Plain, depth, add_le_add_iff_right] using
      @checkEntries_iff limit kvs

theorem checkItems_iff : ∀ {limit : Nat} {xs : List Json},
    checkItems limit xs = .ok () ∧ encodableItems xs = true ↔ PlainItems xs ∧ depthItems xs ≤ limit
  | limit, [] => by simp [checkItems, encodableItems, PlainItems, depthItems]
  | limit, x :: xs => by
    have hx := @check_iff limit x
    have hxs := @checkItems_iff limit xs
    rw [checkItems, then_ok_iff, encodableItems, Bool.and_eq_true, PlainItems, depthItems,
      Nat.max_le]
    tauto

theorem checkEntries_iff : ∀ {limit : Nat} {kvs : List (PyStr × Json)},
    checkEntries limit kvs = .ok () ∧ encodableEntries kvs = true ↔
      PlainEntries kvs ∧ depthEntries kvs ≤ limit
  | limit, [] => by simp [checkEntries, encodableEntries, PlainEntries, depthEntries]
  | limit, (k, v) :: kvs => by
    have hv := @check_iff limit v
    have hkvs := @checkEntries_iff limit kvs
    rw [checkEntries, then_ok_iff, encodableEntries, Bool.and_eq_true, Bool.and_eq_true,
      PlainEntries, depthEntries, Nat.max_le, validStr]
    tauto

end

/-! ### Strings -/

theorem hex_digits : ∀ n < 32, unit? '0' '0' (Nat.digitChar (n / 16)) (Nat.digitChar (n % 16)) = some n := by
  decide

theorem pairCons_small (h : n < 32) (cs : List Nat) : pairCons n cs = n :: cs := by
  cases cs with
  | nil => rfl
  | cons low cs =>
    have hnot : ¬ (0xD800 ≤ n ∧ n ≤ 0xDBFF ∧ 0xDC00 ≤ low ∧ low ≤ 0xDFFF) := by omega
    rw [pairCons, if_neg hnot]

theorem escaped_short (h : shortEscapes.lookup n = some e) : e ≠ 'u' ∧ escaped? e = some n := by
  obtain ⟨l₁, l₂, hsplit, -⟩ := lookup_eq_some_iff.mp h
  have hmem : (n, e) ∈ shortEscapes := by
    rw [hsplit]
    simp
  simp only [shortEscapes, mem_cons, not_mem_nil, or_false, Prod.mk.injEq] at hmem
  rcases hmem with ⟨rfl, rfl⟩ | ⟨rfl, rfl⟩ | ⟨rfl, rfl⟩ | ⟨rfl, rfl⟩ | ⟨rfl, rfl⟩ | ⟨rfl, rfl⟩ | ⟨rfl, rfl⟩
  all_goals exact ⟨by decide, by decide⟩

/-- What `escape` has written is scanned. -/
theorem scanString_mark (t : List Char) : scanString (mark :: t) = some ([], t) := by
  rw [scanString.eq_def]
  dsimp only
  rw [if_pos rfl]

theorem scanString_backslash (t : List Char) : scanString (backslash :: t) = match t with
      | e :: t' =>
          if e = 'u' then
            match t' with
            | h₁ :: h₂ :: h₃ :: h₄ :: t'' => (unit? h₁ h₂ h₃ h₄).bind fun n =>
                (scanString t'').map fun p => (pairCons n p.1, p.2)
            | _ => none
          else (escaped? e).bind fun n => (scanString t').map fun p => (n :: p.1, p.2)
      | [] => none := by
  rw [scanString.eq_def]
  rfl

theorem scanString_plain (hmark : c ≠ mark) (hcontrol : ¬ c.toNat < 32) (hbackslash : c ≠ backslash)
    (t : List Char) : scanString (c :: t) = (scanString t).map fun p => (c.toNat :: p.1, p.2) := by
  rw [scanString.eq_def]
  dsimp only
  rw [if_neg hmark, if_neg hcontrol, if_neg hbackslash]

theorem scanString_escape (c : Char) (y : List Char) :
    scanString (escape c ++ y) = (scanString y).map fun p => (c.toNat :: p.1, p.2) := by
  unfold escape
  split
  · next e hlookup =>
    obtain ⟨hu, he⟩ := escaped_short hlookup
    show scanString (backslash :: e :: y) = _
    simp only [scanString_backslash, if_neg hu, he, bind_some]
  · next hnone =>
    split
    · next hcontrol =>
      show scanString (backslash :: 'u' :: '0' :: '0' :: Nat.digitChar (c.toNat / 16) ::
        Nat.digitChar (c.toNat % 16) :: y) = _
      simp only [scanString_backslash, if_true, hex_digits c.toNat hcontrol, bind_some,
        pairCons_small hcontrol]
    · next hcontrol =>
      have hmark : c ≠ mark := by
        rintro rfl
        cases hnone
      have hbackslash : c ≠ backslash := by
        rintro rfl
        cases hnone
      exact scanString_plain hmark hcontrol hbackslash y

theorem scanString_quoted (h : codes.all (fun c => decide c.isValidChar) = true) (y : List Char) :
    scanString (codes.flatMap (fun c => escape (Char.ofNat c)) ++ mark :: y) = some (codes, y) := by
  induction codes with
  | nil => exact scanString_mark y
  | cons c codes ih =>
    rw [all_cons, Bool.and_eq_true] at h
    have hc : (Char.ofNat c).toNat = c := by
      rw [Char.ofNat, dif_pos (of_decide_eq_true h.1)]
      rfl
    rw [flatMap_cons, append_assoc, scanString_escape, ih h.2, map_some, hc]

/-! ### Texts are scanned -/

/-- A text that begins with neither white space nor the end of a container. -/
def Starts (t : List Char) : Prop :=
  ∃ c ∈ t.head?, isSpace c = false ∧ c ≠ ']' ∧ c ≠ '}'

theorem skip_of_head {t : List Char} (hc : t.head? = some c) (hspace : isSpace c = false) :
    skip t = t := by
  cases t with
  | nil => cases hc
  | cons d t =>
    cases hc
    exact dropWhile_cons_of_neg (by rw [hspace]; decide)

variable {t y : List Char}

theorem skip_append (h : Starts t) : skip (t ++ y) = t ++ y := by
  obtain ⟨c, hc, hspace, -⟩ := h
  refine skip_of_head (c := c) ?_ hspace
  rw [List.head?_append, hc]
  rfl

theorem skip_cons (hc : isSpace c = false) (y : List Char) : skip (c :: y) = c :: y :=
  skip_of_head rfl hc

theorem scanValue_string (fuel limit : Nat) {t t' : List Char} (h : scanString t = some (s, t')) :
    scanValue (fuel + 1) limit (mark :: t) = .ok (.str ⟨s⟩, t') := by
  rw [scanValue.eq_def]
  dsimp only
  rw [if_pos rfl, h]

theorem scanValue_atom (fuel limit : Nat) {c : Char} (t : List Char) (hmark : c ≠ mark)
    (harray : c ≠ '[') (hobject : c ≠ '{') :
    scanValue (fuel + 1) limit (c :: t) = scanAtom (c :: t) := by
  rw [scanValue.eq_def]
  dsimp only
  rw [if_neg hmark, if_neg harray, if_neg hobject]

theorem scanValue_array (fuel limit : Nat) (t : List Char) :
    scanValue (fuel + 1) (limit + 1) ('[' :: t) =
      if (skip t).head? = some ']' then .ok (.arr [], (skip t).tail)
      else (scanItems fuel limit (skip t)).map fun p => (.arr p.1, p.2) := by
  rw [scanValue.eq_def]
  dsimp only
  rw [if_neg (by decide), if_pos rfl]

theorem scanValue_object (fuel limit : Nat) (t : List Char) :
    scanValue (fuel + 1) (limit + 1) ('{' :: t) =
      if (skip t).head? = some '}' then .ok (.obj [], (skip t).tail)
      else (scanMembers fuel limit (skip t)).map fun p => (.obj p.1, p.2) := by
  rw [scanValue.eq_def]
  dsimp only
  rw [if_neg (by decide), if_neg (by decide), if_pos rfl]

variable {fuel limit : Nat} {d : Doc}

theorem scanItems_last (h : scanValue fuel limit t = .ok (d, ']' :: y)) :
    scanItems (fuel + 1) limit t = .ok ([d], y) := by
  have hskip : skip (']' :: y) = ']' :: y := skip_cons (by decide) y
  simp [scanItems, h, hskip, bind, Except.bind]

theorem scanItems_next {t t' : List Char} (h : scanValue fuel limit t = .ok (d, ',' :: t')) :
    scanItems (fuel + 1) limit t =
      (scanItems fuel limit (skip t')).map fun q => (d :: q.1, q.2) := by
  have hskip : skip (',' :: t') = ',' :: t' := skip_cons (by decide) t'
  simp [scanItems, h, hskip, bind, Except.bind]

theorem scanMembers_last {t t' y : List Char} (hk : scanString t = some (k, ':' :: t'))
    (h : scanValue fuel limit (skip t') = .ok (d, '}' :: y)) :
    scanMembers (fuel + 1) limit (mark :: t) = .ok ([(⟨k⟩, d)], y) := by
  have hcolon : skip (':' :: t') = ':' :: t' := skip_cons (by decide) t'
  have hskip : skip ('}' :: y) = '}' :: y := skip_cons (by decide) y
  simp [scanMembers.eq_def, hk, hcolon, h, hskip, bind, Except.bind]

theorem scanMembers_next {t t' t'' : List Char} (hk : scanString t = some (k, ':' :: t'))
    (h : scanValue fuel limit (skip t') = .ok (d, ',' :: t'')) :
    scanMembers (fuel + 1) limit (mark :: t) =
      (scanMembers fuel limit (skip t'')).map fun q => ((⟨k⟩, d) :: q.1, q.2) := by
  have hcolon : skip (':' :: t') = ':' :: t' := skip_cons (by decide) t'
  have hskip : skip (',' :: t'') = ',' :: t'' := skip_cons (by decide) t''
  have hend : (',' : Char) ≠ '}' := by decide
  rw [scanMembers.eq_def]
  simp [hk, hcolon, h, hskip, bind, Except.bind, hend]

theorem scanValue_numeral (fuel limit : Nat) {n : Numeral} (hscan : Numeral.scan t = some (n, y)) :
    scanValue (fuel + 1) limit t = if n.isFloat then .ok (.float n, y)
      else if n.whole.length ≤ maxStrDigits then .ok (.int n.int, y) else .error .value := by
  obtain ⟨c, hc, hdigit⟩ := Numeral.scan_head hscan
  cases t with
  | nil => cases hc
  | cons d t =>
    obtain rfl := Option.some.inj hc
    have hne : ∀ e : Char, e ≠ '-' → e.isDigit = false → d ≠ e := by
      rintro e hminus he rfl
      rcases hdigit with hdigit | hdigit
      · exact hminus hdigit
      · cases he.symm.trans hdigit
    have hword : ∀ (e : Char) (w : List Char), d ≠ e → (e :: w).isPrefixOf (d :: t) = false := by
      intro e w hde
      rw [List.isPrefixOf, beq_eq_false_iff_ne.mpr (Ne.symm hde), Bool.false_and]
    rw [scanValue_atom fuel limit t (hne mark (by decide) (by decide)) (hne '[' (by decide) rfl)
      (hne '{' (by decide) rfl), scanAtom, hword _ _ (hne 'n' (by decide) rfl),
      hword _ _ (hne 't' (by decide) rfl), hword _ _ (hne 'f' (by decide) rfl), hscan]
    rfl

theorem starts_numeral {t : List Char} {n : Numeral} (h : Numeral.scan t = some (n, [])) :
    Starts t := by
  obtain ⟨c, hc, hdigit⟩ := Numeral.scan_head h
  refine ⟨c, hc, ?_⟩
  rcases hdigit with rfl | hdigit
  · decide
  · refine ⟨?_, ?_, ?_⟩
    · by_contra hspace
      rw [Bool.not_eq_false, isSpace] at hspace
      simp only [Bool.or_eq_true, decide_eq_true_eq] at hspace
      rcases hspace with ((rfl | rfl) | rfl) | rfl
      all_goals cases hdigit
    · rintro rfl
      cases hdigit
    · rintro rfl
      cases hdigit

theorem scan_intText (n : Int) {y : List Char} (hy : Delimited y) :
    ∃ m, Numeral.scan (text (.int n) ++ y) = some (m, y) ∧ m.isFloat = false ∧
      m.whole = digitText n.natAbs ∧ m.int = n := by
  refine ⟨⟨decide (n < 0), digitText n.natAbs, [], none⟩, ?_, rfl, rfl, ?_⟩
  · rw [text, append_assoc]
    exact Numeral.scan_int _ _ hy
  · show (if decide (n < 0) = true then _ else _) = n
    simp only [ofDigitChars_ten_toDigits, decide_eq_true_eq]
    split
    · omega
    · omega

theorem starts_text (h : v.Plain) : Starts (text v) := by
  cases v with
  | null => exact ⟨'n', rfl, by decide⟩
  | bool b => cases b with
    | true => exact ⟨'t', rfl, by decide⟩
    | false => exact ⟨'f', rfl, by decide⟩
  | int n =>
    obtain ⟨m, hscan, -⟩ := scan_intText n delimited_nil
    rw [append_nil] at hscan
    exact starts_numeral hscan
  | float x =>
    obtain ⟨t, ht⟩ := isSome_iff_exists.mp ((Double.repr?_isSome x).trans h)
    obtain ⟨m, hscan, -⟩ := Numeral.scan_repr ht delimited_nil
    rw [append_nil] at hscan
    rw [text, ht]
    exact starts_numeral hscan
  | str s => exact ⟨mark, rfl, by decide⟩
  | arr xs => exact ⟨'[', rfl, by decide⟩
  | obj kvs => exact ⟨'{', rfl, by decide⟩

theorem starts_texts {x : Json} {xs : List Json} {y : List Char} (h : PlainItems (x :: xs)) :
    ∃ c, (joinTexts (texts (x :: xs)) ++ y).head? = some c ∧ isSpace c = false ∧ c ≠ ']' ∧
      c ≠ '}' := by
  obtain ⟨c, hc, hstarts⟩ := starts_text h.1
  refine ⟨c, ?_, hstarts⟩
  have hhead : ∀ z, (text x ++ z).head? = some c := by
    intro z
    rw [List.head?_append, hc]
    rfl
  cases xs with
  | nil => exact hhead y
  | cons x' xs =>
    show (text x ++ ',' :: joinTexts (texts (x' :: xs)) ++ y).head? = _
    rw [List.append_assoc]
    exact hhead _

/-! ### Dictionaries -/

section

variable {α : Type}

variable {es : List (PyStr × α)} {k : PyStr}

theorem mem_keys_dictOf : k ∈ (dictOf es).map Prod.fst ↔ k ∈ es.map Prod.fst := by
  induction es with
  | nil => rfl
  | cons e es ih =>
    obtain ⟨k', v⟩ := e
    rw [dictOf, List.map_cons, List.map_cons, List.mem_cons, List.mem_cons, ← ih]
    by_cases hk : k = k'
    · simp [hk]
    · simp only [hk, false_or, List.mem_map, List.mem_filter, decide_eq_true_eq]
      constructor
      · rintro ⟨e, ⟨he, -⟩, rfl⟩
        exact ⟨e, he, rfl⟩
      · rintro ⟨e, he, rfl⟩
        exact ⟨e, ⟨he, hk⟩, rfl⟩

theorem nodup_dictOf (es : List (PyStr × α)) : ((dictOf es).map Prod.fst).Nodup := by
  induction es with
  | nil => exact nodup_nil
  | cons e es ih =>
    obtain ⟨k, v⟩ := e
    rw [dictOf, map_cons, nodup_cons]
    constructor
    · intro hmem
      obtain ⟨e, he, heq⟩ := mem_map.mp hmem
      exact of_decide_eq_true (mem_filter.mp he).2 heq
    · exact ih.sublist (filter_sublist.map _)

theorem getList_none (h : k ∉ es.map Prod.fst) : Dict.getList k es = none := by
  induction es with
  | nil => rfl
  | cons e es ih =>
    obtain ⟨k', v⟩ := e
    rw [map_cons, mem_cons, not_or] at h
    rw [Dict.getList, if_neg (Ne.symm h.1), ih h.2]

theorem dictOf_self (h : (es.map Prod.fst).Nodup) : dictOf es = es := by
  induction es with
  | nil => rfl
  | cons e es ih =>
    obtain ⟨k, v⟩ := e
    rw [map_cons, nodup_cons] at h
    rw [dictOf, ih h.2, getList_none h.1, getD_none]
    congr 1
    refine filter_eq_self.mpr fun e he => decide_eq_true fun heq => h.1 ?_
    have hmem : e.1 ∈ es.map Prod.fst := mem_map_of_mem he
    rw [heq] at hmem
    exact hmem

end

/-! ### Texts are read -/

mutual

/-- **The text of a value is scanned as a document for it.** -/
theorem scanValue_text : ∀ {v : Json}, v.Plain → v.Distinct →
    ∀ {fuel limit : Nat} {y : List Char}, Delimited y → v.depth ≤ limit → (text v).length < fuel →
      ∃ d, scanValue fuel limit (text v ++ y) = .ok (d, y) ∧ d.eval = v
  | _, _, _, 0, _, _, _, _, hfuel => absurd hfuel (not_lt_zero _)
  | .null, _, _, fuel + 1, limit, y, _, _, _ => by
    refine ⟨.null, ?_, rfl⟩
    show scanValue (fuel + 1) limit ('n' :: 'u' :: 'l' :: 'l' :: y) = _
    rw [scanValue_atom fuel limit _ (by decide) (by decide) (by decide)]
    rfl
  | .bool b, _, _, fuel + 1, limit, y, _, _, _ => by
    refine ⟨.bool b, ?_, rfl⟩
    cases b with
    | true =>
      show scanValue (fuel + 1) limit ('t' :: 'r' :: 'u' :: 'e' :: y) = _
      rw [scanValue_atom fuel limit _ (by decide) (by decide) (by decide)]
      rfl
    | false =>
      show scanValue (fuel + 1) limit ('f' :: 'a' :: 'l' :: 's' :: 'e' :: y) = _
      rw [scanValue_atom fuel limit _ (by decide) (by decide) (by decide)]
      rfl
  | .int n, hplain, _, fuel + 1, limit, y, hy, _, _ => by
    obtain ⟨m, hscan, hfloat, hwhole, hint⟩ := scan_intText n hy
    refine ⟨.int m.int, ?_, congrArg Json.int hint⟩
    have hfits : m.whole.length ≤ maxStrDigits := by
      rw [hwhole]
      exact of_decide_eq_true hplain
    rw [scanValue_numeral fuel limit hscan, hfloat, if_neg Bool.false_ne_true, if_pos hfits]
  | .float x, hplain, _, fuel + 1, limit, y, hy, _, _ => by
    obtain ⟨t, ht⟩ := isSome_iff_exists.mp ((Double.repr?_isSome x).trans hplain)
    obtain ⟨m, hscan, hfloat, hvalue⟩ := Numeral.scan_repr ht hy
    refine ⟨.float m, ?_, congrArg Json.float hvalue⟩
    rw [text, ht, getD_some, scanValue_numeral fuel limit hscan, hfloat, if_pos rfl]
  | .str s, hplain, _, fuel + 1, limit, y, _, _, _ => by
    refine ⟨.str s, ?_, rfl⟩
    have hscan := scanString_quoted hplain y
    rw [text, quoted, cons_append, append_assoc, singleton_append,
      scanValue_string fuel limit hscan]
  | .arr [], _, _, fuel + 1, limit + 1, y, _, _, _ => by
    refine ⟨.arr [], ?_, rfl⟩
    show scanValue (fuel + 1) (limit + 1) ('[' :: (']' :: y)) = _
    rw [scanValue_array, skip_cons (by decide) y]
    exact if_pos rfl
  | .arr (x :: xs), hplain, hdistinct, fuel + 1, limit + 1, y, _, hdepth, hfuel => by
    rw [depth, add_le_add_iff_right] at hdepth
    rw [text, length_cons, length_append, length_singleton] at hfuel
    obtain ⟨ds, hscan, heval⟩ := scanItems_text (y := y) hplain hdistinct hdepth
      (lt_of_succ_lt_succ hfuel)
    refine ⟨.arr ds, ?_, congrArg Json.arr heval⟩
    obtain ⟨c, hc, hspace, hbracket, -⟩ := starts_texts hplain (y := ']' :: y)
    rw [text, cons_append, append_assoc, singleton_append, scanValue_array,
      skip_of_head hc hspace, hscan, if_neg]
    · rfl
    · intro hhead
      exact hbracket (Option.some.inj (hc.symm.trans hhead))
  | .obj [], _, _, fuel + 1, limit + 1, y, _, _, _ => by
    refine ⟨.obj [], ?_, rfl⟩
    show scanValue (fuel + 1) (limit + 1) ('{' :: ('}' :: y)) = _
    rw [scanValue_object, skip_cons (by decide) y]
    exact if_pos rfl
  | .obj ((k, v) :: kvs), hplain, hdistinct, fuel + 1, limit + 1, y, _, hdepth, hfuel => by
    rw [depth, add_le_add_iff_right] at hdepth
    rw [text, length_cons, length_append, length_singleton] at hfuel
    have hentries : PlainEntries ((k, v) :: kvs) := hplain
    obtain ⟨es, hscan, heval⟩ := scanMembers_text (y := y) hentries hdistinct.2 hdepth
      (lt_of_succ_lt_succ hfuel)
    refine ⟨.obj es, ?_, ?_⟩
    · have hhead : (joinTexts (members ((k, v) :: kvs)) ++ '}' :: y).head? = some mark := by
        cases kvs <;> rfl
      rw [text, cons_append, append_assoc, singleton_append, scanValue_object,
        skip_of_head hhead (by decide), hscan, if_neg]
      · rfl
      · rw [hhead]
        decide
    · rw [Doc.eval, heval, dictOf_self hdistinct.1]
  | .arr _, _, _, _ + 1, 0, _, _, hdepth, _ => absurd hdepth (not_succ_le_zero _)
  | .obj _, _, _, _ + 1, 0, _, _, hdepth, _ => absurd hdepth (not_succ_le_zero _)

theorem scanItems_text : ∀ {x : Json} {xs : List Json}, PlainItems (x :: xs) →
    DistinctItems (x :: xs) → ∀ {fuel limit : Nat} {y : List Char}, depthItems (x :: xs) ≤ limit →
      (joinTexts (texts (x :: xs))).length + 1 < fuel →
        ∃ ds, scanItems fuel limit (joinTexts (texts (x :: xs)) ++ ']' :: y) = .ok (ds, y) ∧
          Doc.evalItems ds = x :: xs
  | _, _, _, _, 0, _, _, _, hfuel => absurd hfuel (Nat.not_lt_zero _)
  | x, [], hplain, hdistinct, fuel + 1, limit, y, hdepth, hfuel => by
    have hfuel' : (text x).length < fuel := Nat.lt_of_succ_lt_succ hfuel
    obtain ⟨d, hscan, heval⟩ := scanValue_text (y := ']' :: y) hplain.1 hdistinct.1 (delimited_cons.mpr rfl)
      ((le_max_left _ _).trans hdepth) hfuel'
    exact ⟨[d], scanItems_last hscan, congrArg (· :: []) heval⟩
  | x, x' :: xs, hplain, hdistinct, fuel + 1, limit, y, hdepth, hfuel => by
    have hsplit : joinTexts (texts (x :: x' :: xs)) =
        text x ++ ',' :: joinTexts (texts (x' :: xs)) := rfl
    rw [hsplit, length_append, length_cons] at hfuel
    obtain ⟨d, hscan, heval⟩ := scanValue_text
      (y := ',' :: (joinTexts (texts (x' :: xs)) ++ ']' :: y)) hplain.1 hdistinct.1 (delimited_cons.mpr rfl)
      ((le_max_left _ _).trans hdepth) (by omega : (text x).length < fuel)
    obtain ⟨ds, hscans, hevals⟩ := scanItems_text (y := y) hplain.2 hdistinct.2
      ((le_max_right _ _).trans hdepth)
      (by omega : (joinTexts (texts (x' :: xs))).length + 1 < fuel)
    obtain ⟨c, hc, hspace, -⟩ := starts_texts hplain.2 (y := ']' :: y)
    refine ⟨d :: ds, ?_, ?_⟩
    · rw [hsplit, append_assoc, cons_append, scanItems_next hscan, skip_of_head hc hspace, hscans]
      rfl
    · rw [Doc.evalItems, heval, hevals]

theorem scanMembers_text : ∀ {e : PyStr × Json} {kvs : List (PyStr × Json)},
    PlainEntries (e :: kvs) → DistinctEntries (e :: kvs) →
      ∀ {fuel limit : Nat} {y : List Char}, depthEntries (e :: kvs) ≤ limit →
        (joinTexts (members (e :: kvs))).length + 1 < fuel →
          ∃ es, scanMembers fuel limit (joinTexts (members (e :: kvs)) ++ '}' :: y) = .ok (es, y) ∧
            Doc.evalEntries es = e :: kvs
  | _, _, _, _, 0, _, _, _, hfuel => absurd hfuel (Nat.not_lt_zero _)
  | (k, v), [], hplain, hdistinct, fuel + 1, limit, y, hdepth, hfuel => by
    have hlength : (joinTexts (members [(k, v)])).length = (quoted k).length + ((text v).length + 1) := by
      show (quoted k ++ ':' :: text v).length = _
      rw [List.length_append, List.length_cons]
    obtain ⟨d, hscan, heval⟩ := scanValue_text (y := '}' :: y) hplain.1.2 hdistinct.1 (delimited_cons.mpr rfl)
      ((le_max_left _ _).trans hdepth) (by omega : (text v).length < fuel)
    refine ⟨[(k, d)], ?_, congrArg (fun w => [(k, w)]) heval⟩
    have hkey := scanString_quoted hplain.1.1 (':' :: (text v ++ '}' :: y))
    have hjoin : joinTexts (members [(k, v)]) ++ '}' :: y =
        mark :: (k.codes.flatMap (fun c => escape (Char.ofNat c)) ++
          mark :: ':' :: (text v ++ '}' :: y)) := by
      show quoted k ++ ':' :: text v ++ '}' :: y = _
      simp only [quoted, cons_append, append_assoc, nil_append]
    rw [hjoin]
    refine scanMembers_last hkey ?_
    rw [skip_append (starts_text hplain.1.2)]
    exact hscan
  | (k, v), e :: kvs, hplain, hdistinct, fuel + 1, limit, y, hdepth, hfuel => by
    have hsplit : joinTexts (members ((k, v) :: e :: kvs)) =
        quoted k ++ ':' :: text v ++ ',' :: joinTexts (members (e :: kvs)) := rfl
    rw [hsplit, length_append, length_append, length_cons, length_cons] at hfuel
    obtain ⟨d, hscan, heval⟩ := scanValue_text
      (y := ',' :: (joinTexts (members (e :: kvs)) ++ '}' :: y)) hplain.1.2 hdistinct.1 (delimited_cons.mpr rfl)
      ((le_max_left _ _).trans hdepth) (by omega : (text v).length < fuel)
    obtain ⟨es, hscans, hevals⟩ := scanMembers_text (y := y) hplain.2 hdistinct.2
      ((le_max_right _ _).trans hdepth)
      (by omega : (joinTexts (members (e :: kvs))).length + 1 < fuel)
    have hhead : (joinTexts (members (e :: kvs)) ++ '}' :: y).head? = some mark := by
      cases kvs <;> rfl
    refine ⟨(k, d) :: es, ?_, ?_⟩
    · have hkey := scanString_quoted hplain.1.1
        (':' :: (text v ++ ',' :: (joinTexts (members (e :: kvs)) ++ '}' :: y)))
      have hjoin : joinTexts (members ((k, v) :: e :: kvs)) ++ '}' :: y =
          mark :: (k.codes.flatMap (fun c => escape (Char.ofNat c)) ++
            mark :: ':' :: (text v ++ ',' :: (joinTexts (members (e :: kvs)) ++ '}' :: y))) := by
        rw [hsplit]
        simp only [quoted, cons_append, append_assoc, nil_append]
      have hscan' : scanValue fuel limit (skip (text v ++ ',' ::
          (joinTexts (members (e :: kvs)) ++ '}' :: y))) = .ok (d, ',' ::
            (joinTexts (members (e :: kvs)) ++ '}' :: y)) := by
        rw [skip_append (starts_text hplain.1.2)]
        exact hscan
      rw [hjoin, scanMembers_next hkey hscan', skip_of_head hhead (by decide), hscans]
      rfl
    · rw [Doc.evalEntries, heval, hevals]

end


/-- **The text of a value is read as the value.** -/
theorem loads_text {limit : Nat} (hplain : v.Plain) (hdistinct : v.Distinct)
    (hdepth : v.depth ≤ limit) : loads limit (text v) = .ok v := by
  have hskip : skip (text v) = text v := by
    obtain ⟨c, hc, hspace, -⟩ := starts_text hplain
    exact skip_of_head hc hspace
  obtain ⟨d, hscan, heval⟩ := scanValue_text (y := []) hplain hdistinct delimited_nil hdepth
    (by omega : (text v).length < 2 * (text v).length + 1)
  rw [append_nil] at hscan
  have hparse : parse limit (text v) = .ok d := by
    have hnil : skip [] = [] := rfl
    simp [parse, hskip, hscan, hnil, bind, Except.bind]
  rw [loads, hparse]
  exact congrArg Except.ok heval

/-- **Different values have different texts.** -/
theorem text_inj (hv : v.Plain) (hv' : v.Distinct) (hw : w.Plain) (hw' : w.Distinct)
    (h : text v = text w) : v = w := by
  have hread := loads_text hv hv' (le_max_left v.depth w.depth)
  rw [h, loads_text hw hw' (le_max_right v.depth w.depth)] at hread
  exact (Except.ok.inj hread).symm

/-! ### What is scanned -/

theorem map_ok {x : Except Fault A} {f : A → B} {b : B} (h : x.map f = .ok b) :
    ∃ a, x = .ok a ∧ f a = b := by
  cases x with
  | error e => cases h
  | ok a => exact ⟨a, rfl, Except.ok.inj h⟩

theorem scanValue_cases (h : scanValue (fuel + 1) limit (c :: t) = .ok (d, y)) :
    (∃ s, scanString t = some (s, y) ∧ d = .str ⟨s⟩) ∨
    (∃ l ds, limit = l + 1 ∧ d = .arr ds ∧
      (ds = [] ∧ y = (skip t).tail ∧ skip t ≠ [] ∨ scanItems fuel l (skip t) = .ok (ds, y))) ∨
    (∃ l es, limit = l + 1 ∧ d = .obj es ∧
      (es = [] ∧ y = (skip t).tail ∧ skip t ≠ [] ∨ scanMembers fuel l (skip t) = .ok (es, y))) ∨
    scanAtom (c :: t) = .ok (d, y) := by
  have hne : ∀ {e : Char}, (skip t).head? = some e → skip t ≠ [] := by
    intro e he hnil
    rw [hnil] at he
    cases he
  rw [scanValue.eq_def] at h
  dsimp only at h
  split at h
  · cases hs : scanString t with
    | none =>
      rw [hs] at h
      cases h
    | some p =>
      rw [hs] at h
      obtain ⟨rfl, rfl⟩ := Prod.mk.inj (Except.ok.inj h)
      exact Or.inl ⟨_, rfl, rfl⟩
  split at h
  · cases limit with
    | zero => cases h
    | succ l =>
      dsimp only at h
      split at h
      · next hhead =>
        obtain ⟨rfl, rfl⟩ := Prod.mk.inj (Except.ok.inj h)
        exact Or.inr (Or.inl ⟨l, [], rfl, rfl, Or.inl ⟨rfl, rfl, hne hhead⟩⟩)
      · obtain ⟨p, hp, heq⟩ := map_ok h
        obtain ⟨rfl, rfl⟩ := Prod.mk.inj heq
        exact Or.inr (Or.inl ⟨l, _, rfl, rfl, Or.inr hp⟩)
  split at h
  · cases limit with
    | zero => cases h
    | succ l =>
      dsimp only at h
      split at h
      · next hhead =>
        obtain ⟨rfl, rfl⟩ := Prod.mk.inj (Except.ok.inj h)
        exact Or.inr (Or.inr (Or.inl ⟨l, [], rfl, rfl, Or.inl ⟨rfl, rfl, hne hhead⟩⟩))
      · obtain ⟨p, hp, heq⟩ := map_ok h
        obtain ⟨rfl, rfl⟩ := Prod.mk.inj heq
        exact Or.inr (Or.inr (Or.inl ⟨l, _, rfl, rfl, Or.inr hp⟩))
  · exact Or.inr (Or.inr (Or.inr h))

theorem scanItems_cases {ds : List Doc} (h : scanItems (fuel + 1) limit t = .ok (ds, y)) :
    ∃ d t', scanValue fuel limit t = .ok (d, t') ∧ (skip t' = ']' :: y ∧ ds = [d] ∨
        ∃ t'' ds', skip t' = ',' :: t'' ∧ scanItems fuel limit (skip t'') = .ok (ds', y) ∧
          ds = d :: ds') := by
  rw [scanItems] at h
  obtain ⟨⟨d, t'⟩, hvalue, h⟩ := bind_ok_iff.mp h
  refine ⟨d, t', hvalue, ?_⟩
  dsimp only at h
  cases hskip : skip t' with
  | nil =>
    rw [hskip] at h
    cases h
  | cons c t'' =>
    rw [hskip] at h
    dsimp only at h
    split at h
    · next hc =>
      obtain ⟨rfl, rfl⟩ := Prod.mk.inj (Except.ok.inj h)
      exact Or.inl ⟨by rw [hc], rfl⟩
    · split at h
      · next hc =>
        obtain ⟨p, hp, heq⟩ := map_ok h
        obtain ⟨rfl, rfl⟩ := Prod.mk.inj heq
        exact Or.inr ⟨t'', _, by rw [hc], hp, rfl⟩
      · cases h

theorem scanMembers_cases {es : List (PyStr × Doc)}
    (h : scanMembers (fuel + 1) limit t = .ok (es, y)) :
    ∃ c t₀ k t₁ d t', t = c :: t₀ ∧ scanString t₀ = some (k, t₁) ∧ skip t₁ ≠ [] ∧
      scanValue fuel limit (skip (skip t₁).tail) = .ok (d, t') ∧
      (skip t' = '}' :: y ∧ es = [(⟨k⟩, d)] ∨
        ∃ t'' es', skip t' = ',' :: t'' ∧ scanMembers fuel limit (skip t'') = .ok (es', y) ∧
          es = (⟨k⟩, d) :: es') := by
  cases t with
  | nil => cases h
  | cons c t₀ =>
    rw [scanMembers.eq_def] at h
    dsimp only at h
    split at h
    · cases hk : scanString t₀ with
      | none =>
        rw [hk] at h
        cases h
      | some p =>
        obtain ⟨k, t₁⟩ := p
        rw [hk] at h
        dsimp only at h
        split at h
        · next hcolon =>
          obtain ⟨⟨d, t'⟩, hvalue, h⟩ := bind_ok_iff.mp h
          refine ⟨c, t₀, k, t₁, d, t', rfl, hk, ?_, hvalue, ?_⟩
          · intro hnil
            rw [hnil] at hcolon
            cases hcolon
          · dsimp only at h
            cases hskip : skip t' with
            | nil =>
              rw [hskip] at h
              cases h
            | cons c t'' =>
              rw [hskip] at h
              dsimp only at h
              split at h
              · next hc =>
                obtain ⟨rfl, rfl⟩ := Prod.mk.inj (Except.ok.inj h)
                exact Or.inl ⟨by rw [hc], rfl⟩
              · split at h
                · next hc =>
                  obtain ⟨p, hp, heq⟩ := map_ok h
                  obtain ⟨rfl, rfl⟩ := Prod.mk.inj heq
                  exact Or.inr ⟨t'', _, by rw [hc], hp, rfl⟩
                · cases h
        · cases h
    · cases h

/-! ### Documents -/

namespace Doc

mutual

def IntsFit : Doc → Prop
  | .int n => intFits n = true
  | .arr ds => IntsFitItems ds
  | .obj es => IntsFitEntries es
  | _ => True

def IntsFitItems : List Doc → Prop
  | [] => True
  | d :: ds => IntsFit d ∧ IntsFitItems ds

def IntsFitEntries : List (PyStr × Doc) → Prop
  | [] => True
  | (_, d) :: es => IntsFit d ∧ IntsFitEntries es

end

mutual

/-- How many containers are nested, without members that a later one replaces. -/
def depth : Doc → Nat
  | .arr ds => depthItems ds + 1
  | .obj es => depthEntries es + 1
  | _ => 0

def depthItems : List Doc → Nat
  | [] => 0
  | d :: ds => max (depth d) (depthItems ds)

def depthEntries : List (PyStr × Doc) → Nat
  | [] => 0
  | (k, d) :: es => max (if k ∈ es.map Prod.fst then 0 else depth d) (depthEntries es)

end

mutual

/-- No number literal overflows and no surrogate is unpaired, but in members that a later one
replaces. -/
def Plain : Doc → Prop
  | .float n => (Double.ofRat n.neg n.decimal.value).isFinite = true
  | .str s => validStr s = true
  | .arr ds => PlainItems ds
  | .obj es => PlainEntries es
  | _ => True

def PlainItems : List Doc → Prop
  | [] => True
  | d :: ds => Plain d ∧ PlainItems ds

def PlainEntries : List (PyStr × Doc) → Prop
  | [] => True
  | (k, d) :: es => (k ∈ es.map Prod.fst ∨ validStr k = true ∧ Plain d) ∧ PlainEntries es

end

theorem keys_evalEntries (es : List (PyStr × Doc)) :
    (evalEntries es).map Prod.fst = es.map Prod.fst := by
  induction es with
  | nil => rfl
  | cons e es ih => rw [evalEntries, map_cons, map_cons, ih]

end Doc

theorem forall_dictOf_cons {P : PyStr × α → Prop} {k : PyStr} {v : α} {es : List (PyStr × α)} :
    (∀ e ∈ dictOf ((k, v) :: es), P e) ↔
      (k ∈ es.map Prod.fst ∨ P (k, v)) ∧ ∀ e ∈ dictOf es, P e := by
  have hnodup := nodup_dictOf es
  rw [dictOf, forall_mem_cons]
  by_cases hk : k ∈ es.map Prod.fst
  · obtain ⟨⟨k', v'⟩, hmem, rfl⟩ := mem_map.mp (mem_keys_dictOf.mpr hk)
    have hget : Dict.getList k' (dictOf es) = some v' := (Dict.getList_eq_some_iff hnodup).mpr hmem
    rw [hget, getD_some]
    constructor
    · rintro ⟨hv', hrest⟩
      refine ⟨Or.inl hk, fun e he => ?_⟩
      by_cases heq : e.1 = k'
      · -- there is one entry with this key
        obtain ⟨k'', w⟩ := e
        obtain rfl : k'' = k' := heq
        have hw : Dict.getList k'' (dictOf es) = some w := (Dict.getList_eq_some_iff hnodup).mpr he
        obtain rfl := Option.some.inj (hget.symm.trans hw)
        exact hv'
      · exact hrest e (mem_filter.mpr ⟨he, decide_eq_true heq⟩)
    · rintro ⟨-, hall⟩
      exact ⟨hall _ hmem, fun e he => hall e (mem_filter.mp he).1⟩
  · have hnone : k ∉ (dictOf es).map Prod.fst := fun h => hk (mem_keys_dictOf.mp h)
    have hfilter : (dictOf es).filter (·.1 ≠ k) = dictOf es := by
      refine filter_eq_self.mpr fun e he => decide_eq_true fun heq => hnone ?_
      have hmem : e.1 ∈ (dictOf es).map Prod.fst := mem_map_of_mem he
      rw [heq] at hmem
      exact hmem
    rw [getList_none hnone, getD_none, hfilter]
    simp only [hk, false_or]

theorem plainEntries_iff : PlainEntries kvs ↔ ∀ e ∈ kvs, validStr e.1 = true ∧ Plain e.2 := by
  induction kvs with
  | nil => simp [PlainEntries]
  | cons e kvs ih => rw [PlainEntries, ih, forall_mem_cons]

theorem distinctEntries_iff : DistinctEntries kvs ↔ ∀ e ∈ kvs, Distinct e.2 := by
  induction kvs with
  | nil => simp [DistinctEntries]
  | cons e kvs ih => rw [DistinctEntries, ih, forall_mem_cons]

theorem depthEntries_le_iff : depthEntries kvs ≤ n ↔ ∀ e ∈ kvs, e.2.depth ≤ n := by
  induction kvs with
  | nil => simp [depthEntries]
  | cons e kvs ih => rw [depthEntries, Nat.max_le, ih, List.forall_mem_cons]

mutual

/-- **The value of a document can be written and encoded if the document is plain.** -/
theorem plain_eval_iff : ∀ {d : Doc}, d.IntsFit → (d.eval.Plain ↔ d.Plain)
  | .null, _ | .bool _, _ | .float _, _ | .str _, _ => Iff.rfl
  | .int _, hfit => iff_of_true hfit trivial
  | .arr ds, hfit => plainItems_eval_iff hfit
  | .obj es, hfit => by
    rw [Doc.eval, Plain, plainEntries_iff, Doc.Plain]
    exact plainEntries_eval_iff hfit

theorem plainItems_eval_iff : ∀ {ds : List Doc}, Doc.IntsFitItems ds →
    (PlainItems (Doc.evalItems ds) ↔ Doc.PlainItems ds)
  | [], _ => Iff.rfl
  | _ :: _, hfit => and_congr (plain_eval_iff hfit.1) (plainItems_eval_iff hfit.2)

theorem plainEntries_eval_iff : ∀ {es : List (PyStr × Doc)}, Doc.IntsFitEntries es →
    ((∀ e ∈ dictOf (Doc.evalEntries es), validStr e.1 = true ∧ Plain e.2) ↔ Doc.PlainEntries es)
  | [], _ => by simp [Doc.evalEntries, dictOf, Doc.PlainEntries]
  | (k, d) :: es, hfit => by
    rw [Doc.evalEntries, forall_dictOf_cons, Doc.keys_evalEntries, plainEntries_eval_iff hfit.2,
      Doc.PlainEntries, plain_eval_iff hfit.1]

end

mutual

theorem depth_le_eval_iff : ∀ {d : Doc} {n : Nat}, d.eval.depth ≤ n ↔ d.depth ≤ n
  | .null, _ | .bool _, _ | .float _, _ | .str _, _ | .int _, _ => Iff.rfl
  | .arr ds, n => by
    rw [Doc.eval, depth, Doc.depth]
    cases n with
    | zero => simp
    | succ n => rw [add_le_add_iff_right, add_le_add_iff_right, depthItems_le_eval_iff]
  | .obj es, n => by
    rw [Doc.eval, depth, Doc.depth]
    cases n with
    | zero => simp
    | succ n =>
      rw [add_le_add_iff_right, add_le_add_iff_right, depthEntries_le_iff, depthEntries_le_eval_iff]

theorem depthItems_le_eval_iff : ∀ {ds : List Doc} {n : Nat},
    depthItems (Doc.evalItems ds) ≤ n ↔ Doc.depthItems ds ≤ n
  | [], _ => Iff.rfl
  | d :: ds, n => by
    rw [Doc.evalItems, depthItems, Nat.max_le, Doc.depthItems, Nat.max_le, depth_le_eval_iff,
      depthItems_le_eval_iff]

theorem depthEntries_le_eval_iff : ∀ {es : List (PyStr × Doc)} {n : Nat},
    (∀ e ∈ dictOf (Doc.evalEntries es), e.2.depth ≤ n) ↔ Doc.depthEntries es ≤ n
  | [], _ => by simp [Doc.evalEntries, dictOf, Doc.depthEntries]
  | (k, d) :: es, n => by
    rw [Doc.evalEntries, forall_dictOf_cons, Doc.keys_evalEntries, depthEntries_le_eval_iff,
      Doc.depthEntries, Nat.max_le]
    refine and_congr_left fun _ => ?_
    by_cases hk : k ∈ es.map Prod.fst
    · simp only [hk, true_or, if_true, Nat.zero_le]
    · simp only [hk, false_or, if_false]
      exact depth_le_eval_iff

end

theorem depth_eval (d : Doc) : d.eval.depth = d.depth :=
  le_antisymm (depth_le_eval_iff.mpr (le_refl _)) (depth_le_eval_iff.mp (le_refl _))

mutual

theorem distinct_eval : ∀ d : Doc, d.eval.Distinct
  | .null | .bool _ | .float _ | .str _ | .int _ => trivial
  | .arr ds => distinctItems_eval ds
  | .obj es => by
    rw [Doc.eval, Distinct, distinctEntries_iff]
    exact ⟨nodup_dictOf _, distinctEntries_eval es⟩

theorem distinctItems_eval : ∀ ds : List Doc, DistinctItems (Doc.evalItems ds)
  | [] => trivial
  | d :: ds => ⟨distinct_eval d, distinctItems_eval ds⟩

theorem distinctEntries_eval : ∀ es : List (PyStr × Doc),
    ∀ e ∈ dictOf (Doc.evalEntries es), Distinct e.2
  | [] => fun e he => by cases he
  | (k, d) :: es => by
    rw [Doc.evalEntries, forall_dictOf_cons]
    exact ⟨Or.inr (distinct_eval d), distinctEntries_eval es⟩

end

/-! ### What is read -/

theorem within_scanAtom {limit : Nat} (h : scanAtom t = .ok (d, y)) :
    d.IntsFit ∧ d.depth ≤ limit := by
  unfold scanAtom at h
  split at h
  · obtain ⟨rfl, -⟩ := Prod.mk.inj (Except.ok.inj h)
    exact ⟨trivial, zero_le _⟩
  split at h
  · obtain ⟨rfl, -⟩ := Prod.mk.inj (Except.ok.inj h)
    exact ⟨trivial, zero_le _⟩
  split at h
  · obtain ⟨rfl, -⟩ := Prod.mk.inj (Except.ok.inj h)
    exact ⟨trivial, zero_le _⟩
  split at h
  · cases h
  · next n t' hscan =>
    split at h
    · obtain ⟨rfl, -⟩ := Prod.mk.inj (Except.ok.inj h)
      exact ⟨trivial, zero_le _⟩
    · split at h
      · next hlength =>
        obtain ⟨rfl, -⟩ := Prod.mk.inj (Except.ok.inj h)
        exact ⟨decide_eq_true ((Numeral.length_int_le hscan).trans hlength), zero_le _⟩
      · cases h

theorem within_scanned (fuel : Nat) :
    (∀ {limit : Nat} {t y : List Char} {d : Doc}, scanValue fuel limit t = .ok (d, y) →
      d.IntsFit ∧ d.depth ≤ limit) ∧
    (∀ {limit : Nat} {t y : List Char} {ds : List Doc}, scanItems fuel limit t = .ok (ds, y) →
      Doc.IntsFitItems ds ∧ Doc.depthItems ds ≤ limit) ∧
    ∀ {limit : Nat} {t y : List Char} {es : List (PyStr × Doc)},
      scanMembers fuel limit t = .ok (es, y) →
        Doc.IntsFitEntries es ∧ Doc.depthEntries es ≤ limit := by
  induction fuel with
  | zero =>
    refine ⟨fun {limit t y d} h => ?_, fun {limit t y ds} h => ?_, fun {limit t y es} h => ?_⟩
    · cases h
    · cases h
    · cases h
  | succ fuel ih =>
    obtain ⟨hvalue, hitems, hmembers⟩ := ih
    refine ⟨fun {limit t y d} h => ?_, fun {limit t y ds} h => ?_, fun {limit t y es} h => ?_⟩
    · cases t with
      | nil => cases h
      | cons c t =>
        rcases scanValue_cases h with ⟨s, -, rfl⟩ | ⟨l, ds, rfl, rfl, ⟨rfl, -⟩ | hscan⟩ |
          ⟨l, es, rfl, rfl, ⟨rfl, -⟩ | hscan⟩ | hatom
        · exact ⟨trivial, Nat.zero_le _⟩
        · exact ⟨trivial, Nat.succ_le_succ (Nat.zero_le _)⟩
        · exact ⟨(hitems hscan).1, Nat.succ_le_succ (hitems hscan).2⟩
        · exact ⟨trivial, Nat.succ_le_succ (Nat.zero_le _)⟩
        · exact ⟨(hmembers hscan).1, Nat.succ_le_succ (hmembers hscan).2⟩
        · exact within_scanAtom hatom
    · obtain ⟨d, t', hd, ⟨-, rfl⟩ | ⟨t'', ds', -, hds, rfl⟩⟩ := scanItems_cases h
      · exact ⟨⟨(hvalue hd).1, trivial⟩, Nat.max_le.mpr ⟨(hvalue hd).2, Nat.zero_le _⟩⟩
      · exact ⟨⟨(hvalue hd).1, (hitems hds).1⟩, Nat.max_le.mpr ⟨(hvalue hd).2, (hitems hds).2⟩⟩
    · obtain ⟨c, t₀, k, t₁, d, t', -, -, -, hd, hrest⟩ := scanMembers_cases h
      have hone : ∀ es' : List (PyStr × Doc),
          (if (⟨k⟩ : PyStr) ∈ es'.map Prod.fst then 0 else d.depth) ≤ limit := by
        intro es'
        split
        · exact Nat.zero_le _
        · exact (hvalue hd).2
      obtain ⟨-, rfl⟩ | ⟨t'', es', -, hes, rfl⟩ := hrest
      · exact ⟨⟨(hvalue hd).1, trivial⟩, Nat.max_le.mpr ⟨hone [], Nat.zero_le _⟩⟩
      · exact ⟨⟨(hvalue hd).1, (hmembers hes).1⟩, Nat.max_le.mpr ⟨hone es', (hmembers hes).2⟩⟩

/-- **A document is not nested deeper than the interpreter lets it, and its integers can be
written again.** -/
theorem parse_within {limit : Nat} {t : List Char} (h : parse limit t = .ok d) :
    d.IntsFit ∧ d.depth ≤ limit := by
  rw [parse] at h
  obtain ⟨⟨d', y⟩, hscan, h⟩ := bind_ok_iff.mp h
  dsimp only at h
  split at h
  · cases h
    exact (within_scanned _).1 hscan
  · cases h

end Json
