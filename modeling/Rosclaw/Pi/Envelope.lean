/-
A context envelope on its way to the agent (`bridge/bridge-client.ts`, `pi_bridge/context.py`).

The bridge writes one line of JSON, and the client appends what it gets to its buffer chunk by
chunk, each turned into a text by itself.  A character whose bytes lie in two chunks comes out as
replacement characters, and the agent hashes another envelope than the daemon.

* `Wire` — a value on the wire, with the ends of the chunks inside its characters;
* `tally` — quotation marks are never won on the way, and where none is lost every cut character
  leaves a further replacement character;
* `envelopes_agree` — **the hash is that of the daemon if and only if the envelope is portable and
  arrives whole**.
-/
import Rosclaw.Pi.Canonical

namespace Rosclaw.Pi

open JsonText Decimal List

/-- A character on the wire: `more` bytes of it lie in the chunk of its first byte, after that. -/
structure Arrival where
  char : Char
  more : Nat

namespace Arrival

/-- A chunk ends inside the character. -/
def Cut (a : Arrival) : Prop := a.more + 1 < a.char.utf8Size

instance (a : Arrival) : Decidable a.Cut := by unfold Cut; infer_instance

def replacement : Char := Char.ofNat 0xFFFD

/-- `chunk.toString()`: the beginning of a cut character becomes one replacement character, and
each of its other bytes one more. -/
def text (a : Arrival) : List Char :=
  if a.Cut then replicate (a.char.utf8Size - a.more) replacement else [a.char]

end Arrival

/-- A JSON value on the wire. -/
inductive Wire
  | null
  | bool (b : Bool)
  | int (n : Int)
  | float (x : Float64)
  | str (s : List Arrival)
  | list (xs : List Wire)
  | dict (kvs : List (List Arrival × Wire))

/-- The string that was sent. -/
def sentText (s : List Arrival) : String := String.ofList (s.map Arrival.char)

/-- The string that the client has in its buffer. -/
def parsedText (s : List Arrival) : String := String.ofList (s.flatMap Arrival.text)

/-- The entries of an object as `JSON.parse` leaves them, up to their order: of a key that is
there twice the last value stays. -/
def lastWins {α : Type} : List (String × α) → List (String × α)
  | [] => []
  | e :: es => if es.any (fun e' => e'.1 = e.1) then lastWins es else e :: lastWins es

namespace Wire

mutual

def sent : Wire → Json
  | .null => .null
  | .bool b => .bool b
  | .int n => .int n
  | .float x => .float x
  | .str s => .str (sentText s)
  | .list xs => .list (sentItems xs)
  | .dict kvs => .dict (sentEntries kvs)

def sentItems : List Wire → List Json
  | [] => []
  | x :: xs => sent x :: sentItems xs

def sentEntries : List (List Arrival × Wire) → List (String × Json)
  | [] => []
  | (k, v) :: kvs => (sentText k, sent v) :: sentEntries kvs

end

mutual

/-- `JSON.parse` of the line that the client has put together. -/
def parsed : Wire → JsValue
  | .null => .null
  | .bool b => .bool b
  | .int n => .num (parsedInt n)
  | .float x => .num (parsedFloat x)
  | .str s => .str (parsedText s)
  | .list xs => .arr (parsedItems xs)
  | .dict kvs => .obj (lastWins (parsedEntries kvs))

def parsedItems : List Wire → List JsValue
  | [] => []
  | x :: xs => parsed x :: parsedItems xs

def parsedEntries : List (List Arrival × Wire) → List (String × JsValue)
  | [] => []
  | (k, v) :: kvs => (parsedText k, parsed v) :: parsedEntries kvs

end

def cutsOf (s : List Arrival) : Nat := s.countP fun a => a.Cut

mutual

/-- How many characters a chunk ends in. -/
def cuts : Wire → Nat
  | .str s => cutsOf s
  | .list xs => cutsItems xs
  | .dict kvs => cutsEntries kvs
  | _ => 0

def cutsItems : List Wire → Nat
  | [] => 0
  | x :: xs => cuts x + cutsItems xs

def cutsEntries : List (List Arrival × Wire) → Nat
  | [] => 0
  | (k, v) :: kvs => cutsOf k + cuts v + cutsEntries kvs

end

end Wire

/-! ### The hash -/

/-- `payload.pop("hash", None)`. -/
def hashed : Json → Json
  | .dict kvs => .dict (kvs.filter fun e => e.1 ≠ "hash")
  | v => v

/-- `envelope_hash`; the digest is of a text, which has one encoding. -/
def storedHash (sha256 : List Char → String) (envelope : Json) : String :=
  "sha256:" ++ sha256 (canonicalDumps (hashed envelope))

/-- `delete payload.hash`. -/
def withoutHash : JsValue → JsValue
  | .obj kvs => .obj (kvs.filter fun e => e.1 ≠ "hash")
  | v => v

def envelopeHash (sha256 : List Char → String) (envelope : JsValue) : String :=
  "sha256:" ++ sha256 (canonicalJson (withoutHash envelope))

/-- An envelope on the wire, with its hash among its members. -/
structure Envelope where
  members : List (List Arrival × Wire)
  distinct : Distinct (Wire.dict members).sent

namespace Envelope

def wire (e : Envelope) : Wire := .dict e.members

/-- The members that are hashed. -/
def payload (e : Envelope) : Wire := .dict (e.members.filter fun m => sentText m.1 ≠ "hash")

end Envelope

/-! ### Characters -/

variable {a : Arrival} {c : Char} {m n : Nat} {s : List Arrival} {t t' u u' : List Char}
  {ts ts' : List (List Char)} {α β : Type} {es es' : List (String × α)}

theorem not_cut_of_ascii (h : a.char.utf8Size = 1) : ¬ a.Cut := by
  unfold Arrival.Cut
  omega

theorem text_of_not_cut (h : ¬ a.Cut) : a.text = [a.char] := if_neg h

theorem flatMap_text (h : Wire.cutsOf s = 0) : s.flatMap Arrival.text = s.map Arrival.char := by
  induction s with
  | nil => rfl
  | cons a s ih =>
    rw [Wire.cutsOf, countP_cons] at h
    have ha : ¬ a.Cut := by
      intro hcut
      simp [hcut] at h
    rw [flatMap_cons, text_of_not_cut ha, ih (by simpa [Wire.cutsOf] using (Nat.add_eq_zero_iff.mp h).1),
      map_cons]
    rfl

theorem parsedText_eq (h : Wire.cutsOf s = 0) : parsedText s = sentText s := by
  rw [parsedText, sentText, flatMap_text h]

/-- The characters that are counted: in a text they stand for themselves alone. -/
def Counted (c : Char) : Prop := c = mark ∨ c = Arrival.replacement

theorem count_escape (hc : Counted c) (d : Char) : (escape d).count c = [d].count c := by
  unfold escape
  split
  · next e hlookup =>
    obtain ⟨l₁, l₂, hsplit, -⟩ := lookup_eq_some_iff.mp hlookup
    have hmem : (d.toNat, e) ∈ shortEscapes := by
      rw [hsplit]
      simp
    have hd : d = Char.ofNat d.toNat := (Char.ofNat_toNat d).symm
    simp only [shortEscapes, mem_cons, not_mem_nil, or_false, Prod.mk.injEq] at hmem
    rcases hmem with ⟨h, rfl⟩ | ⟨h, rfl⟩ | ⟨h, rfl⟩ | ⟨h, rfl⟩ | ⟨h, rfl⟩ | ⟨h, rfl⟩ | ⟨h, rfl⟩
    all_goals
      rw [hd, h]
      rcases hc with rfl | rfl <;> rfl
  · split
    · next hcontrol =>
      have hall : ∀ n < 32, ([backslash, 'u', '0', '0', Nat.digitChar (n / 16),
          Nat.digitChar (n % 16)].count mark = [Char.ofNat n].count mark) ∧
          [backslash, 'u', '0', '0', Nat.digitChar (n / 16), Nat.digitChar (n % 16)].count
            Arrival.replacement = [Char.ofNat n].count Arrival.replacement := by
        decide
      have hd := hall d.toNat hcontrol
      rw [Char.ofNat_toNat] at hd
      rcases hc with rfl | rfl
      · exact hd.1
      · exact hd.2
    · rfl

theorem count_flatMap_escape (hc : Counted c) (l : List Char) :
    (l.flatMap escape).count c = l.count c := by
  induction l with
  | nil => rfl
  | cons d l ih =>
    rw [flatMap_cons, count_append, ih, count_escape hc, ← count_append]
    rfl

theorem count_joinTexts (hc : Counted c) (ts : List (List Char)) :
    (joinTexts ts).count c = ts.flatten.count c := by
  have hcomma : (',' == c) = false := by
    rcases hc with rfl | rfl <;> rfl
  induction ts with
  | nil => rfl
  | cons t ts ih =>
    cases ts with
    | nil => simp [joinTexts]
    | cons t' ts =>
      rw [joinTexts, count_append, count_cons, ih, flatten_cons (l := t), count_append, hcomma]
      rfl

theorem count_arrayText (hc : Counted c) (ts : List (List Char)) :
    (arrayText ts).count c = ts.flatten.count c := by
  have hopen : ('[' == c) = false := by
    rcases hc with rfl | rfl <;> rfl
  have hclose : (']' == c) = false := by
    rcases hc with rfl | rfl <;> rfl
  simp [arrayText, count_cons, count_joinTexts hc, hopen, hclose]

/-- The members of an object, key after value. -/
def memberTexts (es : List (String × List Char)) : List Char := es.flatMap fun e => quote e.1 ++ e.2

theorem count_objectText (hc : Counted c) (es : List (String × List Char)) :
    (objectText es).count c = (memberTexts es).count c := by
  have hopen : ('{' == c) = false := by
    rcases hc with rfl | rfl <;> rfl
  have hclose : ('}' == c) = false := by
    rcases hc with rfl | rfl <;> rfl
  have hcolon : (':' == c) = false := by
    rcases hc with rfl | rfl <;> rfl
  have hmembers : (es.map member).flatten.count c = (memberTexts es).count c := by
    induction es with
    | nil => rfl
    | cons e es ih =>
      rw [map_cons, flatten_cons, count_append, ih, memberTexts, memberTexts, flatMap_cons,
        count_append, member, count_append, count_cons, hcolon, count_append]
      rfl
  simp [objectText, count_cons, count_joinTexts hc, hmembers, hopen, hclose]

theorem count_of_perm {es es' : List (String × List Char)} (h : es.Perm es') (c : Char) :
    (memberTexts es).count c = (memberTexts es').count c :=
  (h.flatMap_right _).count_eq c

theorem not_counted_stringify (hc : Counted c) (x : JsNumber) : c ∉ x.stringify := by
  intro hmem
  rcases mem_stringify hmem with h | h
  · rcases hc with rfl | rfl <;> cases h
  · simp only [nullText, mem_cons, not_mem_nil, or_false] at h
    rcases hc with rfl | rfl <;> rcases h with h | h | h | h <;> cases h

theorem not_mem_of_numerals (hc : Counted c) (h : ∀ d ∈ t, isNumeral d = true) : c ∉ t := by
  intro hmem
  have hnumeral := h c hmem
  rcases hc with rfl | rfl <;> cases hnumeral

/-! ### What is lost on the way -/

/-- The text that arrives has no more quotation marks than the one that was sent, and where it has
as many, it has `n` more replacement characters. -/
def Tally (n : Nat) (t t' : List Char) : Prop :=
  t.count mark ≤ t'.count mark ∧
    (t.count mark = t'.count mark →
      t'.count Arrival.replacement + n ≤ t.count Arrival.replacement)

theorem Tally.append (h : Tally m t t') (h' : Tally n u u') : Tally (m + n) (t ++ u) (t' ++ u') := by
  obtain ⟨hmarks, hcuts⟩ := h
  obtain ⟨hmarks', hcuts'⟩ := h'
  refine ⟨?_, ?_⟩
  · rw [count_append, count_append]
    omega
  · intro heq
    rw [count_append, count_append] at heq
    have h₁ := hcuts (by omega)
    have h₂ := hcuts' (by omega)
    rw [count_append, count_append]
    omega

theorem Tally.drop (h : Tally m t t') (hu : mark ∈ u) : Tally n t (u ++ t') := by
  have hpos : 0 < u.count mark := count_pos_iff.mpr hu
  have hmarks := h.1
  refine ⟨?_, ?_⟩
  · rw [count_append]
    omega
  · intro heq
    rw [count_append] at heq
    omega

theorem Tally.congr (h : Tally n t t') (hu : ∀ c, Counted c → u.count c = t.count c)
    (hu' : ∀ c, Counted c → u'.count c = t'.count c) : Tally n u u' := by
  unfold Tally
  rw [hu mark (.inl rfl), hu' mark (.inl rfl), hu _ (.inr rfl), hu' _ (.inr rfl)]
  exact h

theorem Tally.same (t : List Char) : Tally 0 t t := ⟨le_refl _, fun _ => le_refl _⟩

theorem tally_tokens (h : ∀ c, Counted c → c ∉ t) (h' : ∀ c, Counted c → c ∉ t') : Tally 0 t t' := by
  refine (Tally.same []).congr ?_ ?_
  · intro c hc
    exact count_eq_zero.mpr (h c hc)
  · intro c hc
    exact count_eq_zero.mpr (h' c hc)

theorem tally_arrival (a : Arrival) : Tally (if a.Cut then 1 else 0) a.text [a.char] := by
  by_cases hcut : a.Cut
  · have hlong : a.more + 1 < a.char.utf8Size := hcut
    have hchar : a.char ≠ mark := by
      intro heq
      exact not_cut_of_ascii (by rw [heq]; rfl) hcut
    have hmark : ∀ n, (replicate n Arrival.replacement).count mark = 0 := by
      intro n
      rw [count_replicate]
      rfl
    have hone : [a.char].count Arrival.replacement ≤ 1 := count_le_length
    rw [if_pos hcut, Arrival.text, if_pos hcut]
    refine ⟨?_, ?_⟩
    · rw [hmark]
      exact Nat.zero_le _
    · intro _
      rw [count_replicate_self]
      omega
  · rw [if_neg hcut, text_of_not_cut hcut]
    exact .same _

theorem tally_arrivals (s : List Arrival) :
    Tally (Wire.cutsOf s) (s.flatMap Arrival.text) (s.map Arrival.char) := by
  induction s with
  | nil => exact .same []
  | cons a s ih =>
    have hcuts : Wire.cutsOf (a :: s) = (if a.Cut then 1 else 0) + Wire.cutsOf s := by
      simp only [Wire.cutsOf, countP_cons, decide_eq_true_eq]
      exact Nat.add_comm _ _
    rw [hcuts]
    exact (tally_arrival a).append ih

theorem tally_quote (s : List Arrival) :
    Tally (Wire.cutsOf s) (quote (parsedText s)) (quote (sentText s)) := by
  have hquote : ∀ l : List Char, ∀ c, Counted c →
      (quote (String.ofList l)).count c = ([mark] ++ l ++ [mark]).count c := by
    intro l c hc
    rw [quote, String.toList_ofList, count_cons, count_append, count_flatMap_escape hc,
      count_append, count_append, count_cons (l := [])]
    simp only [count_nil]
    omega
  have hmiddle := ((Tally.same [mark]).append (tally_arrivals s)).append (Tally.same [mark])
  rw [Nat.zero_add] at hmiddle
  exact hmiddle.congr (hquote _) (hquote _)

theorem mark_mem_quote (k : String) : mark ∈ quote k := mem_cons_self

theorem jsonEntries_lastWins (es : List (String × JsValue)) :
    jsonEntries (lastWins es) = lastWins (jsonEntries es) := by
  induction es with
  | nil => rfl
  | cons e es ih =>
    have hkeys : (jsonEntries es).any (fun e' => e'.1 = e.1) = es.any (fun e' => e'.1 = e.1) := by
      clear ih
      induction es with
      | nil => rfl
      | cons e' es ih => rw [jsonEntries, any_cons, any_cons, ih]
    rw [lastWins, jsonEntries, lastWins, hkeys]
    split
    · exact ih
    · rw [jsonEntries, ih]

mutual

theorem tally : ∀ w : Wire, Tally w.cuts (canonicalJson w.parsed) (canonicalDumps w.sent)
  | .null => .same _
  | .bool _ => .same _
  | .int n => by
    refine tally_tokens ?_ ?_
    · intro c hc
      exact not_counted_stringify hc _
    · intro c hc
      exact not_mem_of_numerals hc fun d hd => isNumeral_of_mem hd
  | .float x => by
    refine tally_tokens ?_ ?_
    · intro c hc
      exact not_counted_stringify hc _
    · intro c hc
      exact not_mem_of_numerals hc (isNumeral_jsNumber x)
  | .str s => tally_quote s
  | .list xs => by
    refine (tallyItems xs).congr ?_ ?_
    · intro c hc
      exact count_arrayText hc _
    · intro c hc
      exact count_arrayText hc _
  | .dict kvs => by
    refine (tallyEntries kvs).congr ?_ ?_
    · intro c hc
      show (objectText (sortedByUnit (jsonEntries (lastWins (Wire.parsedEntries kvs))))).count c = _
      rw [count_objectText hc, jsonEntries_lastWins]
      exact count_of_perm (perm_insertionSort _ _) c
    · intro c hc
      show (objectText (sortedByCode (dumpsEntries (Wire.sentEntries kvs)))).count c = _
      rw [count_objectText hc]
      exact count_of_perm (perm_insertionSort _ _) c

theorem tallyItems : ∀ xs : List Wire, Tally (Wire.cutsItems xs)
    (jsonItems (Wire.parsedItems xs)).flatten (dumpsItems (Wire.sentItems xs)).flatten
  | [] => .same _
  | x :: xs => (tally x).append (tallyItems xs)

theorem tallyEntries : ∀ kvs : List (List Arrival × Wire), Tally (Wire.cutsEntries kvs)
    (memberTexts (lastWins (jsonEntries (Wire.parsedEntries kvs))))
    (memberTexts (dumpsEntries (Wire.sentEntries kvs)))
  | [] => .same _
  | (k, v) :: kvs => by
    rw [Wire.parsedEntries, jsonEntries, lastWins]
    split
    · refine (tallyEntries kvs).drop ?_
      exact mem_append_left _ (mark_mem_quote _)
    · exact ((tally_quote k).append (tally v)).append (tallyEntries kvs)

end

/-! ### What arrives whole -/

theorem lastWins_of_nodup (h : (es.map Prod.fst).Nodup) : lastWins es = es := by
  induction es with
  | nil => rfl
  | cons e es ih =>
    obtain ⟨hnew, hnodup⟩ := nodup_cons.mp h
    have hany : es.any (fun e' => e'.1 = e.1) = false := by
      rw [any_eq_false]
      intro e' he'
      simp only [decide_eq_true_eq]
      intro heq
      exact hnew (heq ▸ mem_map_of_mem he')
    rw [lastWins, if_neg (by simp [hany]), ih hnodup]

theorem receivedEntries_keys (kvs : List (String × Json)) :
    (receivedEntries kvs).map Prod.fst = kvs.map Prod.fst := by
  induction kvs with
  | nil => rfl
  | cons e kvs ih => rw [receivedEntries, map_cons, map_cons, ih]

mutual

theorem parsed_of_whole : ∀ {w : Wire}, w.cuts = 0 → Distinct w.sent → w.parsed = received w.sent
  | .null, _, _ | .bool _, _, _ | .int _, _, _ | .float _, _, _ => rfl
  | .str _, h, _ => congrArg JsValue.str (parsedText_eq h)
  | .list _, h, hdistinct => congrArg JsValue.arr (parsedItems_of_whole h hdistinct)
  | .dict kvs, h, hdistinct => by
    have hentries := parsedEntries_of_whole h hdistinct.2
    rw [Wire.parsed, hentries, lastWins_of_nodup]
    · rfl
    · rw [receivedEntries_keys]
      exact hdistinct.1

theorem parsedItems_of_whole : ∀ {xs : List Wire}, Wire.cutsItems xs = 0 →
    DistinctItems (Wire.sentItems xs) → Wire.parsedItems xs = receivedItems (Wire.sentItems xs)
  | [], _, _ => rfl
  | x :: xs, h, hdistinct => by
    obtain ⟨hx, hxs⟩ := Nat.add_eq_zero_iff.mp h
    rw [Wire.parsedItems, parsed_of_whole hx hdistinct.1, parsedItems_of_whole hxs hdistinct.2]
    rfl

theorem parsedEntries_of_whole : ∀ {kvs : List (List Arrival × Wire)}, Wire.cutsEntries kvs = 0 →
    DistinctEntries (Wire.sentEntries kvs) →
    Wire.parsedEntries kvs = receivedEntries (Wire.sentEntries kvs)
  | [], _, _ => rfl
  | (k, v) :: kvs, h, hdistinct => by
    obtain ⟨hhead, hkvs⟩ := Nat.add_eq_zero_iff.mp h
    obtain ⟨hk, hv⟩ := Nat.add_eq_zero_iff.mp hhead
    rw [Wire.parsedEntries, parsedText_eq hk, parsed_of_whole hv hdistinct.1,
      parsedEntries_of_whole hkvs hdistinct.2]
    rfl

end

/-- What comes out of the chunks has the text of what was sent just in case that is portable and
no chunk ends inside a character. -/
theorem parsed_eq_iff {w : Wire} (h : Distinct w.sent) :
    canonicalJson w.parsed = canonicalDumps w.sent ↔ Portable w.sent ∧ w.cuts = 0 := by
  constructor
  · intro htext
    obtain ⟨-, hcuts⟩ := tally w
    rw [htext] at hcuts
    have hwhole : w.cuts = 0 := by
      have hle := hcuts rfl
      omega
    rw [parsed_of_whole hwhole h] at htext
    exact ⟨(canonical_iff ⟨w.sent, h⟩).mp htext, hwhole⟩
  · rintro ⟨hportable, hwhole⟩
    rw [parsed_of_whole hwhole h]
    exact (canonical_iff ⟨w.sent, h⟩).mpr hportable

/-! ### The members that are hashed -/

theorem hash_iff (s : List Arrival) : parsedText s = "hash" ↔ sentText s = "hash" := by
  by_cases hcuts : Wire.cutsOf s = 0
  · rw [parsedText_eq hcuts]
  · obtain ⟨a, ha, hcut⟩ := countP_pos_iff.mp (Nat.pos_of_ne_zero hcuts)
    have hcut' : a.Cut := by simpa using hcut
    have hlong : a.more + 1 < a.char.utf8Size := hcut'
    constructor
    · intro heq
      -- the replacement characters are no letters of the key
      have hmem : Arrival.replacement ∈ s.flatMap Arrival.text := by
        refine mem_flatMap.mpr ⟨a, ha, ?_⟩
        rw [Arrival.text, if_pos hcut']
        exact mem_replicate.mpr ⟨by omega, rfl⟩
      have hlist : s.flatMap Arrival.text = "hash".toList := by
        rw [← heq, parsedText, String.toList_ofList]
      rw [hlist] at hmem
      exact absurd hmem (by decide)
    · intro heq
      have hmem : a.char ∈ "hash".toList := by
        rw [← heq, sentText, String.toList_ofList]
        exact mem_map_of_mem ha
      have hletters : "hash".toList = ['h', 'a', 's', 'h'] := by decide
      have hascii : ∀ c ∈ "hash".toList, c.utf8Size = 1 := by
        simp only [hletters, forall_mem_cons]
        exact ⟨rfl, rfl, rfl, rfl, forall_mem_nil _⟩
      exact absurd hcut' (not_cut_of_ascii (hascii _ hmem))

theorem lastWins_filter (key : String) (es : List (String × α)) :
    (lastWins es).filter (fun e => e.1 ≠ key) = lastWins (es.filter fun e => e.1 ≠ key) := by
  induction es with
  | nil => rfl
  | cons e es ih =>
    by_cases hkey : e.1 = key
    · rw [filter_cons_of_neg (by simpa using hkey), lastWins]
      split
      · exact ih
      · rw [filter_cons_of_neg (by simpa using hkey), ih]
    · have hany : (es.filter fun e => e.1 ≠ key).any (fun e' => e'.1 = e.1) =
          es.any (fun e' => e'.1 = e.1) := by
        rw [any_filter]
        refine any_congr rfl ?_
        intro e'
        by_cases heq : e'.1 = e.1
        · simp [heq, hkey]
        · simp [heq]
      rw [filter_cons_of_pos (by simpa using hkey), lastWins, lastWins, hany]
      split
      · exact ih
      · rw [filter_cons_of_pos (by simpa using hkey), ih]

theorem parsedEntries_filter (kvs : List (List Arrival × Wire)) :
    (Wire.parsedEntries kvs).filter (fun e => e.1 ≠ "hash") =
      Wire.parsedEntries (kvs.filter fun m => sentText m.1 ≠ "hash") := by
  induction kvs with
  | nil => rfl
  | cons m kvs ih =>
    by_cases hkey : sentText m.1 = "hash"
    · rw [Wire.parsedEntries, filter_cons_of_neg (by simpa using (hash_iff m.1).mpr hkey),
        filter_cons_of_neg (by simpa using hkey), ih]
    · rw [Wire.parsedEntries, filter_cons_of_pos (by simpa using fun h => hkey ((hash_iff m.1).mp h)),
        filter_cons_of_pos (by simpa using hkey), ih]
      rfl

theorem sentEntries_filter (kvs : List (List Arrival × Wire)) :
    (Wire.sentEntries kvs).filter (fun e => e.1 ≠ "hash") =
      Wire.sentEntries (kvs.filter fun m => sentText m.1 ≠ "hash") := by
  induction kvs with
  | nil => rfl
  | cons m kvs ih =>
    by_cases hkey : sentText m.1 = "hash"
    · rw [Wire.sentEntries, filter_cons_of_neg (by simpa using hkey),
        filter_cons_of_neg (by simpa using hkey), ih]
    · rw [Wire.sentEntries, filter_cons_of_pos (by simpa using hkey),
        filter_cons_of_pos (by simpa using hkey), ih]
      rfl

theorem distinctEntries_filter (q : String × Json → Bool) {kvs : List (String × Json)}
    (h : DistinctEntries kvs) : DistinctEntries (kvs.filter q) := by
  induction kvs with
  | nil => exact h
  | cons e kvs ih =>
    by_cases hq : q e = true
    · rw [filter_cons_of_pos hq]
      exact ⟨h.1, ih h.2⟩
    · rw [filter_cons_of_neg hq]
      exact ih h.2

namespace Envelope

variable (e : Envelope)

theorem withoutHash_parsed : withoutHash e.wire.parsed = e.payload.parsed := by
  show JsValue.obj _ = JsValue.obj _
  rw [lastWins_filter, parsedEntries_filter]

theorem hashed_sent : hashed e.wire.sent = e.payload.sent := by
  show Json.dict _ = Json.dict _
  rw [sentEntries_filter]

theorem distinct_payload : Distinct e.payload.sent := by
  rw [← hashed_sent]
  exact ⟨e.distinct.1.sublist (filter_sublist.map Prod.fst), distinctEntries_filter _ e.distinct.2⟩

end Envelope

/-- **The texts of every value are the same if and only if it is portable, and the agent computes
the hash of the daemon if and only if the envelope is portable and arrives whole.** -/
theorem envelopes_agree (p : Payload) (e : Envelope) :
    (canonicalJson (received p.value) = canonicalDumps p.value ↔ Portable p.value) ∧
    ((∀ sha256, envelopeHash sha256 e.wire.parsed = storedHash sha256 e.wire.sent) ↔
      Portable e.payload.sent ∧ e.payload.cuts = 0) := by
  refine ⟨canonical_iff p, ?_⟩
  rw [← parsed_eq_iff e.distinct_payload]
  simp only [envelopeHash, storedHash, e.withoutHash_parsed, e.hashed_sent, String.append_right_inj]
  constructor
  · intro h
    exact String.ofList_injective (h String.ofList)
  · intro htext sha256
    rw [htext]

/-- `2 ^ -15`, which Python writes `3.0517578125e-5` and JavaScript `0.000030517578125`. -/
def smallFloat : Binary64 :=
  ⟨2 ^ 52, -67, by norm_num, by norm_num, by norm_num, by norm_num, by norm_num⟩

/-- The goal `é`, with its first byte at the end of a chunk. -/
def cutGoal : Envelope where
  members := [("goal".toList.map (⟨·, 0⟩), .str [⟨Char.ofNat 0xE9, 0⟩])]
  distinct := by
    simp [Wire.sent, Wire.sentEntries, Distinct, DistinctEntries]

/-- An envelope with a float of which the two texts differ, and one that is portable and comes in
two chunks: the agent hashes another text than the daemon. -/
theorem envelopes_differ :
    (∃ p : Payload, canonicalJson (received p.value) ≠ canonicalDumps p.value) ∧
    Portable cutGoal.wire.sent ∧ canonicalJson (withoutHash cutGoal.wire.parsed) ≠
      canonicalDumps (hashed cutGoal.wire.sent) := by
  refine ⟨⟨⟨.dict [("x", .float (.nonzero false smallFloat))], ?_⟩, ?_⟩, ?_, ?_⟩
  · simp [Distinct, DistinctEntries]
  · decide +kernel
  · simp [cutGoal, Envelope.wire, Wire.sent, Wire.sentEntries, Portable, PortableEntries, SameOrder]
  · decide +kernel

end Rosclaw.Pi
