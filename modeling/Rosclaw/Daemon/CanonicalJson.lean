/-
Canonical JSON of ledger events (`daemon/ledger.py`).

The MAC of an event is taken over the text of its payload, and verified over the text of what is
read from it.

* `append`, `verify` — what `_append_locked` stores, and what the loop of `_verify_chain_locked`
  checks of it;
* `canonical_laws` — **the event is accepted again if and only if its payload is ordered**;
* `refused_again` — an event that is not.
-/
import Rosclaw.Lib.PyJson

namespace Rosclaw.LedgerJson

open Json PyJson List Option

/-! ### The rows -/

/-- The arguments of `append`, and the time. -/
structure Submission where
  eventType : PyStr
  entityKind : PyStr
  entityId : PyStr
  createdAt : PyStr
  payload : List (Key × PyObj)

/-- A row of `ledger_events`. -/
structure Row where
  sequence : Int
  eventType : PyStr
  entityKind : PyStr
  entityId : PyStr
  createdAt : PyStr
  payloadJson : List Char
  previousMac : PyStr
  eventMac : PyStr

/-- What `_event_mac` signs. -/
def Row.fields (row : Row) : PyObj :=
  .dict [
    (.str "sequence", .int row.sequence),
    (.str "event_type", .str row.eventType),
    (.str "entity_kind", .str row.entityKind),
    (.str "entity_id", .str row.entityId),
    (.str "created_at", .str row.createdAt),
    (.str "payload_json", .str (ofChars row.payloadJson)),
    (.str "previous_mac", .str row.previousMac)]

section Ledger

variable (limit : Nat) (mac : List Char → PyStr)

/-- `_event_mac`, under a key. -/
def eventMac (row : Row) : Option PyStr := (canonicalJson limit row.fields).map mac

def head (rows : List Row) : Int × PyStr :=
  match rows.getLast? with
  | some row => (row.sequence, row.eventMac)
  | none => (0, "GENESIS")

/-- The row of an event that comes after `rows`, before it is signed. -/
def unsigned (rows : List Row) (s : Submission) (payloadJson : List Char) : Row where
  sequence := (head rows).1 + 1
  eventType := s.eventType
  entityKind := s.entityKind
  entityId := s.entityId
  createdAt := s.createdAt
  payloadJson := payloadJson
  previousMac := (head rows).2
  eventMac := ""

/-- `_append_locked`, when it returns an event. -/
def append (rows : List Row) (s : Submission) : Option (List Row) :=
  (canonicalJson limit (.dict s.payload)).bind fun payloadJson =>
    (eventMac limit mac (unsigned rows s payloadJson)).map fun m =>
      rows ++ [{ unsigned rows s payloadJson with eventMac := m }]

/-- `_canonical_json` of what `_decode_event` reads. -/
def reencode (payloadJson : List Char) : Option (List Char) :=
  match loads limit payloadJson with
  | .ok (.obj kvs) => canonicalJson limit (ofJson (.obj kvs))
  | _ => none

def accepts (row : Row) : Bool :=
  match reencode limit row.payloadJson with
  | some payloadJson =>
      eventMac limit mac { row with payloadJson := payloadJson } = some row.eventMac
  | none => false

/-- The loop of `_verify_chain_locked`. -/
def verify (expectedSequence : Int) (previousMac : PyStr) : List Row → Bool
  | [] => true
  | row :: rows => row.sequence = expectedSequence && row.previousMac = previousMac &&
      accepts limit mac row && verify (expectedSequence + 1) row.eventMac rows

end Ledger

variable {limit : Nat} {mac : List Char → PyStr}

theorem wellFormed_fields (row : Row) : WellFormed row.fields := by
  rw [Row.fields, WellFormed]
  refine ⟨?_, trivial, trivial, trivial, trivial, trivial, trivial, trivial, trivial⟩
  exact @pairwise_not_same ["sequence", "event_type", "entity_kind", "entity_id", "created_at",
    "payload_json", "previous_mac"] (by decide)

theorem payload_of_message {row : Row} {t m : List Char}
    (h : canonicalJson limit row.fields = some m)
    (h' : canonicalJson limit { row with payloadJson := t }.fields = some m) :
    t = row.payloadJson := by
  obtain ⟨w, hw, hm⟩ := bind_eq_some_iff.mp h
  obtain ⟨w', hw', hm'⟩ := bind_eq_some_iff.mp h'
  obtain ⟨hplain, -, rfl⟩ := encoded_iff.mp hm
  obtain ⟨hplain', -, htext⟩ := encoded_iff.mp hm'
  have hdistinct := (arrange_laws hw (wellFormed_fields row)).1
  have hdistinct' := (arrange_laws hw' (wellFormed_fields _)).1
  obtain rfl := text_inj hplain hdistinct hplain' hdistinct' htext
  have hmem : ∀ row : Row, (Key.str "payload_json", PyObj.str (ofChars row.payloadJson)) ∈ [
      (Key.str "sequence", PyObj.int row.sequence),
      (.str "event_type", .str row.eventType),
      (.str "entity_kind", .str row.entityKind),
      (.str "entity_id", .str row.entityId),
      (.str "created_at", .str row.createdAt),
      (.str "payload_json", .str (ofChars row.payloadJson)),
      (.str "previous_mac", .str row.previousMac)] := by
    intro row
    simp
  obtain ⟨es, y, rfl, hy, -, hin⟩ := mem_arrange hw (hmem row)
  obtain ⟨es', y', heq, hy', -, hin'⟩ := mem_arrange hw' (hmem { row with payloadJson := t })
  obtain rfl := Json.obj.inj heq
  cases hy
  cases hy'
  have hvalue := inj_on_of_nodup_map hdistinct.1 hin hin' rfl
  exact (ofChars_inj (Json.str.inj (Prod.mk.inj hvalue).2)).symm

def Stored (limit : Nat) (mac : List Char → PyStr) (s : Submission) (row : Row) : Prop :=
  canonicalJson limit (.dict s.payload) = some row.payloadJson ∧
    eventMac limit mac row = some row.eventMac

theorem reencode_stored {s : Submission} {row : Row} (h : Stored limit mac s row)
    (hs : WellFormed (.dict s.payload)) :
    (reencode limit row.payloadJson = some row.payloadJson ↔ Ordered (.dict s.payload)) ∧
      ∃ w, reencode limit row.payloadJson = canonicalJson limit (ofJson w) := by
  obtain ⟨w, hw, hloads, hiff⟩ := reencoded hs h.1
  have hobj : ∃ kvs, w = .obj kvs := by
    rw [arrange] at hw
    obtain ⟨es, -, hw⟩ := bind_eq_some_iff.mp hw
    obtain ⟨sorted, -, hw⟩ := bind_eq_some_iff.mp hw
    obtain ⟨texts, -, rfl⟩ := map_eq_some_iff.mp hw
    exact ⟨texts, rfl⟩
  obtain ⟨kvs, rfl⟩ := hobj
  have hre : reencode limit row.payloadJson = canonicalJson limit (ofJson (.obj kvs)) := by
    rw [reencode, hloads]
  rw [hre]
  exact ⟨hiff, _, rfl⟩

theorem accepts_stored (hmac : ∀ m m', mac m = mac m' → m = m') {s : Submission} {row : Row}
    (h : Stored limit mac s row) (hs : WellFormed (.dict s.payload)) :
    accepts limit mac row = true ↔ Ordered (.dict s.payload) := by
  obtain ⟨m, hm, hrow⟩ := map_eq_some_iff.mp h.2
  rw [← (reencode_stored h hs).1, accepts]
  split
  · case _ t ht =>
    rw [ht, decide_eq_true_iff, some_inj]
    constructor
    · intro hagain
      obtain ⟨m', hm', hrow'⟩ := map_eq_some_iff.mp hagain
      obtain rfl := hmac m m' (hrow.trans hrow'.symm)
      exact payload_of_message hm hm'
    · rintro rfl
      exact h.2
  · case _ hnone =>
    rw [hnone]
    exact ⟨fun h => (by cases h), fun h => (by cases h)⟩

theorem append_some {rows rows' : List Row} {s : Submission}
    (h : append limit mac rows s = some rows') :
    ∃ row, rows' = rows ++ [row] ∧ Stored limit mac s row ∧ row.sequence = (head rows).1 + 1 ∧
      row.previousMac = (head rows).2 := by
  rw [append] at h
  obtain ⟨t, ht, h⟩ := bind_eq_some_iff.mp h
  obtain ⟨m, hm, rfl⟩ := map_eq_some_iff.mp h
  exact ⟨_, rfl, ⟨ht, hm⟩, rfl, rfl⟩

theorem verify_snoc (n : Int) (previous : PyStr) (rows : List Row) (row : Row) :
    verify limit mac n previous (rows ++ [row]) = (verify limit mac n previous rows &&
      (row.sequence = n + rows.length &&
        row.previousMac = (rows.getLast?.map Row.eventMac).getD previous &&
        accepts limit mac row)) := by
  induction rows generalizing n previous with
  | nil =>
    rw [Bool.eq_iff_iff]
    simp [verify]
    exact fun _ _ => decide_eq_true_iff.symm
  | cons r rows ih =>
    have hlength : n + 1 + (rows.length : Int) = n + ((r :: rows).length : Int) := by
      rw [length_cons]
      omega
    have hlast : (rows.getLast?.map Row.eventMac).getD r.eventMac =
        ((r :: rows).getLast?.map Row.eventMac).getD previous := by
      rw [List.getLast?_cons]
      cases rows.getLast? with
      | none => rfl
      | some _ => rfl
    rw [cons_append, verify, ih, verify, hlength, hlast]
    simp only [Bool.and_assoc]

structure Rows (limit : Nat) (mac : List Char → PyStr) (ss : List Submission) (rows : List Row) :
    Prop where
  stored : List.Forall₂ (Stored limit mac) ss rows
  sequence : (head rows).1 = rows.length
  verified : verify limit mac 1 "GENESIS" rows = true ↔ ∀ row ∈ rows, accepts limit mac row = true

theorem Rows.append {ss : List Submission} {rows rows' : List Row} {s : Submission}
    (hrows : Rows limit mac ss rows) (h : LedgerJson.append limit mac rows s = some rows') :
    Rows limit mac (ss ++ [s]) rows' := by
  obtain ⟨row, rfl, hstored, hsequence, hprevious⟩ := append_some h
  have hhead : head (rows ++ [row]) = (row.sequence, row.eventMac) := by
    rw [head, List.getLast?_concat]
  have hlast : (head rows).2 = (rows.getLast?.map Row.eventMac).getD "GENESIS" := by
    rw [head]
    cases rows.getLast? with
    | none => rfl
    | some _ => rfl
  rw [hrows.sequence] at hsequence
  refine ⟨?_, ?_, ?_⟩
  · exact rel_append hrows.stored (.cons hstored .nil)
  · rw [hhead, hsequence, length_append, length_singleton, Nat.cast_add, Nat.cast_one]
  · have hnext : row.sequence = 1 + rows.length := by omega
    rw [verify_snoc, Bool.and_eq_true, hrows.verified, decide_eq_true hnext,
      decide_eq_true (hprevious.trans hlast), Bool.true_and, Bool.true_and, forall_mem_append,
      forall_mem_singleton]

theorem rows_run {ss ss' : List Submission} {rows rows' : List Row} (hrows : Rows limit mac ss rows)
    (h : ss'.foldlM (append limit mac) rows = some rows') : Rows limit mac (ss ++ ss') rows' := by
  induction ss' generalizing ss rows with
  | nil =>
    cases h
    rw [append_nil]
    exact hrows
  | cons s ss' ih =>
    obtain ⟨next, hnext, h⟩ := bind_eq_some_iff.mp h
    rw [append_cons]
    exact ih (hrows.append hnext) h

theorem rows_nil : Rows limit mac [] [] where
  stored := .nil
  sequence := rfl
  verified := iff_of_true rfl (forall_mem_nil _)

theorem arrange_fields (row : Row) : arrange row.fields = some (.obj [
    ("created_at", .str row.createdAt), ("entity_id", .str row.entityId),
    ("entity_kind", .str row.entityKind), ("event_type", .str row.eventType),
    ("payload_json", .str (ofChars row.payloadJson)), ("previous_mac", .str row.previousMac),
    ("sequence", .int row.sequence)]) := rfl

theorem append_plain {limit : Nat} {mac : List Char → PyStr} {rows : List Row} {s : Submission}
    {w : Json} (hw : arrange (.dict s.payload) = some w) (hplain : w.Plain) (hdepth : w.depth ≤ limit)
    (hlimit : 1 ≤ limit) (hs : ∀ c ∈ [s.createdAt, s.entityId, s.entityKind, s.eventType],
      Json.validStr c = true) (hnumber : intFits ((head rows).1 + 1) = true)
    (hprevious : Json.validStr (head rows).2 = true) :
    ∃ row m, append limit mac rows s = some (rows ++ [row]) ∧ row.payloadJson = text w ∧
      row.sequence = (head rows).1 + 1 ∧ row.eventMac = mac m := by
  simp only [forall_mem_cons, not_mem_nil, false_implies, implies_true, and_true] at hs
  have hpayload : canonicalJson limit (.dict s.payload) = some (text w) := by
    rw [canonicalJson, hw, bind_some]
    exact encoded_iff.mpr ⟨hplain, hdepth, rfl⟩
  obtain ⟨m, hm⟩ : ∃ m, canonicalJson limit (unsigned rows s (text w)).fields = some m := by
    simp only [canonicalJson, arrange_fields, bind_some]
    refine ⟨_, encoded_iff.mpr ⟨?_, ?_, rfl⟩⟩
    · simp only [Json.Plain, Json.PlainEntries]
      have hkeys : ∀ k ∈ (["created_at", "entity_id", "entity_kind", "event_type", "payload_json",
          "previous_mac", "sequence"] : List PyStr), Json.validStr k = true := by decide
      simp only [forall_mem_cons, not_mem_nil, false_implies, implies_true, and_true] at hkeys
      obtain ⟨h1, h2, h3, h4, h5, h6, h7⟩ := hkeys
      exact ⟨⟨h1, hs.1⟩, ⟨h2, hs.2.1⟩, ⟨h3, hs.2.2.1⟩, ⟨h4, hs.2.2.2⟩, ⟨h5, validStr_ofChars _⟩,
        ⟨h6, hprevious⟩, ⟨h7, hnumber⟩, trivial⟩
    · simpa [Json.depth, Json.depthEntries] using hlimit
  refine ⟨{ unsigned rows s (text w) with eventMac := mac m }, m, ?_, rfl, rfl, rfl⟩
  simp [append, hpayload, eventMac, hm]

def started (payload : List (Key × PyObj)) : Submission where
  eventType := "SESSION_CREATED"
  entityKind := "SESSION"
  entityId := "session"
  createdAt := "2026-01-01T00:00:00+00:00"
  payload := payload

/-- **An event is written again as it was, and accepted, if and only if its payload is ordered.** -/
theorem canonical_laws (limit : Nat) (mac : List Char → PyStr)
    (hmac : ∀ m m', mac m = mac m' → m = m') (ss : List Submission) (rows : List Row)
    (hss : ∀ s ∈ ss, WellFormed (.dict s.payload))
    (h : ss.foldlM (append limit mac) [] = some rows) :
    List.Forall₂ (fun s row =>
        (reencode limit row.payloadJson = some row.payloadJson ↔ Ordered (.dict s.payload)) ∧
        (accepts limit mac row = true ↔ Ordered (.dict s.payload))) ss rows ∧
      (verify limit mac 1 "GENESIS" rows = true ↔ ∀ s ∈ ss, Ordered (.dict s.payload)) := by
  have hrows : Rows limit mac ss rows := rows_run rows_nil h
  have hboth := (List.forall₂_and_left _ _).mpr ⟨hss, hrows.stored⟩
  have hall : List.Forall₂ (fun s row =>
      (reencode limit row.payloadJson = some row.payloadJson ↔ Ordered (.dict s.payload)) ∧
      (accepts limit mac row = true ↔ Ordered (.dict s.payload))) ss rows :=
    hboth.imp fun s row h => ⟨(reencode_stored h.2 h.1).1, accepts_stored hmac h.2 h.1⟩
  refine ⟨hall, ?_⟩
  rw [hrows.verified]
  clear hboth hrows h hss
  induction hall with
  | nil => exact iff_of_true (List.forall_mem_nil _) (List.forall_mem_nil _)
  | cons hhead htail ih => rw [List.forall_mem_cons, List.forall_mem_cons, hhead.2, ih]

def twoEvents : List Submission :=
  [started [(.str "a", .int 1)], started [(.str "b", .none), (.str "c", .int 2)]]

/-- Two events whose payloads are ordered, the second signed over the tag of the first. -/
theorem canonical_laws_chain : ∃ rows,
    twoEvents.foldlM (append 1 ofChars) [] = some rows ∧ rows.length = 2 ∧
      verify 1 ofChars 1 "GENESIS" rows = true := by
  have hw : arrange (.dict (started [(.str "a", .int 1)]).payload) =
      some (.obj [("a", .int 1)]) := rfl
  have hw' : arrange (.dict (started [(.str "b", .none), (.str "c", .int 2)]).payload) =
      some (.obj [("b", .null), ("c", .int 2)]) := rfl
  obtain ⟨row, m, hrow, -, hsequence, hm⟩ := @append_plain 1 ofChars [] _ _ hw
    ⟨⟨by decide, (by decide : intFits 1 = true)⟩, trivial⟩ (le_refl 1) (le_refl 1) (by decide)
    (by decide) (by decide)
  have hhead : head [row] = (1, ofChars m) := Prod.ext hsequence hm
  obtain ⟨row', m', hrow', -⟩ := @append_plain 1 ofChars [row] _ _ hw'
    ⟨⟨by decide, trivial⟩, ⟨by decide, (by decide : intFits 2 = true)⟩, trivial⟩ (le_refl 1)
    (le_refl 1) (by decide) (by rw [hhead]; exact (by decide : intFits 2 = true)) (by rw [hhead]; exact validStr_ofChars m)
  have hrows : twoEvents.foldlM (append 1 ofChars) [] = some [row, row'] := by
    simp only [twoEvents, foldlM_cons, foldlM_nil, hrow, nil_append, bind_eq_bind, bind_some, hrow']
    rfl
  have hordered : ∀ s ∈ twoEvents, Ordered (.dict s.payload) := by
    rw [twoEvents, forall_mem_cons, forall_mem_singleton]
    exact ⟨ordered_ofJson (.obj [("a", .int 1)]),
      ordered_ofJson (.obj [("b", .null), ("c", .int 2)])⟩
  have hwf : ∀ s ∈ twoEvents, WellFormed (.dict s.payload) := by
    rw [twoEvents, forall_mem_cons, forall_mem_singleton]
    refine ⟨⟨List.pairwise_singleton _ _, trivial, trivial⟩,
      ⟨List.pairwise_pair.mpr ?_, trivial, trivial, trivial⟩⟩
    rintro (heq | ⟨q, hq, -⟩)
    · cases heq
    · cases hq
  refine ⟨_, hrows, rfl, ?_⟩
  exact (canonical_laws 1 ofChars (fun _ _ => ofChars_inj) _ _ hwf hrows).2.mpr hordered

/-- The keys 2 and 10 are sorted as numbers when they are written, and as texts when they are
written again. -/
theorem refused_again : ∃ rows,
    (∀ s ∈ [started [(.int 2, .none), (.int 10, .none)]], WellFormed (.dict s.payload)) ∧
      [started [(.int 2, .none), (.int 10, .none)]].foldlM (append 1 ofChars) [] = some rows ∧
      (∀ row ∈ rows, reencode 1 row.payloadJson ≠ some row.payloadJson) ∧
      verify 1 ofChars 1 "GENESIS" rows = false := by
  have hw : arrange (.dict (started [(.int 2, .none), (.int 10, .none)]).payload) =
      some (.obj [("2", .null), ("10", .null)]) := rfl
  obtain ⟨row, -, happend, htext, -⟩ := @append_plain 1 ofChars [] _ _ hw
    ⟨⟨by decide, trivial⟩, ⟨by decide, trivial⟩, trivial⟩ (le_refl 1) (le_refl 1) (by decide)
    (by decide) (by decide)
  have hwf : WellFormed (.dict (started [(.int 2, .none), (.int 10, .none)]).payload) := by
    refine ⟨List.pairwise_pair.mpr ?_, trivial, trivial, trivial⟩
    rintro (heq | ⟨q, hq, hq'⟩)
    · cases heq
    · obtain rfl := Option.some.inj hq
      norm_num [Key.number?] at hq'
  have hnot : ¬ Ordered (.dict (started [(.int 2, .none), (.int 10, .none)]).payload) := by
    rintro ⟨hkeys, -⟩
    have hlt := hkeys (.int 2) (.head _) (.int 10) (.tail _ (.head _)) 2 10 rfl rfl (by norm_num)
      "2" "10" rfl rfl
    exact absurd hlt (by decide)
  have hrow : [started [(.int 2, .none), (.int 10, .none)]].foldlM (append 1 ofChars) [] =
      some [row] := by
    simp only [foldlM_cons, foldlM_nil, happend, nil_append, bind_eq_bind, bind_some]
    rfl
  have hrows : Rows 1 ofChars _ [row] := rows_run rows_nil hrow
  have hstored : Stored 1 ofChars (started [(.int 2, .none), (.int 10, .none)]) row := by
    cases hrows.stored with
    | cons h _ => exact h
  refine ⟨[row], fun s hs => ?_, hrow, fun r hr hagain => ?_, ?_⟩
  · obtain rfl := List.mem_singleton.mp hs
    exact hwf
  · obtain rfl := List.mem_singleton.mp hr
    exact hnot ((reencode_stored hstored hwf).1.mp hagain)
  · refine Bool.eq_false_iff.mpr fun hverify => hnot ?_
    have haccepts := hrows.verified.mp hverify row (.head _)
    exact (accepts_stored (fun _ _ => ofChars_inj) hstored hwf).mp haccepts

end Rosclaw.LedgerJson
