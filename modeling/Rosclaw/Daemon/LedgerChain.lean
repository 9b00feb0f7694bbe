/-
The database and the anchor behind the ledger (`daemon/ledger.py`), against an
adversary who can rewrite both but does not have the key.

The MAC is a function of the message.  Unforgeability is a property of what is
presented to the next process: a tag in it that verifies is the tag of a message
the daemon has signed.  A stored JSON text is the value it parses to, together
with its layout (white space, the order of keys, escapes), which neither a
comparison nor a lookup of the parsed value sees.

* `DaemonLedger.open` — `__init__`: verify the chain, then the anchor;
* `open_prefix` — whatever opens exposes a prefix of the honest history, at least
  as long as its anchor says, unless both files are gone;
* `open_honest` — what an honest daemon left behind opens and exposes all of it.
-/
import Rosclaw.Daemon.Ledger
import Mathlib.Data.List.Induction

namespace Rosclaw

open List Option

def LEDGER_SCHEMA_VERSION : String := "rosclaw.daemon.ledger.v1"

namespace DaemonLedger

/-- The columns a MAC covers; the payload is the canonical JSON of its value. -/
structure EventFields where
  sequence : Int
  eventType : PyStr
  entityKind : PyStr
  entityId : PyStr
  createdAt : PyStr
  payload : PyVal
  previousMac : PyStr

/-- What the daemon signs: events and anchors, under different contexts. -/
inductive Message
  | event (fields : EventFields)
  | anchor (keyId : PyStr) (headSequence headMac : PyVal)

/-- A key: its id, and the hexadecimal `hmac-sha256` under it. -/
structure Key where
  keyId : String
  mac : Message → String

/-- A stored JSON text: the value it parses to, if it does, and how it is laid
out.  JSON has no tuples. -/
structure JsonText where
  value : Option PyVal
  layout : Nat
  tupleFree : ∀ v ∈ value, v.tupleFree = true

/-- A row of `ledger_events`. -/
structure Row where
  sequence : Int
  eventType : PyStr
  entityKind : PyStr
  entityId : PyStr
  createdAt : PyStr
  payloadJson : JsonText
  previousMac : PyStr
  eventMac : PyStr

structure Anchor where
  headSequence : PyVal
  headMac : PyVal
  anchorMac : PyVal

structure Disk where
  rows : Option (List Row)
  anchor : Option Anchor

/-- One immutable, authenticated event, as `events` exposes it. -/
structure Record extends EventFields where
  eventMac : PyStr

/-! ### Verification -/

def decode (row : Row) : Option Record :=
  match row.payloadJson.value with
  | some (.dict kvs) => some {
      sequence := row.sequence
      eventType := row.eventType
      entityKind := row.entityKind
      entityId := row.entityId
      createdAt := row.createdAt
      payload := .dict kvs
      previousMac := row.previousMac
      eventMac := row.eventMac }
  | _ => none

/-- `_canonical_json`, and the encoding of the text. -/
def canonical (v : PyVal) : Option PyVal := v.canon.filter PyVal.encodable

/-- The loop of `_verify_chain_locked`. -/
def verifyRows (K : Key) (expectedSequence : Int) (previousMac : PyStr) :
    List Row → Option (List Record)
  | [] => some []
  | row :: rows => do
    let e ← decode row
    if e.sequence ≠ expectedSequence then none
    else if e.previousMac ≠ previousMac then none
    else
      let payload ← canonical e.payload
      if e.eventMac ≠ K.mac (.event { e.toEventFields with payload := payload }) then none
      else do
        let rest ← verifyRows K (expectedSequence + 1) e.eventMac rows
        return e :: rest

def isCreation (K : Key) (e : EventFields) : Bool :=
  e.eventType = "LEDGER_CREATED" && e.entityKind = "LEDGER" && e.entityId = LEDGER_SCHEMA_VERSION &&
    (e.payload.get "schema_version").pyEq (.str LEDGER_SCHEMA_VERSION) &&
    (e.payload.get "key_id").pyEq (.str K.keyId)

/-- `SELECT ... ORDER BY sequence`. -/
def ordered (rows : List Row) : List Row :=
  rows.mergeSort fun r r' => r.sequence ≤ r'.sequence

def verifyChain (K : Key) (rows : List Row) : Option (List Record) :=
  match verifyRows K 1 "GENESIS" (ordered rows) with
  | some (first :: rest) => if isCreation K first.toEventFields then some (first :: rest) else none
  | _ => none

/-- `int(v)`. -/
def intOf (py : Builtins) : PyVal → Option Int
  | .int n => some n
  | .bool b => some (if b then 1 else 0)
  | .float (.finite q) => some (if 0 ≤ q then q.floor else -(-q).floor)
  | .str s => py.intOfText s
  | _ => none

/-- `_head_locked`, on verified rows. -/
def head (es : List Record) : Int × PyStr :=
  match es.getLast? with
  | some e => (e.sequence, e.eventMac)
  | none => (0, "GENESIS")

/-- `_verify_anchor_locked`; the sequence the anchor witnesses. -/
def verifyAnchor (py : Builtins) (K : Key) (es : List Record) (anchor : Anchor) : Option Int := do
  let headSequence ← canonical anchor.headSequence
  let headMac ← canonical anchor.headMac
  if py.str anchor.anchorMac ≠ K.mac (.anchor K.keyId headSequence headMac) then none
  else
    let anchorSequence ← intOf py anchor.headSequence
    if (head es).1 < anchorSequence then none
    else
      let anchored ← es.find? fun e => e.sequence = anchorSequence
      if anchored.eventMac ≠ py.str anchor.headMac then none
      else if (head es).1 = anchorSequence ∧ (head es).2 ≠ py.str anchor.headMac then none
      else some anchorSequence

/-! ### Appending -/

structure Body where
  eventType : PyStr
  entityKind : PyStr
  entityId : PyStr
  createdAt : PyStr
  payload : List (PyStr × PyVal)
  canonical_payload : canonical (.dict payload) = some (.dict payload)
  tupleFree : (PyVal.dict payload).tupleFree = true

def Body.fields (b : Body) (sequence : Int) (previousMac : PyStr) : EventFields where
  sequence := sequence
  eventType := b.eventType
  entityKind := b.entityKind
  entityId := b.entityId
  createdAt := b.createdAt
  payload := .dict b.payload
  previousMac := previousMac

def sign (K : Key) (fields : EventFields) : Record :=
  { fields with eventMac := K.mac (.event fields) }

/-- The row `_append_locked` inserts. -/
def signedRow (K : Key) (b : Body) (sequence : Int) (previousMac : PyStr) : Row where
  sequence := sequence
  eventType := b.eventType
  entityKind := b.entityKind
  entityId := b.entityId
  createdAt := b.createdAt
  payloadJson := ⟨some (.dict b.payload), 0, by simpa using b.tupleFree⟩
  previousMac := previousMac
  eventMac := (sign K (b.fields sequence previousMac)).eventMac

def writeAnchor (K : Key) (sequence : Int) (eventMac : PyStr) : Anchor where
  headSequence := .int sequence
  headMac := .str eventMac
  anchorMac := .str (K.mac (.anchor K.keyId (.int sequence) (.str eventMac)))

/-- `_head_locked`, on the table. -/
def headRow (rows : List Row) : Int × PyStr :=
  match (ordered rows).getLast? with
  | some r => (r.sequence, r.eventMac)
  | none => (0, "GENESIS")

/-- `_append_locked`: the anchor advances first; the row follows unless the
transaction fails or the process dies in between. -/
def append (K : Key) (d : Disk) (b : Body) (commits : Bool) : Disk :=
  let rows := d.rows.getD []
  let row := signedRow K b ((headRow rows).1 + 1) (headRow rows).2
  { rows := if commits then some (rows ++ [row]) else d.rows
    anchor := some (writeAnchor K row.sequence row.eventMac) }

/-- The `LEDGER_CREATED` event. -/
def creation (K : Key) (createdAt : PyStr) : Body where
  eventType := "LEDGER_CREATED"
  entityKind := "LEDGER"
  entityId := LEDGER_SCHEMA_VERSION
  createdAt := createdAt
  payload := [("schema_version", .str LEDGER_SCHEMA_VERSION), ("key_id", .str K.keyId)]
  canonical_payload := by
    simp [canonical, PyVal.canon, PyVal.canonEntries, PyVal.encodable, PyVal.encodableEntries]
  tupleFree := by simp [PyVal.tupleFree, PyVal.tupleFreeEntries]

/-- `__init__` on a database with rows; a lagging anchor is brought up to the
head. -/
def verify (py : Builtins) (K : Key) (d : Disk) : Option (Disk × List Record) := do
  let es ← verifyChain K (d.rows.getD [])
  let anchor ← d.anchor
  let anchorSequence ← verifyAnchor py K es anchor
  return (if anchorSequence < (head es).1 then
      { d with anchor := some (writeAnchor K (head es).1 (head es).2) } else d, es)

/-- `__init__`: what it leaves on disk and the events it exposes, unless it
raises. -/
def «open» (py : Builtins) (K : Key) (createdAt : PyStr) (d : Disk) :
    Option (Disk × List Record) :=
  match d.rows.getD [] with
  | [] =>
    if d.rows.isSome ∨ d.anchor.isSome then none
    else verify py K (append K d (creation K createdAt) true)
  | _ :: _ => verify py K d

/-! ### Honest histories -/

def chain (K : Key) (sequence : Int) (previousMac : PyStr) : List Body → List Record
  | [] => []
  | b :: bs =>
    let r := sign K (b.fields sequence previousMac)
    r :: chain K (sequence + 1) r.eventMac bs

/-- What a daemon with the key has appended: the events it committed and, if the
last append died between the anchor and the row, that event too. -/
structure History where
  committed : List Body
  inFlight : Option Body := none

def History.appended (h : History) : List Body := h.committed ++ h.inFlight.toList

def signed (K : Key) (h : History) : List Message :=
  (chain K 1 "GENESIS" h.appended).flatMap fun r =>
    [.event r.toEventFields, .anchor K.keyId (.int r.sequence) (.str r.eventMac)]

/-- **The adversary does not have the key**: a tag on the disk that verifies is the
tag of a signed message. -/
structure Unforged (py : Builtins) (K : Key) (messages : List Message) (d : Disk) : Prop where
  row : ∀ r ∈ d.rows.getD [], ∀ e, decode r = some e → ∀ p, canonical e.payload = some p →
    e.eventMac = K.mac (.event { e.toEventFields with payload := p }) →
    Message.event { e.toEventFields with payload := p } ∈ messages
  anchor : ∀ a, d.anchor = some a → ∀ n m, canonical a.headSequence = some n →
    canonical a.headMac = some m → py.str a.anchorMac = K.mac (.anchor K.keyId n m) →
    Message.anchor K.keyId n m ∈ messages

/-! ### What verification establishes -/

theorem decode_tupleFree {r : Row} {e : Record} (h : decode r = some e) :
    e.payload.tupleFree = true := by
  unfold decode at h
  split at h
  · next kvs hv =>
    rw [some_inj] at h
    subst h
    exact r.payloadJson.tupleFree _ hv
  · exact nomatch h

variable {h : History} {prev : PyStr} {rows : List Row} {v w : PyVal}

theorem canonical_eq (ht : v.tupleFree = true) (h : canonical v = some w) : w = v :=
  PyVal.canon_eq_of_tupleFree ht (filter_eq_some_iff.mp h).1

variable {K : Key} {n : Int} {es : List Record}

theorem verifyRows_spec (h : verifyRows K n prev rows = some es) :
    (∀ i (hi : i < es.length), es[i].sequence = n + i) ∧
      ∀ e ∈ es, ∃ r ∈ rows, decode r = some e ∧ canonical e.payload = some e.payload ∧
        e = sign K e.toEventFields := by
  induction rows generalizing n prev es with
  | nil =>
    simp only [verifyRows, some_inj] at h
    subst h
    exact ⟨nofun, nofun⟩
  | cons row rows ih =>
    rw [verifyRows, bind_eq_bind, bind_eq_some_iff] at h
    obtain ⟨e, hdecode, h⟩ := h
    by_cases hseq : e.sequence ≠ n
    · rw [if_pos hseq] at h
      exact nomatch h
    by_cases hprev : e.previousMac ≠ prev
    · rw [if_neg hseq, if_pos hprev] at h
      exact nomatch h
    rw [if_neg hseq, if_neg hprev, bind_eq_bind, bind_eq_some_iff] at h
    rw [ne_eq, not_not] at hseq
    obtain ⟨p, hp, h⟩ := h
    by_cases hmac : e.eventMac ≠ K.mac (.event { e.toEventFields with payload := p })
    · rw [if_pos hmac] at h
      exact nomatch h
    rw [if_neg hmac, bind_eq_bind, bind_eq_some_iff] at h
    rw [ne_eq, not_not] at hmac
    obtain ⟨rest, hrest, h⟩ := h
    cases h
    obtain ⟨hseqs, hmem⟩ := ih hrest
    have hpe := canonical_eq (decode_tupleFree hdecode) hp
    subst hpe
    refine ⟨?_, ?_⟩
    · intro i hi
      cases i with
      | zero => simpa using hseq
      | succ i =>
        have := hseqs i (by simpa using hi)
        rw [getElem_cons_succ, this]
        push_cast
        omega
    · intro e' he'
      rcases mem_cons.mp he' with rfl | he'
      · refine ⟨row, mem_cons_self, hdecode, hp, ?_⟩
        rw [sign, ← hmac]
      · obtain ⟨r, hr, hrest⟩ := hmem e' he'
        exact ⟨r, mem_cons_of_mem _ hr, hrest⟩

variable {bs : List Body}

theorem chain_getElem :
    ∀ i (hi : i < (chain K n prev bs).length), (chain K n prev bs)[i].sequence = n + i := by
  induction bs generalizing n prev with
  | nil => exact nofun
  | cons b bs ih =>
    intro i hi
    cases i with
    | zero => simp [chain, sign, Body.fields]
    | succ i =>
      simp only [chain, getElem_cons_succ]
      rw [ih]
      push_cast
      omega

theorem chain_sign : ∀ e ∈ chain K n prev bs, e = sign K e.toEventFields := by
  induction bs generalizing n prev with
  | nil => exact nofun
  | cons b bs ih =>
    intro e he
    rcases mem_cons.mp he with rfl | he
    · rfl
    · exact ih e he

@[simp] theorem length_chain (K : Key) (n : Int) (prev : PyStr) (bs : List Body) :
    (chain K n prev bs).length = bs.length := by
  induction bs generalizing n prev with
  | nil => rfl
  | cons b bs ih => simp [chain, ih]

theorem mem_signed_event {fields : EventFields} : Message.event fields ∈ signed K h ↔
      ∃ r ∈ chain K 1 "GENESIS" h.appended, r.toEventFields = fields := by
  simp [signed, eq_comm]

theorem mem_signed_anchor {n m : PyVal} : Message.anchor K.keyId n m ∈ signed K h ↔
      ∃ r ∈ chain K 1 "GENESIS" h.appended, n = .int r.sequence ∧ m = .str r.eventMac := by
  simp [signed]

/-- Records with consecutive numbers that all belong to the chain are its first
ones. -/
theorem prefix_of_mem_chain (hseq : ∀ i (hi : i < es.length), es[i].sequence = 1 + i)
    (hmem : ∀ e ∈ es, e ∈ chain K 1 "GENESIS" bs) : es <+: chain K 1 "GENESIS" bs := by
  rw [prefix_iff_getElem?]
  intro i hi
  obtain ⟨j, hj, hje⟩ := getElem_of_mem (hmem es[i] (getElem_mem hi))
  have hij : j = i := by
    have h₁ := hseq i hi
    have h₂ := chain_getElem (K := K) (n := 1) j hj
    rw [hje] at h₂
    omega
  subst hij
  rw [List.getElem?_eq_getElem hj, hje]

theorem head_fst (hseq : ∀ i (hi : i < es.length), es[i].sequence = 1 + i) :
    (head es).1 = es.length := by
  unfold head
  cases hes : es.getLast? with
  | none =>
    rw [List.getLast?_eq_none_iff] at hes
    simp [hes]
  | some e =>
    have hne : es ≠ [] := by
      rintro rfl
      simp at hes
    have hpos := length_pos_iff.mpr hne
    rw [List.getLast?_eq_getElem?, List.getElem?_eq_getElem (by omega), some_inj] at hes
    have := hseq (es.length - 1) (by omega)
    rw [hes] at this
    dsimp only
    omega

theorem verifyChain_spec (h : verifyChain K rows = some es) :
    verifyRows K 1 "GENESIS" (ordered rows) = some es := by
  unfold verifyChain at h
  split at h
  · next hv =>
    split at h
    · rw [hv, h]
    · exact nomatch h
  · exact nomatch h

theorem verifyAnchor_spec {py : Builtins} {a : Anchor} (h : verifyAnchor py K es a = some n) :
    ∃ s m, canonical a.headSequence = some s ∧ canonical a.headMac = some m ∧
      py.str a.anchorMac = K.mac (.anchor K.keyId s m) ∧ intOf py a.headSequence = some n ∧
      n ≤ (head es).1 := by
  unfold verifyAnchor at h
  simp only [bind_eq_bind, bind_eq_some_iff] at h
  obtain ⟨s, hs, m, hm, h⟩ := h
  refine ⟨s, m, hs, hm, ?_⟩
  by_cases hmac : py.str a.anchorMac ≠ K.mac (.anchor K.keyId s m)
  · rw [if_pos hmac] at h
    exact nomatch h
  rw [if_neg hmac, bind_eq_some_iff] at h
  rw [ne_eq, not_not] at hmac
  obtain ⟨n', hn', h⟩ := h
  by_cases hlt : (head es).1 < n'
  · rw [if_pos hlt] at h
    exact nomatch h
  rw [if_neg hlt, bind_eq_some_iff] at h
  obtain ⟨e, -, h⟩ := h
  have hnn : n' = n := by
    split at h
    · exact nomatch h
    · split at h
      · exact nomatch h
      · exact some_inj.mp h
  exact ⟨hmac, hnn ▸ hn', hnn ▸ Int.not_lt.mp hlt⟩

theorem canonical_int (h : canonical v = some (.int n)) : v = .int n := by
  have hc := (filter_eq_some_iff.mp h).1
  cases v with
  | int m => simpa [PyVal.canon] using hc
  | float x => cases x <;> simp [PyVal.canon] at hc
  | none | bool | str | object => simp [PyVal.canon] at hc
  | list | tuple | dict => simp [PyVal.canon] at hc
  | keyed =>
    simp only [PyVal.canon, Option.bind_eq_some_iff, Option.map_eq_some_iff] at hc
    obtain ⟨_, _, _, _, _, _, hdict⟩ := hc
    cases hdict

/-! ### What an honest daemon leaves behind -/

def storedRows (K : Key) (sequence : Int) (previousMac : PyStr) : List Body → List Row
  | [] => []
  | b :: bs =>
    let r := signedRow K b sequence previousMac
    r :: storedRows K (sequence + 1) r.eventMac bs

def History.disk (K : Key) (h : History) : Disk :=
  let d := h.committed.foldl (fun d b => append K d b true) ⟨none, none⟩
  match h.inFlight with
  | none => d
  | some b => append K d b false

theorem storedRows_sequence : ∀ r ∈ storedRows K n prev bs, n ≤ r.sequence := by
  induction bs generalizing n prev with
  | nil => exact nofun
  | cons b bs ih =>
    intro r hr
    rcases mem_cons.mp hr with rfl | hr
    · exact Int.le_refl n
    · have := ih r hr
      omega

theorem ordered_storedRows (K : Key) (n : Int) (prev : PyStr) (bs : List Body) :
    ordered (storedRows K n prev bs) = storedRows K n prev bs := by
  refine mergeSort_of_pairwise ?_
  induction bs generalizing n prev with
  | nil => exact .nil
  | cons b bs ih =>
    refine .cons (fun r hr => ?_) (ih (n + 1) _)
    have hle : n + 1 ≤ r.sequence := storedRows_sequence r hr
    rw [decide_eq_true_eq]
    exact Int.le_trans (Int.le_add_one (Int.le_refl n)) hle

theorem verifyRows_storedRows (K : Key) (n : Int) (prev : PyStr) (bs : List Body) :
    verifyRows K n prev (storedRows K n prev bs) = some (chain K n prev bs) := by
  induction bs generalizing n prev with
  | nil => rfl
  | cons b bs ih =>
    have hdecode : decode (signedRow K b n prev) = some (sign K (b.fields n prev)) := rfl
    have hih : verifyRows K (n + 1) (sign K (b.fields n prev)).eventMac
        (storedRows K (n + 1) (signedRow K b n prev).eventMac bs)
          = some (chain K (n + 1) (sign K (b.fields n prev)).eventMac bs) := ih (n + 1) _
    simp only [storedRows, chain, verifyRows, hdecode, bind_eq_bind, bind_some]
    rw [if_neg (by simp [sign, Body.fields]), if_neg (by simp [sign, Body.fields])]
    have hcanonical : canonical (sign K (b.fields n prev)).payload = some (.dict b.payload) :=
      b.canonical_payload
    rw [hcanonical, bind_some, if_neg (by simp [sign, Body.fields]), hih]
    rfl

theorem headRow_storedRows (K : Key) (bs : List Body) :
    headRow (storedRows K 1 "GENESIS" bs) = head (chain K 1 "GENESIS" bs) := by
  have hmap : ∀ n prev, (storedRows K n prev bs).map (fun r => (r.sequence, r.eventMac))
      = (chain K n prev bs).map fun e => (e.sequence, e.eventMac) := by
    induction bs with
    | nil => exact fun _ _ => rfl
    | cons b bs ih => exact fun n prev => congrArg _ (ih (n + 1) _)
  have hlast := congrArg List.getLast? (hmap 1 "GENESIS")
  rw [List.getLast?_map, List.getLast?_map] at hlast
  rw [headRow, ordered_storedRows, head]
  revert hlast
  cases (storedRows K 1 "GENESIS" bs).getLast? <;> cases (chain K 1 "GENESIS" bs).getLast? <;>
    simp

theorem head_chain_fst (K : Key) (bs : List Body) :
    (head (chain K 1 "GENESIS" bs)).1 = bs.length := by
  rw [head_fst chain_getElem, length_chain]

theorem storedRows_append (K : Key) (n : Int) (prev : PyStr) (bs : List Body) (b : Body) :
    storedRows K n prev (bs ++ [b]) = storedRows K n prev bs ++ [signedRow K b (n + bs.length)
      (((chain K n prev bs).getLast?.map fun e => e.eventMac).getD prev)] := by
  induction bs generalizing n prev with
  | nil => simp [storedRows, chain]
  | cons b' bs ih =>
    have harith : n + 1 + (bs.length : Int) = n + ((b' :: bs).length : Int) := by
      push_cast [length_cons]
      omega
    have hmac : ((chain K (n + 1) (signedRow K b' n prev).eventMac bs).getLast?.map
          fun e => e.eventMac).getD (signedRow K b' n prev).eventMac
        = ((chain K n prev (b' :: bs)).getLast?.map fun e => e.eventMac).getD prev := by
      simp only [chain, List.getLast?_cons, signedRow]
      cases (chain K (n + 1) (sign K (b'.fields n prev)).eventMac bs).getLast? <;> rfl
    rw [cons_append, storedRows, ih, harith, hmac]
    rfl

theorem storedRows_snoc (K : Key) (bs : List Body) (b : Body) :
    storedRows K 1 "GENESIS" (bs ++ [b]) = storedRows K 1 "GENESIS" bs ++
      [signedRow K b ((head (chain K 1 "GENESIS" bs)).1 + 1) (head (chain K 1 "GENESIS" bs)).2] := by
  have hsnd : ((chain K 1 "GENESIS" bs).getLast?.map fun e => e.eventMac).getD ↑"GENESIS"
      = (head (chain K 1 "GENESIS" bs)).2 := by
    rw [head]
    cases (chain K 1 "GENESIS" bs).getLast? <;> rfl
  rw [storedRows_append, hsnd, head_chain_fst, Int.add_comm]

theorem disk_committed (K : Key) (hne : bs ≠ []) : History.disk K ⟨bs, none⟩ = {
      rows := some (storedRows K 1 "GENESIS" bs)
      anchor := some (writeAnchor K (head (chain K 1 "GENESIS" bs)).1
        (head (chain K 1 "GENESIS" bs)).2) } := by
  simp only [History.disk]
  induction bs using List.reverseRecOn with
  | nil => exact absurd rfl hne
  | append_singleton bs b ih =>
    have hrows : (bs.foldl (fun d b => append K d b true) ⟨none, none⟩).rows.getD []
        = storedRows K 1 "GENESIS" bs := by
      cases bs with
      | nil => rfl
      | cons b' bs => rw [ih (by simp)]; rfl
    have hhead : head (chain K 1 "GENESIS" (bs ++ [b]))
        = ((signedRow K b ((head (chain K 1 "GENESIS" bs)).1 + 1)
            (head (chain K 1 "GENESIS" bs)).2).sequence,
          (signedRow K b ((head (chain K 1 "GENESIS" bs)).1 + 1)
            (head (chain K 1 "GENESIS" bs)).2).eventMac) := by
      rw [← headRow_storedRows, headRow, ordered_storedRows, storedRows_snoc, List.getLast?_concat]
    rw [foldl_append, foldl_cons, foldl_nil, append, hrows, headRow_storedRows, hhead,
      storedRows_snoc]
    rfl

theorem find?_head (hne : es ≠ []) (hseq : ∀ i (hi : i < es.length), es[i].sequence = 1 + i) :
    ∃ e, es.find? (fun e => e.sequence = (head es).1) = some e ∧ e.eventMac = (head es).2 := by
  have hpos := length_pos_iff.mpr hne
  have hlast : es.getLast? = some es[es.length - 1] := by
    rw [List.getLast?_eq_getElem?, List.getElem?_eq_getElem (by omega)]
  have hhead : head es = (es[es.length - 1].sequence, es[es.length - 1].eventMac) := by
    rw [head, hlast]
  have hsome : (es.find? fun e => e.sequence = (head es).1).isSome := by
    rw [List.find?_isSome]
    exact ⟨es[es.length - 1], getElem_mem _, by simp [hhead]⟩
  obtain ⟨e, he⟩ := isSome_iff_exists.mp hsome
  refine ⟨e, he, ?_⟩
  have hes := List.find?_some he
  obtain ⟨j, hj, rfl⟩ := getElem_of_mem (mem_of_find?_eq_some he)
  have h₁ := hseq j hj
  have h₂ := head_fst hseq
  simp only [decide_eq_true_eq] at hes
  have hj' : j = es.length - 1 := by omega
  subst hj'
  rw [hhead]

theorem canonical_of_int (n : Int) : canonical (.int n) = some (.int n) := rfl

theorem canonical_of_str {t : PyStr} (h : t.encodable = true) :
    canonical (.str t) = some (.str t) := by
  simp [canonical, PyVal.canon, PyVal.encodable, Option.filter, h]

theorem verifyChain_storedRows (K : Key) (createdAt : PyStr) (bs : List Body) :
    verifyChain K (storedRows K 1 "GENESIS" (creation K createdAt :: bs))
      = some (chain K 1 "GENESIS" (creation K createdAt :: bs)) := by
  rw [verifyChain, ordered_storedRows, verifyRows_storedRows, chain]
  simp [isCreation, sign, Body.fields, creation, PyVal.get, PyVal.pyEq]

/-- **What an honest daemon left behind opens**, and exposes every event. -/
theorem open_honest (py : Builtins) (K : Key) (createdAt createdAt' : PyStr) (bs : List Body) :
    let h : History := ⟨creation K createdAt :: bs, none⟩
    DaemonLedger.open py K createdAt' (h.disk K)
      = some (h.disk K, chain K 1 "GENESIS" h.committed) := by
  intro h
  have hne : creation K createdAt :: bs ≠ [] := cons_ne_nil _ _
  have hchain := verifyChain_storedRows K createdAt bs
  have hces : chain K 1 "GENESIS" (creation K createdAt :: bs) ≠ [] := cons_ne_nil _ _
  obtain ⟨e, hfind, hmac⟩ := find?_head hces chain_getElem
  have hanchor : verifyAnchor py K (chain K 1 "GENESIS" (creation K createdAt :: bs))
      (writeAnchor K (head (chain K 1 "GENESIS" (creation K createdAt :: bs))).1
        (head (chain K 1 "GENESIS" (creation K createdAt :: bs))).2)
      = some (head (chain K 1 "GENESIS" (creation K createdAt :: bs))).1 := by
    have henc : (head (chain K 1 "GENESIS" (creation K createdAt :: bs))).2.encodable = true := by
      rw [← hmac, chain_sign e (mem_of_find?_eq_some hfind)]
      exact PyStr.encodable_ofString _
    simp [verifyAnchor, writeAnchor, canonical_of_int, canonical_of_str henc, Builtins.str, intOf,
      hfind, hmac]
  have hdisk : h.disk K = _ := disk_committed K hne
  have hrows : (h.disk K).rows.getD [] = storedRows K 1 "GENESIS" (creation K createdAt :: bs) := by
    rw [hdisk]
    rfl
  have hverify : verify py K (h.disk K) = some (h.disk K, chain K 1 "GENESIS" h.committed) := by
    rw [verify, hrows, hchain, hdisk]
    simp [hanchor, h]
  unfold DaemonLedger.open
  rw [hrows, storedRows]
  exact hverify

theorem unforged_disk (py : Builtins) (K : Key) (hne : bs ≠ []) :
    Unforged py K (signed K ⟨bs, none⟩) (History.disk K ⟨bs, none⟩) := by
  have happended : History.appended ⟨bs, none⟩ = bs := by simp [History.appended]
  rw [disk_committed K hne]
  constructor
  · intro r hr e hdecode p hp _
    have hchain : e ∈ chain K 1 "GENESIS" bs := by
      have hrows : ∀ n prev, ∀ r ∈ storedRows K n prev bs, ∀ e, decode r = some e →
          e ∈ chain K n prev bs := by
        clear hr hne happended
        induction bs with
        | nil => exact fun n prev => nofun
        | cons b bs ih =>
          intro n prev r hr e he
          rcases mem_cons.mp hr with rfl | hr
          · exact mem_cons.mpr (.inl (some_inj.mp he).symm)
          · exact mem_cons_of_mem _ (ih (n + 1) _ r hr e he)
      exact hrows 1 "GENESIS" r hr e hdecode
    rw [canonical_eq (decode_tupleFree hdecode) hp]
    exact mem_signed_event.mpr ⟨e, by rwa [happended], rfl⟩
  · intro a ha n m hn hm _
    have hces : chain K 1 "GENESIS" bs ≠ [] := by
      intro h
      have := length_chain K 1 "GENESIS" bs
      rw [h, length_nil, eq_comm, length_eq_zero_iff] at this
      exact hne this
    obtain ⟨e, hfind, hmac⟩ := find?_head hces chain_getElem
    cases ha
    have hseq := List.find?_some hfind
    rw [decide_eq_true_eq] at hseq
    have hmem := mem_of_find?_eq_some hfind
    refine mem_signed_anchor.mpr ⟨e, by rwa [happended], ?_, ?_⟩
    · rw [hseq]
      exact canonical_eq rfl hn
    · rw [hmac]
      exact canonical_eq rfl hm

/-! ### Tampering -/

/-- Without a database and an anchor, a new ledger is begun. -/
theorem open_new (py : Builtins) (K : Key) (createdAt : PyStr) :
    DaemonLedger.open py K createdAt ⟨none, none⟩ =
      some (History.disk K ⟨[creation K createdAt], none⟩,
        chain K 1 "GENESIS" [creation K createdAt]) :=
  open_honest py K createdAt createdAt []

/-- **What an adversary without the key can make a daemon accept.**  If the ledger opens on the
presented files, one of which is there, the events it exposes are a prefix of the honest history;
there is an anchor, and at least as many events as it says; with the latest anchor all of the
history is there.  If both files are gone, a new ledger is begun. -/
theorem open_prefix (py : Builtins) (K : Key) (h : History) (createdAt : PyStr) (d : Disk)
    (hunforged : Unforged py K (signed K h) d) {d' : Disk} {es : List Record}
    (hopen : DaemonLedger.open py K createdAt d = some (d', es)) :
    (d.rows.isSome ∨ d.anchor.isSome →
      es <+: chain K 1 "GENESIS" h.appended ∧
      ∃ a n, d.anchor = some a ∧ a.headSequence = .int n ∧ n ≤ es.length ∧
        (n = h.appended.length → es = chain K 1 "GENESIS" h.appended)) ∧
    (d.rows = none → d.anchor = none → es = chain K 1 "GENESIS" [creation K createdAt]) := by
  refine ⟨fun hpresent => ?_, fun hrows hanchor => ?_⟩
  · have hverify : verify py K d = some (d', es) := by
      unfold DaemonLedger.open at hopen
      split at hopen
      · simp [hpresent] at hopen
      · exact hopen
    unfold verify at hverify
    simp only [Option.bind_eq_bind, Option.bind_eq_some_iff, pure, Option.some_inj,
      Prod.mk.injEq] at hverify
    obtain ⟨es', hchain, a, ha, n, hanchor, -, rfl⟩ := hverify
    obtain ⟨hseq, hmem⟩ := verifyRows_spec (verifyChain_spec hchain)
    have hpre : es' <+: chain K 1 "GENESIS" h.appended := by
      refine prefix_of_mem_chain hseq fun e he => ?_
      obtain ⟨r, hr, hdecode, hpayload, hsign⟩ := hmem e he
      have hmac : e.eventMac = K.mac (.event { e.toEventFields with payload := e.payload }) :=
        congrArg Record.eventMac hsign
      have hsigned := hunforged.row r (List.mem_mergeSort.mp hr) e hdecode _ hpayload hmac
      obtain ⟨r', hr', hfields⟩ := mem_signed_event.mp hsigned
      have : e = r' := by
        rw [hsign, chain_sign r' hr', hfields]
      exact this ▸ hr'
    obtain ⟨s, m, hs, hm, hmac, hint, hle⟩ := verifyAnchor_spec hanchor
    obtain ⟨r', hr', hs', -⟩ := mem_signed_anchor.mp (hunforged.anchor a ha s m hs hm hmac)
    have hhead := canonical_int (hs' ▸ hs)
    rw [hhead, intOf, Option.some_inj] at hint
    rw [head_fst hseq] at hle
    refine ⟨hpre, a, n, ha, hint ▸ hhead, hle, fun hn => ?_⟩
    have hlen := hpre.length_le
    rw [length_chain] at hlen
    exact hpre.eq_of_length (by rw [length_chain]; omega)
  · obtain ⟨rows, anchor⟩ := d
    obtain rfl : rows = none := hrows
    obtain rfl : anchor = none := hanchor
    rw [open_new] at hopen
    exact (Prod.mk.inj (Option.some.inj hopen)).2.symm

/-- A key whose tags name the numbers of the events. -/
def sampleKey : Key := ⟨"k", fun
  | .event f => if f.sequence = 1 then "hmac-sha256:e1" else "hmac-sha256:e2"
  | .anchor _ (.int 1) _ => "hmac-sha256:a1"
  | .anchor .. => "hmac-sha256:a2"⟩

def sampleBody : Body := { creation sampleKey "2027" with eventType := "ACTION_REQUIRED" }

/-- The adversary restores the files as they were before the last event. -/
theorem open_prefix_restored :
    let h : History := ⟨[creation sampleKey "2026", sampleBody], none⟩
    let d := History.disk sampleKey ⟨[creation sampleKey "2026"], none⟩
    ∃ es, DaemonLedger.open .zero sampleKey "2028" d = some (d, es) ∧ es.length = 1 ∧
      es <+: chain sampleKey 1 "GENESIS" h.appended := by
  intro h d
  have hopen := open_honest .zero sampleKey "2026" "2028" []
  have hold : Unforged .zero sampleKey (signed sampleKey ⟨[creation sampleKey "2026"], none⟩) d :=
    unforged_disk .zero sampleKey (List.cons_ne_nil _ _)
  have hsigned : signed sampleKey ⟨[creation sampleKey "2026"], none⟩ ⊆ signed sampleKey h :=
    List.subset_append_left _ _
  have hunforged : Unforged .zero sampleKey (signed sampleKey h) d :=
    ⟨fun r hr e he p hp hmac => hsigned (hold.row r hr e he p hp hmac),
      fun a ha n m hn hm hmac => hsigned (hold.anchor a ha n m hn hm hmac)⟩
  have hkept := open_prefix .zero sampleKey h "2028" d hunforged hopen
  exact ⟨_, hopen, rfl, (hkept.1 (.inl rfl)).1⟩

/-- **The adversary deletes both files**, and a ledger opens that is not the honest one. -/
theorem deleted_files_open :
    let h : History := ⟨[creation sampleKey "2026", sampleBody], none⟩
    let d : Disk := ⟨none, none⟩
    Unforged .zero sampleKey (signed sampleKey h) d ∧
      ∃ d' es, DaemonLedger.open .zero sampleKey "2028" d = some (d', es) ∧
        ¬ es <+: chain sampleKey 1 "GENESIS" h.appended := by
  refine ⟨⟨fun r hr => absurd hr List.not_mem_nil, fun a ha => by cases ha⟩, _, _,
    open_new .zero sampleKey "2028", fun hprefix => ?_⟩
  obtain ⟨hfirst, -⟩ := List.cons_prefix_cons.mp hprefix
  have hcreated := congrArg (fun e : Record => e.createdAt) hfirst
  revert hcreated
  decide

end DaemonLedger

end Rosclaw
