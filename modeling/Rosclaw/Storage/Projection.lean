/-
The projection of memories into the ACTIVE collection (`storage/versioned_projection.py`).

A mutation of a memory is mirrored through the outbox; the committer of the outbox worker
applies it to the collection that the queries read.  A record is a JSON value, and comes back
from the outbox as it went in.  The store, the embedding provider and the ACTIVE pointer are
there throughout; the watermark, which only counts, is left out.

* `get?_commitBatch`, `get?_commitPartly` — a batch is the same as its records in order, and
  leaves other memories alone also if it fails.
-/
import Rosclaw.Kernel.Contracts
import Rosclaw.Lib.LastWriter
import Rosclaw.Lib.Machine
import Rosclaw.Storage.Outbox

namespace Rosclaw.Projection

open Storage LastWriter List

/-- `x or y`. -/
def pyOr (x y : PyVal) : PyVal := if x.truthy then x else y

/-- An entry of the collection; `E` is an embedding and `M` the metadata of a record. -/
structure Point (E M : Type) where
  document : PyStr
  embedding : E
  metadata : M

/-- The embedding provider, and what the store makes of a record. -/
structure Native (E M : Type) where
  encode : PyStr → E
  metadata : PyVal → M

def ACTIVE_PROJECTION_TARGET : PyStr := "active_projection"

section Record

variable (py : Builtins)

/-- `str(record.get("id") or record.get("memory_id") or "")`. -/
def memoryId (record : PyVal) : PyStr :=
  py.str (pyOr (pyOr (record.get "id") (record.get "memory_id")) (.str ""))

def isActive (record : PyVal) : Bool :=
  py.str (pyOr (record.get "status") (.str "active")) = PyStr.ofString "active"

def document (record : PyVal) : PyStr :=
  py.str (pyOr (pyOr (pyOr (record.get "document") (record.get "title")) (record.get "id"))
    (record.get "memory_id"))

def marker (record : PyVal) (time : Rat) : PyStr :=
  py.str (pyOr (pyOr (record.get "updated_at") (record.get "event_time")) (.float (.finite time)))

def idempotencyKey (memory marker : PyStr) : PyStr :=
  "memory:" ++ memory ++ ":active_projection:" ++ marker

/-- The payload of `project_delete`. -/
def deletion (memory : PyStr) (time : Rat) : PyVal :=
  .dict [("id", .str memory), ("status", .str "deleted"), ("updated_at", .float (.finite time))]

end Record

/-- `record.pop("idempotency_key", None)`. -/
def popKey : PyVal → PyVal
  | .dict kvs => .dict (kvs.filter fun e => e.1 ≠ PyStr.ofString "idempotency_key")
  | v => v

def payloadForCommit (row : Row PyVal) : PyVal :=
  match row.payload, row.idempotencyKey with
  | .dict kvs, some key =>
      if key.isEmpty || kvs.any (fun e => e.1 = PyStr.ofString "idempotency_key") then .dict kvs
      else .dict (kvs ++ [(PyStr.ofString "idempotency_key", PyVal.str key)])
  | v, _ => v

section Commit

variable {E M : Type} (py : Builtins) (N : Native E M)

def point (record : PyVal) : Point E M :=
  ⟨document py record, N.encode (document py record), N.metadata record⟩

def effect (payload : PyVal) : Option (Point E M) :=
  if isActive py payload then some (point py N (popKey payload)) else none

/-- A batch that is being committed: the collection, and the records still to be upserted. -/
structure Batch (E M : Type) where
  collection : Dict PyStr (Point E M)
  pending : Dict PyStr PyVal := ∅

def Batch.take (b : Batch E M) (payload : PyVal) : Batch E M :=
  let record := popKey payload
  if (memoryId py record).isEmpty then b
  else if isActive py record then { b with pending := b.pending.set (memoryId py record) record }
  else ⟨b.collection.erase (memoryId py record), b.pending.erase (memoryId py record)⟩

/-- `collection.upsert`, of those records that it gets to. -/
def Batch.upsert (reached : PyStr → Bool) (b : Batch E M) : Dict PyStr (Point E M) :=
  b.pending.entries.foldl (fun collection e =>
    if reached e.1 then collection.set e.1 (point py N e.2) else collection) b.collection

/-- `save_to_seekdb_batch`. -/
def commitBatch (collection : Dict PyStr (Point E M)) (payloads : List PyVal) :
    Dict PyStr (Point E M) :=
  (payloads.foldl (Batch.take py) { collection }).upsert py N fun _ => true

/-- What `save_to_seekdb_batch` leaves when it raises: it has taken some of the payloads, and
if it has taken all of them, some of the upserts may have been carried out. -/
def commitPartly (taken : Nat) (reached : PyStr → Bool) (collection : Dict PyStr (Point E M))
    (payloads : List PyVal) : Dict PyStr (Point E M) :=
  if payloads.length ≤ taken then
    (payloads.foldl (Batch.take py) { collection }).upsert py N reached
  else ((payloads.take taken).foldl (Batch.take py) { collection }).collection

end Commit

/-! ### The worker -/

/-- Where `_drain_once` is. -/
inductive Phase
  | idle
  /-- a batch is to be committed -/
  | batch (records : List (PyStr × Row PyVal))
  /-- records that were committed are to be marked, and others to be committed one by one -/
  | single (marks records : List (PyStr × Row PyVal))

/-- The outbox with its worker, the collection, and the mutations that were mirrored, by their
memories. -/
structure Projector (E M : Type) where
  db : Outbox PyVal
  collection : Dict PyStr (Point E M)
  mirrored : List (PyStr × PyVal)
  phase : Phase
  /-- the record ids that `uuid4` has given -/
  issued : List PyStr

namespace Projector

inductive Label
  /-- `project`, with the time of its marker and the time of the record -/
  | project (id : PyStr) (record : PyVal) (markerTime now : Rat)
  | projectDelete (id memory : PyStr) (markerTime now : Rat)
  /-- `claim` and `purge_delivered` -/
  | claim (c : ClaimCall) (failedAt cutoff : Rat)
  | commit
  | commitFails (taken : Nat) (reached : PyStr → Bool) (error : Option PyStr) (maxRetries : Int)
      (now failedAt : Rat)
  | markDelivered (now : Rat)
  /-- the worker gives up, and its leases expire -/
  | stop

variable {E M : Type}

/-- Enqueue a mutation; what a full outbox refuses is not mirrored. -/
def mirror (K : Codec PyVal) (s : Projector E M) (id memory : PyStr) (payload : PyVal)
    (marker : PyStr) (now : Rat) : Projector E M :=
  match s.db.enqueue (newRecord K id ACTIVE_PROJECTION_TARGET payload
      (some (idempotencyKey memory marker)) (some "memory") (some memory) now) with
  | (.ok _, db) =>
      { s with db := db, mirrored := s.mirrored ++ [(memory, payload)], issued := id :: s.issued }
  | (.error _, db) => { s with db := db, issued := id :: s.issued }

def afterClaim (records : List (PyStr × Row PyVal)) : Phase :=
  match records with
  | [] => .idle
  | [r] => .single [] [r]
  | _ => .batch records

def next (py : Builtins) (N : Native E M) (K : Codec PyVal) (owner : PyStr) (s : Projector E M) :
    Label → Option (Projector E M)
  | .project id record markerTime now =>
      if id ∈ s.issued then none
      else if (memoryId py record).isEmpty then some s
      else some (s.mirror K id (memoryId py record) record (marker py record markerTime) now)
  | .projectDelete id memory markerTime now =>
      if id ∈ s.issued then none
      else some (s.mirror K id memory (deletion memory markerTime)
        (py.str (.float (.finite markerTime))) now)
  | .claim c failedAt cutoff =>
      match s.phase with
      | .idle =>
          if c.owner ≠ owner then none
          else some { s with
            db := (s.db.claim K c failedAt).2.purgeDelivered cutoff
            phase := afterClaim (s.db.claim K c failedAt).1 }
      | _ => none
  | .commit =>
      match s.phase with
      | .batch records => some { s with
          collection := commitBatch py N s.collection (records.map fun r => payloadForCommit r.2)
          phase := .single records [] }
      | .single [] (r :: records) => some { s with
          collection := commitBatch py N s.collection [payloadForCommit r.2]
          phase := .single [r] records }
      | _ => none
  | .commitFails taken reached error maxRetries now failedAt =>
      match s.phase with
      | .batch records => some { s with
          collection := commitPartly py N taken reached s.collection
            (records.map fun r => payloadForCommit r.2)
          phase := .single [] records }
      | .single [] (r :: records) => some { s with
          collection := commitPartly py N taken reached s.collection [payloadForCommit r.2]
          db := s.db.markFailed r.1 owner error maxRetries now failedAt
          phase := .single [] records }
      | _ => none
  | .markDelivered now =>
      match s.phase with
      | .single (r :: marks) records => some { s with
          db := (s.db.deliver r.1 owner none now).getD s.db
          phase := .single marks records }
      | .single [] [] => some { s with phase := .idle }
      | _ => none
  | .stop => some { s with phase := .idle }

end Projector

def projection {E M : Type} (py : Builtins) (N : Native E M) (K : Codec PyVal) (owner : PyStr) :
    Machine (Projector E M) Projector.Label where
  Init s := s.db.rows = ∅ ∧ s.db.deadLetters = ∅ ∧ s.collection = ∅ ∧ s.mirrored = [] ∧
    s.phase = .idle ∧ s.issued = []
  step := Projector.next py N K owner

/-! ### What the committer reads of a record -/

section Keys

variable {key : PyStr} {kvs : List (PyStr × PyVal)}

theorem getEntry_filter {k : PyStr} (h : key ≠ k) :
    PyVal.getEntry key .none (kvs.filter fun e => e.1 ≠ k) = PyVal.getEntry key .none kvs := by
  induction kvs with
  | nil => rfl
  | cons e kvs ih =>
    obtain ⟨k', v⟩ := e
    by_cases hk : k' = k
    · have hkey : k' ≠ key := fun heq => h (heq.symm.trans hk)
      rw [filter_cons_of_neg (by simpa using hk), ih, PyVal.getEntry, if_neg hkey]
    · rw [filter_cons_of_pos (by simpa using hk), PyVal.getEntry, PyVal.getEntry, ih]

theorem get_popKey (record : PyVal) {key : String}
    (h : PyStr.ofString key ≠ PyStr.ofString "idempotency_key") :
    (popKey record).get key = record.get key := by
  cases record with
  | dict kvs => exact getEntry_filter h
  | none => rfl
  | bool _ => rfl
  | int _ => rfl
  | float _ => rfl
  | str _ => rfl
  | list _ => rfl
  | tuple _ => rfl
  | keyed _ => rfl
  | object _ => rfl

/-- What `setdefault` has added is popped again. -/
theorem popKey_payloadForCommit (row : Row PyVal) : popKey (payloadForCommit row) = popKey row.payload := by
  unfold payloadForCommit
  split
  · next kvs key hpayload hkey =>
    rw [hpayload]
    split
    · rfl
    · show PyVal.dict ((kvs ++ [_]).filter _) = PyVal.dict (kvs.filter _)
      rw [filter_append, filter_cons_of_neg (by simp), filter_nil, append_nil]
  · rfl

end Keys

section Batches

variable {py : Builtins} {E M : Type} {N : Native E M}

variable (record : PyVal) (row : Row PyVal) (taken : Nat) (b : Batch E M) (reached : PyStr → Bool)
  (es : List (PyStr × PyVal)) (collection : Dict PyStr (Point E M)) (payloads : List PyVal)

theorem memoryId_popKey : memoryId py (popKey record) = memoryId py record := by
  rw [memoryId, get_popKey record (by decide), get_popKey record (by decide), memoryId]

theorem isActive_popKey : isActive py (popKey record) = isActive py record := by
  rw [isActive, get_popKey record (by decide), isActive]

theorem memoryId_payloadForCommit :
    memoryId py (payloadForCommit row) = memoryId py row.payload := by
  rw [← memoryId_popKey, popKey_payloadForCommit, memoryId_popKey]

theorem effect_payloadForCommit : effect py N (payloadForCommit row) = effect py N row.payload := by
  rw [effect, ← isActive_popKey, popKey_payloadForCommit, isActive_popKey, effect]

@[simp] theorem memoryId_deletion (memory : PyStr) (time : Rat) :
    memoryId py (deletion memory time) = memory := by
  obtain ⟨codes⟩ := memory
  cases codes <;> rfl

/-! ### A batch is its records in order -/

/-- What the collection will have at an id once the batch is through. -/
def Batch.view (py : Builtins) (N : Native E M) (b : Batch E M) (id : PyStr) : Option (Point E M) :=
  match b.pending.get? id with
  | some record => some (point py N record)
  | none => b.collection.get? id

theorem view_take (payload : PyVal) (id : PyStr) : (b.take py payload).view py N id =
      if memoryId py payload = id ∧ id.isEmpty = false then effect py N payload
      else b.view py N id := by
  have htake : b.take py payload = if (memoryId py payload).isEmpty then b
      else if isActive py payload then
        { b with pending := b.pending.set (memoryId py payload) (popKey payload) }
      else ⟨b.collection.erase (memoryId py payload), b.pending.erase (memoryId py payload)⟩ := by
    rw [Batch.take, memoryId_popKey, isActive_popKey]
  rw [htake]
  cases hblank : (memoryId py payload).isEmpty with
  | true =>
    rw [if_pos rfl, if_neg]
    rintro ⟨rfl, hid⟩
    rw [hblank] at hid
    cases hid
  | false =>
    rw [if_neg (by simp)]
    by_cases hid : memoryId py payload = id
    · subst hid
      cases hactive : isActive py payload with
      | true => simp [Batch.view, effect, hactive, hblank]
      | false => simp [Batch.view, effect, hactive, hblank, Dict.get?_erase]
    · cases hactive : isActive py payload with
      | true => simp [Batch.view, hid, Dict.get?_set_of_ne _ _ hid]
      | false => simp [Batch.view, hid, Dict.get?_erase]

variable {id : PyStr}

theorem view_takeAll (hid : id.isEmpty = false) : (payloads.foldl (Batch.take py) b).view py N id =
      match last id (payloads.map fun p => (memoryId py p, p)) with
      | some payload => effect py N payload
      | none => b.view py N id := by
  induction payloads using List.reverseRecOn with
  | nil => rfl
  | append_singleton payloads payload ih =>
    rw [foldl_append, foldl_cons, foldl_nil, view_take, map_append, map_cons, map_nil, last_snoc]
    by_cases hmemory : memoryId py payload = id
    · rw [if_pos ⟨hmemory, hid⟩, if_pos hmemory]
    · rw [if_neg fun h => hmemory h.1, if_neg hmemory]
      exact ih

theorem get?_upserts (hnodup : (es.map Prod.fst).Nodup) (id : PyStr) :
    (es.foldl (fun collection e => if reached e.1 then collection.set e.1 (point py N e.2)
        else collection) collection).get? id =
      if reached id then ((Dict.getList id es).map (point py N)).or (collection.get? id)
      else collection.get? id := by
  induction es generalizing collection with
  | nil => simp [Dict.getList]
  | cons e es ih =>
    obtain ⟨k, record⟩ := e
    obtain ⟨hnew, hrest⟩ := nodup_cons.mp hnodup
    rw [foldl_cons, ih _ hrest]
    by_cases hk : k = id
    · subst hk
      have hnone : Dict.getList k es = none := by
        cases hget : Dict.getList k es with
        | none => rfl
        | some v =>
          exact absurd (mem_map.mpr ⟨_, (Dict.getList_eq_some_iff hrest).mp hget, rfl⟩) hnew
      by_cases hreached : reached k = true
      · simp [hreached, hnone, Dict.getList]
      · simp [hreached]
    · by_cases hreached : reached k = true
      · simp [hreached, Dict.getList, hk, Dict.get?_set_of_ne _ _ hk]
      · simp [hreached, Dict.getList, hk]

theorem get?_upsert (id : PyStr) : (b.upsert py N reached).get? id =
      if reached id then b.view py N id else b.collection.get? id := by
  rw [Batch.upsert, get?_upserts reached _ _ b.pending.nodup]
  split
  · show ((b.pending.get? id).map _).or _ = _
    rw [Batch.view]
    cases b.pending.get? id <;> rfl
  · rfl

/-- **A batch leaves what its records leave in order.** -/
theorem get?_commitBatch (hid : id.isEmpty = false) :
    (commitBatch py N collection payloads).get? id =
      match last id (payloads.map fun p => (memoryId py p, p)) with
      | some payload => effect py N payload
      | none => collection.get? id := by
  rw [commitBatch, get?_upsert, if_pos rfl, view_takeAll _ _ hid]
  rfl

/-- The keys that `_payload_for_commit` adds make no difference. -/
theorem get?_commitRows (rows : List (PyStr × Row PyVal)) (hid : id.isEmpty = false) :
    (commitBatch py N collection (rows.map fun r => payloadForCommit r.2)).get? id =
      match last id ((rows.map fun r => r.2.payload).map fun p => (memoryId py p, p)) with
      | some payload => effect py N payload
      | none => collection.get? id := by
  rw [get?_commitBatch _ _ hid, map_map, map_map]
  have hcommit := last_map id (fun r : PyStr × Row PyVal => memoryId py r.2.payload)
    (fun r => payloadForCommit r.2) rows
  have hpayload := last_map id (fun r : PyStr × Row PyVal => memoryId py r.2.payload)
    (fun r => r.2.payload) rows
  simp only [Function.comp_def, memoryId_payloadForCommit]
  rw [hcommit, hpayload]
  cases last id (rows.map fun r => (memoryId py r.2.payload, r)) with
  | none => rfl
  | some r => exact effect_payloadForCommit r.2

theorem takeAll_of_not_mem (b : Batch E M)
    (hid : ∀ payload ∈ payloads, memoryId py payload = id → id.isEmpty = true) :
    (payloads.foldl (Batch.take py) b).collection.get? id = b.collection.get? id ∧
      (payloads.foldl (Batch.take py) b).pending.get? id = b.pending.get? id := by
  induction payloads generalizing b with
  | nil => exact ⟨rfl, rfl⟩
  | cons payload payloads ih =>
    obtain ⟨hcollection, hpending⟩ := ih (b.take py payload) fun p hp => hid p (mem_cons_of_mem _ hp)
    rw [foldl_cons, hcollection, hpending]
    unfold Batch.take
    simp only [memoryId_popKey]
    by_cases hblank : (memoryId py payload).isEmpty = true
    · rw [if_pos hblank]
      exact ⟨rfl, rfl⟩
    · have hne : memoryId py payload ≠ id := by
        rintro rfl
        exact hblank (hid payload mem_cons_self rfl)
      rw [if_neg hblank]
      split
      · exact ⟨rfl, Dict.get?_set_of_ne _ _ hne⟩
      · refine ⟨?_, ?_⟩
        · show (b.collection.erase _).get? id = _
          rw [Dict.get?_erase, if_neg hne]
        · show (b.pending.erase _).get? id = _
          rw [Dict.get?_erase, if_neg hne]

theorem get?_commitPartly {payloads : List PyVal}
    (hid : ∀ payload ∈ payloads, memoryId py payload = id → id.isEmpty = true) :
    (commitPartly py N taken reached collection payloads).get? id = collection.get? id := by
  unfold commitPartly
  split
  · obtain ⟨hcollection, hpending⟩ := takeAll_of_not_mem payloads ⟨collection, ∅⟩ hid
    rw [get?_upsert, Batch.view, hcollection, hpending]
    split <;> rfl
  · exact (takeAll_of_not_mem _ ⟨collection, ∅⟩ fun payload hmem =>
      hid payload (mem_of_mem_take hmem)).1

theorem get?_commitBatch_of_not_mem {payloads : List PyVal}
    (hid : ∀ payload ∈ payloads, memoryId py payload = id → id.isEmpty = true) :
    (commitBatch py N collection payloads).get? id = collection.get? id := by
  have hall : commitPartly py N payloads.length (fun _ => true) collection payloads =
      commitBatch py N collection payloads := if_pos (Nat.le_refl _)
  rw [← hall, get?_commitPartly _ _ _ hid]

end Batches

end Rosclaw.Projection
