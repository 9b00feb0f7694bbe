/-
The local outbox (`storage/outbox.py`).

A record waits in the table `outbox` until a worker claims it under a lease, commits it
upstream and marks it delivered; what fails too often or is corrupt goes to
`outbox_dead_letters`.  Each function below is one query or one transaction of the store, and
the operations put them together the way the code does.  Times are values of `time.time()`,
and a record id is a `uuid4` text that never repeats.
-/
import Mathlib.Data.List.Sort
import Rosclaw.Lib.Dict
import Rosclaw.Lib.PyVal
import Rosclaw.Lib.Text

namespace Rosclaw.Storage

/-- The column `status`. -/
inductive Status
  | pending | retry | inflight | delivered
deriving DecidableEq, Repr

/-- `_ACTIVE_STATUSES`. -/
def Status.isActive : Status → Bool
  | .pending | .retry | .inflight => true
  | .delivered => false

/-- A row of `outbox`; `P` is what `payload_json` holds. -/
structure Row (P : Type) where
  target : PyStr
  payload : P
  createdAt : Rat
  retryCount : Nat := 0
  nextRetryAt : Option Rat
  errorLog : Option PyStr := none
  idempotencyKey : Option PyStr
  entityType : Option PyStr
  entityId : Option PyStr
  payloadSha256 : Option PyStr
  status : Status := .pending
  leaseOwner : Option PyStr := none
  leaseExpiresAt : Option Rat := none
  updatedAt : Rat
  remoteRevision : Option PyStr := none

/-- A row of `outbox_dead_letters`. -/
structure DeadLetter (P : Type) where
  target : PyStr
  payload : P
  createdAt : Rat
  retryCount : Nat
  failedAt : Rat
  errorLog : Option PyStr
  idempotencyKey : Option PyStr
  entityType : Option PyStr
  entityId : Option PyStr
  payloadSha256 : Option PyStr

/-- What a payload hashes to: `_canonical_sha256` of the value that is enqueued, and
`_payload_hash_matches` on the text that is stored. -/
structure Codec (P : Type) where
  sha256 : P → PyStr
  hashMatches : P → PyStr → Bool

structure Outbox (P : Type) where
  maxRecords : Nat := 100000
  rows : Dict PyStr (Row P) := ∅
  deadLetters : Dict PyStr (DeadLetter P) := ∅

variable {P : Type}

/-- A record that `enqueue` is asked to add. -/
structure NewRecord (P : Type) where
  id : PyStr
  target : PyStr
  payload : P
  now : Rat
  idempotencyKey : PyStr
  entityType : Option PyStr
  entityId : Option PyStr
  payloadSha256 : PyStr

/-- `x or y`. -/
def orElse (x : Option PyStr) (y : PyStr) : PyStr :=
  match x with
  | some s => if s.isEmpty then y else s
  | none => y

/-- The record; the key that is not given is made of the entity and the hash. -/
def newRecord (K : Codec P) (id target : PyStr) (payload : P) (idempotencyKey entityType entityId :
    Option PyStr) (now : Rat) : NewRecord P where
  id := id
  target := target
  payload := payload
  now := now
  idempotencyKey := idempotencyKey.getD
    (orElse entityType "record" ++ ":" ++ orElse entityId id ++ ":" ++ (K.sha256 payload).take 16)
  entityType := entityType
  entityId := entityId
  payloadSha256 := K.sha256 payload

def NewRecord.row (r : NewRecord P) : Row P where
  target := r.target
  payload := r.payload
  createdAt := r.now
  nextRetryAt := some r.now
  idempotencyKey := some r.idempotencyKey
  entityType := r.entityType
  entityId := r.entityId
  payloadSha256 := some r.payloadSha256
  updatedAt := r.now

/-- The arguments of `claim`, and the time it starts at. -/
structure ClaimCall where
  limit : Int := 100
  owner : PyStr
  leaseSec : Rat := 30
  maxRetries : Int := 10
  target : Option PyStr := none
  now : Rat

namespace Row

def ready (row : Row P) (c : ClaimCall) : Bool :=
  ((row.status = .pending || row.status = .retry) && row.nextRetryAt.all (fun t => t ≤ c.now) &&
      decide ((row.retryCount : Int) < c.maxRetries)) ||
    (row.status = .inflight && row.leaseExpiresAt.any fun t => t < c.now)

def leased (row : Row P) (c : ClaimCall) : Row P :=
  { row with
    status := .inflight, leaseOwner := some c.owner, leaseExpiresAt := some (c.now + c.leaseSec)
    updatedAt := c.now }

def delivered (row : Row P) (now : Rat) (remoteRevision : Option PyStr) : Row P :=
  { row with
    status := .delivered, leaseOwner := none, leaseExpiresAt := none, updatedAt := now
    remoteRevision := remoteRevision }

/-- The row waits for another attempt, with a backoff of at most five minutes. -/
def retrying (row : Row P) (retryCount : Nat) (error : Option PyStr) (now : Rat) : Row P :=
  { row with
    retryCount := retryCount, nextRetryAt := some (now + (min (2 ^ retryCount) 300 : Nat))
    errorLog := error, status := .retry, leaseOwner := none, leaseExpiresAt := none
    updatedAt := now }

def deadLetter (row : Row P) (retryCount : Nat) (error : Option PyStr) (failedAt : Rat) :
    DeadLetter P where
  target := row.target
  payload := row.payload
  createdAt := row.createdAt
  retryCount := retryCount
  failedAt := failedAt
  errorLog := error
  idempotencyKey := row.idempotencyKey
  entityType := row.entityType
  entityId := row.entityId
  payloadSha256 := row.payloadSha256

def corrupt (K : Codec P) (row : Row P) : Bool :=
  row.payloadSha256.any fun sha => !sha.isEmpty && !K.hashMatches row.payload sha

end Row

def DeadLetter.row (d : DeadLetter P) (now : Rat) : Row P where
  target := d.target
  payload := d.payload
  createdAt := d.createdAt
  nextRetryAt := some now
  idempotencyKey := d.idempotencyKey
  entityType := d.entityType
  entityId := d.entityId
  payloadSha256 := d.payloadSha256
  updatedAt := now

/-- `ORDER BY created_at ASC`. -/
def byAge (es : List (PyStr × Row P)) : List (PyStr × Row P) :=
  es.insertionSort fun e e' => decide (e.2.createdAt ≤ e'.2.createdAt) = true

/-- `LIMIT`; a negative one is none. -/
def limited (limit : Int) (es : List (PyStr × Row P)) : List (PyStr × Row P) :=
  if limit < 0 then es else es.take limit.toNat

namespace Outbox

/-! ### Queries and transactions -/

/-- `SELECT id FROM outbox WHERE target = ? AND idempotency_key = ?`. -/
def findKey (db : Outbox P) (target idempotencyKey : PyStr) : Option PyStr :=
  (db.rows.entries.find? fun e =>
    e.2.target = target && e.2.idempotencyKey = some idempotencyKey).map Prod.fst

/-- `SELECT COUNT(*) FROM outbox WHERE status IN (…)`. -/
def active (db : Outbox P) : Nat := db.rows.countVals fun row => row.status.isActive

/-- A row would break the primary key or the index over target and key. -/
def conflicts (db : Outbox P) (id : PyStr) (row : Row P) : Bool :=
  db.rows.contains id || db.rows.values.any fun row' =>
    row'.idempotencyKey.isSome && row'.target = row.target &&
      row'.idempotencyKey = row.idempotencyKey

def setRow (db : Outbox P) (id : PyStr) (row : Row P) : Outbox P :=
  { db with rows := db.rows.set id row }

/-- The `INSERT` of `enqueue`. -/
def insert (db : Outbox P) (r : NewRecord P) : Option (Outbox P) :=
  if db.conflicts r.id r.row then none else some (db.setRow r.id r.row)

/-- The ids that `claim` selects. -/
def candidates (db : Outbox P) (c : ClaimCall) : List PyStr :=
  (limited c.limit (byAge (db.rows.entries.filter fun e =>
    e.2.ready c && c.target.all (fun target => e.2.target = target)))).map Prod.fst

/-- The `UPDATE` of `claim` checks the rows again. -/
def takeLease (db : Outbox P) (c : ClaimCall) (ids : List PyStr) : Outbox P :=
  { db with rows := db.rows.mapVals fun id row =>
      if ids.contains id && row.ready c then row.leased c else row }

/-- The rows that `claim` reads back. -/
def leasedRows (db : Outbox P) (c : ClaimCall) (ids : List PyStr) : List (PyStr × Row P) :=
  byAge (db.rows.entries.filter fun e =>
    e.2.leaseOwner = some c.owner && e.2.status = .inflight && ids.contains e.1)

/-- `_move_to_dead_letters`, with the row that was read. -/
def moveToDeadLetters (db : Outbox P) (id : PyStr) (row : Row P) (retryCount : Nat)
    (error : Option PyStr) (failedAt : Rat) : Outbox P :=
  { db with
    rows := db.rows.erase id
    deadLetters := db.deadLetters.set id (row.deadLetter retryCount error failedAt) }

/-- `mark_delivered` by the owner of a lease. -/
def deliver (db : Outbox P) (id owner : PyStr) (remoteRevision : Option PyStr) (now : Rat) :
    Option (Outbox P) :=
  (db.rows.get? id).bind fun row =>
    if row.leaseOwner = some owner then some (db.setRow id (row.delivered now remoteRevision))
    else none

/-- The `UPDATE` of `mark_failed` looks at the id alone. -/
def retry (db : Outbox P) (id : PyStr) (retryCount : Nat) (error : Option PyStr) (now : Rat) :
    Outbox P :=
  match db.rows.get? id with
  | none => db
  | some row => db.setRow id (row.retrying retryCount error now)

/-- The transaction of `requeue_dead_letter`, with the row that was read. -/
def restore (db : Outbox P) (id : PyStr) (d : DeadLetter P) (now : Rat) : Option (Outbox P) :=
  if db.conflicts id (d.row now) then none
  else some { db.setRow id (d.row now) with deadLetters := db.deadLetters.erase id }

/-- A row that `purge_delivered` deletes. -/
def purgeable (cutoff : Rat) (row : Row P) : Bool :=
  row.status = .delivered && decide (row.updatedAt < cutoff)

def purgeDelivered (db : Outbox P) (cutoff : Rat) : Outbox P :=
  { db with rows := db.rows.filter fun _ row => !purgeable cutoff row }

/-! ### Operations -/

inductive EnqueueError
  /-- the outbox is full -/
  | overflowError
  /-- the row broke an index and no row has the key -/
  | integrityError

/-- `enqueue`: the id of the record, or of the one that has its key. -/
def enqueue (db : Outbox P) (r : NewRecord P) : Except EnqueueError PyStr × Outbox P :=
  match db.findKey r.target r.idempotencyKey with
  | some id => (.ok id, db)
  | none =>
      if db.maxRecords ≤ db.active then (.error .overflowError, db)
      else match db.insert r with
        | some db' => (.ok r.id, db')
        | none => match db.findKey r.target r.idempotencyKey with
          | some id => (.ok id, db)
          | none => (.error .integrityError, db)

/-- The rows that `claim` has read back: the intact ones are returned, and the others are moved
to the dead letters. -/
def sortOut (K : Codec P) (failedAt : Rat) :
    List (PyStr × Row P) → Outbox P → List (PyStr × Row P) × Outbox P
  | [], db => ([], db)
  | (id, row) :: rows, db =>
      if row.corrupt K then
        sortOut K failedAt rows
          (db.moveToDeadLetters id row row.retryCount (some "payload checksum mismatch") failedAt)
      else ((id, row) :: (sortOut K failedAt rows db).1, (sortOut K failedAt rows db).2)

/-- `claim`: the records it has leased. -/
def claim (K : Codec P) (db : Outbox P) (c : ClaimCall) (failedAt : Rat) :
    List (PyStr × Row P) × Outbox P :=
  if db.candidates c = [] then ([], db)
  else sortOut K failedAt ((db.takeLease c (db.candidates c)).leasedRows c (db.candidates c))
    (db.takeLease c (db.candidates c))

/-- What `mark_failed` writes for a row that it has read. -/
def recordFailure (db : Outbox P) (id : PyStr) (row : Row P) (error : Option PyStr)
    (maxRetries : Int) (now failedAt : Rat) : Outbox P :=
  if maxRetries ≤ (row.retryCount + 1 : Nat) then
    db.moveToDeadLetters id row (row.retryCount + 1) error failedAt
  else db.retry id (row.retryCount + 1) error now

/-- `mark_failed` by the owner of a lease. -/
def markFailed (db : Outbox P) (id owner : PyStr) (error : Option PyStr) (maxRetries : Int)
    (now failedAt : Rat) : Outbox P :=
  match db.rows.get? id with
  | none => db
  | some row =>
      if row.leaseOwner ≠ some owner then db
      else db.recordFailure id row error maxRetries now failedAt

def requeueDeadLetter (db : Outbox P) (id : PyStr) (now : Rat) : Bool × Outbox P :=
  match db.deadLetters.get? id with
  | none => (false, db)
  | some d => match db.restore id d now with
    | none => (false, db)
    | some db' => (true, db')

/-! ### What a transaction does to one record -/

section Spec

variable {db db' : Outbox P} {id id' : PyStr}

variable {now : Rat} {row row' : Row P} (r : NewRecord P) (c : ClaimCall) (ids : List PyStr)

@[simp] theorem get?_takeLease : (db.takeLease c ids).rows.get? id =
      (db.rows.get? id).map fun row => if ids.contains id && row.ready c then row.leased c else row :=
  Dict.get?_mapVals ..

/-- The tables after `enqueue`: a key that is there or a full outbox leaves them. -/
theorem enqueue_snd : (db.enqueue r).2 =
      if (db.findKey r.target r.idempotencyKey).isSome ∨ db.maxRecords ≤ db.active then db
      else (db.insert r).getD db := by
  unfold enqueue
  cases hkey : db.findKey r.target r.idempotencyKey with
  | some id => rfl
  | none =>
    by_cases hfull : db.maxRecords ≤ db.active
    · simp [hfull]
    · simp only [hfull, if_false, Option.isSome_none, Bool.false_eq_true, or_self]
      cases db.insert r <;> rfl

/-- `enqueue` finds the key, raises, or adds the record. -/
theorem enqueue_cases :
    (∃ id, db.findKey r.target r.idempotencyKey = some id ∧ db.enqueue r = (.ok id, db)) ∨
      (∃ e, db.enqueue r = (.error e, db)) ∨
      db.findKey r.target r.idempotencyKey = none ∧
        ∃ db', db.insert r = some db' ∧ db.enqueue r = (.ok r.id, db') := by
  unfold enqueue
  cases hkey : db.findKey r.target r.idempotencyKey with
  | some id => exact .inl ⟨id, rfl, rfl⟩
  | none =>
    right
    dsimp only
    split
    · exact .inl ⟨_, rfl⟩
    · cases hinsert : db.insert r with
      | none => exact .inl ⟨_, rfl⟩
      | some db' => exact .inr ⟨rfl, db', rfl, rfl⟩

theorem insert_eq_some {r : NewRecord P} (h : db.insert r = some db') :
    db.rows.get? r.id = none ∧ db' = db.setRow r.id r.row := by
  unfold insert at h
  split at h
  · cases h
  · next hfree =>
    refine ⟨?_, (Option.some_inj.mp h).symm⟩
    rw [conflicts, Bool.or_eq_true, not_or, Dict.contains, Option.not_isSome_iff_eq_none] at hfree
    exact hfree.1

theorem restore_eq_some {d : DeadLetter P} (h : db.restore id d now = some db') :
    db.rows.get? id = none ∧
      db' = { db.setRow id (d.row now) with deadLetters := db.deadLetters.erase id } := by
  unfold restore at h
  split at h
  · cases h
  · next hfree =>
    refine ⟨?_, (Option.some_inj.mp h).symm⟩
    rw [conflicts, Bool.or_eq_true, not_or, Dict.contains, Option.not_isSome_iff_eq_none] at hfree
    exact hfree.1

theorem deliver_eq_some {owner : PyStr} {remoteRevision : Option PyStr}
    (h : db.deliver id owner remoteRevision now = some db') :
    ∃ row, db.rows.get? id = some row ∧ row.leaseOwner = some owner ∧
      db' = db.setRow id (row.delivered now remoteRevision) := by
  obtain ⟨row, hrow, hdeliver⟩ := Option.bind_eq_some_iff.mp h
  split at hdeliver
  · next howner => exact ⟨row, hrow, howner, (Option.some_inj.mp hdeliver).symm⟩
  · cases hdeliver

/-- The rows that `claim` reads back are leased by its owner. -/
theorem mem_leasedRows {c : ClaimCall} {ids : List PyStr} (h : (id, row) ∈ db.leasedRows c ids) :
    db.rows.get? id = some row ∧ row.leaseOwner = some c.owner := by
  rw [leasedRows, byAge, List.mem_insertionSort, List.mem_filter, Dict.mem_entries_iff] at h
  obtain ⟨hrow, hleased⟩ := h
  rw [Bool.and_eq_true, Bool.and_eq_true, decide_eq_true_eq] at hleased
  exact ⟨hrow, hleased.1.1⟩

theorem nodup_leasedRows : ((db.leasedRows c ids).map Prod.fst).Nodup := by
  rw [leasedRows, byAge]
  have hperm := (List.perm_insertionSort (fun e e' : PyStr × Row P =>
    decide (e.2.createdAt ≤ e'.2.createdAt) = true) (db.rows.entries.filter fun e =>
      e.2.leaseOwner = some c.owner && e.2.status = .inflight && ids.contains e.1)).map Prod.fst
  exact hperm.nodup_iff.mpr (db.rows.nodup.sublist (List.filter_sublist.map _))

theorem active_takeLease : (db.takeLease c ids).active = db.active := by
  simp only [active, takeLease]
  refine Dict.countVals_mapVals _ fun id row => ?_
  split
  · next hready =>
    -- a row that can be claimed is active already
    rw [Bool.and_eq_true] at hready
    obtain ⟨-, hready⟩ := hready
    have hactive : row.status.isActive = true := by
      cases hstatus : row.status with
      | delivered => simp [Row.ready, hstatus] at hready
      | pending => rfl
      | retry => rfl
      | inflight => rfl
    rw [hactive]
    rfl
  · rfl

theorem active_move_le (row : Row P) (retryCount : Nat) (error : Option PyStr) (failedAt : Rat) :
    (db.moveToDeadLetters id row retryCount error failedAt).active ≤ db.active :=
  Dict.countVals_erase_le ..

theorem active_purge_le (cutoff : Rat) : (db.purgeDelivered cutoff).active ≤ db.active := by
  simp only [active, purgeDelivered]
  exact Dict.countVals_filter_le ..

theorem active_setRow_le (h : db.rows.get? id = some row)
    (hactive : row'.status.isActive = true → row.status.isActive = true) :
    (db.setRow id row').active ≤ db.active := Dict.countVals_set_le h hactive

theorem active_setRow_new (h : db.rows.get? id = none) :
    (db.setRow id row).active ≤ db.active + 1 := by
  have hcount : (db.setRow id row).active = db.active + _ := Dict.countVals_set_of_none h
  rw [hcount]
  split <;> omega

end Spec

end Outbox

end Rosclaw.Storage
