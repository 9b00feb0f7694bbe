/-
Payloads, their checksums, and the drain loop of a worker (`_canonical_sha256`, `enqueue`, `claim`
and `OutboxWorker.flush` of `storage/outbox.py`).

The column `payload_json` holds a text; what matters of it is what `json.loads` makes of it.  The
hash is a function of the sorted text.  No other worker writes to the tables, and what is committed
upstream succeeds.
-/
import Rosclaw.Lib.JsonDump
import Rosclaw.Storage.Outbox

namespace Rosclaw.Storage

open JsonDump PyJson

/-- What `json.loads` makes of a text. -/
inductive Stored
  | text (d : Dump)
  /-- a `JSONDecodeError` -/
  | garbled
  /-- another exception: an integer with too many digits, or arrays nested too deep -/
  | raising

/-- What the interpreter and the libraries do: the hash of a sorted text, the order that sorting
finds for numbers among which is a NaN, and whether `dict(v)` is defined. -/
structure Python where
  sha256 : Dump → PyStr
  nanOrder : List Key → List Nat
  isMapping : PyObj → Bool

namespace Stored

def payload? : Stored → Option PyObj
  | .text d => some (decode d)
  | .garbled => some (.dict [])
  | .raising => none

/-- `_payload_hash_matches`. -/
def hashMatches (py : Python) (p : Stored) (sha : PyStr) : Bool :=
  match p with
  | .text d => (dumpsSorted py.nanOrder (decode d)).any fun c => py.sha256 c = sha
  | _ => false

def isRaising : Stored → Bool
  | .raising => true
  | _ => false

end Stored

def Row.altered (py : Python) (row : Row Stored) : Bool :=
  row.payloadSha256.any fun sha => !sha.isEmpty && !row.payload.hashMatches py sha

namespace Outbox

/-- The rows that `claim` has read back, one after the other. -/
def checkRows (py : Python) (failedAt : Rat) :
    List (PyStr × Row Stored) → Outbox Stored →
      Option (List (PyStr × Row Stored)) × Outbox Stored
  | [], db => (some [], db)
  | (id, row) :: rows, db =>
      if row.payload.isRaising then (none, db)
      else if row.altered py then
        checkRows py failedAt rows
          (db.moveToDeadLetters id row row.retryCount (some "payload checksum mismatch") failedAt)
      else
        let (records, db') := checkRows py failedAt rows db
        (records.map ((id, row) :: ·), db')

/-- `claim`; `none` if it raises. -/
def claimRecords (py : Python) (db : Outbox Stored) (c : ClaimCall) (failedAt : Rat) :
    Option (List (PyStr × Row Stored)) × Outbox Stored :=
  if db.candidates c = [] then (some [], db)
  else checkRows py failedAt ((db.takeLease c (db.candidates c)).leasedRows c (db.candidates c))
    (db.takeLease c (db.candidates c))

end Outbox

/-! ### The worker -/

structure OutboxWorker where
  owner : PyStr
  batchSize : Int := 100
  maxRetries : Int := 10
  leaseSec : Rat := 30
  target : Option PyStr := none
  /-- `delivered_retention_sec` of the store -/
  retentionSec : Rat := 3600

/-- What `time.time()` answers in one cycle. -/
structure Times where
  claimed : Rat
  deadLettered : Rat
  purged : Rat
  marked : Rat

namespace OutboxWorker

def call (w : OutboxWorker) (t : Times) : ClaimCall where
  limit := w.batchSize
  owner := w.owner
  leaseSec := w.leaseSec
  maxRetries := w.maxRetries
  target := w.target
  now := t.claimed

/-- Each record is committed and marked; the commit takes `dict(payload)`, which can raise. -/
def commitAll (py : Python) (w : OutboxWorker) (t : Times) :
    List (PyStr × Row Stored) → Outbox Stored → Outbox Stored
  | [], db => db
  | (id, row) :: rows, db =>
      if row.payload.payload?.any py.isMapping then
        commitAll py w t rows ((db.deliver id w.owner none t.marked).getD db)
      else
        commitAll py w t rows
          (db.markFailed id w.owner (some "payload is no mapping") w.maxRetries t.marked t.marked)

/-- `_drain_once`: how many records it has drained, unless it raises. -/
def drainOnce (py : Python) (w : OutboxWorker) (t : Times) (db : Outbox Stored) :
    Option Nat × Outbox Stored :=
  match db.claimRecords py (w.call t) t.deadLettered with
  | (none, db') => (none, db')
  | (some records, db') =>
    (some records.length, w.commitAll py t records (db'.purgeDelivered (t.purged - w.retentionSec)))

/-- What `flush` returns, its last cycle, and the tables before this cycle and after it. -/
structure Flushed where
  total : Nat
  last : Nat
  before : Outbox Stored
  after : Outbox Stored

/-- `flush` without a timeout, from a cycle on; it is called before `stop` (`_stop` is unset). -/
def flush (py : Python) (w : OutboxWorker) (times : Nat → Times) :
    Nat → Nat → Outbox Stored → Option Flushed
  | 0, _, _ => none
  | fuel + 1, cycle, db =>
      match w.drainOnce py (times cycle) db with
      | (some (n + 1), db') =>
        (flush py w times fuel (cycle + 1) db').map fun f => { f with total := n + 1 + f.total }
      | (_, db') => some ⟨0, cycle, db, db'⟩

/-! ### The batches -/

def isDue (w : OutboxWorker) (t : Times) (row : Row Stored) : Bool :=
  row.ready (w.call t) && w.target.all fun target => row.target = target

def due (w : OutboxWorker) (t : Times) (rows : List (PyStr × Row Stored)) :
    List (PyStr × Row Stored) :=
  byAge (rows.filter fun e => w.isDue t e.2)

def batch (w : OutboxWorker) (t : Times) (rows : List (PyStr × Row Stored)) :
    List (PyStr × Row Stored) := limited w.batchSize (w.due t rows)

def rest (w : OutboxWorker) (t : Times) (rows : List (PyStr × Row Stored)) :
    List (PyStr × Row Stored) :=
  rows.filter fun e => e.1 ∉ (w.batch t rows).map Prod.fst

/-- Every batch can be read, and one without an intact row is all that is due. -/
def Clears (py : Python) (w : OutboxWorker) (times : Nat → Times) :
    Nat → Nat → List (PyStr × Row Stored) → Prop
  | 0, _, _ => True
  | fuel + 1, cycle, rows =>
      w.due (times cycle) rows = [] ∨
        ((∀ e ∈ w.batch (times cycle) rows, e.2.payload.isRaising = false) ∧
          ((∃ e ∈ w.batch (times cycle) rows, e.2.altered py = false) ∧
              Clears py w times fuel (cycle + 1) (w.rest (times cycle) rows) ∨
            (∀ e ∈ w.batch (times cycle) rows, e.2.altered py = true) ∧
              (w.due (times cycle) rows).length ≤ (w.batch (times cycle) rows).length))

end OutboxWorker

end Rosclaw.Storage
