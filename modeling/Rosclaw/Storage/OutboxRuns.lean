/-
Workers over one outbox.

Every worker has a connection of its own and runs one call after the other.  SQLite lets one
connection write at a time, and what a transaction has written is seen when it commits; so a
call is here as many steps as it has queries and transactions, and between them any other
worker may take a step.  A statement may find the database locked, which ends its call, and a
worker may die between any two of its steps.

A worker commits a record upstream after it has claimed it, and marks it delivered only after
that commit has succeeded, as `OutboxWorker._drain_once` does.

* `outbox_calls_alone` — a call whose steps follow each other does what the operation of `Outbox`
  does.
-/
import Rosclaw.Lib.Machine
import Rosclaw.Storage.Outbox

namespace Rosclaw.Storage

variable {P : Type}

/-- A call that has steps left, with what it has read. -/
inductive Call (P : Type)
  /-- `enqueue` has found no record with the key -/
  | enqueueCount (r : NewRecord P)
  /-- `enqueue` has found room -/
  | enqueueInsert (r : NewRecord P)
  /-- `claim` has selected the candidates -/
  | claimUpdate (c : ClaimCall) (ids : List PyStr)
  | claimSelect (c : ClaimCall) (ids : List PyStr)
  /-- `claim` compares the rows it has read back with their hashes -/
  | claimCheck (rows : List (PyStr × Row P))
  /-- `mark_failed` has read the row -/
  | fail (id : PyStr) (row : Row P) (error : Option PyStr) (maxRetries : Int) (now : Rat)
  /-- `requeue_dead_letter` has read the row -/
  | requeue (id : PyStr) (d : DeadLetter P) (now : Rat)

structure Worker (P : Type) where
  call : Option (Call P) := none
  /-- the records that its last `claim` returned -/
  records : List PyStr := []
  /-- those of them whose commit has succeeded -/
  committed : List PyStr := []

inductive Entry
  | enqueued (id : PyStr)
  | claimed (owner id : PyStr)
  /-- the owner has committed the record upstream -/
  | committed (owner id : PyStr)
  | delivered (owner id : PyStr)
  | failed (owner id : PyStr)
  /-- the record was moved to the dead letters -/
  | died (owner id : PyStr)
  | requeued (id : PyStr)
  | purged (id : PyStr)
deriving DecidableEq

def Entry.about : Entry → PyStr
  | enqueued id | claimed _ id | committed _ id | delivered _ id | failed _ id | died _ id
  | requeued id | purged id => id

structure State (P : Type) where
  db : Outbox P
  /-- by their owner ids -/
  workers : PyStr → Worker P
  /-- the record ids that `uuid4` has given -/
  issued : List PyStr
  log : List Entry

inductive Label (P : Type)
  | enqueue (owner : PyStr) (r : NewRecord P)
  | claim (c : ClaimCall)
  | commit (owner id : PyStr)
  | markDelivered (owner id : PyStr) (remoteRevision : Option PyStr) (now : Rat)
  | markFailed (owner id : PyStr) (error : Option PyStr) (maxRetries : Int) (now : Rat)
  | requeue (owner id : PyStr) (now : Rat)
  | purge (owner : PyStr) (cutoff : Rat)
  /-- the next step of a call, at a time -/
  | resume (owner : PyStr) (now : Rat)
  /-- a statement finds the database locked -/
  | abort (owner : PyStr)
  | crash (owner : PyStr)

namespace State

def set (s : State P) (owner : PyStr) (w : Worker P) : State P :=
  { s with workers := Function.update s.workers owner w }

variable {owner owner' : PyStr} (s : State P)

@[simp] theorem set_workers_self (owner : PyStr) (w : Worker P) :
    (s.set owner w).workers owner = w := Function.update_self ..

theorem set_workers_of_ne (w : Worker P) (h : owner' ≠ owner) :
    (s.set owner w).workers owner' = s.workers owner' := Function.update_of_ne h ..

def goOn (s : State P) (owner : PyStr) (call : Option (Call P)) : State P :=
  s.set owner { s.workers owner with call := call }

def write (s : State P) (db : Outbox P) (es : List Entry) : State P :=
  { s with db := db, log := s.log ++ es }

def idle (s : State P) (owner : PyStr) : Bool := (s.workers owner).call.isNone

/-- The records whose rows `claim` changes. -/
def claimedIds (db : Outbox P) (c : ClaimCall) (ids : List PyStr) : List PyStr :=
  (db.rows.filter fun id row => ids.contains id && row.ready c).keys

/-- The records whose rows `purge_delivered` deletes. -/
def purgedIds (db : Outbox P) (cutoff : Rat) : List PyStr :=
  (db.rows.filter fun _ row => Outbox.purgeable cutoff row).keys

def beginEnqueue (s : State P) (owner : PyStr) (r : NewRecord P) : State P :=
  match s.db.findKey r.target r.idempotencyKey with
  | some _ => s
  | none => s.goOn owner (some (.enqueueCount r))

def beginClaim (s : State P) (c : ClaimCall) : State P :=
  if s.db.candidates c = [] then s
  else s.goOn c.owner (some (.claimUpdate c (s.db.candidates c)))

def markDelivered (s : State P) (owner id : PyStr) (remoteRevision : Option PyStr) (now : Rat) :
    State P :=
  match s.db.deliver id owner remoteRevision now with
  | none => s
  | some db => s.write db [.delivered owner id]

def beginFail (s : State P) (owner id : PyStr) (error : Option PyStr) (maxRetries : Int) (now : Rat) :
    State P :=
  match s.db.rows.get? id with
  | none => s
  | some row =>
      if row.leaseOwner ≠ some owner then s
      else s.goOn owner (some (.fail id row error maxRetries now))

def beginRequeue (s : State P) (owner id : PyStr) (now : Rat) : State P :=
  match s.db.deadLetters.get? id with
  | none => s
  | some d => s.goOn owner (some (.requeue id d now))

def keep (s : State P) (owner id : PyStr) : State P :=
  s.set owner { s.workers owner with records := (s.workers owner).records ++ [id] }

def release (s : State P) (owner : PyStr) : State P :=
  s.set owner { s.workers owner with records := [], committed := [] }

/-- `_move_to_dead_letters`. -/
def move (s : State P) (owner id : PyStr) (row : Row P) (retryCount : Nat) (error : Option PyStr)
    (failedAt : Rat) : State P :=
  s.write (s.db.moveToDeadLetters id row retryCount error failedAt) [.died owner id]

/-- The `UPDATE` of `mark_failed`. -/
def retry (s : State P) (owner id : PyStr) (retryCount : Nat) (error : Option PyStr) (now : Rat) :
    State P :=
  if (s.db.rows.get? id).isSome then s.write (s.db.retry id retryCount error now) [.failed owner id]
  else s

def resume (K : Codec P) (s : State P) (owner : PyStr) (time : Rat) : Call P → State P
  | .enqueueCount r =>
      if s.db.maxRecords ≤ s.db.active then s.goOn owner none
      else s.goOn owner (some (.enqueueInsert r))
  | .enqueueInsert r =>
      match s.db.insert r with
      | none => s.goOn owner none
      | some db => (s.write db [.enqueued r.id]).goOn owner none
  | .claimUpdate c ids =>
      ((s.write (s.db.takeLease c ids) ((claimedIds s.db c ids).map (.claimed c.owner))).release
        c.owner).goOn owner (some (.claimSelect c ids))
  | .claimSelect c ids => s.goOn owner (some (.claimCheck (s.db.leasedRows c ids)))
  | .claimCheck [] => s.goOn owner none
  | .claimCheck ((id, row) :: rows) =>
      if row.corrupt K then
        (s.move owner id row row.retryCount (some "payload checksum mismatch") time).goOn owner
          (some (.claimCheck rows))
      else (s.keep owner id).goOn owner (some (.claimCheck rows))
  | .fail id row error maxRetries now =>
      if maxRetries ≤ (row.retryCount + 1 : Nat) then
        (s.move owner id row (row.retryCount + 1) error time).goOn owner none
      else (s.retry owner id (row.retryCount + 1) error now).goOn owner none
  | .requeue id d now =>
      match s.db.restore id d now with
      | none => s.goOn owner none
      | some db => (s.write db [.requeued id]).goOn owner none

def next (K : Codec P) (s : State P) : Label P → Option (State P)
  | .enqueue owner r =>
      if s.idle owner = true ∧ r.id ∉ s.issued then
        some ({ s with issued := r.id :: s.issued }.beginEnqueue owner r)
      else none
  | .claim c => if s.idle c.owner then some (s.beginClaim c) else none
  | .commit owner id =>
      if s.idle owner = true ∧ id ∈ (s.workers owner).records then
        some ((s.write s.db [.committed owner id]).set owner
          { s.workers owner with committed := id :: (s.workers owner).committed })
      else none
  | .markDelivered owner id remoteRevision now =>
      if s.idle owner = true ∧ id ∈ (s.workers owner).committed then
        some (s.markDelivered owner id remoteRevision now)
      else none
  | .markFailed owner id error maxRetries now =>
      if s.idle owner then some (s.beginFail owner id error maxRetries now) else none
  | .requeue owner id now => if s.idle owner then some (s.beginRequeue owner id now) else none
  | .purge owner cutoff =>
      if s.idle owner then
        some (s.write (s.db.purgeDelivered cutoff) ((purgedIds s.db cutoff).map .purged))
      else none
  | .resume owner time => (s.workers owner).call.map (s.resume K owner time)
  | .abort owner => if s.idle owner then none else some (s.goOn owner none)
  | .crash owner => some (s.set owner {})

end State

def outbox (K : Codec P) : Machine (State P) (Label P) where
  Init s := s.db.rows = ∅ ∧ s.db.deadLetters = ∅ ∧ s.workers = (fun _ => {}) ∧ s.issued = [] ∧ s.log = []
  step := State.next K

/-! ### A call whose steps follow each other -/

section Alone

variable {K : Codec P} {s : State P} {owner id : PyStr} {now time : Rat} {db : Outbox P}

/-- The worker takes the steps that are left of its call, and leaves these tables. -/
def Finishes (K : Codec P) (s : State P) (owner : PyStr) (time : Rat) (db : Outbox P) : Prop :=
  ∃ n s', (outbox K).run s (List.replicate n (.resume owner time)) = some s' ∧
    (s'.workers owner).call = none ∧ s'.db = db

variable {r : NewRecord P} (call : Option (Call P))

@[simp] theorem goOn_call : ((s.goOn owner call).workers owner).call = call :=
  congrArg Worker.call (Function.update_self owner _ s.workers)

@[simp] theorem goOn_db : (s.goOn owner call).db = s.db := rfl

theorem finishes_done (h : (s.workers owner).call = none) : Finishes K s owner time s.db :=
  ⟨0, s, rfl, h, rfl⟩

theorem finishes_step {call : Call P} (hcall : (s.workers owner).call = some call)
    (h : Finishes K (s.resume K owner time call) owner time db) : Finishes K s owner time db := by
  obtain ⟨n, s', hrun, hdone, hdb⟩ := h
  refine ⟨n + 1, s', ?_, hdone, hdb⟩
  rw [List.replicate_succ]
  refine Machine.run_cons_eq_some.mpr ⟨_, ?_, hrun⟩
  show ((s.workers owner).call).map _ = _
  rw [hcall]
  rfl

theorem finishes_last {call : Call P} (hcall : (s.workers owner).call = some call) {s' : State P}
    (h : s.resume K owner time call = s'.goOn owner none) : Finishes K s owner time s'.db := by
  refine finishes_step hcall ?_
  rw [h]
  exact finishes_done (goOn_call none)

theorem finishes_insert (hcall : (s.workers owner).call = some (.enqueueInsert r)) :
    Finishes K s owner time ((s.db.insert r).getD s.db) := by
  cases hinsert : s.db.insert r with
  | none => exact finishes_last hcall (by rw [State.resume, hinsert])
  | some db =>
    have hlast : s.resume K owner time (.enqueueInsert r) =
        (s.write db [.enqueued r.id]).goOn owner none := by rw [State.resume, hinsert]
    exact finishes_last hcall hlast

theorem finishes_count (hcall : (s.workers owner).call = some (.enqueueCount r)) :
    Finishes K s owner time
      (if s.db.maxRecords ≤ s.db.active then s.db else (s.db.insert r).getD s.db) := by
  by_cases hfull : s.db.maxRecords ≤ s.db.active
  · rw [if_pos hfull]
    exact finishes_last hcall (if_pos hfull)
  · rw [if_neg hfull]
    have hnext : s.resume K owner time (.enqueueCount r) = s.goOn owner (some (.enqueueInsert r)) :=
      if_neg hfull
    refine finishes_step hcall ?_
    rw [hnext]
    exact finishes_insert (goOn_call _)

variable (K time) in
theorem run_enqueue (hidle : s.idle owner = true) (hfresh : r.id ∉ s.issued) :
    ∃ s₁, (outbox K).step s (.enqueue owner r) = some s₁ ∧
      Finishes K s₁ owner time (s.db.enqueue r).2 := by
  refine ⟨_, if_pos ⟨hidle, hfresh⟩, ?_⟩
  rw [State.beginEnqueue, Outbox.enqueue_snd]
  dsimp only
  cases hkey : s.db.findKey r.target r.idempotencyKey with
  | some id => exact finishes_done (Option.isNone_iff_eq_none.mp hidle)
  | none =>
    have hrest : Finishes K ({ s with issued := r.id :: s.issued }.goOn owner (some (.enqueueCount r)))
        owner time (if s.db.maxRecords ≤ s.db.active then s.db else (s.db.insert r).getD s.db) :=
      finishes_count (goOn_call _)
    by_cases hfull : s.db.maxRecords ≤ s.db.active
    · rw [if_pos hfull] at hrest
      rw [if_pos (.inr hfull)]
      exact hrest
    · rw [if_neg hfull] at hrest
      rw [if_neg (by simp [hfull])]
      exact hrest

/-- The loop of `claim` over the rows it has read back. -/
theorem finishes_check (rows : List (PyStr × Row P))
    (hcall : (s.workers owner).call = some (.claimCheck rows)) :
    Finishes K s owner time (Outbox.sortOut K time rows s.db).2 := by
  induction rows generalizing s with
  | nil => exact finishes_last hcall rfl
  | cons e rows ih =>
    obtain ⟨id, row⟩ := e
    refine finishes_step hcall ?_
    rw [State.resume, Outbox.sortOut]
    split
    · exact ih (goOn_call _)
    · exact ih (goOn_call _)

variable (K time) in
theorem run_claim {c : ClaimCall} (hidle : s.idle c.owner = true) :
    ∃ s₁, (outbox K).step s (.claim c) = some s₁ ∧
      Finishes K s₁ c.owner time (s.db.claim K c time).2 := by
  refine ⟨_, if_pos hidle, ?_⟩
  rw [State.beginClaim, Outbox.claim]
  split
  · exact finishes_done (Option.isNone_iff_eq_none.mp hidle)
  · refine finishes_step (goOn_call _) (finishes_step (goOn_call _) ?_)
    exact finishes_check _ (goOn_call _)

variable (K time) in
theorem run_markFailed (hidle : s.idle owner = true) (error : Option PyStr) (maxRetries : Int) :
    ∃ s₁, (outbox K).step s (.markFailed owner id error maxRetries now) = some s₁ ∧
      Finishes K s₁ owner time (s.db.markFailed id owner error maxRetries now time) := by
  refine ⟨_, if_pos hidle, ?_⟩
  have hdone : Finishes K s owner time s.db := finishes_done (Option.isNone_iff_eq_none.mp hidle)
  rw [State.beginFail, Outbox.markFailed]
  cases hrow : s.db.rows.get? id with
  | none => exact hdone
  | some row =>
    dsimp only
    split
    · exact hdone
    · refine finishes_step (goOn_call _) ?_
      rw [State.resume, Outbox.recordFailure]
      split
      · exact finishes_done (goOn_call none)
      · have hretry : (((s.goOn owner (some (.fail id row error maxRetries now))).retry owner id
            (row.retryCount + 1) error now).goOn owner none).db =
            s.db.retry id (row.retryCount + 1) error now := by
          show (State.retry _ owner id (row.retryCount + 1) error now).db = _
          rw [State.retry, if_pos]
          · rfl
          · show (s.db.rows.get? id).isSome = true
            rw [hrow]
            rfl
        rw [← hretry]
        exact finishes_done (goOn_call none)

variable (K time) in
theorem run_requeue (hidle : s.idle owner = true) :
    ∃ s₁, (outbox K).step s (.requeue owner id now) = some s₁ ∧
      Finishes K s₁ owner time (s.db.requeueDeadLetter id now).2 := by
  refine ⟨_, if_pos hidle, ?_⟩
  rw [State.beginRequeue, Outbox.requeueDeadLetter]
  cases hdead : s.db.deadLetters.get? id with
  | none => exact finishes_done (Option.isNone_iff_eq_none.mp hidle)
  | some d =>
    refine finishes_step (goOn_call _) ?_
    dsimp only
    rw [State.resume, goOn_db]
    cases s.db.restore id d now with
    | none => exact finishes_done (goOn_call none)
    | some db => exact finishes_done (goOn_call none)

/-- **A call whose steps no other worker interrupts** is the operation of the outbox. -/
theorem outbox_calls_alone (K : Codec P) (s : State P) (owner : PyStr) (time : Rat)
    (hidle : s.idle owner = true) :
    (∀ r : NewRecord P, r.id ∉ s.issued → ∃ s₁, (outbox K).step s (.enqueue owner r) = some s₁ ∧
        Finishes K s₁ owner time (s.db.enqueue r).2) ∧
      (∀ c : ClaimCall, c.owner = owner → ∃ s₁, (outbox K).step s (.claim c) = some s₁ ∧
        Finishes K s₁ owner time (s.db.claim K c time).2) ∧
      (∀ id error maxRetries now,
        ∃ s₁, (outbox K).step s (.markFailed owner id error maxRetries now) = some s₁ ∧
          Finishes K s₁ owner time (s.db.markFailed id owner error maxRetries now time)) ∧
      ∀ id now, ∃ s₁, (outbox K).step s (.requeue owner id now) = some s₁ ∧
        Finishes K s₁ owner time (s.db.requeueDeadLetter id now).2 := by
  refine ⟨fun r hfresh => run_enqueue K time hidle hfresh, ?_,
    fun id error maxRetries now => run_markFailed K time hidle error maxRetries,
    fun id now => run_requeue K time hidle⟩
  rintro c rfl
  exact run_claim K time hidle

/-- A worker claims the records that another one has selected and not yet leased. -/
theorem outbox_calls_alone_claim :
    let K : Codec PyStr := ⟨fun _ => "sha", fun _ _ => true⟩
    let record := fun id key => (newRecord K id "seekdb" "payload" (some key) none none 0).row
    let rows := ((∅ : Dict PyStr (Row PyStr)).set "rec_1" (record "rec_1" "key_1")).set "rec_2"
      (record "rec_2" "key_2")
    let s := State.set ⟨{ rows := rows }, fun _ => {}, ["rec_1", "rec_2"], []⟩ "w2"
      { call := some (.claimUpdate { owner := "w2", now := 1 } ["rec_1", "rec_2"]) }
    ∃ s₁, (outbox K).step s (.claim { owner := "w1", now := 1 }) = some s₁ ∧
      Finishes K s₁ "w1" 1 (s.db.claim K { owner := "w1", now := 1 } 1).2 :=
  (outbox_calls_alone _ _ "w1" 1 rfl).2.1 _ rfl

end Alone

end Rosclaw.Storage
