/-
The jobs of the daemon's action queue and their durable form (`daemon/service.py`).

A job is written to the ledger as up to three events: its submission, its start
and its terminal receipt.  The reader is strict; what it accepts is compared here,
field by field, with what the writers write.

* `decode_submitted` — a stored submission reads back.
-/
import Rosclaw.Kernel.ActionGateway
import Rosclaw.Daemon.Permits

namespace Rosclaw

inductive JobState
  | queued | running | finished | cancelled
deriving DecidableEq, Repr

namespace JobState

def value : JobState → String
  | queued => "QUEUED"
  | running => "RUNNING"
  | finished => "FINISHED"
  | cancelled => "CANCELLED"

/-- `state in {"QUEUED", "RUNNING"}`. -/
def isActive : JobState → Bool
  | queued | running => true
  | _ => false

end JobState

/-- The future of a job: waiting for a worker thread, run by one, or cancelled. -/
inductive JobFuture
  | pending | running | cancelled
deriving DecidableEq, Repr

/-- The outcome that replaces the executor's: final state, code and message. -/
structure TerminalOverride where
  state : ActionState
  code : String
  message : PyStr

/-- `_ActionJob`.  A restored job has no future. -/
structure ActionJob where
  action : ActionEnvelope
  peer : PeerCredentials
  state : JobState := .queued
  submittedAt : DateTime
  startedAt : Option DateTime := none
  finishedAt : Option DateTime := none
  receipt : Option PyVal := none
  future : Option JobFuture := none
  leaseExpiresAt : DateTime
  leaseExpiresMonotonic : Nat := 0
  lastLeaseRenewedAt : DateTime
  sessionLost : Bool := false
  terminalOverride : Option TerminalOverride := none
  stopRequested : Bool := false
  stopCompleted : Bool := false
  stopReceipt : Option PyVal := none

namespace ActionJob

/-- The `action_lease` entry of `to_dict`. -/
def actionLease (j : ActionJob) : PyVal :=
  .dict [("ttl_ms", .int j.action.leaseTtlMs), ("renew_interval_ms", .int j.action.renewIntervalMs),
    ("last_renewed_at", .str j.lastLeaseRenewedAt.isoformat),
    ("expires_at", .str j.leaseExpiresAt.isoformat),
    ("active", .bool (j.state.isActive && j.terminalOverride.isNone))]

def unscheduled (j : ActionJob) : ActionJob where
  action := j.action
  peer := j.peer
  submittedAt := j.submittedAt
  leaseExpiresAt := j.leaseExpiresAt
  lastLeaseRenewedAt := j.lastLeaseRenewedAt

end ActionJob

/-! ### Writing -/

def actionEvent (eventType : String) (actionId : PyStr) (payload : List (PyStr × PyVal)) :
    LedgerEvent :=
  ⟨eventType, "ACTION", actionId, .dict payload⟩

def submittedEvent (j : ActionJob) : LedgerEvent :=
  actionEvent "ACTION_SUBMITTED" j.action.actionId [("action", j.action.toDict),
    ("peer", j.peer.toDict), ("submitted_at", .str j.submittedAt.isoformat),
    ("action_lease", j.actionLease)]

def startedEvent (actionId : PyStr) (startedAt : DateTime) : LedgerEvent :=
  actionEvent "ACTION_STARTED" actionId [("started_at", .str startedAt.isoformat)]

def terminalEvent (actionId : PyStr) (state : JobState) (finishedAt : DateTime) (receipt : PyVal) :
    LedgerEvent :=
  actionEvent "ACTION_TERMINAL" actionId [("scheduler_state", .str state.value),
    ("finished_at", .str finishedAt.isoformat), ("receipt", receipt)]

/-! ### Reading -/

/-- `_parse_persisted_time`; the conversion to UTC keeps the instant. -/
def parsePersistedTime : PyVal → Option DateTime
  | .str s => DateTime.parseUtc none s
  | _ => none

def persistedInt : PyVal → Option Int
  | .int n => if n < 0 then none else some n
  | _ => none

/-- The lease of a submission: when it was last renewed and when it expires. -/
def decodeLease (a : ActionEnvelope) (submittedAt : DateTime) (rawLease : PyVal) :
    Option (DateTime × DateTime) :=
  match rawLease with
  | .none => (submittedAt.addMillis a.leaseTtlMs).map fun expiresAt => (submittedAt, expiresAt)
  | .dict _ => do
    let lastRenewedAt ← parsePersistedTime (rawLease.get "last_renewed_at")
    let leaseExpiresAt ← parsePersistedTime (rawLease.get "expires_at")
    if (rawLease.get "ttl_ms").pyEq (.int a.leaseTtlMs) = false ∨
        (rawLease.get "renew_interval_ms").pyEq (.int a.renewIntervalMs) = false ∨
        leaseExpiresAt.instant ≤ lastRenewedAt.instant then none
    else some (lastRenewedAt, leaseExpiresAt)
  | _ => none

/-- The job of an `ACTION_SUBMITTED` event. -/
def decodeSubmitted (py : Builtins) (r : Readings) (e : LedgerEvent) : Option ActionJob :=
  let rawAction := e.payload.get "action"
  let rawPeer := e.payload.get "peer"
  if rawAction.isDict = false ∨ rawPeer.isDict = false then none
  else match ActionEnvelope.fromDict py (r.clock 0) (r.uuid 0) rawAction with
    | .error _ => none
    | .ok a => do
      let pid ← persistedInt (rawPeer.get "pid")
      let uid ← persistedInt (rawPeer.get "uid")
      let gid ← persistedInt (rawPeer.get "gid")
      let submittedAt ← parsePersistedTime (e.payload.get "submitted_at")
      let lease ← decodeLease a submittedAt (e.payload.get "action_lease")
      if a.actionId ≠ e.entityId then none
      else some {
        action := a
        peer := ⟨pid, uid, gid⟩
        submittedAt := submittedAt
        lastLeaseRenewedAt := lease.1
        leaseExpiresAt := lease.2 }

def receiptMatches (a : ActionEnvelope) (receipt : PyVal) : Bool :=
  (receipt.get "schema_version").pyEq (.str RECEIPT_SCHEMA_VERSION) &&
    (receipt.get "action_id").pyEq (.str a.actionId) &&
    (receipt.get "mode").pyEq (.str a.executionMode.value) &&
    (receipt.get "execution_mode").pyEq (.str a.executionMode.value) &&
    (receipt.get "body_id").pyEq (.str a.bodyId) &&
    (receipt.get "body_snapshot_hash").pyEq (.str a.bodySnapshotHash) &&
    (receipt.get "capability_id").pyEq (.str a.capabilityId)

/-- `v is b`. -/
def isBool (v : PyVal) (b : Bool) : Bool :=
  match v with
  | .bool b' => b' = b
  | _ => false

def textOf? : PyVal → Option PyStr
  | .str s => some s
  | _ => none

/-- `_validate_persisted_receipt`; `false` where it raises. -/
def validatePersistedReceipt (a : ActionEnvelope) (receipt : PyVal) (cancelled : Bool) : Bool :=
  receiptMatches a receipt &&
    match (textOf? (receipt.get "final_state")).bind ActionState.ofText,
      (textOf? (receipt.get "evidence_level")).bind EvidenceLevel.ofText,
      parsePersistedTime (receipt.get "started_at"),
      parsePersistedTime (receipt.get "finished_at") with
    | some finalState, some evidence, some startedAt, some finishedAt =>
      finalState.isTerminal && (!cancelled || finalState = .cancelled) &&
        decide (startedAt.instant ≤ finishedAt.instant) &&
        (receipt.get "dispatch_result").isDict && (receipt.get "errors").isList &&
        isBool (receipt.get "verified") (receiptVerified a.executionMode evidence) &&
        (receipt.get "trust_level").pyEq (.str (receiptTrustLevel a.executionMode evidence)) &&
        isBool (receipt.get "usable_for_real_execution")
          (receiptUsable a.executionMode finalState evidence)
    | _, _, _, _ => false

/-- The scheduler state of an `ACTION_TERMINAL` event. -/
def terminalStateOf (v : PyVal) : Option JobState :=
  if v.pyEq (.str JobState.finished.value) then some .finished
  else if v.pyEq (.str JobState.cancelled.value) then some .cancelled
  else none

/-- One event, on the job the events before it make; `none` where the reader
raises. -/
def decodeEvent (py : Builtins) (r : Readings) (job : Option ActionJob) (e : LedgerEvent) :
    Option ActionJob :=
  if e.eventType = "ACTION_SUBMITTED" then
    match job with
    | some _ => none
    | none => decodeSubmitted py r e
  else match job with
  | none => none
  | some j =>
    if e.eventType = "ACTION_STARTED" then
      if j.state ≠ .queued then none
      else (parsePersistedTime (e.payload.get "started_at")).map fun t =>
        { j with state := .running, startedAt := some t }
    else if e.eventType = "ACTION_TERMINAL" then
      let receipt := e.payload.get "receipt"
      match terminalStateOf (e.payload.get "scheduler_state") with
      | none => none
      | some state =>
        if j.state.isActive = false ∨ receipt.isDict = false then none
        else if validatePersistedReceipt j.action receipt (state = .cancelled) = false then none
        else (parsePersistedTime (e.payload.get "finished_at")).map fun t =>
          { j with state := state, finishedAt := some t, receipt := some receipt }
    else none

def decodeEvents (py : Builtins) (r : Readings) :
    Option ActionJob → List LedgerEvent → Option ActionJob
  | job, [] => job
  | job, e :: es => match decodeEvent py r job e with
    | none => none
    | some j => decodeEvents py r (some j) es

/-- `_decode_persisted_job`, on the events of one action. -/
def decodePersistedJob (py : Builtins) (r : Readings) (es : List LedgerEvent) : Option ActionJob :=
  decodeEvents py r none es

variable {py : Builtins} {r : Readings} {j : ActionJob}

variable {actionId : PyStr} {e e' : LedgerEvent} {es : List LedgerEvent} {job : Option ActionJob}
  {t : DateTime}

theorem future_decodeEvent (hjob : ∀ j' ∈ job, j'.future = none)
    (h : decodeEvent py r job e = some j) : j.future = none := by
  unfold decodeEvent at h
  split at h
  · cases job with
    | some j' => simp at h
    | none =>
      simp only [decodeSubmitted] at h
      split at h
      · simp at h
      split at h
      · simp at h
      · simp only [Option.bind_eq_bind, Option.bind_eq_some_iff] at h
        obtain ⟨pid, -, uid, -, gid, -, t, -, lease, -, h⟩ := h
        split at h
        · simp at h
        · cases h
          rfl
  cases job with
  | none => simp at h
  | some j' =>
    have hj' := hjob j' rfl
    dsimp only at h
    split at h
    · split at h
      · simp at h
      · obtain ⟨t, -, rfl⟩ := Option.map_eq_some_iff.mp h
        exact hj'
    split at h
    · split at h
      · simp at h
      split at h
      · simp at h
      split at h
      · simp at h
      · obtain ⟨t, -, rfl⟩ := Option.map_eq_some_iff.mp h
        exact hj'
    · simp at h

theorem future_decodeEvents (hjob : ∀ j' ∈ job, j'.future = none)
    (h : decodeEvents py r job es = some j) : j.future = none := by
  induction es generalizing job with
  | nil => exact hjob j h
  | cons e es ih =>
    rw [decodeEvents] at h
    cases he : decodeEvent py r job e with
    | none => simp [he] at h
    | some j' =>
      rw [he] at h
      exact ih (fun j'' hj'' => Option.mem_some_iff.mp hj'' ▸ future_decodeEvent hjob he) h

theorem future_decodePersistedJob (h : decodePersistedJob py r es = some j) : j.future = none :=
  future_decodeEvents (by simp) h

/-! ### Round trips -/

theorem parsePersistedTime_isoformat (t : DateTime) :
    parsePersistedTime (.str t.isoformat) = some t := by
  simp [parsePersistedTime]

theorem persistedInt_of_nonneg {n : Int} (h : 0 ≤ n) : persistedInt (.int n) = some n := by
  simp [persistedInt, Int.not_lt.mpr h]

theorem stored_payload (h : Ledger.Stored e e') (ht : e.payload.tupleFree = true) :
    e'.payload = e.payload := PyVal.canon_eq_of_tupleFree ht h.2.2.2

/-- **A stored submission reads back.** -/
theorem decode_submitted (h : Ledger.Stored (submittedEvent j) e)
    (ht : j.action.toDict.tupleFree = true)
    (hpeer : 0 ≤ j.peer.pid ∧ 0 ≤ j.peer.uid ∧ 0 ≤ j.peer.gid)
    (hlease : j.lastLeaseRenewedAt.instant < j.leaseExpiresAt.instant) :
    decodeEvent py r none e = some j.unscheduled := by
  have hfree : (submittedEvent j).payload.tupleFree = true := by
    simp [submittedEvent, actionEvent, PyVal.tupleFree, PyVal.tupleFreeEntries, ht,
      PeerCredentials.toDict, ActionJob.actionLease]
  have hpayload := stored_payload h hfree
  have htype : e.eventType = "ACTION_SUBMITTED" := h.1
  have hid : e.entityId = j.action.actionId := h.2.2.1
  have haction : e.payload.get "action" = j.action.toDict := by
    simp [hpayload, submittedEvent, actionEvent, PyVal.get]
  have hrawPeer : e.payload.get "peer" = j.peer.toDict := by
    simp [hpayload, submittedEvent, actionEvent, PyVal.get]
  have hsubmitted : e.payload.get "submitted_at" = .str j.submittedAt.isoformat := by
    simp [hpayload, submittedEvent, actionEvent, PyVal.get]
  have hrawLease : e.payload.get "action_lease" = j.actionLease := by
    simp [hpayload, submittedEvent, actionEvent, PyVal.get]
  have hdecoded : decodeLease j.action j.submittedAt j.actionLease
      = some (j.lastLeaseRenewedAt, j.leaseExpiresAt) := by
    have hle : ¬ j.leaseExpiresAt.instant ≤ j.lastLeaseRenewedAt.instant := Int.not_le.mpr hlease
    simp [decodeLease, ActionJob.actionLease, PyVal.get, parsePersistedTime_isoformat, PyVal.pyEq,
      PyVal.number?, hle]
  obtain ⟨hpid, huid, hgid⟩ := hpeer
  have hdict : j.action.toDict.isDict = true := rfl
  rw [decodeEvent, if_pos htype, decodeSubmitted, haction, hrawPeer, hsubmitted, hrawLease, hid]
  simp [hdict, PeerCredentials.toDict, PyVal.get, persistedInt_of_nonneg hpid,
    persistedInt_of_nonneg huid, persistedInt_of_nonneg hgid, parsePersistedTime_isoformat,
    hdecoded, ActionJob.unscheduled]

/-! ### Overridden receipts -/

/-- `_apply_terminal_override`, on the entries of a receipt. -/
def applyTerminalOverride (o : TerminalOverride) (stopReceipt : Option PyVal)
    (receipt : List (PyStr × PyVal)) (r : Readings) : List (PyStr × PyVal) :=
  let listOf (key : String) : List PyVal := match (PyVal.dict receipt).getD key (.list []) with
    | .list xs => xs
    | _ => []
  let errors := listOf "errors" ++ [errorEntry o.code o.message]
  let transitions := listOf "transitions" ++ [StateTransition.toDict ⟨o.state, r.clock 0, o.code⟩]
  let safetyStop := match stopReceipt with
    | some v => if v.truthy then v else unknownStop
    | none => unknownStop
  PyVal.setEntry "safety_stop" safetyStop <|
    PyVal.setEntry "usable_for_real_execution" (.bool false) <|
    PyVal.setEntry "finished_at" (.str (r.clock 1).isoformat) <|
    PyVal.setEntry "transitions" (.list transitions) <|
    PyVal.setEntry "errors" (.list errors) <|
    PyVal.setEntry "final_state" (.str o.state.value) receipt
where
  unknownStop : PyVal := .dict [("final_status", .str "UNKNOWN"),
    ("error", .str "safety-stop request did not complete before receipt finalization")]

end Rosclaw
