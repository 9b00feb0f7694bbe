/-
The state of the daemon (`daemon/service.py`, with the latch of
`core/runtime.py`) and the pieces its operations are made of.

An action id never gets a second job object, so the heap of jobs and the threads
that run them are indexed by action ids; `retained` are the keys of `_jobs`, in
order.  `log`, `opened`, `settled` and `owed` are not part of the source: they record
what the properties are about.
-/
import Rosclaw.Daemon.ActionJob
import Rosclaw.Daemon.SessionManager

namespace Rosclaw

inductive SupervisionState
  | starting | disarmed | armed | estopped | stopping
deriving DecidableEq, Repr

/-- The entities of the events that an operator's part of the daemon writes. -/
inductive OperatorKind
  | proposal | enrollment
deriving DecidableEq, Repr

def OperatorKind.value : OperatorKind → String
  | proposal => "OPERATOR_PROPOSAL"
  | enrollment => "OPERATOR_ENROLLMENT"

structure DaemonConfig where
  py : Builtins
  euid : Int
  maxRetained : Nat
  queueCapacity : Nat
  executors : List (PyStr × ExecutionMode)

/-! ### Where a thread of the pool stands -/

/-- Inside a call of `runtime.submit_action`. -/
inductive GatewayPoint
  /-- about to read the latch -/
  | submit (a : ActionEnvelope)
  | refuse (a : ActionEnvelope) (code : String) (message : PyStr)
  | lookup (a : ActionEnvelope)
  /-- waiting for the execution of the same action id -/
  | wait (a : ActionEnvelope) (waiter : Nat)
  | start (a : ActionEnvelope)
  /-- waiting for the body lease -/
  | acquire (e : Execution)
  | invoke (e : Execution) (lease : ResourceLease)
  | executing (e : Execution) (lease : ResourceLease)
  | store (a : ActionEnvelope) (receipt : ExecutionReceipt)
  | leave (a : ActionEnvelope) (receipt : ExecutionReceipt)

/-- Inside a call of `_stop_overridden_action`. -/
inductive StopPoint
  | ask
  | wait
  | estop
  | latch
  | record (receipt : PyVal)

/-- Inside `_run_action`. -/
inductive WorkerPoint
  | begin
  | dispatch
  | refuse (code : String) (message : PyStr)
  | armed (decision : PermitDecision)
  | hand (decision : PermitDecision)
  | gateway (p : GatewayPoint)
  /-- an exception was caught; a `LedgerError` also marks the ledger -/
  | failed (marks : Bool)
  | result (receipt : List (PyStr × PyVal))
  | stopping (p : StopPoint) (receipt : List (PyStr × PyVal))
  | finalize (receipt : List (PyStr × PyVal))

/-! ### The state -/

/-- What has happened: calls and writes, in order. -/
inductive Happening
  /-- an `ACTION_SUBMITTED` event is stored -/
  | created (job : ActionJob)
  /-- `request_action` returns a job it already had -/
  | returned (action : ActionEnvelope) (peer : PeerCredentials) (job : ActionJob)
  /-- `authorize` allows the action, with these tables at this time -/
  | authorized (action : ActionEnvelope) (peer : PeerCredentials) (now : DateTime)
      (tables : PermitAuthority)
  /-- `_run_action` calls `runtime.submit_action` -/
  | handed (action : ActionEnvelope)
  /-- the gateway calls an executor, for a job or for a direct caller -/
  | invoked (action : ActionEnvelope) (job : Option PyStr)
  /-- an `ACTION_TERMINAL` event is stored -/
  | wrote (actionId : PyStr) (state : JobState) (receipt : List (PyStr × PyVal))

structure Daemon where
  instanceId : PyStr := ""
  ledger : Ledger
  authority : PermitAuthority := {}
  sessions : SessionManager := Dict.empty
  jobs : Dict PyStr ActionJob := Dict.empty
  retained : List PyStr := []
  /-- the jobs that a thread of the pool is running -/
  workers : Dict PyStr WorkerPoint := Dict.empty
  gateway : Gateway
  leases : ResourceManager := Dict.empty
  /-- `runtime._emergency_stop_latched` -/
  latched : Bool := false
  supervision : SupervisionState := .starting
  running : Bool := false
  closed : Bool := false
  recoveryRequired : Bool := false
  recoveryActionIds : List PyStr := []
  recoveryRealActionIds : List PyStr := []
  ledgerWriteFailed : Bool := false
  freeSlots : Nat
  log : List Happening := []
  /-- how many events the ledger had when the process opened it -/
  opened : Nat := 0
  /-- sessions that were not active when a watchdog tick began that is over -/
  settled : List PyStr := []
  /-- REAL actions that were started, have no durable terminal receipt, and are no
  longer executed -/
  owed : List PyStr := []

structure Answers where
  readings : Readings := ⟨fun _ => default, fun _ => default, id⟩
  /-- `time.monotonic()`, in milliseconds -/
  monotonic : Nat := 0
  appends : List AppendOutcome := []
  read : ReadOutcome := .answered
  /-- the thread pool accepts the job -/
  scheduled : Bool := true
  /-- a bounded wait ends by its timeout -/
  timedOut : Bool := false
  /-- the gateway's own code raises -/
  raises : Bool := false
  /-- what the executor returns, and its artifact directory; `none` if it raises -/
  result : Option (ActionExecutionResult × Option PyStr) := none
  /-- the text of an exception -/
  message : PyStr := ""
  /-- what `runtime.request_emergency_stop` returns -/
  stopReceipt : PyVal := .dict []
  /-- events that close the operator proposals of an earlier generation -/
  proposalEvents : List (PyStr × List (PyStr × PyVal)) := []
  /-- an instant by which the step is over -/
  endsBy : Int := 0

namespace Daemon

/-! ### The ledger -/

def append (C : DaemonConfig) (d : Daemon) (e : LedgerEvent) : Daemon × Option LedgerFault :=
  let r := d.ledger.append C.py e
  ({ d with ledger := r.1 }, r.2)

/-- `_mark_ledger_failure_locked`. -/
def markFailure (d : Daemon) : Daemon := { d with ledgerWriteFailed := true }

def markOn (d : Daemon) : Option LedgerFault → Daemon
  | none => d
  | some _ => d.markFailure

def note (C : DaemonConfig) (d : Daemon) (e : LedgerEvent) : Daemon :=
  let r := d.append C e
  r.1.markOn r.2

def happen (d : Daemon) (h : Happening) : Daemon := { d with log := d.log ++ [h] }

/-! ### Jobs and receipts -/

def setJob (d : Daemon) (id : PyStr) (j : ActionJob) : Daemon := { d with jobs := d.jobs.set id j }

/-- `_jobs.get(action_id)`. -/
def job? (d : Daemon) (id : PyStr) : Option ActionJob :=
  if id ∈ d.retained then d.jobs.get? id else none

/-- `gateway.reject`. -/
def reject (d : Daemon) (a : ActionEnvelope) (code : String) (message : PyStr) (state : ActionState)
    (r : Readings) : Daemon × ExecutionReceipt :=
  let g := d.gateway.reject a code message state r
  ({ d with gateway := g.2 }, g.1)

/-- The job gets its outcome, which `_persist_terminal_job` then appends. -/
def finishJob (C : DaemonConfig) (d : Daemon) (j : ActionJob) (state : JobState)
    (receipt : List (PyStr × PyVal)) (t : DateTime) : Daemon × Option LedgerFault :=
  let id := j.action.actionId
  let d := d.setJob id { j with state := state, finishedAt := some t, receipt := some (.dict receipt) }
  let r := d.append C (terminalEvent id state t (.dict receipt))
  (if d.ledger.events.length < r.1.ledger.events.length then r.1.happen (.wrote id state receipt)
    else r.1, r.2)

/-- `_finish_overridden_job_locked`. -/
def finishOverridden (C : DaemonConfig) (d : Daemon) (j : ActionJob) (o : TerminalOverride)
    (r : Readings) : Daemon :=
  let rejected := d.reject j.action o.code o.message o.state r
  let finished := rejected.1.finishJob C j .finished rejected.2.entries (r.clock 4)
  finished.1.markOn finished.2

/-- The loop of `_evict_terminal_jobs_locked`. -/
def evictJobs (target : Nat) (d : Daemon) : List PyStr → Daemon
  | [] => d
  | id :: ids =>
    if d.retained.length ≤ target then d
    else match d.jobs.get? id with
    | some j =>
      if j.state.isActive then evictJobs target d ids
      else evictJobs target { d with
        retained := d.retained.filter (· ≠ id)
        gateway := d.gateway.discardReceipt id } ids
    | none => evictJobs target d ids

/-- `_evict_terminal_jobs_locked`. -/
def evict (C : DaemonConfig) (d : Daemon) (reserve : Nat) : Daemon :=
  d.evictJobs (C.maxRetained - reserve) d.retained

/-- `_load_persisted_job`; `none` where it raises. -/
def loadPersistedJob (C : DaemonConfig) (d : Daemon) (id : PyStr) (r : Readings) :
    Daemon × Option (Option ActionJob) :=
  match d.ledger.read "ACTION" (some id) with
  | (L, .error _) => ({ d with ledger := L }.markFailure, none)
  | (L, .ok es) =>
    ({ d with ledger := L }, if es.isEmpty then some none
      else (decodePersistedJob C.py r es).map some)

/-- `self._jobs.get(action_id) or self._load_persisted_job(action_id)`. -/
def findJob (C : DaemonConfig) (d : Daemon) (id : PyStr) (r : Readings) :
    Daemon × Option (Option ActionJob) :=
  match d.job? id with
  | some j => (d, some (some j))
  | none => d.loadPersistedJob C id r

/-- `_require_job_owner`. -/
def ownsJob (C : DaemonConfig) (j : ActionJob) : Option PeerCredentials → Bool
  | none => true
  | some peer => peer.uid = j.peer.uid || peer.uid = C.euid

/-! ### Recovery -/

def RECOVERY_REASON : String := "interrupted_real_action_outcome_unknown"

def recoveryEvent (eventType : String) (payload : List (PyStr × PyVal)) : LedgerEvent :=
  ⟨eventType, "RECOVERY", "rosclawd", .dict payload⟩

def requiredEvent (actionIds realActionIds : List PyStr) (t : DateTime) : LedgerEvent :=
  recoveryEvent "RECOVERY_REQUIRED" [("action_ids", .list (actionIds.map .str)),
    ("real_action_ids", .list (realActionIds.map .str)), ("required_at", .str t.isoformat),
    ("reason", .str RECOVERY_REASON)]

def acknowledgedEvent (actionIds realActionIds : List PyStr) (reason : PyStr) (t : DateTime)
    (peer : PeerCredentials) : LedgerEvent :=
  recoveryEvent "RECOVERY_ACKNOWLEDGED" [("action_ids", .list (actionIds.map .str)),
    ("real_action_ids", .list (realActionIds.map .str)), ("reason", .str reason),
    ("acknowledged_at", .str t.isoformat), ("peer", peer.toDict)]

structure Recovery where
  required : Bool := false
  actionIds : List PyStr := []
  realActionIds : List PyStr := []
deriving DecidableEq

/-- `_merge_recovery_requirement_locked`. -/
def Recovery.merge (p : Recovery) (actionIds realActionIds : List PyStr) : Recovery where
  required := true
  actionIds := PyStr.sortedSet (p.actionIds ++ actionIds)
  realActionIds := PyStr.sortedSet (p.realActionIds ++ realActionIds)

def recovery (d : Daemon) : Recovery :=
  ⟨d.recoveryRequired, d.recoveryActionIds, d.recoveryRealActionIds⟩

def setRecovery (d : Daemon) (p : Recovery) : Daemon :=
  { d with
    recoveryRequired := p.required
    recoveryActionIds := p.actionIds
    recoveryRealActionIds := p.realActionIds }

def persistedStringList (v : PyVal) : Option (List PyStr) :=
  match v with
  | .list xs =>
    (xs.mapM textOf?).filter fun ss =>
      !ss.isEmpty && ss.all (fun s => s.codes ≠ []) && decide (ss = PyStr.sortedSet ss)
  | _ => none

/-- One event of `_restore_recovery_from_ledger`; `none` where it raises. -/
def restoreRecoveryEvent (C : DaemonConfig) (jobs : Dict PyStr ActionJob) (p : Recovery)
    (e : LedgerEvent) : Option Recovery :=
  if e.eventType = "RECOVERY_REQUIRED" then do
    let actionIds ← persistedStringList (e.payload.get "action_ids")
    let realActionIds ← persistedStringList (e.payload.get "real_action_ids")
    let _ ← parsePersistedTime (e.payload.get "required_at")
    if (e.payload.get "reason").pyEq (.str RECOVERY_REASON) = false ∨
        ¬ realActionIds ⊆ actionIds ∨ (∃ id ∈ actionIds, jobs.get? id = none) ∨
        (∃ id ∈ realActionIds, ¬ (jobs.get? id).any (·.action.executionMode = .real)) ∨
        (p.required = true ∧ (¬ p.actionIds ⊆ actionIds ∨ ¬ p.realActionIds ⊆ realActionIds)) then
      none
    else some (p.merge actionIds realActionIds)
  else if e.eventType = "RECOVERY_ACKNOWLEDGED" then
    if p.required = false then none
    else do
      let actionIds ← persistedStringList (e.payload.get "action_ids")
      let realActionIds ← persistedStringList (e.payload.get "real_action_ids")
      let _ ← parsePersistedTime (e.payload.get "acknowledged_at")
      let peer := e.payload.get "peer"
      if peer.isDict = false then none
      else do
        let _ ← persistedInt (peer.get "pid")
        let uid ← persistedInt (peer.get "uid")
        let _ ← persistedInt (peer.get "gid")
        match e.payload.get "reason" with
        | .str reason =>
          if actionIds ≠ p.actionIds ∨ realActionIds ≠ p.realActionIds ∨ reason.isBlank = true ∨
              1024 < reason.length ∨ uid ≠ C.euid then none
          else some {}
        | _ => none
  else none

/-- `_restore_recovery_from_ledger`. -/
def restoreRecovery (C : DaemonConfig) (jobs : Dict PyStr ActionJob) (es : List LedgerEvent) :
    Option Recovery :=
  es.foldlM (restoreRecoveryEvent C jobs) {}

/-! ### Restart -/

def entityIds (es : List LedgerEvent) : List PyStr :=
  es.foldl (fun ids e => if e.entityId ∈ ids then ids else ids ++ [e.entityId]) []

/-- `_restore_jobs_from_ledger`: the events are grouped by their entity. -/
def restoreJobs (C : DaemonConfig) (r : Readings) (es : List LedgerEvent) :
    Option (Dict PyStr ActionJob) :=
  (entityIds es).foldlM (fun jobs id =>
    (decodePersistedJob C.py r (es.filter (·.entityId = id))).map (jobs.set id)) Dict.empty

/-- The code, message, final state and scheduler state of a job that a restart found
unfinished. -/
def restartOutcome (j : ActionJob) : String × String × ActionState × JobState :=
  if j.state = .running ∧ j.action.executionMode = .real then
    ("DAEMON_RESTART_OUTCOME_UNKNOWN", "rosclawd restarted after REAL dispatch began. " ++
      "The physical outcome is unknown; E-Stop was requested and operator review is required.",
      .failed, .finished)
  else if j.state = .running then
    ("DAEMON_RESTART_INTERRUPTED",
      "rosclawd restarted before the action produced a terminal receipt.", .failed, .finished)
  else
    ("DAEMON_RESTART_CANCELLED_BEFORE_DISPATCH",
      "rosclawd restarted while the action was queued; no executor dispatch is claimed.",
      .cancelled, .cancelled)

/-- The loop of `_recover_incomplete_jobs_locked`: `none` where an append raises. -/
def terminateJobs (C : DaemonConfig) (r : Readings) (d : Daemon) :
    List PyStr → Daemon × Bool
  | [] => (d, true)
  | id :: ids =>
    match d.jobs.get? id with
    | none => terminateJobs C (r.after 5) d ids
    | some j =>
      let o := restartOutcome j
      let rejected := d.reject j.action o.1 o.2.1 o.2.2.1 r
      match rejected.1.finishJob C j o.2.2.2 rejected.2.entries (r.clock 4) with
      | (d, some _) => (d, false)
      | (d, none) => terminateJobs C (r.after 5) d ids

def incomplete (d : Daemon) : List PyStr :=
  d.retained.filter fun id => (d.jobs.get? id).any (·.state.isActive)

def unknownReal (d : Daemon) : List PyStr :=
  d.retained.filter fun id => (d.jobs.get? id).any fun j =>
    j.state = .running && j.action.executionMode = .real

/-- `_recover_incomplete_jobs_locked`, up to the loop; `false` where the append
raises. -/
def requireRecovery (C : DaemonConfig) (d : Daemon) (t : DateTime) : Daemon × Bool :=
  if d.unknownReal.isEmpty then (d, true)
  else
    let merged := d.recovery.merge d.unknownReal d.unknownReal
    if d.recovery = merged then (d, true)
    else match d.append C (requiredEvent merged.actionIds merged.realActionIds t) with
      | (d, some _) => (d, false)
      | (d, none) => (d.setRecovery merged, true)

/-- `_recover_incomplete_jobs_locked`. -/
def recoverIncomplete (C : DaemonConfig) (d : Daemon) (r : Readings) : Daemon × Bool :=
  let jobs := d.incomplete
  match d.requireRecovery C (r.clock 0) with
  | (d, false) => (d, false)
  | (d, true) => ({ d with latched := d.latched || d.recoveryRequired }).terminateJobs C (r.after 1) jobs

/-- `_invalidate_previous_generation_operator_proposals`: the append of each event;
`false` where one raises. -/
def invalidateProposals (C : DaemonConfig) (d : Daemon) :
    List (PyStr × List (PyStr × PyVal)) → Daemon × Bool
  | [] => (d, true)
  | e :: es =>
    match d.append C ⟨"OPERATOR_PROPOSAL_INVALIDATED", "OPERATOR_PROPOSAL", e.1, .dict e.2⟩ with
    | (d, some _) => (d, false)
    | (d, none) => invalidateProposals C d es

def start (C : DaemonConfig) (d : Daemon) (r : Readings) : Daemon × Bool :=
  match d.recoverIncomplete C r with
  | (d, false) => (d, false)
  | (d, true) => ({ d.evict C 0 with running := true, supervision := .disarmed }, true)

/-- The tables a constructor reads from the ledger; `none` where it raises. -/
def restoreTables (C : DaemonConfig) (L : Ledger) (r : Readings) :
    Option (Dict PyStr ActionJob × Recovery) :=
  match L.read "ACTION" none, L.read "RECOVERY" (some "rosclawd") with
  | (_, .ok actions), (_, .ok recoveries) => do
    let jobs ← restoreJobs C r actions
    let pending ← restoreRecovery C jobs recoveries
    some (jobs, pending)
  | _, _ => none

def fresh (C : DaemonConfig) (d : Daemon) (env : Answers) : Daemon where
  instanceId := "daemon_" ++ env.readings.uuid 0
  ledger := d.ledger.reopen env.appends env.read
  gateway := { executors := C.executors }
  freeSlots := max 1 C.queueCapacity
  log := d.log
  opened := d.ledger.events.length
  owed := d.owed

/-- A new process opens the ledger, constructs the daemon and starts it; `false`
where one of these raises. -/
def restart (C : DaemonConfig) (d : Daemon) (env : Answers) : Daemon × Bool :=
  let fresh := d.fresh C env
  match PermitAuthority.open C.py fresh.ledger with
  | (L, none) => ({ fresh with ledger := L }, false)
  | (L, some A) =>
    match restoreTables C L env.readings with
    | none => ({ fresh with ledger := L }, false)
    | some (jobs, pending) =>
      let d := ({ fresh with
        ledger := L
        authority := A
        jobs := jobs
        retained := jobs.keys }).setRecovery pending
      let d := { d with owed := d.owed ++ d.unknownReal }
      match d.invalidateProposals C env.proposalEvents with
      | (d, false) => (d, false)
      | (d, true) => d.start C env.readings

end Daemon

end Rosclaw
