/-
The control plane (`DaemonControlPlane` of `daemon/service.py`) as a machine.

A thread other than those of the pool is a list of tasks, each of them a stretch of
code that no other thread can interrupt; a task can put further ones in front of the
rest.  What a stretch reads from outside is in its label: clocks, the answers of the
database and of the executors.  An operator's decision makes the calls that are
modelled here one by one; its proposals are the subject of another part.
-/
import Rosclaw.Daemon.RunAction
import Rosclaw.Lib.Machine

namespace Rosclaw

/-- A request for an execution permit; the time to live is in seconds. -/
structure PermitRequest where
  action : ActionEnvelope
  principalId : PyStr
  targetPeerUid : Int
  expiresInSec : Rat
  reason : PyStr
  provenance : PyVal.Dictionary := .ofEntries []

inductive Task
  /-- `_require_running`, then the rest -/
  | whenRunning (t : Task)
  | createSession (q : SessionRequest) (peer : PeerCredentials)
  | sessionEvent (eventType : String) (s : AgentSession) (extra : List (PyStr × PyVal))
  | heartbeat (sessionId : PyStr) (peer : PeerCredentials)
  | heartbeatLost (sessionId : PyStr) (peer : PeerCredentials)
  | closeSession (sessionId : PyStr) (peer : PeerCredentials) (reason : PyStr)
  | closeProposalSession (sessionId : PyStr) (peer : PeerCredentials)
  /-- `_handle_lost_session`: the permits -/
  | lostRevoke (s : AgentSession)
  /-- `_handle_lost_session`: the jobs -/
  | lostMark (s : AgentSession) (revoked : Int)
  | terminalize (actionId : PyStr)
  | stop (actionId : PyStr) (p : StopPoint)
  | estop
  | latch
  | requireAction (a : ActionEnvelope) (peer : PeerCredentials)
  | adoptAction (a : ActionEnvelope) (peer : PeerCredentials)
  | requireAgain (a : ActionEnvelope) (peer : PeerCredentials)
  | submit (a : ActionEnvelope) (peer : PeerCredentials)
  | renew (actionId sessionId : PyStr) (peer : PeerCredentials)
  | leaseEvent (actionId sessionId : PyStr) (eventType : String) (lease : PyVal)
  | cancel (actionId : PyStr) (peer : Option PeerCredentials)
  | status (actionId : PyStr)
  | ledgerStatus
  | proposalRequire (a : ActionEnvelope) (peer : PeerCredentials)
  | operatorEvent (entityKind : OperatorKind) (eventType : String) (entityId : PyStr)
      (payload : List (PyStr × PyVal))
  | issueRequire (q : PermitRequest) (operator : PeerCredentials)
  | issue (q : PermitRequest) (operator : PeerCredentials)
  | arm (reason : PyStr) (peer : PeerCredentials)
  | disarmed (reason : PyStr) (peer : PeerCredentials)
  | supervisionEvent (eventType : String) (reason : PyStr) (peer : PeerCredentials)
  | acknowledge (reason : PyStr) (peer : PeerCredentials)
  | revokeSession (sessionId reason : PyStr)
  | revokeAll (reason : PyStr)
  | tickExpire
  | tickMark
  | tickEnd (sessionIds : List PyStr)
  | direct (p : GatewayPoint)
  | close
  | shutdown

namespace Daemon

/-! ### Sessions -/

def sessionEvent (eventType : String) (s : AgentSession) (extra : List (PyStr × PyVal)) :
    LedgerEvent :=
  ⟨eventType, "SESSION", s.sessionId, .dict (("session", s.toDict) :: extra)⟩

def onSession (d : Daemon) (r : SessionManager × Except String AgentSession)
    (next : AgentSession → List Task) (failed : String → List Task := fun _ => []) :
    Daemon × List Task :=
  ({ d with sessions := r.1 }, match r.2 with
    | .ok s => next s
    | .error code => failed code)

def orphanOverride (j : ActionJob) : TerminalOverride :=
  ⟨.orphaned, "AGENT_SESSION_LOST", "Owning Agent Session was lost; orphan policy " ++
    (j.action.orphanPolicy.value ++ " was applied." : String)⟩

/-- The job is one that `_handle_lost_session` looks at. -/
def ofSession (sessionId : PyStr) (j : ActionJob) : Bool :=
  j.action.sessionId = sessionId && j.state.isActive

def continues (j : ActionJob) : Bool :=
  j.state = .running && j.action.orphanPolicy = .continueUntilDeadline

def loseSession (sessionId : PyStr) (j : ActionJob) : ActionJob :=
  if ofSession sessionId j then
    { j with
      sessionLost := true
      terminalOverride :=
        if continues j then j.terminalOverride
        else if j.terminalOverride.isNone then some (orphanOverride j)
        else j.terminalOverride }
  else j

def mapRetained (d : Daemon) (f : ActionJob → ActionJob) : Daemon :=
  { d with jobs := d.jobs.mapVals fun id j => if id ∈ d.retained then f j else j }

def retainedWith (d : Daemon) (p : ActionJob → Bool) : List PyStr :=
  d.retained.filter fun id => (d.jobs.get? id).any p

/-- Terminalize the queued ones among the marked jobs, stop the running ones. -/
def followUp (d : Daemon) (marked : ActionJob → Bool) : List Task :=
  (d.retainedWith fun j => marked j && j.state = .queued).map .terminalize ++
    (d.retainedWith fun j => marked j && j.state ≠ .queued).map fun id => .stop id .ask

def withdrawn (j : ActionJob) : ActionJob := { j with future := some .cancelled }

/-- Cancel a pending future; the queue slot of the job is free again. -/
def withdraw (d : Daemon) (id : PyStr) (j : ActionJob) : Daemon :=
  { d.setJob id (withdrawn j) with freeSlots := d.freeSlots + 1 }

/-- `_terminalize_queued_override`. -/
def terminalize (C : DaemonConfig) (d : Daemon) (id : PyStr) (env : Answers) : Daemon :=
  match d.jobs.get? id with
  | none => d
  | some j =>
    if j.state = .queued ∧ j.future = some .pending then
      match j.terminalOverride with
      | some o => (d.withdraw id j).finishOverridden C (withdrawn j) o env.readings
      | none => d.withdraw id j
    else d

/-! ### Actions -/

def leaseEvent (actionId sessionId : PyStr) (eventType : String) (lease : PyVal) : LedgerEvent :=
  ⟨eventType, "ACTION_LEASE", actionId, .dict [("session_id", .str sessionId), ("lease", lease)]⟩

def scheduled (j : ActionJob) : ActionJob := { j with future := some .pending }

/-- The job goes to the pool, or is rejected if the pool refuses it. -/
def schedule (C : DaemonConfig) (d : Daemon) (j : ActionJob) (env : Answers) : Daemon :=
  let id := j.action.actionId
  if env.scheduled then
    { d.setJob id (scheduled j) with freeSlots := d.freeSlots - 1 }.note C
      (leaseEvent id j.action.sessionId "ACTION_LEASE_CREATED" j.actionLease)
  else
    let r := env.readings.after 3
    let rejected := d.reject j.action "DAEMON_SCHEDULING_FAILED"
      "rosclawd could not schedule the action; no executor dispatch occurred." .failed r
    let finished := rejected.1.finishJob C j .finished rejected.2.entries (r.clock 4)
    finished.1.markOn finished.2

def newJob (a : ActionEnvelope) (peer : PeerCredentials) (env : Answers) (expiresAt : DateTime) :
    ActionJob where
  action := a
  peer := peer
  submittedAt := env.readings.clock 2
  lastLeaseRenewedAt := env.readings.clock 1
  leaseExpiresAt := expiresAt
  leaseExpiresMonotonic := env.monotonic + a.leaseTtlMs

def appendJob (C : DaemonConfig) (d : Daemon) (j : ActionJob) : Daemon × Option LedgerFault :=
  let r := d.append C (submittedEvent j)
  (if d.ledger.events.length < r.1.ledger.events.length then r.1.happen (.created j) else r.1, r.2)

def admitJob (C : DaemonConfig) (d : Daemon) (a : ActionEnvelope) (peer : PeerCredentials)
    (env : Answers) : Daemon :=
  if C.maxRetained ≤ d.retained.length then d
  else match (env.readings.clock 1).addMillis a.leaseTtlMs with
  | none => d
  | some expiresAt =>
    let j := newJob a peer env expiresAt
    match d.appendJob C j with
    | (d, some _) => d.markFailure
    | (d, none) =>
      ({ d with retained := d.retained ++ [a.actionId] }.setJob a.actionId j).schedule C j env

/-- The last stretch of `request_action`, for an action that is new. -/
def enqueue (C : DaemonConfig) (d : Daemon) (a : ActionEnvelope) (peer : PeerCredentials)
    (env : Answers) : Daemon :=
  if a.deadlineAt.instant ≤ (env.readings.clock 0).instant then d
  else if d.ledgerWriteFailed then d
  else if a.executionMode = .real ∧ d.recoveryRequired = true then d
  else if d.freeSlots = 0 then d
  else (d.evict C 1).admitJob C a peer env

/-- The last stretch of `request_action`. -/
def submit (C : DaemonConfig) (d : Daemon) (a : ActionEnvelope) (peer : PeerCredentials)
    (env : Answers) : Daemon :=
  if d.running = false ∨ d.closed = true then d
  else match d.findJob C a.actionId env.readings with
  | (d, none) => d
  | (d, some (some j)) =>
    if ownsJob C j (some peer) && j.action.toDict.pyEq a.toDict then d.happen (.returned a peer j)
    else d
  | (d, some none) => d.enqueue C a peer env

def renewed (j : ActionJob) (now expiresAt : DateTime) (monotonic : Nat) : ActionJob :=
  { j with
    lastLeaseRenewedAt := now
    leaseExpiresAt := expiresAt
    leaseExpiresMonotonic := monotonic + j.action.leaseTtlMs }

/-- Replace a job that is in the table; a job read back from the ledger is in none. -/
def updateJob (d : Daemon) (id : PyStr) (j : ActionJob) : Daemon :=
  if (d.job? id).isSome then d.setJob id j else d

def renewLease (d : Daemon) (id : PyStr) (j : ActionJob) (env : Answers) : Daemon × List Task :=
  let now := env.readings.clock 1
  match now.addMillis j.action.leaseTtlMs with
  | none => (d.updateJob id { j with lastLeaseRenewedAt := now }, [])
  | some expiresAt =>
    let j := renewed j now expiresAt env.monotonic
    (d.updateJob id j, [.leaseEvent id j.action.sessionId "ACTION_LEASE_RENEWED" j.actionLease])

def leasePeer (C : DaemonConfig) (j : ActionJob) (peer : PeerCredentials) : PeerCredentials :=
  if peer.uid = C.euid then j.peer else peer

/-- `renew_action_lease`, up to its event. -/
def renew (C : DaemonConfig) (d : Daemon) (id sessionId : PyStr) (peer : PeerCredentials)
    (env : Answers) : Daemon × List Task :=
  match d.findJob C id env.readings with
  | (d, some (some j)) =>
    if ownsJob C j (some peer) = false ∨ j.action.sessionId ≠ sessionId ∨
        j.state.isActive = false ∨ j.terminalOverride.isSome = true then (d, [])
    else match d.sessions.heartbeat sessionId (leasePeer C j peer) (env.readings.clock 0)
        env.monotonic with
    | (m, .error _) => ({ d with sessions := m }, [])
    | (m, .ok _) => { d with sessions := m }.renewLease id j env
  | (d, _) => (d, [])

def cancel (C : DaemonConfig) (d : Daemon) (id : PyStr) (peer : Option PeerCredentials)
    (env : Answers) : Daemon :=
  let r := env.readings
  match d.findJob C id r with
  | (d, some (some j)) =>
    if ownsJob C j peer = true ∧ j.state = .queued ∧ j.future = some .pending then
      let rejected := (d.withdraw id j).reject j.action "ACTION_CANCELLED_BEFORE_DISPATCH"
        "Action was cancelled while queued; no executor was dispatched." .cancelled r
      let finished := rejected.1.finishJob C (withdrawn j) .cancelled rejected.2.entries (r.clock 4)
      finished.1.markOn finished.2
    else d
  | (d, _) => d

/-! ### Operators -/

def MIN_OPERATOR_PERMIT_TTL_SEC : Rat := 1
def MAX_OPERATOR_PERMIT_TTL_SEC : Rat := 300

def validReason (s : PyStr) : Bool := !s.isBlank && s.length ≤ 1024

/-- The checks of `_issue_permit_core` that need no state. -/
def validPermitRequest (q : PermitRequest) : Bool :=
  validReason q.reason && Ledger.validIdentifier q.principalId && decide (0 ≤ q.targetPeerUid) &&
    decide (MIN_OPERATOR_PERMIT_TTL_SEC ≤ q.expiresInSec ∧
      q.expiresInSec ≤ MAX_OPERATOR_PERMIT_TTL_SEC) &&
    (q.action.executionMode = .real || q.action.executionMode = .shadow) &&
    !q.action.bodySnapshotHash.isBlank && decide (q.action.actionId.length ≤ 256) &&
    !q.action.actionId.hasControl

/-- `min(now + timedelta(seconds=permit_ttl), deadline)`. -/
def permitExpiry (q : PermitRequest) (now : DateTime) : Option DateTime :=
  (DateTime.ofParts (now.micros + (ActionEnvelope.roundHalfEven (q.expiresInSec * 1000000)).toNat)
    now.offset).map fun t =>
      if q.action.deadlineAt.instant < t.instant then q.action.deadlineAt else t

/-- The permit that is issued; `none` where its constructor raises. -/
def newPermit (C : DaemonConfig) (q : PermitRequest) (expiresAt : DateTime) (r : Readings) :
    Option ExecutionPermit :=
  match actionIntentHash C.py q.action with
  | none => none
  | some intentHash => (ExecutionPermit.make {
      permitId := "permit_" ++ r.uuid 0
      principalId := q.principalId.strip
      peerUid := q.targetPeerUid.toNat
      bodyId := q.action.bodyId
      bodySnapshotHash := q.action.bodySnapshotHash
      capabilities := [q.action.capabilityId]
      actionIntentHash := intentHash
      expiresAt := expiresAt
      maxUses := 1
      sessionId := some q.action.sessionId
      authorizationProvenance := some q.provenance }).toOption

def approvalOf (d : Daemon) (q : PermitRequest) (operator : PeerCredentials) (now : DateTime) :
    List (PyStr × PyVal) :=
  let provenance : List (PyStr × PyVal) :=
    if q.provenance.1.truthy then [("provenance", q.provenance)] else []
  let approval : List (PyStr × PyVal) :=
    [("schema_version", .str "rosclaw.daemon.operator_approval.v1"),
      ("reason", .str q.reason.strip), ("operator_peer", operator.toDict),
      ("target_peer_uid", .int q.targetPeerUid), ("daemon_instance_id", .str d.instanceId),
      ("issued_at", .str now.isoformat)]
  approval ++ provenance

/-- The last stretch of `_issue_permit_core`. -/
def issue (C : DaemonConfig) (d : Daemon) (q : PermitRequest) (operator : PeerCredentials)
    (env : Answers) : Daemon :=
  let now := env.readings.clock 0
  if q.action.deadlineAt.instant ≤ now.instant then d
  else if d.supervision ≠ .armed ∨ d.recoveryRequired = true ∨ d.ledgerWriteFailed = true ∨
      d.latched = true ∨ d.gateway.hasExecutor q.action = false then d
  else match permitExpiry q now with
  | none => d
  | some expiresAt => match newPermit C q expiresAt env.readings with
    | none => d
    | some p =>
      let r := d.authority.register C.py d.ledger p (some (.ofEntries (d.approvalOf q operator now)))
      { d with ledger := r.1, authority := r.2.1 }.markOn r.2.2

/-- `_arm_core`, up to its event. -/
def arm (d : Daemon) (reason : PyStr) (peer : PeerCredentials) : Daemon × List Task :=
  if validReason reason = false ∨ d.recoveryRequired = true ∨ d.latched = true ∨
      d.running = false ∨ d.closed = true then (d, [])
  else ({ d with supervision := .armed }, [.supervisionEvent "RUNTIME_ARMED" reason.strip peer])

def supervisionEvent (d : Daemon) (eventType : String) (reason : PyStr) (peer : PeerCredentials)
    (r : Readings) : LedgerEvent :=
  ⟨eventType, "SUPERVISION", d.instanceId, .dict [("reason", .str reason), ("peer", peer.toDict),
    ("at", .str (r.clock 0).isoformat)]⟩

def appendAcknowledgement (C : DaemonConfig) (d : Daemon) (reason : PyStr) (peer : PeerCredentials)
    (env : Answers) : Daemon × Option LedgerFault :=
  let r := d.append C (acknowledgedEvent d.recoveryActionIds d.recoveryRealActionIds reason
    (env.readings.clock 0) peer)
  ({ r.1 with
    owed := if d.ledger.events.length < r.1.ledger.events.length then
        d.owed.filter (· ∉ d.recoveryActionIds)
      else d.owed }, r.2)

/-- `acknowledge_recovery`. -/
def acknowledge (C : DaemonConfig) (d : Daemon) (reason : PyStr) (peer : PeerCredentials)
    (env : Answers) : Daemon :=
  let reason := reason.strip
  if peer.uid ≠ C.euid ∨ reason.codes = [] ∨ 1024 < reason.length ∨ d.recoveryRequired = false then d
  else match d.appendAcknowledgement C reason peer env with
  | (d, some _) => d.markFailure
  | (d, none) => d.setRecovery {}

def revoke (d : Daemon) (r : Ledger × PermitAuthority × Option LedgerFault) : Daemon :=
  { d with ledger := r.1, authority := r.2.1 }

/-! ### The watchdog -/

def watchdogOverride (j : ActionJob) (now : DateTime) (monotonic : Nat) : Option TerminalOverride :=
  if j.state.isActive = false ∨ j.terminalOverride.isSome = true then none
  else if j.action.deadlineAt.instant ≤ now.instant then
    some ⟨.timedOut, "ACTION_DEADLINE_EXPIRED",
      "Action exceeded its immutable deadline; safety stop requested."⟩
  else if j.leaseExpiresMonotonic ≤ monotonic ∧
      ¬ (j.sessionLost = true ∧ j.action.orphanPolicy = .continueUntilDeadline) then
    some ⟨.timedOut, "ACTION_LEASE_EXPIRED",
      "Action lease was not renewed; safety stop requested."⟩
  else none

def watch (now : DateTime) (monotonic : Nat) (j : ActionJob) : ActionJob :=
  match watchdogOverride j now monotonic with
  | some o => { j with terminalOverride := some o }
  | none => j

def inactive (m : SessionManager) : List PyStr :=
  (m.entries.filter fun e => e.2.state ≠ .active).map Prod.fst

/-! ### Every task -/

/-- What a task does: the new state, and the tasks that come next.  `none` is a thread
that has to wait. -/
def exec (C : DaemonConfig) (d : Daemon) (env : Answers) : Task → Option (Daemon × List Task)
  | .whenRunning t => some (d, if d.running = true ∧ d.closed = false then [t] else [])
  | .createSession q peer =>
    some (d.onSession (d.sessions.createSession q peer (env.readings.clock 0) env.monotonic)
      fun s => [.sessionEvent "SESSION_CREATED" s []])
  | .sessionEvent eventType s extra => some (d.note C (sessionEvent eventType s extra), [])
  | .heartbeat sessionId peer =>
    some (d.onSession (d.sessions.heartbeat sessionId peer (env.readings.clock 0) env.monotonic)
      (fun _ => []) fun code =>
        if code = "SESSION_EXPIRED" then [.heartbeatLost sessionId peer] else [])
  | .heartbeatLost sessionId peer =>
    some (d, match d.sessions.getSession sessionId peer with
      | .ok s => [.lostRevoke s]
      | .error _ => [])
  | .closeSession sessionId peer reason =>
    some (d.onSession (d.sessions.closeSession sessionId peer reason) fun s => [.lostRevoke s])
  | .closeProposalSession sessionId peer =>
    some (d.onSession (d.sessions.closeSession sessionId peer "operator_proposal_cancelled")
      fun s => [.sessionEvent "SESSION_CLOSED" s []])
  | .lostRevoke s =>
    let r := d.authority.revokeSession C.py d.ledger s.sessionId ("session_" ++ (s.state.lower : PyStr))
    some ((d.revoke r).markOn r.2.2, [.lostMark s (match r.2.2 with
      | some _ => -1
      | none => (d.authority.sessionTargets s.sessionId).length)])
  | .lostMark s revoked =>
    some (d.mapRetained (loseSession s.sessionId),
      d.followUp (fun j => ofSession s.sessionId j && !continues j) ++
        [.sessionEvent (if s.state = .lost then "SESSION_LOST" else "SESSION_CLOSED") s
          [("revoked_permits", .int revoked)]])
  | .terminalize id => some (d.terminalize C id env, [])
  | .stop id p =>
    match d.jobs.get? id with
    | none => some (d, [])
    | some j => match d.stopOverriddenAction id j env p with
      | none => none
      | some (d, some p) => some (d, [.stop id p])
      | some (d, none) => some (d, [])
  | .estop => some ({ d with supervision := .estopped }, [])
  | .latch => some ({ d with latched := true }, [])
  | .requireAction a peer =>
    some (if 256 < a.actionId.length ∨ a.actionId.hasControl = true then (d, [])
      else d.onSession (d.sessions.requireAction a peer env.monotonic)
        (fun _ => [.requireAgain a peer]) fun code =>
          if code = "SESSION_NOT_FOUND" then [.adoptAction a peer] else [])
  | .adoptAction a peer =>
    some (d.onSession (d.sessions.adoptAction a peer (env.readings.clock 0) env.monotonic)
      fun _ => [.requireAgain a peer])
  | .requireAgain a peer =>
    some (d.onSession (d.sessions.requireAction a peer env.monotonic) fun _ => [.submit a peer])
  | .submit a peer => some (d.submit C a peer env, [])
  | .renew id sessionId peer => some (d.renew C id sessionId peer env)
  | .leaseEvent id sessionId eventType lease =>
    some (d.note C (leaseEvent id sessionId eventType lease), [])
  | .cancel id peer => some (d.cancel C id peer env, [])
  | .status id => some ((d.findJob C id env.readings).1, [])
  | .ledgerStatus =>
    match d.ledger.read "" none with
    | (L, .ok _) => some ({ d with ledger := L }, [])
    | (L, .error _) => some ({ d with ledger := L }.markFailure, [])
  | .proposalRequire a peer =>
    some (d.onSession (d.sessions.requireAction a peer env.monotonic) fun _ => [])
  | .operatorEvent kind eventType id payload =>
    some (d.note C ⟨eventType, kind.value, id, .dict payload⟩, [])
  | .issueRequire q operator =>
    some (if validPermitRequest q = false then (d, [])
      else d.onSession (d.sessions.requireAction q.action ⟨0, q.targetPeerUid, 0⟩ env.monotonic)
        fun _ => [.issue q operator])
  | .issue q operator => some (d.issue C q operator env, [])
  | .arm reason peer => some (d.arm reason peer)
  | .disarmed reason peer =>
    some ({ d with supervision := .estopped },
      [.supervisionEvent "RUNTIME_DISARMED" reason.strip peer])
  | .supervisionEvent eventType reason peer =>
    some (d.note C (d.supervisionEvent eventType reason peer env.readings), [])
  | .acknowledge reason peer => some (d.acknowledge C reason peer env, [])
  | .revokeSession sessionId reason =>
    some (d.revoke (d.authority.revokeSession C.py d.ledger sessionId reason), [])
  | .revokeAll reason =>
    let r := d.authority.revokeAll C.py d.ledger reason
    some ((d.revoke r).markOn r.2.2, [])
  | .tickExpire =>
    let r := d.sessions.expireSessions env.monotonic
    some ({ d with sessions := r.1 }, r.2.map .lostRevoke ++ [.tickMark, .tickEnd (inactive r.1)])
  | .tickMark =>
    let now := env.readings.clock 0
    some (if d.running = false ∨ d.closed = true then (d, [])
      else (d.mapRetained (watch now env.monotonic),
        d.followUp fun j => (watchdogOverride j now env.monotonic).isSome))
  | .tickEnd sessionIds => some ({ d with settled := d.settled ++ sessionIds }, [])
  | .direct p =>
    match d.submitAction C none env p with
    | none => none
    | some (d, .inl p) => some (d, [.direct p])
    | some (d, .inr _) => some (d, [])
  | .close =>
    some (if d.closed then (d, [])
      else ({ d with running := false, closed := true, supervision := .stopping },
        (d.retainedWith fun j => j.state = .queued && j.future.isSome).map (.cancel · none) ++
          [.latch, .shutdown]))
  | .shutdown =>
    some ({ d with jobs := d.jobs.mapVals fun _ j =>
      if j.future = some .pending then withdrawn j else j }, [])

end Daemon

/-! ### The machine -/

inductive Call
  | createSession (q : SessionRequest) (peer : PeerCredentials)
  | heartbeatSession (sessionId : PyStr) (peer : PeerCredentials)
  | closeSession (sessionId : PyStr) (peer : PeerCredentials) (reason : PyStr)
  | requestAction (a : ActionEnvelope) (peer : PeerCredentials)
  | renewActionLease (actionId sessionId : PyStr) (peer : PeerCredentials)
  | cancelAction (actionId : PyStr) (peer : PeerCredentials)
  | getActionStatus (actionId : PyStr)
  | getRuntimeStatus
  | armRuntime (reason : PyStr) (peer : PeerCredentials)
  | disarmRuntime (reason : PyStr) (peer : PeerCredentials)
  | issueExecutionPermit (q : PermitRequest) (peer : PeerCredentials)
  | emergencyStop
  | acknowledgeRecovery (reason : PyStr) (peer : PeerCredentials)
  /-- a cancelled proposal closes the session of its action -/
  | cancelProposal (sessionId : PyStr) (peer : PeerCredentials)
  /-- an accepted proposal requires the session of its action -/
  | acceptProposal (a : ActionEnvelope) (peer : PeerCredentials)
  /-- an accepted proposal that cannot be submitted revokes the session's permits -/
  | rollbackProposal (sessionId : PyStr)
  | operatorEvent (entityKind : OperatorKind) (eventType : String) (entityId : PyStr)
      (payload : List (PyStr × PyVal))
  | workerGenerationChange (workerId : PyStr)
  | watchdogTick
  /-- `runtime.request_emergency_stop` from elsewhere -/
  | requestEmergencyStop
  /-- `runtime.submit_action` from elsewhere -/
  | submitAction (a : ActionEnvelope)
  | close

namespace Call

def tasks (C : DaemonConfig) : Call → List Task
  | createSession q peer => [.whenRunning (.createSession q peer)]
  | heartbeatSession sessionId peer => [.whenRunning (.heartbeat sessionId peer)]
  | closeSession sessionId peer reason => [.whenRunning (.closeSession sessionId peer reason)]
  | requestAction a peer => [.requireAction a peer]
  | renewActionLease actionId sessionId peer => [.whenRunning (.renew actionId sessionId peer)]
  | cancelAction actionId peer => [.cancel actionId (some peer)]
  | getActionStatus actionId => [.status actionId]
  | getRuntimeStatus => [.ledgerStatus]
  | armRuntime reason peer => if peer.uid = C.euid then [.arm reason peer] else []
  | disarmRuntime reason peer =>
    if peer.uid = C.euid ∧ Daemon.validReason reason = true then
      [.estop, .latch, .disarmed reason peer]
    else []
  | issueExecutionPermit q peer =>
    if peer.uid = C.euid then [.whenRunning (.issueRequire q peer)] else []
  | emergencyStop => [.estop, .latch]
  | acknowledgeRecovery reason peer => [.acknowledge reason peer]
  | cancelProposal sessionId peer => [.closeProposalSession sessionId peer]
  | acceptProposal a peer => [.proposalRequire a peer]
  | rollbackProposal sessionId => [.revokeSession sessionId "operator_proposal_submission_failed"]
  | operatorEvent kind eventType id payload => [.operatorEvent kind eventType id payload]
  | workerGenerationChange workerId =>
    [.revokeAll ("worker_generation_changed:" ++ workerId), .estop, .latch]
  | watchdogTick => [.tickExpire]
  | requestEmergencyStop => [.latch]
  | submitAction a => [.direct (.submit a)]
  | close => [.close]

/-- What JSON gives back as it was: there are no tuples, and the keys are texts. -/
def framed : Call → Bool
  | requestAction a _ | acceptProposal a _ => a.toDict.tupleFree
  | issueExecutionPermit q _ => q.action.toDict.tupleFree && q.provenance.1.tupleFree
  | _ => true

end Call

/-- The daemon, whether its process is alive, its threads outside the pool, and an
instant by which all that happened was over. -/
structure System where
  daemon : Daemon
  alive : Bool := false
  threads : List (List Task) := []
  now : Int := 0

inductive Label
  | call (c : Call)
  /-- the next stretch of a thread -/
  | run (thread : Nat) (env : Answers)
  /-- the next stretch of the thread that runs the job -/
  | work (actionId : PyStr) (env : Answers)
  /-- a thread of the pool takes the job -/
  | pick (actionId : PyStr)
  | crash
  | restart (env : Answers)

namespace Daemon

/-- The daemon with the answers of the database for the next stretch. -/
def answered (d : Daemon) (env : Answers) : Daemon :=
  { d with ledger := d.ledger.withOutcomes env.appends env.read }

def pick (d : Daemon) (id : PyStr) : Option Daemon :=
  match d.jobs.get? id with
  | none => none
  | some j =>
    if j.future = some .pending then
      some ((d.setJob id { j with future := some .running }).goto id .begin)
    else none

def work (C : DaemonConfig) (d : Daemon) (id : PyStr) (env : Answers) : Option Daemon :=
  match d.workers.get? id, d.jobs.get? id with
  | some p, some j => d.runAction C id j env p
  | _, _ => none

end Daemon

namespace System

/-- The state after a stretch; a process that died in it has no threads. -/
def after (s : System) (d : Daemon) (threads : List (List Task)) (env : Answers) : System where
  daemon := d
  alive := !d.ledger.dead
  threads := if d.ledger.dead then [] else threads
  now := max s.now env.endsBy

def step (C : DaemonConfig) (s : System) : Label → Option System
  | .call c =>
    if s.alive && c.framed then some { s with threads := s.threads ++ [c.tasks C] } else none
  | .run i env =>
    if s.alive = false then none
    else match s.threads[i]? with
    | some (t :: ts) =>
      (Daemon.exec C (s.daemon.answered env) env t).map fun r =>
        s.after r.1 (s.threads.set i (r.2 ++ ts)) env
    | _ => none
  | .work id env =>
    if s.alive = false then none
    else ((s.daemon.answered env).work C id env).map fun d => s.after d s.threads env
  | .pick id =>
    if s.alive = false then none
    else (s.daemon.pick id).map fun d => { s with daemon := d }
  | .crash => if s.alive then some { s with alive := false, threads := [] } else none
  | .restart env =>
    if s.alive then none
    else
      let r := s.daemon.restart C env
      some { s.after r.1 [] env with alive := r.2 && !r.1.ledger.dead }

end System

/-- **The control plane**: from an empty ledger, any number of processes one after
the other. -/
def controlPlane (C : DaemonConfig) : Machine System Label where
  Init s := s.alive = false ∧ s.threads = [] ∧ s.daemon.ledger.events = [] ∧ s.daemon.log = [] ∧
    s.daemon.owed = []
  step := System.step C

/-- The control plane with actions of any arguments. -/
def openPlane (C : DaemonConfig) : Machine System Label where
  Init := (controlPlane C).Init
  step s
    | .call c => if s.alive then some { s with threads := s.threads ++ [c.tasks C] } else none
    | l => s.step C l

/-- The keys of an action's arguments are texts. -/
def Label.framed : Label → Bool
  | .call c => c.framed
  | _ => true

def System.blank : System where
  daemon := { ledger := ⟨[], false, false, [], .answered⟩, gateway := { executors := [] },
              freeSlots := 0 }

def DaemonConfig.small (executors : List (PyStr × ExecutionMode)) : DaemonConfig :=
  ⟨.zero, 0, 10, 10, executors⟩

theorem System.init_blank (C : DaemonConfig) : (controlPlane C).Init .blank :=
  ⟨rfl, rfl, rfl, rfl, rfl⟩

end Rosclaw
