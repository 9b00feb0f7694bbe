/-
The threads of the pool (`_run_action` of `daemon/service.py`, with the calls it
makes of `core/runtime.py` and `kernel/action_gateway.py`).

A definition here takes one thread from one point to the next; what it does in
between is one step, and `none` is a thread that has to wait.
-/
import Rosclaw.Daemon.State

namespace Rosclaw

namespace Daemon

/-! ### The gateway -/

def internalError (a : ActionEnvelope) (env : Answers) : ExecutionReceipt :=
  failureReceipt a .failed "GATEWAY_INTERNAL_ERROR" env.message env.readings

/-- One step of `runtime.submit_action`: the next point, or the receipt it returns. -/
def submitAction (C : DaemonConfig) (d : Daemon) (caller : Option PyStr) (env : Answers) :
    GatewayPoint → Option (Daemon × (GatewayPoint ⊕ ExecutionReceipt))
  | .submit a =>
    if d.latched = true ∧ (a.executionMode = .shadow ∨ a.executionMode = .real) then
      some (d, .inl (.refuse a "EMERGENCY_STOP_LATCHED" ("Real or shadow execution remains " ++
        "blocked after emergency stop; an authorized operator must reinitialize the runtime.")))
    else some (d, .inl (.lookup a))
  | .refuse a code message =>
    let rejected := d.reject a code message .blocked env.readings
    some (rejected.1, .inr rejected.2)
  | .lookup a =>
    match d.gateway.getReceipt a.actionId, d.gateway.inflight.get? a.actionId with
    | some existing, _ => some (d, .inr existing)
    | none, some waiter => some (d, .inl (.wait a waiter))
    | none, none => some ({ d with gateway := d.gateway.enter a.actionId }, .inl (.start a))
  | .wait a waiter =>
    if env.timedOut then
      some (d, .inr (failureReceipt a .timedOut "DUPLICATE_ACTION_TIMEOUT"
        "Timed out waiting for the in-flight action with the same action_id." env.readings))
    else if d.gateway.inflight.get? a.actionId = some waiter then none
    else match d.gateway.getReceipt a.actionId with
      | some existing => some (d, .inr existing)
      | none => some (d, .inr (failureReceipt a .failed "INFLIGHT_ACTION_LOST"
          "The in-flight action ended without producing a receipt." env.readings))
  | .start a =>
    if env.raises then some (d, .inl (.store a (internalError a env)))
    else match (Execution.start a env.readings).check C.py (d.gateway.hasExecutor a)
        (env.readings.after 3) with
      | .error receipt => some (d, .inl (.store a receipt))
      | .ok e => some (d, .inl (.acquire e))
  | .acquire e =>
    let a := e.action
    if env.raises then some (d, .inl (.store a (internalError a env)))
    else if env.timedOut then
      some (d, .inl (.store a (e.fail .timedOut "RESOURCE_LEASE_TIMEOUT"
        ("Timed out waiting for exclusive resource '" ++ a.bodyId ++ "'.") env.readings)))
    else match d.leases.acquire a.bodyId a.actionId env.readings with
      | none => none
      | some (lease, leases) => some ({ d with leases := leases },
          .inl (.invoke (e.push .scheduled (env.readings.clock 1) "lease_acquired") lease))
  | .invoke e lease => some (d.happen (.invoked e.action caller), .inl (.executing e lease))
  | .executing e lease =>
    let d := { d with leases := d.leases.release lease }
    if env.raises then some (d, .inl (.store e.action (internalError e.action env)))
    else match env.result with
      | none => some (d, .inl (.store e.action (e.fail .failed "EXECUTOR_ERROR" env.message
          env.readings lease.toDict)))
      | some (result, directory) =>
        some (d, .inl (.store e.action (e.assemble lease result directory env.readings)))
  | .store a receipt =>
    some ({ d with gateway := d.gateway.store a.actionId receipt }, .inl (.leave a receipt))
  | .leave a receipt =>
    some ({ d with gateway := d.gateway.leave a.actionId }, .inr receipt)

/-! ### Stopping -/

/-- One step of `_stop_overridden_action`; the first caller requests the safety stop,
the others wait for it. -/
def stopOverriddenAction (d : Daemon) (id : PyStr) (j : ActionJob) (env : Answers) :
    StopPoint → Option (Daemon × Option StopPoint)
  | .ask =>
    if j.stopRequested then some (d, some .wait)
    else some (d.setJob id { j with stopRequested := true }, some .estop)
  | .wait => if env.timedOut ∨ j.stopCompleted = true then some (d, none) else none
  | .estop => some ({ d with supervision := .estopped }, some .latch)
  | .latch => some ({ d with latched := true }, some (.record env.stopReceipt))
  | .record receipt =>
    some (d.setJob id { j with stopReceipt := some receipt, stopCompleted := true }, none)

/-! ### `_run_action` -/

def goto (d : Daemon) (id : PyStr) (p : WorkerPoint) : Daemon :=
  { d with workers := d.workers.set id p }

/-- The thread is done with the job, whose queue slot is free again. -/
def retire (d : Daemon) (id : PyStr) : Daemon :=
  { d with workers := d.workers.erase id, freeSlots := d.freeSlots + 1 }

def beginOverride (j : ActionJob) (now : DateTime) (monotonic : Nat) : Option TerminalOverride :=
  if j.terminalOverride.isSome then j.terminalOverride
  else if j.action.deadlineAt.instant ≤ now.instant then
    some ⟨.timedOut, "ACTION_DEADLINE_EXPIRED",
      "Action expired while queued; no executor dispatch occurred."⟩
  else if j.leaseExpiresMonotonic ≤ monotonic then
    some ⟨.timedOut, "ACTION_LEASE_EXPIRED",
      "Action lease expired while queued; no executor dispatch occurred."⟩
  else none

def abandon (d : Daemon) (j : ActionJob) (r : Readings) : Daemon :=
  let rejected := d.markFailure.reject j.action "DAEMON_LEDGER_WRITE_FAILED"
    ("rosclawd could not durably record action start; no executor dispatch occurred and no " ++
      "physical outcome is claimed.") .failed r
  rejected.1.setJob j.action.actionId { j with
    state := .finished
    finishedAt := some (r.clock 4)
    receipt := some rejected.2.toDict }

/-- The first stretch of `_run_action`. -/
def beginAction (C : DaemonConfig) (d : Daemon) (id : PyStr) (j : ActionJob) (env : Answers) :
    Daemon :=
  let r := env.readings
  match beginOverride j (r.clock 0) env.monotonic with
  | some o =>
    let j := { j with terminalOverride := some o }
    ((d.setJob id j).finishOverridden C j o (r.after 1)).retire id
  | none =>
    let j := { j with state := .running, startedAt := some (r.clock 1) }
    match (d.setJob id j).append C (startedEvent id (r.clock 1)) with
    | (d, none) => d.goto id .dispatch
    | (d, some _) => (d.abandon j (r.after 2)).retire id

/-- A REAL action is authorized, any other one goes to the runtime as it is. -/
def dispatchAction (C : DaemonConfig) (d : Daemon) (id : PyStr) (j : ActionJob) (env : Answers) :
    Daemon :=
  let a := j.action
  let now := env.readings.clock 0
  if a.executionMode = .real then
    match d.authority.authorize C.py now d.ledger a j.peer with
    | (L, A, .error fault) => { d with ledger := L, authority := A }.goto id
        (.failed (fault = LedgerFault.ledgerError))
    | (L, A, .ok decision) =>
      if decision.allowed then
        ({ d with ledger := L, authority := A }.happen (.authorized a j.peer now d.authority)).goto id
          (.armed decision)
      else { d with ledger := L, authority := A }.goto id (.refuse decision.code decision.message)
  else (d.happen (.handed a)).goto id (.gateway (.submit a))

/-- The action with the daemon's authorization in place of the caller's. -/
def authorizedAction (C : DaemonConfig) (a : ActionEnvelope) (decision : PermitDecision)
    (r : Readings) : Except PyError ActionEnvelope :=
  match a.toDict with
  | .dict payload => ActionEnvelope.fromDict C.py (r.clock 0) (r.uuid 0)
      (.dict (PyVal.setEntry "authorization" decision.authorization.toDict payload))
  | _ => .error .typeError

/-- The last stretch of `_run_action`. -/
def finalizeAction (C : DaemonConfig) (d : Daemon) (id : PyStr) (j : ActionJob) (env : Answers)
    (receipt : List (PyStr × PyVal)) : Daemon :=
  let r := env.readings
  let receipt := match j.terminalOverride with
    | some o => applyTerminalOverride o j.stopReceipt receipt r
    | none => receipt
  match d.finishJob C j .finished receipt (r.clock 2) with
  | (d', none) => d'
  | (d', some _) =>
    let d' := d'.markFailure
    let d' := if j.action.executionMode = .real then
        { d'.setRecovery (d'.recovery.merge [id] [id]) with
          latched := true
          owed := if d.ledger.events.length < d'.ledger.events.length then d'.owed
            else d'.owed ++ [id] }
      else d'
    let d' := { d' with gateway := d'.gateway.discardReceipt id }
    let rejected := d'.reject j.action "DAEMON_LEDGER_TERMINAL_WRITE_FAILED"
      ("The executor returned, but rosclawd could not durably record the terminal receipt. " ++
        "The physical outcome is not trusted.") .failed (r.after 3)
    rejected.1.setJob id { j with
      state := .finished
      finishedAt := some (r.clock 2)
      receipt := some rejected.2.toDict }

def runAction (C : DaemonConfig) (d : Daemon) (id : PyStr) (j : ActionJob) (env : Answers) :
    WorkerPoint → Option Daemon
  | .begin => some (d.beginAction C id j env)
  | .dispatch => some (d.dispatchAction C id j env)
  | .refuse code message =>
    let rejected := d.reject j.action code message .blocked env.readings
    some (rejected.1.goto id (.result rejected.2.entries))
  | .armed decision =>
    some (if d.supervision = .armed then d.goto id (.hand decision)
      else d.goto id (.refuse "RUNTIME_DISARMED" ("rosclawd must be explicitly armed by its " ++
        "service UID before REAL executor dispatch")))
  | .hand decision =>
    match authorizedAction C j.action decision env.readings with
    | .error _ => some (d.goto id (.failed false))
    | .ok a => some ((d.happen (.handed a)).goto id (.gateway (.submit a)))
  | .gateway p =>
    match d.submitAction C (some id) env p with
    | none => none
    | some (d, .inl p) => some (d.goto id (.gateway p))
    | some (d, .inr receipt) => some (d.goto id (.result receipt.entries))
  | .failed marks =>
    let d := if marks then d.markFailure else d
    let rejected := d.reject j.action "DAEMON_ACTION_FAILED"
      ("rosclawd failed before a valid execution receipt was produced; no successful physical " ++
        "outcome is claimed.") .failed env.readings
    some (rejected.1.goto id (.result rejected.2.entries))
  | .result receipt =>
    some (d.goto id (if j.terminalOverride.isSome then .stopping .ask receipt else .finalize receipt))
  | .stopping p receipt =>
    match d.stopOverriddenAction id j env p with
    | none => none
    | some (d, some p) => some (d.goto id (.stopping p receipt))
    | some (d, none) => some (d.goto id (.finalize receipt))
  | .finalize receipt => some ((d.finalizeAction C id j env receipt).retire id)

end Daemon

end Rosclaw
