/-
Concurrent submissions and the leases of the bodies (`kernel/resource_manager.py`,
`submit` and `_execute` of `kernel/action_gateway.py`), statement by statement.

The lock of a body and the table of active leases are two things here: the lock is taken outside
the guard, the table is written under it.
-/
import Rosclaw.Kernel.ActionGateway
import Rosclaw.Lib.Machine
import Rosclaw.Lib.Threads

namespace Rosclaw.BodyLeases

/-! ### The resource manager -/

/-- The locks are numbered in the order in which they are made. -/
structure Manager where
  locks : Dict PyStr Nat := ∅
  made : Nat := 0
  held : List Nat := []
  active : Dict PyStr ResourceLease := ∅

namespace Manager

/-- `_locks.setdefault(resource_id, threading.Lock())`. -/
def lockOf (m : Manager) (resourceId : PyStr) : Nat × Manager :=
  match m.locks.get? resourceId with
  | some n => (n, m)
  | none => (m.made, { m with locks := m.locks.set resourceId m.made, made := m.made + 1 })

/-- `lock.acquire`, of a lock that is free. -/
def lock (m : Manager) (n : Nat) : Manager := { m with held := n :: m.held }

/-- `lock.release`. -/
def unlock (m : Manager) (n : Nat) : Manager := { m with held := m.held.erase n }

/-- `_active[resource_id] = lease`. -/
def activate (m : Manager) (lease : ResourceLease) : Manager :=
  { m with active := m.active.set lease.resourceId lease }

/-- The guarded part of `_release`. -/
def deactivate (m : Manager) (lease : ResourceLease) : Manager :=
  match m.active.get? lease.resourceId with
  | some active =>
    if active.leaseId = lease.leaseId then { m with active := m.active.erase lease.resourceId } else m
  | none => m

def activeLease (m : Manager) (resourceId : PyStr) : Option ResourceLease :=
  m.active.get? resourceId

end Manager

/-- `ResourceLeaseHandle`, with the number that tells it from the other handles. -/
structure Handle where
  number : Nat
  lease : ResourceLease
  lock : Nat
  released : Bool := false

/-! ### A call of `submit` -/

/-- How the body of `with lease_handle` ends. -/
inductive Ending
  | receipt (r : ExecutionReceipt)
  /-- an exception -/
  | raised
  /-- a `BaseException`, which `submit` does not catch -/
  | killed

inductive Point
  | lookup (a : ActionEnvelope)
  | wait (a : ActionEnvelope) (waiter : Nat)
  | start (a : ActionEnvelope)
  | acquire (e : Execution)
  /-- waiting for the lock -/
  | lock (e : Execution) (n : Nat)
  /-- holding the lock -/
  | activate (e : Execution) (n : Nat)
  | invoke (e : Execution) (h : Handle)
  /-- the executor runs -/
  | executing (e : Execution) (h : Handle)
  /-- the executor returned -/
  | assemble (e : Execution) (h : Handle) (result : ActionExecutionResult) (directory : Option PyStr)
  | exit (e : Execution) (h : Handle) (ending : Ending)
  | unlock (e : Execution) (n : Nat) (ending : Ending)
  | store (a : ActionEnvelope) (r : ExecutionReceipt)
  | leave (a : ActionEnvelope)

namespace Point

def action : Point → ActionEnvelope
  | .lookup a | .wait a _ | .start a | .store a _ | .leave a => a
  | .acquire e | .lock e _ | .activate e _ | .invoke e _ | .executing e _ | .assemble e _ _ _
  | .exit e _ _ | .unlock e _ _ => e.action

def lock? : Point → Option Nat
  | .lock _ n | .activate _ n | .unlock _ n _ => some n
  | .invoke _ h | .executing _ h | .assemble _ h _ _ | .exit _ h _ => some h.lock
  | _ => none

def holds? : Point → Option Nat
  | .activate _ n | .unlock _ n _ => some n
  | .invoke _ h | .executing _ h | .assemble _ h _ _ | .exit _ h _ => some h.lock
  | _ => none

def handle? : Point → Option Handle
  | .invoke _ h | .executing _ h | .assemble _ h _ _ | .exit _ h _ => some h
  | _ => none

def isExecuting : Point → Bool
  | .executing .. => true
  | _ => false

/-- How many statements of its own the call is away from the release of its lock. -/
def remaining : Point → Nat
  | .activate .. => 6
  | .invoke .. => 5
  | .executing .. => 4
  | .assemble .. => 3
  | .exit .. => 2
  | .unlock .. => 1
  | _ => 0

end Point

structure Answers where
  readings : Readings
  /-- a bounded wait ends by its timeout -/
  timedOut : Bool := false
  /-- the gateway's own code raises -/
  raises : Bool := false
  /-- a `BaseException` ends the body of `with lease_handle` -/
  kills : Bool := false
  /-- what the executor returns, and its artifact directory; `none` if it raises -/
  result : Option (ActionExecutionResult × Option PyStr) := none
  /-- the text of an exception -/
  message : PyStr := ""

inductive LeaseEvent
  | acquired (handle : Nat) (lease : ResourceLease)
  | released (handle : Nat)

def LeaseEvent.isRelease (n : Nat) : LeaseEvent → Bool
  | .acquired .. => false
  | .released m => m = n

/-- The gateway, its resource manager, the calls that have not returned, and what became of the
handles. -/
structure System where
  gateway : Gateway
  manager : Manager := {}
  calls : List Point := []
  handles : Nat := 0
  log : List LeaseEvent := []

namespace System

def goto (s : System) (i : Nat) (p : Point) : System := { s with calls := replaceAt s.calls i [p] }

def finish (s : System) (i : Nat) : System := { s with calls := replaceAt s.calls i [] }

def internalError (a : ActionEnvelope) (env : Answers) : ExecutionReceipt :=
  failureReceipt a .failed "GATEWAY_INTERNAL_ERROR" env.message env.readings

/-- The point after the body of `with lease_handle`. -/
def after (a : ActionEnvelope) (env : Answers) : Ending → Point
  | .receipt r => .store a r
  | .raised => .store a (internalError a env)
  | .killed => .leave a

def advance (py : Builtins) (s : System) (i : Nat) (env : Answers) : Point → Option System
  | .lookup a =>
    match s.gateway.getReceipt a.actionId, s.gateway.inflight.get? a.actionId with
    | some _, _ => some (s.finish i)
    | none, some waiter => some (s.goto i (.wait a waiter))
    | none, none => some ({ s with gateway := s.gateway.enter a.actionId }.goto i (.start a))
  | .wait a waiter =>
    if env.timedOut = false ∧ s.gateway.inflight.get? a.actionId = some waiter then none
    else some (s.finish i)
  | .start a =>
    if env.raises then some (s.goto i (.store a (internalError a env)))
    else match (Execution.start a env.readings).check py (s.gateway.hasExecutor a)
        (env.readings.after 3) with
      | .error receipt => some (s.goto i (.store a receipt))
      | .ok e => some (s.goto i (.acquire e))
  | .acquire e =>
    if env.raises then some (s.goto i (.store e.action (internalError e.action env)))
    else
      let (n, m) := s.manager.lockOf e.action.bodyId
      some ({ s with manager := m }.goto i (.lock e n))
  | .lock e n =>
    if env.raises then some (s.goto i (.store e.action (internalError e.action env)))
    else if env.timedOut then
      some (s.goto i (.store e.action (e.fail .timedOut "RESOURCE_LEASE_TIMEOUT"
        ("Timed out waiting for exclusive resource '" ++ e.action.bodyId ++ "'.") env.readings)))
    else if n ∈ s.manager.held then none
    else some ({ s with manager := s.manager.lock n }.goto i (.activate e n))
  | .activate e n =>
    let lease : ResourceLease :=
      ⟨"lease_" ++ env.readings.uuid 0, e.action.bodyId, e.action.actionId, env.readings.clock 0⟩
    some ({ s with
      manager := s.manager.activate lease
      handles := s.handles + 1
      log := s.log ++ [LeaseEvent.acquired s.handles lease] }.goto i
      (.invoke (e.push .scheduled (env.readings.clock 1) "lease_acquired")
        { number := s.handles, lease := lease, lock := n }))
  | .invoke e h =>
    if env.kills then some (s.goto i (.exit e h .killed))
    else if env.raises then some (s.goto i (.exit e h .raised))
    else some (s.goto i (.executing e h))
  | .executing e h =>
    if env.kills then some (s.goto i (.exit e h .killed))
    else match env.result with
      | none =>
        -- the tracing of the error can raise too
        if env.raises then some (s.goto i (.exit e h .raised))
        else some (s.goto i (.exit e h (.receipt (e.fail .failed "EXECUTOR_ERROR" env.message
          env.readings h.lease.toDict))))
      | some (result, directory) => some (s.goto i (.assemble e h result directory))
  | .assemble e h result directory =>
    -- the evidence, the spans and the receipt, which is stored in the artifact directory
    if env.kills then some (s.goto i (.exit e h .killed))
    else if env.raises then some (s.goto i (.exit e h .raised))
    else some (s.goto i (.exit e h (.receipt (e.assemble h.lease result directory env.readings))))
  | .exit e h ending =>
    if h.released then some (s.goto i (after e.action env ending))
    else some ({ s with
      manager := s.manager.deactivate h.lease
      log := s.log ++ [LeaseEvent.released h.number] }.goto i (.unlock e h.lock ending))
  | .unlock e n ending =>
    some ({ s with manager := s.manager.unlock n }.goto i (after e.action env ending))
  | .store a r => some ({ s with gateway := s.gateway.store a.actionId r }.goto i (.leave a))
  | .leave a => some ({ s with gateway := s.gateway.leave a.actionId }.finish i)

end System

/-! ### Any number of calls -/

inductive Label
  | submit (a : ActionEnvelope)
  | run (call : Nat) (env : Answers)
  | reject (a : ActionEnvelope) (code : String) (message : PyStr) (state : ActionState) (r : Readings)
  | discardReceipt (actionId : PyStr)
  | registerExecutor (capabilityId : PyStr) (mode : ExecutionMode)

def System.step (py : Builtins) (s : System) : Label → Option System
  | .submit a => some { s with calls := s.calls ++ [.lookup a] }
  | .run i env => s.calls[i]?.bind (s.advance py i env)
  | .reject a code message state r =>
    some { s with gateway := (s.gateway.reject a code message state r).2 }
  | .discardReceipt id => some { s with gateway := s.gateway.discardReceipt id }
  | .registerExecutor capabilityId mode =>
    some { s with gateway := { s.gateway with
      executors := (capabilityId, mode) :: s.gateway.executors } }

/-- **Concurrent submissions**, from a new gateway with a manager of its own. -/
def submissions (py : Builtins) : Machine System Label where
  Init := fun s => s.manager = {} ∧ s.calls = [] ∧ s.handles = 0 ∧ s.log = []
  step := System.step py

end Rosclaw.BodyLeases
