/-
The queue slots of the control plane (`request_action`, `cancel_action`,
`_terminalize_queued_override` and `close` of `daemon/service.py`, with the futures of its pool).

A request takes a slot before it makes its job.  Its own thread gives the slot back if there is no
job or if the pool refuses it; otherwise a callback of the future does, in the thread that settles
the future.  The lock of the control plane is left out, so more interleavings are possible here
than there; what a call finds in the ledger, and whether it raises, is an answer from outside.
-/
import Rosclaw.Daemon.ActionJob
import Rosclaw.Lib.Machine
import Rosclaw.Lib.Threads

namespace Rosclaw.QueueSlots

/-- What the slots need of an `_ActionJob`. -/
structure Job where
  actionId : PyStr
  state : JobState := .queued
  future : Option Nat := none
  /-- a REAL action of a daemon without a ledger, which is not evicted -/
  pinned : Bool := false
deriving DecidableEq

inductive FutureState
  | pending
  | running
  | cancelled
  | finished
deriving DecidableEq

def FutureState.isOpen : FutureState → Bool
  | .pending | .running => true
  | .cancelled | .finished => false

/-- A future of the pool, with the job of its work item. -/
structure Future where
  job : Nat
  state : FutureState := .pending
  /-- the release of the slot is among its callbacks -/
  callback : Bool := false
deriving DecidableEq

inductive Point
  /-- `request_action`, up to the slot -/
  | check (request : Nat) (actionId : PyStr)
  | acquire (request : Nat) (actionId : PyStr)
  /-- the first `try` -/
  | makeJob (request : Nat) (actionId : PyStr)
  /-- its `except` -/
  | undo (request : Nat) (actionId : PyStr)
  /-- the second `try` -/
  | submit (job : Nat)
  /-- its `except` -/
  | refuse (job : Nat)
  /-- `add_done_callback` -/
  | register (job future : Nat)
  /-- the callback, and the state that the job gets after it -/
  | release (job : Nat) (after : Option JobState)
  | terminal (job : Nat) (state : JobState)
  | cancel (actionId : PyStr)
  /-- `_terminalize_queued_override` -/
  | override (job : Nat)
deriving DecidableEq

def Point.isRegister : Point → Bool
  | .register .. => true
  | _ => false

structure Answers where
  /-- a check, the admission or the pool raises -/
  raises : Bool := false
  /-- the ledger knows the action -/
  persisted : Bool := false
  /-- the action is REAL and there is no ledger -/
  pinned : Bool := false
  /-- the pool raises after it has queued the work item: no thread can be started for it -/
  leavesItem : Bool := false

inductive SlotEvent
  | took (request : Nat)
  | gave (request : Nat)
  | accepted (request : Nat)
  | rejected (request : Nat)
deriving DecidableEq

/-- The control plane as far as its slots go, the pool, and the threads that are under way. -/
structure System where
  capacity : Nat
  slots : Nat
  maxRetained : Nat
  /-- `_jobs` -/
  table : Dict PyStr Nat := ∅
  jobs : Dict Nat Job := ∅
  futures : List Future := []
  threads : List Point := []
  requests : Nat := 0
  closed : Bool := false
  shutdown : Bool := false
  log : List SlotEvent := []

namespace System

def goto (s : System) (i : Nat) (p : Point) : System :=
  { s with threads := replaceAt s.threads i [p] }

def finish (s : System) (i : Nat) : System := { s with threads := replaceAt s.threads i [] }

def note (s : System) (e : SlotEvent) : System := { s with log := s.log ++ [e] }

def setJob (s : System) (k : Nat) (f : Job → Job) : System :=
  match s.jobs.get? k with
  | some j => { s with jobs := s.jobs.set k (f j) }
  | none => s

def setFuture (s : System) (f : Nat) (fut : Future) : System :=
  { s with futures := replaceAt s.futures f [fut] }

def enqueue (s : System) (k : Nat) : System := { s with futures := s.futures ++ [{ job := k }] }

/-- `_queue_slots.release()`: a bounded semaphore raises above its first value. -/
def give (s : System) (k : Nat) : System :=
  if s.slots < s.capacity then { s with slots := s.slots + 1 }.note (.gave k) else s

/-- The loop of `_evict_terminal_jobs_locked`. -/
def evictJobs (target : Nat) (s : System) : List (PyStr × Nat) → System
  | [] => s
  | (id, k) :: es =>
    if s.table.size ≤ target then s
    else if (s.jobs.get? k).any fun j =>
        (j.state = .finished || j.state = .cancelled) && !j.pinned then
      evictJobs target { s with table := s.table.erase id } es
    else evictJobs target s es

/-- `_evict_terminal_jobs_locked`. -/
def evict (s : System) : System := s.evictJobs (s.maxRetained - 1) s.table.entries

/-- `job.state == "QUEUED" and future is not None and future.cancel()`: the thread goes on with the
callbacks of the future, if it has cancelled it. -/
def cancelFuture (s : System) (i k : Nat) (after : JobState) : System :=
  match (s.jobs.get? k).filter (fun j => j.state = .queued) with
  | none => s.finish i
  | some j =>
    match j.future with
    | none => s.finish i
    | some f =>
      match s.futures[f]? with
      | none => s.finish i
      | some fut =>
        match fut.state with
        | .pending =>
          let s := s.setFuture f { fut with state := .cancelled }
          if fut.callback then s.goto i (.release fut.job (some after)) else s.goto i (.terminal k after)
        | .cancelled => s.goto i (.terminal k after)
        | .running | .finished => s.finish i

def advance (s : System) (i : Nat) (env : Answers) : Point → System
  | .check k id =>
    if s.closed then (s.note (.rejected k)).finish i
    else if (s.table.get? id).isSome || env.persisted then s.finish i
    else if env.raises then (s.note (.rejected k)).finish i
    else s.goto i (.acquire k id)
  | .acquire k id =>
    if s.slots = 0 then (s.note (.rejected k)).finish i
    else ({ s with slots := s.slots - 1 }.note (.took k)).goto i (.makeJob k id)
  | .makeJob k id =>
    let s := s.evict
    if s.maxRetained ≤ s.table.size || env.raises then s.goto i (.undo k id)
    else
      ({ s with
        jobs := s.jobs.set k { actionId := id, pinned := env.pinned }
        table := s.table.set id k }.note (.accepted k)).goto i (.submit k)
  | .undo k id =>
    (({ s with table := s.table.erase id }.give k).note (.rejected k)).finish i
  | .submit k =>
    if s.shutdown then s.goto i (.refuse k)
    else if env.raises then
      if env.leavesItem then (s.enqueue k).goto i (.refuse k) else s.goto i (.refuse k)
    else
      ((s.enqueue k).setJob k fun j =>
        { j with future := some s.futures.length }).goto i (.register k s.futures.length)
  | .refuse k => ((s.setJob k fun j => { j with state := .finished }).give k).finish i
  | .register k f =>
    match s.futures[f]? with
    | none => s.finish i
    | some fut =>
      if fut.state.isOpen then (s.setFuture f { fut with callback := true }).finish i
      else s.goto i (.release k none)
  | .release k after =>
    match after with
    | none => (s.give k).finish i
    | some state => (s.give k).goto i (.terminal k state)
  | .terminal k state => (s.setJob k fun j => { j with state := state }).finish i
  | .cancel id =>
    match s.table.get? id with
    | none => s.finish i
    | some k => s.cancelFuture i k .cancelled
  | .override k => s.cancelFuture i k .finished

end System

inductive Label
  | request (actionId : PyStr)
  | cancel (actionId : PyStr)
  /-- the watchdog overrides a queued job -/
  | override (job : Nat)
  | run (thread : Nat) (env : Answers)
  /-- a thread of the pool takes a work item -/
  | pick (future : Nat)
  /-- `_run_action` writes the state of its job -/
  | work (future : Nat) (state : JobState)
  /-- `_run_action` returns or raises -/
  | complete (future : Nat)
  | close
  | shutdown
  /-- `shutdown(cancel_futures=True)` cancels a work item -/
  | drain (future : Nat)

namespace System

def settle (s : System) (f : Nat) (fut : Future) (state : FutureState) : System :=
  let s := s.setFuture f { fut with state := state }
  if fut.callback then { s with threads := s.threads ++ [.release fut.job none] } else s

/-- The queued jobs with a future, which `close` cancels. -/
def queued (s : System) : List PyStr :=
  (s.table.entries.filter fun e =>
    (s.jobs.get? e.2).any fun j => j.state = .queued && j.future.isSome).map Prod.fst

def step (s : System) : Label → Option System
  | .request id =>
    some { s with threads := s.threads ++ [.check s.requests id], requests := s.requests + 1 }
  | .cancel id => some { s with threads := s.threads ++ [.cancel id] }
  | .override k => some { s with threads := s.threads ++ [.override k] }
  | .run i env => s.threads[i]?.map (s.advance i env)
  | .pick f =>
    (s.futures[f]?.filter fun fut => fut.state = .pending).map fun fut =>
      s.setFuture f { fut with state := .running }
  | .work f state =>
    (s.futures[f]?.filter fun fut => fut.state = .running).map fun fut =>
      s.setJob fut.job fun j => { j with state := state }
  | .complete f =>
    (s.futures[f]?.filter fun fut => fut.state = .running).map fun fut => s.settle f fut .finished
  | .close =>
    if s.closed then none
    else some { s with closed := true, threads := s.threads ++ s.queued.map .cancel }
  | .shutdown => if s.closed then some { s with shutdown := true } else none
  | .drain f =>
    if s.shutdown then
      (s.futures[f]?.filter fun fut => fut.state = .pending).map fun fut => s.settle f fut .cancelled
    else none

end System

def queueSlots (maxQueuedActions maxRetainedActions : Int) : Machine System Label where
  Init s := s = {
    capacity := (max 1 maxQueuedActions).toNat
    slots := (max 1 maxQueuedActions).toNat
    maxRetained := (max (max 1 maxQueuedActions) (max 1 maxRetainedActions)).toNat }
  step := System.step

end Rosclaw.QueueSlots
