/-
Adapter workers (`daemon/worker_manager.py`) as a machine.

A thread is a list of tasks, each of them a stretch of code that no other thread can
interrupt: a section under the manager's lock, or a call that waits for nothing but the
operating system.  An exception drops the tasks up to the place that catches it.  What a
stretch reads from outside is in its label.
-/
import Rosclaw.Lib.Dict
import Rosclaw.Lib.Machine
import Rosclaw.Lib.PyVal

namespace Rosclaw

inductive WorkerState
  | stopped | starting | ready | degraded | failed | stopping
deriving DecidableEq

/-- `WorkerSpec`, with the checks of its constructor. -/
structure WorkerSpec where
  workerId : PyStr
  command : List PyStr
  startupTimeoutSec : Rat := 5
  heartbeatTimeoutSec : Rat := 2
  stopTimeoutSec : Rat := 1
  restartLimit : Nat := 3
  restartWindowSec : Rat := 60
  valid_id : workerId.codes ≠ [] ∧ workerId.length ≤ 128 ∧ workerId.hasControl = false
  valid_command : command ≠ [] ∧ ∀ item ∈ command, item.codes ≠ []
  positive : 0 < startupTimeoutSec ∧ 0 < heartbeatTimeoutSec ∧ 0 < stopTimeoutSec ∧
    0 < restartWindowSec

structure Worker where
  spec : WorkerSpec
  state : WorkerState := .stopped
  process : Option Nat := none
  generation : Nat := 0
  connectionId : Option PyStr := none
  lastHeartbeat : Option Rat := none
  lastError : Option PyStr := none
  restartTimes : List Rat := []
  desiredRunning : Bool := false
  ready : Bool := false

/-- What `poll` says about a spawned process: its return code, once it has ended. -/
structure Process where
  workerId : PyStr
  returncode : Option Int := none

/-- What the callback for a new connection is told; the generation is known to the
manager only. -/
structure GenerationChange where
  workerId : PyStr
  oldConnectionId : Option PyStr
  newConnectionId : PyStr
  generation : Nat
deriving DecidableEq

/-- The next stretch of a thread.  The tasks of a call that has let go of the lock carry
the process that it saw. -/
inductive ManagerTask
  | start
  | startLocked (workerId : PyStr) (waitReady : Bool)
  | notify (change : GenerationChange)
  /-- the callback has returned -/
  | notified
  | awaitReady (workerId : PyStr)
  | stopLocked (workerId : PyStr)
  | stopTerminate (workerId : PyStr) (process : Option Nat)
  | stopClear (workerId : PyStr) (process : Option Nat)
  | close
  /-- `close` catches what the stop of a worker raises -/
  | caught
  | monitorLoop
  | monitorWorker (workerId : PyStr)
  | monitorTerminate (workerId : PyStr) (process : Option Nat)
  | monitorRespawn (workerId : PyStr) (process : Option Nat)
  | readStdout (workerId : PyStr) (process : Nat)
  | failLocked (workerId : PyStr) (reason : PyStr) (expected : Option Nat)
  | failTerminate (process : Option Nat)
deriving DecidableEq

structure WorkerManager where
  workers : Dict PyStr Worker := Dict.empty
  /-- every process that was spawned, in order -/
  processes : List Process := []
  threads : List (List ManagerTask) := []
  /-- the place of the monitor's thread -/
  monitor : Option Nat := none
  /-- `_stop` -/
  stopping : Bool := false

inductive SpawnOutcome
  | spawned
  | osError (message : PyStr)
  /-- an exception that is no `OSError` -/
  | raised

/-- What a reader gets from the pipe of its worker. -/
inductive WorkerLine
  | eof
  | oversized
  | invalidJson
  | message (v : PyVal)

structure ManagerAnswers where
  monotonic : Rat := 0
  uuid : PyStr := ""
  spawn : SpawnOutcome := .spawned
  /-- how a process that is terminated ends; `none` if it outlives both signals -/
  terminated : Option Int := some (-15)
  /-- the wait for the first heartbeat ends by its timeout -/
  timedOut : Bool := false
  line : WorkerLine := .eof
  /-- `repr` or `str` of what the message of an error mentions -/
  text : PyStr := ""

namespace WorkerManager

variable (m : WorkerManager)

/-! ### Processes -/

/-- `process.poll()`. -/
def poll (p : Nat) : Option Int := (m.processes[p]?).bind Process.returncode

def isLive (p : Nat) : Bool := (m.processes[p]?).any fun q => q.returncode.isNone

def exit (p : Nat) (code : Int) : WorkerManager :=
  { m with processes := m.processes.modify p fun q => { q with returncode := some code } }

/-- `_terminate`; `none` where it raises because the process outlives the signals. -/
def terminate (process : Option Nat) (env : ManagerAnswers) : Option WorkerManager :=
  match process with
  | none => some m
  | some p => if m.isLive p then env.terminated.map (m.exit p) else some m

def setWorker (id : PyStr) (w : Worker) : WorkerManager := { m with workers := m.workers.set id w }

/-- `_prune_restart_times`. -/
def prune (w : Worker) (now : Rat) : Worker :=
  { w with restartTimes := w.restartTimes.dropWhile (· < now - w.spec.restartWindowSec) }

def clip (s : PyStr) : PyStr := ⟨s.codes.take 512⟩

/-- An exception that `_spawn_locked` raises. -/
inductive SpawnFault
  | workerError | otherError

def counted (w : Worker) (isRestart : Bool) (now : Rat) : Worker :=
  if isRestart then { w with restartTimes := w.restartTimes ++ [now] } else w

def spawned (w : Worker) (process : Nat) (connectionId : PyStr) (now : Rat) : Worker :=
  { w with
    process := some process
    generation := w.generation + 1
    connectionId := some connectionId
    lastHeartbeat := some now
    lastError := none
    state := .starting
    ready := false }

def spawnLocked (id : PyStr) (w : Worker) (isRestart : Bool) (env : ManagerAnswers) :
    WorkerManager × Except SpawnFault GenerationChange :=
  let w := prune w env.monotonic
  if isRestart && w.spec.restartLimit ≤ w.restartTimes.length then
    (m.setWorker id { w with
      state := .failed
      desiredRunning := false
      lastError := some "restart budget exhausted" }, .error .workerError)
  else
    let w := counted w isRestart env.monotonic
    match env.spawn with
    | .osError message =>
      (m.setWorker id { w with
        state := .failed
        lastError := some (clip ("spawn failed: " ++ message)) }, .error .workerError)
    | .raised => (m.setWorker id w, .error .otherError)
    | .spawned =>
      let p := m.processes.length
      let connectionId := "worker_" ++ env.uuid
      ({ m.setWorker id (spawned w p connectionId env.monotonic) with
        processes := m.processes ++ [⟨id, none⟩]
        threads := m.threads ++ [[.readStdout id p]] },
        .ok ⟨id, w.connectionId, connectionId, w.generation + 1⟩)

/-! ### Threads -/

/-- How a stretch ends: the tasks that come next, or an exception. -/
inductive After
  | next (ts : List ManagerTask)
  | raised

/-- The tasks of the thread afterwards; an exception is caught where `caught` stands. -/
def After.tasks (rest : List ManagerTask) : After → List ManagerTask
  | next ts => ts ++ rest
  | raised => (rest.dropWhile (· ≠ .caught)).tail

def monitorAlive : Bool := m.monitor.any fun i => (m.threads[i]?).any fun ts => !ts.isEmpty

def start : WorkerManager :=
  if m.monitorAlive then m
  else { m with
    stopping := false
    monitor := some m.threads.length
    threads := m.threads ++ [[.monitorLoop]] }

/-- The first section of `start_worker`. -/
def startLocked (id : PyStr) (waitReady : Bool) (env : ManagerAnswers) : WorkerManager × After :=
  match m.workers.get? id with
  | none => (m, .raised)
  | some w =>
    let w := { w with desiredRunning := true }
    let ready := if waitReady then [.awaitReady id] else []
    if w.process.any m.isLive then (m.setWorker id w, .next ready)
    else match m.spawnLocked id w (0 < w.generation) env with
      | (m, .ok change) => (m, .next ([.notify change, .notified] ++ ready))
      | (m, .error _) => (m, .raised)

/-- The first section of `stop_worker`. -/
def stopLocked (id : PyStr) : WorkerManager × After :=
  match m.workers.get? id with
  | none => (m, .raised)
  | some w => (m.setWorker id { w with
      desiredRunning := false
      state := if w.process.isSome then .stopping else .stopped },
    .next [.stopTerminate id w.process])

/-- The second section of `stop_worker`. -/
def stopClear (id : PyStr) : WorkerManager :=
  match m.workers.get? id with
  | none => m
  | some w => m.setWorker id { w with
      state := .stopped
      process := none
      connectionId := none
      ready := false }

def monitorReason (w : Worker) (env : ManagerAnswers) : Option PyStr :=
  match w.process with
  | none => some "worker process is absent"
  | some p =>
    let limit := if w.state = .starting then w.spec.startupTimeoutSec else w.spec.heartbeatTimeoutSec
    if (m.poll p).isSome then some ("worker exited with status " ++ env.text)
    else if limit < env.monotonic - w.lastHeartbeat.getD 0 then
      some ("worker heartbeat timed out after " ++ env.text ++ "s")
    else none

/-- The first section of `_monitor_worker`. -/
def monitorWorker (id : PyStr) (env : ManagerAnswers) : WorkerManager × After :=
  match m.workers.get? id with
  | none => (m, .next [])
  | some w =>
    if w.desiredRunning = false then (m, .next [])
    else match m.monitorReason w env with
      | none => (m, .next [])
      | some reason => (m.setWorker id { w with lastError := some reason, state := .degraded },
          .next [.monitorTerminate id w.process])

/-- The second section of `_monitor_worker`. -/
def monitorRespawn (id : PyStr) (env : ManagerAnswers) : WorkerManager × After :=
  match m.workers.get? id with
  | none => (m, .next [])
  | some w =>
    if w.desiredRunning = false ∨ m.stopping = true then (m, .next [])
    else match m.spawnLocked id { w with process := none } true env with
      | (m, .ok change) => (m, .next [.notify change, .notified])
      | (m, .error .workerError) => (match m.workers.get? id with
          | none => m
          | some w => m.setWorker id { w with state := .failed, desiredRunning := false }, .next [])
      | (m, .error .otherError) => (m, .raised)

/-- `_fail_and_terminate`, up to the signals. -/
def failLocked (id : PyStr) (reason : PyStr) (expected : Option Nat) : WorkerManager × After :=
  match m.workers.get? id with
  | none => (m, .raised)
  | some w =>
    if expected.isSome ∧ w.process ≠ expected then (m, .next [])
    else if w.state = .failed ∧ w.desiredRunning = false then (m, .next [])
    else (m.setWorker id { w with lastError := some reason, state := .degraded },
      .next [.failTerminate w.process])

def WORKER_PROTOCOL_VERSION : PyStr := "rosclaw.adapter.worker.v1"

def received (w : Worker) (messageType : PyStr) (env : ManagerAnswers) : Worker :=
  let w := { w with lastHeartbeat := some env.monotonic }
  if messageType = "ready" then { w with state := .ready, ready := true }
  else if messageType = "heartbeat" then
    if w.state = .starting then { w with state := .ready, ready := true } else w
  else { w with state := .degraded, lastError := some (clip env.text) }

/-- One turn of `_read_stdout`. -/
def readStdout (id : PyStr) (p : Nat) (env : ManagerAnswers) : WorkerManager × After :=
  let fail (reason : PyStr) := (m, After.next [.failLocked id reason (some p)])
  match env.line with
  | .eof => (m, .next [])
  | .oversized => fail "worker protocol line exceeded size limit"
  | .invalidJson => fail "worker emitted invalid JSON protocol message"
  | .message v =>
    if v.isDict = false ∨ (v.get "protocol_version").pyEq (.str WORKER_PROTOCOL_VERSION) = false then
      fail "worker emitted unsupported protocol message"
    else match v.get "type" with
      -- an unhashable type is in no set
      | .list _ | .dict _ => (m, .raised)
      | .str messageType =>
        if messageType ∈ [("ready" : PyStr), "heartbeat", "degraded"] then
          match m.workers.get? id with
          | none => (m, .next [])
          | some w =>
            if w.process = some p then
              (m.setWorker id (received w messageType env), .next [.readStdout id p])
            else (m, .next [])
        else fail ("unsupported worker message type: " ++ env.text)
      | _ => fail ("unsupported worker message type: " ++ env.text)

def afterTerminate (process : Option Nat) (env : ManagerAnswers) (next : List ManagerTask) :
    WorkerManager × After :=
  match m.terminate process env with
  | some m => (m, .next next)
  | none => (m, .raised)

/-- What a task does.  `none` is a thread that has to wait. -/
def exec (env : ManagerAnswers) : ManagerTask → Option (WorkerManager × After)
  | .start => some (m.start, .next [])
  | .startLocked id waitReady => some (m.startLocked id waitReady env)
  | .notify _ | .notified | .caught => some (m, .next [])
  | .awaitReady id =>
    if (m.workers.get? id).any Worker.ready then some (m, .next [])
    else if env.timedOut then
      some (m, .next [.failLocked id "worker startup heartbeat timed out" none])
    else none
  | .stopLocked id => some (m.stopLocked id)
  | .stopTerminate id process => some (m.afterTerminate process env [.stopClear id process])
  | .stopClear id _ => some (m.stopClear id, .next [])
  | .close => some ({ m with stopping := true },
      .next (m.workers.keys.flatMap fun id => [.stopLocked id, .caught]))
  | .monitorLoop => some (m, .next (if m.stopping then [] else
      m.workers.keys.map .monitorWorker ++ [.monitorLoop]))
  | .monitorWorker id => some (m.monitorWorker id env)
  | .monitorTerminate id process => some (m.afterTerminate process env [.monitorRespawn id process])
  | .monitorRespawn id _ => some (m.monitorRespawn id env)
  | .readStdout id p => some (m.readStdout id p env)
  | .failLocked id reason expected => some (m.failLocked id reason expected)
  | .failTerminate process => some (m.afterTerminate process env [])

end WorkerManager

/-! ### The machine -/

inductive ManagerCall
  | start
  | startWorker (workerId : PyStr) (waitReady : Bool)
  | stopWorker (workerId : PyStr)
  | restartWorker (workerId : PyStr)
  | close

def ManagerCall.tasks : ManagerCall → List ManagerTask
  | start => [.start]
  | startWorker id waitReady => [.start, .startLocked id waitReady]
  | stopWorker id => [.stopLocked id]
  | restartWorker id => [.stopLocked id, .start, .startLocked id true]
  | close => [.close]

inductive ManagerLabel
  | register (spec : WorkerSpec)
  | call (c : ManagerCall)
  /-- the next stretch of a thread -/
  | run (thread : Nat) (env : ManagerAnswers)
  /-- a process ends by itself -/
  | exit (process : Nat) (code : Int)

namespace WorkerManager

def taskOf (m : WorkerManager) (i : Nat) : Option ManagerTask := (m.threads[i]?).bind List.head?

def step (m : WorkerManager) : ManagerLabel → Option WorkerManager
  | .register spec =>
    some (if m.workers.contains spec.workerId then m else m.setWorker spec.workerId { spec := spec })
  | .call c => some { m with threads := m.threads ++ [c.tasks] }
  | .run i env =>
    match m.threads[i]? with
    | some (t :: ts) => (m.exec env t).map fun r =>
        { r.1 with threads := r.1.threads.set i (r.2.tasks ts) }
    | _ => none
  | .exit p code => if m.isLive p then some (m.exit p code) else none

end WorkerManager

def workerManager : Machine WorkerManager ManagerLabel where
  Init m := m = {}
  step := WorkerManager.step

end Rosclaw
