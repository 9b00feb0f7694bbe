/-
The manager of long operations: the rows of `operations`, their events, and the
coroutines that drive, cancel and watch them.

A coroutine runs from one `await` to the next without another coroutine in between, and
`_record_terminal` never suspends, so a step is such a segment; everything that the
outside answers (a spawn, a line of output, an exit, a liveness probe) comes with the
label.  Statements of the database do not fail here, and the texts have a UTF-8 form.
-/
import Rosclaw.Lib.Dict
import Rosclaw.Lib.Machine
import Rosclaw.Lib.Text
import Rosclaw.Lib.Threads

namespace Rosclaw.Operations

inductive OperationState
  | queued | admitted | running | degraded | canceling | succeeded | failed | cancelled | lost
deriving DecidableEq, Repr

namespace OperationState

def name : OperationState → PyStr
  | queued => "QUEUED"
  | admitted => "ADMITTED"
  | running => "RUNNING"
  | degraded => "DEGRADED"
  | canceling => "CANCELING"
  | succeeded => "SUCCEEDED"
  | failed => "FAILED"
  | cancelled => "CANCELLED"
  | lost => "LOST"

/-- `state in OPERATION_TERMINAL`. -/
def terminal : OperationState → Bool
  | succeeded | failed | cancelled | lost => true
  | _ => false

/-- The states that `sweep_liveness` looks at. -/
def swept : OperationState → Bool
  | queued | admitted | running | degraded => true
  | _ => false

end OperationState

inductive EventType
  | queued | admitted | output | progress | canceling | degraded | resumed | reattached
  | completed | failed | cancelled | lost
deriving DecidableEq, Repr

namespace EventType

def name : EventType → PyStr
  | queued => "operation.queued"
  | admitted => "operation.admitted"
  | output => "operation.output"
  | progress => "operation.progress"
  | canceling => "operation.canceling"
  | degraded => "operation.degraded"
  | resumed => "operation.resumed"
  | reattached => "operation.reattached"
  | completed => "operation.completed"
  | failed => "operation.failed"
  | cancelled => "operation.cancelled"
  | lost => "operation.lost"

def terminal : EventType → Bool
  | completed | failed | cancelled | lost => true
  | _ => false

end EventType

/-- The terminal states, as `_record_terminal` is given them. -/
inductive Outcome
  | succeeded | failed | cancelled | lost
deriving DecidableEq, Repr

namespace Outcome

def state : Outcome → OperationState
  | succeeded => .succeeded
  | failed => .failed
  | cancelled => .cancelled
  | lost => .lost

def event : Outcome → EventType
  | succeeded => .completed
  | failed => .failed
  | cancelled => .cancelled
  | lost => .lost

def ofCode (code : Int) : Outcome := if code = 0 then succeeded else failed

@[simp] theorem state_terminal (o : Outcome) : o.state.terminal = true := by cases o <;> rfl

@[simp] theorem event_terminal (o : Outcome) : o.event.terminal = true := by cases o <;> rfl

end Outcome

/-- `"" if code == 0 else f"exit_{code}"`. -/
def exitFailure (code : Int) : PyStr := if code = 0 then "" else "exit_" ++ PyStr.ofInt code

/-- A row of `operations`, of the operation id of its key. -/
structure Operation where
  taskId : PyStr
  attemptId : PyStr
  kind : PyStr
  state : OperationState
  resumable : Bool
  startedAt : Int
  heartbeatAt : Int
  endedAt : Option Int := none
  failureCode : Option PyStr := none
  revision : Option Int
  goalId : PyStr
  provider : PyStr
  pid : Nat := 0
  progress : Option PyVal := none
  resultRef : PyStr := ""
  cancelReason : PyStr := ""
  exitcodePath : PyStr

/-- A row of `task_events` about an operation. -/
structure TaskEvent where
  taskId : PyStr
  attemptId : PyStr
  operationId : PyStr
  eventType : EventType
  payload : PyVal
  createdAt : Int

/-- The command of an operation, which the shell of `_spawn` runs as a process of its own. -/
inductive Command
  | pending | running | over
deriving DecidableEq

/-- The process of an operation, the shell that `_spawn` starts: whether it still runs, the
return code once it was collected, whether a termination signal was sent to it, and how far
its command is.  No signal is ever sent to the command, of which the program has no pid. -/
structure Process where
  pid : Nat
  running : Bool
  returncode : Option Int
  signalled : Bool
  command : Command := .pending
deriving DecidableEq

structure Driver where
  operationId : PyStr
  taskId : PyStr
  attemptId : PyStr
deriving DecidableEq

/-- The coroutines, each at the `await` before which it stands. -/
inductive Thread
  | spawning (d : Driver) (argv : List PyStr)
  | entering (d : Driver)
  | reading (d : Driver)
  | waiting (d : Driver)
  | cancelling (operationId reason : PyStr)
  | grace (operationId reason : PyStr)
  | watching (operationId : PyStr) (pid : Nat) (exitcodePath : PyStr)
deriving DecidableEq

/-- The manager and what is around it: `procs` and `actions` as in the source, the
operations whose callbacks the action client holds, the processes of the operations, and
the numbers that the exit-code files hold. -/
structure Manager where
  directory : PyStr
  operations : Dict PyStr Operation
  events : List TaskEvent
  procs : Dict PyStr Nat
  actions : Dict PyStr PyStr
  listeners : List PyStr
  threads : List Thread
  processes : Dict PyStr Process
  exitcodes : Dict PyStr Int

namespace Manager

/-- `UPDATE operations SET … WHERE operation_id = ?`. -/
def update (s : Manager) (op : PyStr) (f : Operation → Operation) : Manager :=
  { s with operations := s.operations.mapVals fun k r => if k = op then f r else r }

def emit (s : Manager) (taskId : PyStr) (eventType : EventType) (payload : List (PyStr × PyVal))
    (op attemptId : PyStr) (now : Int) : Manager :=
  { s with events := s.events ++ [⟨taskId, attemptId, op, eventType, .dict payload, now⟩] }

def transition (s : Manager) (op : PyStr) (state : OperationState) (event : Option EventType)
    (payload : List (PyStr × PyVal)) (now : Int) : Manager :=
  match s.operations.get? op with
  | none => s
  | some r =>
    if r.state.terminal ∨ (r.state = .canceling ∧ state ≠ .cancelled) then s
    else
      let s' := s.update op fun r' => { r' with state := state, heartbeatAt := now }
      match event with
      | none => s'
      | some ev => s'.emit r.taskId ev (("operation_id", .str op) :: payload) op "" now

def touch (s : Manager) (op : PyStr) (now : Int) : Manager :=
  match s.operations.get? op with
  | none => s
  | some r =>
    if r.state.terminal then s
    else s.update op fun r' => { r' with heartbeatAt := now }

def writeTerminal (s : Manager) (op : PyStr) (outcome : Outcome) (failureCode resultRef : PyStr)
    (now : Int) : Manager :=
  match s.operations.get? op with
  | none => s
  | some r =>
    if r.state.terminal then s
    else if r.state = .canceling ∧ outcome ≠ .cancelled then s
    else
      (s.update op fun r' =>
        { r' with
          state := outcome.state, endedAt := some now, heartbeatAt := now
          failureCode := some failureCode
          resultRef := if resultRef.isEmpty then r.resultRef else resultRef }).emit
        r.taskId outcome.event
        [("operation_id", .str op), ("state", .str outcome.state.name),
          ("failure_code", .str failureCode)] op "" now

def readExitcode (s : Manager) (path : PyStr) : Option Int :=
  if path.isEmpty then none else s.exitcodes.get? path

def returncode (s : Manager) (op : PyStr) : Option Int := (s.processes.get? op).bind Process.returncode

def signal (s : Manager) (op : PyStr) : Manager :=
  { s with processes := s.processes.mapVals fun k p =>
      if k = op ∧ p.running then { p with signalled := true } else p }

/-- `self._procs.pop(operation_id, None)`. -/
def popHandle (s : Manager) (op : PyStr) : Manager := { s with procs := s.procs.erase op }

def spawnThread (s : Manager) (t : Thread) : Manager := { s with threads := s.threads ++ [t] }

/-! ### Starting -/

/-- `INSERT INTO operations` and `operation.queued`. -/
def enqueue (s : Manager) (op : PyStr) (row : Operation) (payload : List (PyStr × PyVal)) (now : Int) :
    Manager :=
  { s with operations := s.operations.set op row }.emit row.taskId .queued payload op row.attemptId now

/-- A goal that was sent: the client holds its callbacks, and the manager its handle. -/
def goalSent (s : Manager) (op goalId : PyStr) : Manager :=
  { s with actions := s.actions.set op goalId, listeners := op :: s.listeners }

def processSpawned (s : Manager) (op : PyStr) (pid : Nat) : Manager :=
  { s with processes := s.processes.set op ⟨pid, true, none, false, .pending⟩, procs := s.procs.set op pid }

/-- The arguments of `start`, and the active revision of its task. -/
structure StartArgs where
  taskId : PyStr
  attemptId : PyStr
  kind : PyStr
  argv : List PyStr
  resumable : Bool := false
  goalId : PyStr
  provider : PyStr := "process"
  revision : Option Int

/-- The row of `start`. -/
def StartArgs.row (a : StartArgs) (directory op : PyStr) (now : Int) : Operation :=
  { taskId := a.taskId, attemptId := a.attemptId, kind := a.kind, state := .queued
    resumable := a.resumable, startedAt := now, heartbeatAt := now, revision := a.revision
    goalId := a.goalId, provider := a.provider
    exitcodePath := directory ++ "/" ++ op ++ ".exitcode" }

/-- `start` up to the spawn; the id is a fresh one. -/
def start (s : Manager) (op : PyStr) (a : StartArgs) (now : Int) : Option Manager :=
  if s.operations.contains op then none
  else
    some ((s.enqueue op (a.row s.directory op now)
      [("operation_id", .str op), ("goal_id", .str a.goalId), ("provider", .str a.provider),
        ("kind", .str a.kind)] now).spawnThread (.spawning ⟨op, a.taskId, a.attemptId⟩ a.argv))

/-- `start` from the spawn on. -/
def admitted (s : Manager) (op : PyStr) (argv : List PyStr) (pid : Nat) (now : Int) : Manager :=
  let s₁ := (s.processSpawned op pid).transition op .admitted (some .admitted)
    [("pid", .int pid), ("argv", .list ((argv.take 5).map .str))] now
  s₁.update op fun r => { r with pid := pid }

/-- The arguments of `start_action`, and the active revision of its task. -/
structure ActionArgs where
  taskId : PyStr
  attemptId : PyStr
  action : PyStr
  actionType : PyStr
  goalId : PyStr
  revision : Option Int

/-- The row of `start_action`. -/
def ActionArgs.row (a : ActionArgs) (now : Int) : Operation :=
  { taskId := a.taskId, attemptId := a.attemptId, kind := "action", state := .queued
    resumable := false, startedAt := now, heartbeatAt := now, revision := a.revision
    goalId := a.goalId, provider := "ros2_action", exitcodePath := "" }

/-- `start_action` up to `send_goal`. -/
def actionQueued (s : Manager) (op : PyStr) (a : ActionArgs) (now : Int) : Manager :=
  s.enqueue op (a.row now)
    [("operation_id", .str op), ("goal_id", .str a.goalId), ("provider", .str "ros2_action"),
      ("action", .str a.action), ("action_type", .str a.actionType)] now

/-- `start_action` from there on. -/
def actionAdmitted (s : Manager) (op : PyStr) (a : ActionArgs) (now : Int) : Manager :=
  ((s.goalSent op a.goalId).transition op .admitted (some .admitted)
    [("action", .str a.action), ("goal_id", .str a.goalId)] now).transition op .running none [] now

/-- `start_action`; `sent` tells whether `send_goal` returned. -/
def startAction (s : Manager) (op : PyStr) (a : ActionArgs) (sent : Bool) (now : Int) :
    Option Manager :=
  if s.operations.contains op then none
  else if sent then some ((s.actionQueued op a now).actionAdmitted op a now)
  else some (s.actionQueued op a now)

/-! ### The driver -/

def outputLine (s : Manager) (d : Driver) (text : PyStr) (now : Int) : Manager :=
  (s.touch d.operationId now).emit d.taskId .output [("text", .str (text.take 4000))]
    d.operationId d.attemptId now

def readerFailed (s : Manager) (d : Driver) (message : PyStr) (now : Int) : Manager :=
  s.emit d.taskId .failed [("error", .str (("reader: " ++ message).take 300))] d.operationId
    d.attemptId now

/-- The driver after `proc.wait()`. -/
def driverExit (s : Manager) (op : PyStr) (returncode : Int) (now : Int) : Manager :=
  match s.operations.get? op with
  | none => s.popHandle op
  | some r =>
    if r.state = .canceling ∨ r.state = .cancelled then s.popHandle op
    else
      let effective := (s.readExitcode r.exitcodePath).getD returncode
      (s.popHandle op).writeTerminal op (.ofCode effective) (exitFailure effective) "" now

/-! ### Cancelling -/

/-- `CANCELING`, with its reason and its event. -/
def markCanceling (s : Manager) (op : PyStr) (r : Operation) (reason : PyStr) (now : Int) : Manager :=
  (s.update op fun r' =>
    { r' with state := .canceling, cancelReason := reason, heartbeatAt := now }).emit
    r.taskId .canceling [("operation_id", .str op), ("reason", .str reason)] op "" now

/-- What is cancelled: an action, whose grace task is there whatever comes of
`cancel_goal`, a process that can still be signalled, or nothing any more. -/
def cancelMarked (s : Manager) (op reason : PyStr) (now : Int) : Manager :=
  if s.actions.contains op then s.spawnThread (.grace op reason)
  else if s.procs.contains op ∧ s.returncode op = none then
    ((s.popHandle op).signal op).spawnThread (.cancelling op reason)
  else (s.popHandle op).writeTerminal op .cancelled reason "" now

/-- `cancel` up to its first `await`. -/
def cancel (s : Manager) (op reason : PyStr) (now : Int) : Manager :=
  match s.operations.get? op with
  | none => s
  | some r =>
    if r.state.terminal then s else (s.markCanceling op r reason now).cancelMarked op reason now

/-! ### The callbacks of an action -/

def reportProgress (s : Manager) (op : PyStr) (progress : PyVal) (now : Int) : Manager :=
  match s.operations.get? op with
  | none => s
  | some r =>
    if r.state.terminal then s
    else
      ((s.touch op now).update op fun r' => { r' with progress := some progress }).emit r.taskId
        .progress [("operation_id", .str op), ("progress", progress)] op "" now

def onFeedback (s : Manager) (op : PyStr) (progress : PyVal) (now : Int) : Option Manager :=
  if op ∈ s.listeners then some (s.reportProgress op progress now) else none

def actionOutcome (s : Manager) (op : PyStr) (status : Int) : Outcome × PyStr :=
  if status = 4 then (.succeeded, "")
  else if status = 5 then
    let reason := ((s.operations.get? op).map Operation.cancelReason).getD ""
    (.cancelled, if reason.isEmpty then "action_canceled" else reason)
  else (.failed, "action_status_" ++ PyStr.ofInt status)

def forgetGoal (s : Manager) (op : PyStr) : Manager :=
  { s with listeners := s.listeners.erase op, actions := s.actions.erase op }

/-- `_on_result`; `resultRef` is the text of the result. -/
def onResult (s : Manager) (op : PyStr) (status : Int) (resultRef : PyStr) (now : Int) :
    Option Manager :=
  if op ∈ s.listeners then
    let outcome := s.actionOutcome op status
    some ((s.forgetGoal op).writeTerminal op outcome.1 outcome.2 (resultRef.take 500) now)
  else none

/-! ### Liveness and recovery -/

/-- One row of `sweep_liveness`, as it was selected. -/
def sweepRow (staleAfter now : Int) (s : Manager) (e : PyStr × Operation) : Manager :=
  if now - e.2.heartbeatAt > staleAfter then
    if e.2.state ≠ .degraded then
      s.transition e.1 .degraded (some .degraded) [("stale_after_s", .int staleAfter)] now
    else s
  else if e.2.state = .degraded then s.transition e.1 .running (some .resumed) [] now
  else s

def sweepLiveness (s : Manager) (staleAfter now : Int) : Manager :=
  (s.operations.entries.filter fun e => e.2.state.swept).foldl (sweepRow staleAfter now) s

/-- One row of `recover_on_boot`, as it was selected. -/
def recoverRow (alive : Nat → Bool) (now : Int) (s : Manager) (e : PyStr × Operation) : Manager :=
  match s.readExitcode e.2.exitcodePath with
  | some code => s.writeTerminal e.1 (.ofCode code) (exitFailure code) "" now
  | none =>
    if 0 < e.2.pid ∧ alive e.2.pid then
      (s.transition e.1 .degraded (some .reattached) [("pid", .int e.2.pid)] now).spawnThread
        (.watching e.1 e.2.pid e.2.exitcodePath)
    else s.writeTerminal e.1 .lost "restart_unverifiable" "" now

/-- `recover_on_boot`; `alive` is what `_pid_alive` answers. -/
def recoverOnBoot (s : Manager) (alive : Nat → Bool) (now : Int) : Manager :=
  (s.operations.entries.filter fun e => !e.2.state.terminal).foldl (recoverRow alive now) s

/-- `_watch_pid` when the process is gone or its exit code is there. -/
def watchEnd (s : Manager) (op exitcodePath : PyStr) (now : Int) : Manager :=
  match s.operations.get? op with
  | none => s
  | some r =>
    if r.state.terminal ∨ r.state = .canceling then s
    else
      match s.readExitcode exitcodePath with
      | some code => s.writeTerminal op (.ofCode code) (exitFailure code) "" now
      | none => s.writeTerminal op .lost "exit_unverifiable" "" now

end Manager

/-! ### Any interleaving -/

/-- What the outside answers to a coroutine at its `await`. -/
inductive Answer
  | go
  | spawned (pid : Nat)
  | spawnFailed
  | line (text : PyStr)
  | eof
  | readerError (message : PyStr)
  | exited
  | timeout
  | alive (b : Bool)

namespace Manager

/-- The next segment of a coroutine: where it stands after it, and the manager. -/
def resume (s : Manager) (now : Int) : Thread → Answer → Option (List Thread × Manager)
  | .spawning d argv, .spawned pid =>
      some ([.entering d], s.admitted d.operationId argv pid now)
  | .spawning _ _, .spawnFailed => some ([], s)
  | .entering d, .go => some ([.reading d], s.transition d.operationId .running none [] now)
  | .reading d, .line text => some ([.reading d], s.outputLine d text now)
  | .reading d, .eof => some ([.waiting d], s)
  | .reading d, .readerError message => some ([.waiting d], s.readerFailed d message now)
  | .waiting d, .exited =>
      (s.returncode d.operationId).map fun rc => ([], s.driverExit d.operationId rc now)
  | .cancelling op reason, .exited =>
      (s.returncode op).map fun _ => ([], s.writeTerminal op .cancelled reason "" now)
  | .cancelling op reason, .timeout =>
      some ([], (s.signal op).writeTerminal op .cancelled reason "" now)
  | .grace op reason, .go => some ([], s.writeTerminal op .cancelled reason "" now)
  | .watching op pid path, .alive b =>
      if b ∧ s.readExitcode path = none then some ([.watching op pid path], s)
      else some ([], s.watchEnd op path now)
  | _, _ => none

/-- The coroutine at place `i` runs its next segment. -/
def turn (s : Manager) (i : Nat) (a : Answer) (now : Int) : Option Manager :=
  match s.threads[i]? with
  | none => none
  | some t => (s.resume now t a).map fun r => { r.2 with threads := replaceAt s.threads i r.1 }

/-- The program ends and starts again: what it holds in memory is gone. -/
def restart (s : Manager) : Manager :=
  { s with procs := ∅, actions := ∅, listeners := [], threads := [] }

def processExits (s : Manager) (op : PyStr) : Option Manager :=
  match s.processes.get? op with
  | none => none
  | some p => if p.running then some { s with processes := s.processes.set op { p with running := false } } else none

def processReaped (s : Manager) (op : PyStr) (rc : Int) : Option Manager :=
  match s.processes.get? op with
  | none => none
  | some p =>
    if ¬ p.running ∧ p.returncode = none then
      some { s with processes := s.processes.set op { p with returncode := some rc } }
    else none

/-- The shell starts its command, unless a signal came first, and the command ends. -/
def commandMoves (s : Manager) (op : PyStr) : Option Manager :=
  match s.processes.get? op with
  | none => none
  | some p =>
    match p.command with
    | .pending =>
      if p.running ∧ ¬ p.signalled then
        some { s with processes := s.processes.set op { p with command := .running } }
      else none
    | .running => some { s with processes := s.processes.set op { p with command := .over } }
    | .over => none

def exitFile (s : Manager) (path : PyStr) (code : Int) : Option Manager :=
  if s.exitcodes.contains path then none
  else some { s with exitcodes := s.exitcodes.set path code }

end Manager

inductive Label
  | start (op : PyStr) (a : Manager.StartArgs) (now : Int)
  | startAction (op : PyStr) (a : Manager.ActionArgs) (sent : Bool) (now : Int)
  | cancel (op reason : PyStr) (now : Int)
  | feedback (op : PyStr) (progress : PyVal) (now : Int)
  | result (op : PyStr) (status : Int) (resultRef : PyStr) (now : Int)
  | sweep (staleAfter now : Int)
  | recover (alive : Nat → Bool) (now : Int)
  | turn (i : Nat) (a : Answer) (now : Int)
  | restart
  | exits (op : PyStr)
  | reaped (op : PyStr) (rc : Int)
  | command (op : PyStr)
  | exitFile (path : PyStr) (code : Int)

def Manager.step (s : Manager) : Label → Option Manager
  | .start op a now => s.start op a now
  | .startAction op a sent now => s.startAction op a sent now
  | .cancel op reason now => some (s.cancel op reason now)
  | .feedback op progress now => s.onFeedback op progress now
  | .result op status resultRef now => s.onResult op status resultRef now
  | .sweep staleAfter now => some (s.sweepLiveness staleAfter now)
  | .recover alive now => some (s.recoverOnBoot alive now)
  | .turn i a now => s.turn i a now
  | .restart => some s.restart
  | .exits op => s.processExits op
  | .reaped op rc => s.processReaped op rc
  | .command op => s.commandMoves op
  | .exitFile path code => s.exitFile path code

def Manager.fresh (directory : PyStr) : Manager := ⟨directory, ∅, [], ∅, ∅, [], [], ∅, ∅⟩

def operationManager : Machine Manager Label where
  Init := fun s => ∃ directory, s = Manager.fresh directory
  step := Manager.step

/-! ### What a step leaves -/

section

variable {s s' : Manager} {op path : PyStr} {progress : PyVal} {i : Nat} {a : Answer} {now rc : Int}

theorem feedback_eq (h : s.step (.feedback op progress now) = some s') :
    s' = s.reportProgress op progress now :=
  (Option.some.inj (Option.ite_none_right_eq_some.mp h).2).symm

theorem turn_eq (h : s.step (.turn i a now) = some s') :
    ∃ t r, s.threads[i]? = some t ∧ s.resume now t a = some r ∧
      s' = { r.2 with threads := replaceAt s.threads i r.1 } := by
  have hrun : s.turn i a now = some s' := h
  unfold Manager.turn at hrun
  split at hrun
  · cases hrun
  · next t ht =>
    obtain ⟨r, hresume, rfl⟩ := Option.map_eq_some_iff.mp hrun
    exact ⟨t, r, ht, hresume, rfl⟩

theorem exits_eq (h : s.step (.exits op) = some s') : ∃ p, s.processes.get? op = some p ∧
      s' = { s with processes := s.processes.set op { p with running := false } } := by
  have hrun : s.processExits op = some s' := h
  unfold Manager.processExits at hrun
  split at hrun
  · cases hrun
  · next p hp => exact ⟨p, hp, (Option.some.inj (Option.ite_none_right_eq_some.mp hrun).2).symm⟩

theorem reaped_eq (h : s.step (.reaped op rc) = some s') :
    ∃ p, s.processes.get? op = some p ∧ ¬ p.running ∧
      s' = { s with processes := s.processes.set op { p with returncode := some rc } } := by
  have hrun : s.processReaped op rc = some s' := h
  unfold Manager.processReaped at hrun
  split at hrun
  · cases hrun
  · next p hp =>
    obtain ⟨hover, hrun⟩ := Option.ite_none_right_eq_some.mp hrun
    exact ⟨p, hp, hover.1, (Option.some.inj hrun).symm⟩

theorem command_eq (h : s.step (.command op) = some s') :
    ∃ p c, s.processes.get? op = some p ∧ (c = .running → p.signalled = false) ∧
      s' = { s with processes := s.processes.set op { p with command := c } } := by
  have hrun : s.commandMoves op = some s' := h
  unfold Manager.commandMoves at hrun
  split at hrun
  · cases hrun
  · next p hp =>
    split at hrun
    · obtain ⟨hguard, hrun⟩ := Option.ite_none_right_eq_some.mp hrun
      exact ⟨p, .running, hp, fun _ => by simpa using hguard.2, (Option.some.inj hrun).symm⟩
    · exact ⟨p, .over, hp, by simp, (Option.some.inj hrun).symm⟩
    · cases hrun

theorem exitFile_eq (h : s.step (.exitFile path rc) = some s') :
    s' = { s with exitcodes := s.exitcodes.set path rc } :=
  (Option.some.inj (Option.ite_none_left_eq_some.mp h).2).symm

end

end Rosclaw.Operations
