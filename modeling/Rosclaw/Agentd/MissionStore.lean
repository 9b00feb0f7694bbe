/-
The mission store: missions, their task graphs and the journal of their events.

Every operation that writes runs between `BEGIN IMMEDIATE` and `COMMIT` and rolls back
on any exception; the database can fail at any statement, which also stands for a text
or a document that a statement cannot bind.
-/
import Rosclaw.Agentd.TaskGraph
import Rosclaw.Lib.Machine
import Rosclaw.Lib.Script

namespace Rosclaw.MissionStore

inductive ExecutionMode
  | simulation | shadow | real
deriving DecidableEq, Repr

inductive MissionState
  | idle | understand | ground | waitInput | plan | staff | validate | waitApproval | dispatch
  | monitor | verify | learn | suspended | failed
deriving DecidableEq, Repr

def MissionState.value : MissionState → PyStr
  | .idle => "IDLE"
  | .understand => "UNDERSTAND"
  | .ground => "GROUND"
  | .waitInput => "WAIT_INPUT"
  | .plan => "PLAN"
  | .staff => "STAFF"
  | .validate => "VALIDATE"
  | .waitApproval => "WAIT_APPROVAL"
  | .dispatch => "DISPATCH"
  | .monitor => "MONITOR"
  | .verify => "VERIFY"
  | .learn => "LEARN"
  | .suspended => "SUSPENDED"
  | .failed => "FAILED"

def missionTransitions : MissionState → List MissionState
  | .idle => [.understand]
  | .understand => [.ground, .failed]
  | .ground => [.plan, .waitInput, .failed]
  | .waitInput => [.ground, .suspended, .failed]
  | .plan => [.staff, .validate, .waitInput, .failed]
  | .staff => [.validate, .waitInput, .failed]
  | .validate => [.waitApproval, .dispatch, .waitInput, .learn, .failed]
  | .waitApproval => [.dispatch, .failed, .suspended]
  | .dispatch => [.monitor, .failed]
  | .monitor => [.verify, .plan, .suspended, .failed]
  | .verify => [.learn, .failed, .plan, .waitApproval]
  | .learn => [.idle]
  | .suspended => [.plan, .failed]
  | .failed => [.idle]

def terminalStates : List MissionState := [.idle, .failed]

inductive BudgetField
  | wallTimeSec | modelTokens | monetaryMicrounits | workerConcurrency | physicalActionCount
  | maxToolRounds
deriving DecidableEq, Repr

namespace BudgetField

def name : BudgetField → PyStr
  | wallTimeSec => "wall_time_sec"
  | modelTokens => "model_tokens"
  | monetaryMicrounits => "monetary_microunits"
  | workerConcurrency => "worker_concurrency"
  | physicalActionCount => "physical_action_count"
  | maxToolRounds => "max_tool_rounds"

/-- `BUDGET_FIELDS`. -/
def all : List BudgetField :=
  [wallTimeSec, modelTokens, monetaryMicrounits, workerConcurrency, physicalActionCount, maxToolRounds]

def ofName? (s : PyStr) : Option BudgetField := all.find? fun f => f.name = s

end BudgetField

/-- `Budgets`, with the defaults of the contract. -/
structure Budgets where
  wallTimeSec : Int := 900
  modelTokens : Int := 200000
  monetaryMicrounits : Int := 5000000
  workerConcurrency : Int := 3
  physicalActionCount : Int := 0
  maxToolRounds : Int := 12
deriving DecidableEq, Repr

def Budgets.get (b : Budgets) : BudgetField → Int
  | .wallTimeSec => b.wallTimeSec
  | .modelTokens => b.modelTokens
  | .monetaryMicrounits => b.monetaryMicrounits
  | .workerConcurrency => b.workerConcurrency
  | .physicalActionCount => b.physicalActionCount
  | .maxToolRounds => b.maxToolRounds

structure AuthorizationBinding where
  missionGrantId : Option PyStr
  allowedRiskTiers : List PyStr
deriving DecidableEq, Repr

/-- A row of `missions`, of the mission id of its key; `MissionSessionV1` has the same
fields but for the counters. -/
structure MissionRow where
  ownerPrincipal : PyStr
  goal : PyVal
  bodyId : PyStr
  effectiveBodyHash : PyStr
  mode : ExecutionMode
  state : MissionState
  budgets : Budgets
  authorization : AuthorizationBinding
  contextRevision : Int
  taskGraphRevision : Int
  budgetUsage : Dict BudgetField Int

/-- A row of `task_nodes`, of the mission and the task of its key. -/
structure NodeRow where
  revision : Int
  node : TaskNode

inductive EventType
  | missionCreated | missionTransition | taskGraphPatched | bodyRebound | conversationAppended
deriving DecidableEq, Repr

/-- A row of `mission_events`. -/
structure EventRow where
  missionId : PyStr
  seq : Nat
  eventType : EventType
  fromState : Option MissionState
  toState : Option MissionState
  reasonCode : PyStr
  actorId : PyStr
  traceId : Option PyStr
  payload : PyVal
  idempotencyKey : Option PyStr

structure MissionTables where
  missions : Dict PyStr MissionRow
  nodes : Dict (PyStr × PyStr) NodeRow
  edges : Dict (PyStr × PyStr × PyStr) Int
  events : List EventRow

def MissionTables.empty : MissionTables := ⟨∅, ∅, ∅, []⟩

abbrev Run (α : Type) := Script MissionTables StoreError α

def select {α : Type} (f : MissionTables → α) : Run α := Script.query .sqliteError f

def execute (f : MissionTables → Except StoreError MissionTables) : Run Unit :=
  Script.update .sqliteError f

/-- `BEGIN IMMEDIATE … COMMIT`, with `ROLLBACK` and the exception again. -/
def immediate {α : Type} (x : Run α) : Run α := Script.transaction .sqliteError x

/-- `raise ValidationError(f"unknown mission {mission_id!r}")`. -/
def unknownMission (missionId : PyStr) : StoreError :=
  .validationError ("unknown mission " ++ missionId.quoted)

/-! ### The journal -/

namespace MissionTables

/-- The events of a mission in the order of their `seq`. -/
def eventsOf (db : MissionTables) (missionId : PyStr) : List EventRow :=
  (db.events.filter (·.missionId = missionId)).insertionSort fun e e' => e.seq ≤ e'.seq

/-- `COALESCE(MAX(seq), 0) + 1`. -/
def nextSeq (db : MissionTables) (missionId : PyStr) : Nat :=
  ((db.events.filter (·.missionId = missionId)).map EventRow.seq).foldr max 0 + 1

/-- `INSERT INTO mission_events`, with its two uniqueness constraints. -/
def insertEvent (db : MissionTables) (e : EventRow) : Except StoreError MissionTables :=
  if db.events.any fun e' => e'.missionId = e.missionId ∧ e'.seq = e.seq then .error .sqliteError
  else if e.idempotencyKey.isSome ∧
      db.events.any fun e' => e'.missionId = e.missionId ∧ e'.idempotencyKey = e.idempotencyKey then
    .error .sqliteError
  else .ok { db with events := db.events ++ [e] }

def eventByIdempotency (db : MissionTables) (missionId key : PyStr) : Option EventRow :=
  db.events.find? fun e => e.missionId = missionId ∧ e.idempotencyKey = some key

end MissionTables

/-- `_append_event`: the event stands behind the last one of its mission. -/
def appendEvent (e : EventRow) : Run Unit := do
  let seq ← select fun db => db.nextSeq e.missionId
  execute fun db => db.insertEvent { e with seq := seq }

/-! ### Missions -/

/-- The check of `MissionSessionV1`. -/
def checkRealMode (r : MissionRow) : Except StoreError Unit :=
  if r.mode = .real ∧ (r.authorization.missionGrantId.elim true fun g => g.codes = []) ∧
      r.budgets.physicalActionCount ≤ 0 then
    .error (.validationError
      "REAL mode requires physical_action_count budget > 0 (fail closed: no implicit real-action allowance)")
  else .ok ()

/-- `get_mission`: the row, once more checked. -/
def getMission (missionId : PyStr) : Run (Option MissionRow) := do
  let row ← select fun db => db.missions.get? missionId
  match row with
  | none => pure none
  | some r => do
    let _ ← Script.ofExcept (checkRealMode r)
    pure (some r)

/-- `get_mission`, where the mission must be there. -/
def theMission (missionId : PyStr) : Run MissionRow := do
  let mission ← getMission missionId
  match mission with
  | none => Script.raise (unknownMission missionId)
  | some r => pure r

/-- The arguments of `create_mission`. -/
structure NewMission where
  ownerPrincipal : PyStr
  goal : PyVal
  bodyId : PyStr
  effectiveBodyHash : PyStr
  mode : ExecutionMode := .simulation
  budgets : Budgets := {}
  authorization : AuthorizationBinding := ⟨none, ["LOW"]⟩
  actorId : PyStr
  traceId : Option PyStr := none
  idempotencyKey : Option PyStr := none

/-- The row that `create_mission` makes. -/
def NewMission.row (a : NewMission) : MissionRow :=
  { ownerPrincipal := a.ownerPrincipal, goal := a.goal, bodyId := a.bodyId
    effectiveBodyHash := a.effectiveBodyHash, mode := a.mode, state := .idle, budgets := a.budgets
    authorization := a.authorization, contextRevision := 0, taskGraphRevision := 0, budgetUsage := ∅ }

/-- Its payload is the dump of the mission, of which nothing is read: here the id. -/
def NewMission.event (a : NewMission) (missionId : PyStr) : EventRow :=
  { missionId := missionId, seq := 0, eventType := .missionCreated, fromState := none
    toState := some .idle, reasonCode := "mission_created", actorId := a.actorId
    traceId := a.traceId, payload := .dict [("mission", .str missionId)]
    idempotencyKey := a.idempotencyKey }

/-- The rows that `create_mission` inserts. -/
def insertMission (missionId : PyStr) (a : NewMission) : Run PyStr := do
  execute fun db =>
    if db.missions.contains missionId then .error .sqliteError
    else .ok { db with missions := db.missions.set missionId a.row }
  appendEvent (a.event missionId)
  pure missionId

/-- The mission that an earlier call with the idempotency key made. -/
def earlierMission : Option PyStr → Run (Option PyStr)
  | none => pure none
  | some key => do
    let prior ← select fun db => db.events.find? (·.idempotencyKey = some key)
    match prior with
    | none => pure none
    | some e => do
      let mission ← getMission e.missionId
      pure (mission.map fun _ => e.missionId)

/-- `create_mission`; `newId` is the fresh id. -/
def createMission (newId : PyStr) (a : NewMission) : Run PyStr := do
  let earlier ← earlierMission a.idempotencyKey
  match earlier with
  | some missionId => pure missionId
  | none => do
    let _ ← Script.ofExcept (checkRealMode a.row)
    immediate (insertMission newId a)

/-- The arguments of `transition`. -/
structure Transition where
  missionId : PyStr
  toState : MissionState
  reasonCode : PyStr
  actorId : PyStr
  traceId : Option PyStr := none
  idempotencyKey : Option PyStr := none

def Transition.event (a : Transition) (fromState : MissionState) : EventRow :=
  { missionId := a.missionId, seq := 0, eventType := .missionTransition
    fromState := some fromState, toState := some a.toState, reasonCode := a.reasonCode
    actorId := a.actorId, traceId := a.traceId, payload := .dict []
    idempotencyKey := a.idempotencyKey }

/-- What `transition` does between `BEGIN` and `COMMIT`. -/
def journalTransition (a : Transition) : Run Unit := do
  let row ← select fun db => db.missions.get? a.missionId
  match row with
  | none => Script.raise (unknownMission a.missionId)
  | some r =>
    if a.toState ∉ missionTransitions r.state then
      Script.raise (.transitionError
        ("illegal transition " ++ r.state.value ++ " -> " ++ a.toState.value))
    else do
      execute fun db => .ok { db with
        missions := db.missions.mapVals fun k r' =>
          if k = a.missionId then { r' with state := a.toState } else r' }
      appendEvent (a.event r.state)

def priorEvent (missionId : PyStr) : Option PyStr → Run (Option EventRow)
  | none => pure none
  | some key => select fun db => db.eventByIdempotency missionId key

/-- `transition`; the row is read again after the commit. -/
def transition (a : Transition) : Run MissionRow := do
  let prior ← priorEvent a.missionId a.idempotencyKey
  match prior with
  | some _ => theMission a.missionId
  | none => do
    immediate (journalTransition a)
    theMission a.missionId

/-! ### Task graphs -/

namespace MissionTables

/-- `SELECT node_json FROM task_nodes`. -/
def nodesOf (db : MissionTables) (missionId : PyStr) : List TaskNode :=
  (db.nodes.entries.filter fun e => e.1.1 = missionId).map fun e => e.2.node

/-- `INSERT INTO task_nodes`. -/
def insertNode (db : MissionTables) (missionId : PyStr) (revision : Int) (n : TaskNode) :
    Except StoreError MissionTables :=
  if db.nodes.contains (missionId, n.taskId) then .error .sqliteError
  else .ok { db with nodes := db.nodes.set (missionId, n.taskId) ⟨revision, n⟩ }

/-- `INSERT INTO task_edges`. -/
def insertEdge (db : MissionTables) (missionId dep tid : PyStr) (revision : Int) :
    Except StoreError MissionTables :=
  if db.edges.contains (missionId, dep, tid) then .error .sqliteError
  else .ok { db with edges := db.edges.set (missionId, dep, tid) revision }

end MissionTables

def getTaskGraph (missionId : PyStr) : Run TaskGraph := do
  let r ← theMission missionId
  let nodes ← select fun db => db.nodesOf missionId
  pure ⟨missionId, r.taskGraphRevision, nodes⟩

def insertEdges (missionId tid : PyStr) (revision : Int) : List PyStr → Run Unit
  | [] => pure ()
  | dep :: deps => do
    execute fun db => db.insertEdge missionId dep tid revision
    insertEdges missionId tid revision deps

def insertNodes (missionId : PyStr) (revision : Int) : List TaskNode → Run Unit
  | [] => pure ()
  | n :: ns => do
    execute fun db => db.insertNode missionId revision n
    insertEdges missionId n.taskId revision n.dependencies
    insertNodes missionId revision ns

def nodeDict (nodes : List TaskNode) : Dict PyStr TaskNode :=
  nodes.foldl (fun d n => d.set n.taskId n) ∅

def TaskGraphPatch.event (patch : TaskGraphPatch) (actorId : PyStr) (newRevision : Int) : EventRow :=
  { missionId := patch.missionId, seq := 0, eventType := .taskGraphPatched, fromState := none
    toState := none, reasonCode := "task_graph_patch", actorId := actorId, traceId := none
    payload := .dict
      [("patch_id", .str patch.patchId), ("base_revision", .int patch.baseRevision),
        ("new_revision", .int newRevision), ("context_revision", .int patch.contextRevision),
        ("proposed_by", .str patch.proposedBy)]
    idempotencyKey := some patch.patchId }

/-- What `apply_patch` does between `BEGIN` and `COMMIT`. -/
def commitPatch (patch : TaskGraphPatch) (actorId : PyStr) : Run Int := do
  let row ← select fun db => db.missions.get? patch.missionId
  match row with
  | none => Script.raise (unknownMission patch.missionId)
  | some r =>
    if patch.baseRevision ≠ r.taskGraphRevision then
      Script.raise (.revisionConflictError
        ("patch base_revision " ++ PyStr.ofString (toString patch.baseRevision) ++ " != current " ++
          PyStr.ofString (toString r.taskGraphRevision)))
    else do
      let newRevision := r.taskGraphRevision + 1
      let rows ← select fun db => db.nodesOf patch.missionId
      let nodes ← Script.ofExcept (applyOperations patch.operations (nodeDict rows))
      let graph : TaskGraph := ⟨patch.missionId, newRevision, nodes.values⟩
      let _ ← Script.ofExcept graph.validateDag
      execute fun db => .ok { db with nodes := db.nodes.filter fun k _ => k.1 ≠ patch.missionId }
      execute fun db => .ok { db with edges := db.edges.filter fun k _ => k.1 ≠ patch.missionId }
      insertNodes patch.missionId newRevision graph.nodes
      execute fun db => .ok { db with
        missions := db.missions.mapVals fun k r' =>
          if k = patch.missionId then { r' with taskGraphRevision := newRevision } else r' }
      appendEvent (patch.event actorId newRevision)
      pure newRevision

def applyPatch (patch : TaskGraphPatch) (actorId : PyStr) : Run Int :=
  immediate (commitPatch patch actorId)

/-! ### Rebinding the body -/

def TaskNode.needsRebinding (n : TaskNode) : Bool :=
  n.kind = .requestAction ∧ (n.status = .pending ∨ n.status = .ready ∨ n.status = .blocked)

/-- `model_copy(update={"status": NEEDS_REBINDING})` where it applies. -/
def TaskNode.rebound (n : TaskNode) : TaskNode :=
  if n.needsRebinding then { n with status := .needsRebinding } else n

/-- `UPDATE task_nodes` for each of the tasks. -/
def rebindNodes (missionId : PyStr) : List TaskNode → Run Unit
  | [] => pure ()
  | n :: ns => do
    if n.needsRebinding then
      execute fun db => .ok { db with
        nodes := db.nodes.mapVals fun k row =>
          if k = (missionId, n.taskId) then { row with node := n.rebound } else row }
    rebindNodes missionId ns

def reboundEvent (missionId oldBodyHash newBodyHash actorId : PyStr) (affected : Nat) : EventRow :=
  { missionId := missionId, seq := 0, eventType := .bodyRebound, fromState := none
    toState := none, reasonCode := "body_hash_changed", actorId := actorId, traceId := none
    payload := .dict
      [("old_body_hash", .str oldBodyHash), ("new_body_hash", .str newBodyHash),
        ("nodes_needs_rebinding", .int affected)]
    idempotencyKey := none }

/-- What `rebind_body` does between `BEGIN` and `COMMIT`. -/
def commitRebind (missionId newBodyHash actorId : PyStr) : Run Nat := do
  let row ← select fun db => db.missions.get? missionId
  match row with
  | none => Script.raise (unknownMission missionId)
  | some r => do
    execute fun db => .ok { db with
      missions := db.missions.mapVals fun k r' =>
        if k = missionId then { r' with effectiveBodyHash := newBodyHash } else r' }
    let nodes ← select fun db => db.nodesOf missionId
    rebindNodes missionId nodes
    let affected := nodes.countP TaskNode.needsRebinding
    appendEvent (reboundEvent missionId r.effectiveBodyHash newBodyHash actorId affected)
    pure affected

def rebindBody (missionId newBodyHash actorId : PyStr) : Run Nat :=
  immediate (commitRebind missionId newBodyHash actorId)

/-! ### Context revision and budgets -/

def bumpContextRevision (missionId : PyStr) : Run Int :=
  immediate do
    let row ← select fun db => db.missions.get? missionId
    match row with
    | none => Script.raise (unknownMission missionId)
    | some r => do
      execute fun db => .ok { db with
        missions := db.missions.mapVals fun k r' =>
          if k = missionId then { r' with contextRevision := r.contextRevision + 1 } else r' }
      pure (r.contextRevision + 1)

def addUsage : List (PyStr × Int) → Dict BudgetField Int → Except StoreError (Dict BudgetField Int)
  | [], counters => .ok counters
  | (key, delta) :: usage, counters =>
    match BudgetField.ofName? key with
    | none => .error (.validationError ("unknown budget field " ++ key.quoted))
    | some f => addUsage usage (counters.set f ((counters.get? f).getD 0 + delta))

def exceeded (budgets : Budgets) (counters : Dict BudgetField Int) : Option BudgetField :=
  BudgetField.all.find? fun f => 0 < budgets.get f ∧ budgets.get f < (counters.get? f).getD 0

/-- The counters that `add_budget_usage` stores. -/
def newUsage (r : MissionRow) (usage : List (PyStr × Int)) : Except StoreError (Dict BudgetField Int) :=
  match addUsage usage r.budgetUsage with
  | .error e => .error e
  | .ok counters =>
    match exceeded r.budgets counters with
    | some f =>
        .error (.budgetExceededError
          ("budget " ++ f.name ++ " exceeded: " ++
            PyStr.ofString (toString ((counters.get? f).getD 0)) ++ " > " ++
            PyStr.ofString (toString (r.budgets.get f))))
    | none => .ok counters

def addBudgetUsage (missionId : PyStr) (usage : List (PyStr × Int)) : Run (Dict BudgetField Int) :=
  immediate do
    let row ← select fun db => db.missions.get? missionId
    match row with
    | none => Script.raise (unknownMission missionId)
    | some r => do
      let counters ← Script.ofExcept (newUsage r usage)
      execute fun db => .ok { db with
        missions := db.missions.mapVals fun k r' =>
          if k = missionId then { r' with budgetUsage := counters } else r' }
      pure counters

/-! ### Conversation -/

def messagesOf (payload : PyVal) : List PyVal :=
  match payload.get "messages" with
  | .list ms => ms
  | _ => []

/-- Decimal digits, and single underscores between them; the Boolean says that a digit was last. -/
def digits? (n : Nat) (last : Bool) : List Nat → Option Nat
  | [] => if last then some n else none
  | c :: cs =>
      if 48 ≤ c ∧ c ≤ 57 then digits? (10 * n + (c - 48)) true cs
      else if c = 95 ∧ last then digits? n false cs else none

/-- `int(v)`, when it does not raise; of the digits of Unicode, the ASCII ones are read. -/
def pyInt? : PyVal → Option Int
  | .int n => some n
  | .bool b => some (if b then 1 else 0)
  | .float (.finite q) => some (q.num.tdiv q.den)
  | .str s =>
      match s.strip.codes with
      | 45 :: cs => (digits? 0 false cs).map fun n => -n
      | 43 :: cs => (digits? 0 false cs).map Nat.cast
      | cs => (digits? 0 false cs).map Nat.cast
  | _ => none

/-- `message["seq"]`, if it is there. -/
def seqOf : PyVal → Option PyVal
  | .dict kvs => (kvs.find? fun e => e.1 = ("seq" : PyStr)).map Prod.snd
  | _ => none

/-- `_conversation_length`, from the events of the mission in order. -/
def conversationLength (events : List EventRow) : Except StoreError Int :=
  let batches := (events.filter (·.eventType = .conversationAppended)).map fun e => messagesOf e.payload
  match (batches.getLast?.bind List.getLast?).bind seqOf with
  | none => .ok (batches.map fun ms => (ms.length : Int)).sum
  | some v =>
    match pyInt? v with
    | some n => .ok (n + 1)
    | none => .error (.validationError "invalid literal for int()")

/-- `message.setdefault("entry_id", …)` and `message.setdefault("seq", …)`. -/
def stamp (missionId : PyStr) (seq : Int) (message : List (PyStr × PyVal)) : List (PyStr × PyVal) :=
  let withId :=
    if message.any fun e => e.1 = "entry_id" then message
    else PyVal.setEntry "entry_id"
      (.str ("conv_" ++ missionId ++ "_" ++ PyStr.ofString (toString seq))) message
  if withId.any fun e => e.1 = "seq" then withId else PyVal.setEntry "seq" (.int seq) withId

def stampAll (missionId : PyStr) : Int → List (List (PyStr × PyVal)) → List PyVal
  | _, [] => []
  | seq, m :: ms => .dict (stamp missionId seq m) :: stampAll missionId (seq + 1) ms

def conversationEvent (missionId actorId : PyStr) (messages : List PyVal) : EventRow :=
  { missionId := missionId, seq := 0, eventType := .conversationAppended, fromState := none
    toState := none, reasonCode := "conversation_turn", actorId := actorId, traceId := none
    payload := .dict [("messages", .list messages)], idempotencyKey := none }

def appendConversation (missionId : PyStr) (messages : List (List (PyStr × PyVal)))
    (actorId : PyStr) : Run Unit := do
  let events ← select fun db => db.eventsOf missionId
  let seq ← Script.ofExcept (conversationLength events)
  immediate (appendEvent (conversationEvent missionId actorId (stampAll missionId seq messages)))

/-! ### Consistency -/

/-- The state that a journal leaves, if each of its transitions is legal and starts where
the last one ended. -/
def replay : MissionState → List EventRow → Except StoreError MissionState
  | state, [] => .ok state
  | state, e :: es =>
    if e.eventType = .missionTransition then
      match e.fromState, e.toState with
      | some fromS, some toS =>
        if fromS ≠ state then .error (.validationError "journal/projection drift")
        else if toS ∉ missionTransitions fromS then
          .error (.validationError "illegal journaled transition")
        else replay toS es
      | _, _ => .error (.validationError "not a mission state")
    else replay state es

/-- What `verify_consistency` checks of the row and the journal. -/
def checkJournal (r : MissionRow) (events : List EventRow) : Except StoreError Unit :=
  if events = [] then .error (.validationError "journal is empty; mission row without events")
  else if events.map EventRow.seq ≠ List.range' 1 events.length then
    .error (.validationError "journal sequence gap")
  else
    match replay .idle events with
    | .error e => .error e
    | .ok state =>
      if r.state ∉ terminalStates ∧ state ≠ r.state then
        .error (.validationError
          ("projection state " ++ r.state.value ++ " != replay state " ++ state.value))
      else .ok ()

def verifyConsistency (missionId : PyStr) : Run Unit := do
  let r ← theMission missionId
  let events ← select fun db => db.eventsOf missionId
  let _ ← Script.ofExcept (checkJournal r events)
  let graph ← getTaskGraph missionId
  Script.ofExcept graph.validateDag

/-! ### Any sequence of operations -/

inductive Op
  | createMission (newId : PyStr) (a : NewMission)
  | transition (a : Transition)
  | applyPatch (patch : TaskGraphPatch) (actorId : PyStr)
  | rebindBody (missionId newBodyHash actorId : PyStr)
  | bumpContextRevision (missionId : PyStr)
  | addBudgetUsage (missionId : PyStr) (usage : List (PyStr × Int))
  | appendConversation (missionId : PyStr) (messages : List (List (PyStr × PyVal))) (actorId : PyStr)

def perform : Op → Run Unit
  | .createMission newId a => createMission newId a >>= fun _ => pure ()
  | .transition a => transition a >>= fun _ => pure ()
  | .applyPatch patch actorId => applyPatch patch actorId >>= fun _ => pure ()
  | .rebindBody m h actorId => rebindBody m h actorId >>= fun _ => pure ()
  | .bumpContextRevision m => bumpContextRevision m >>= fun _ => pure ()
  | .addBudgetUsage m usage => addBudgetUsage m usage >>= fun _ => pure ()
  | .appendConversation m messages actorId => appendConversation m messages actorId

/-- An operation and the statement of it at which the database fails. -/
structure Call where
  op : Op
  fuse : Option Nat

def Call.result (l : Call) (db : MissionTables) : Except StoreError Unit := (perform l.op ⟨db, l.fuse⟩).1

def Call.after (l : Call) (db : MissionTables) : MissionTables := (perform l.op ⟨db, l.fuse⟩).2.store

def missionStore : Machine MissionTables Call where
  Init := fun db => db = MissionTables.empty
  step := fun db l => some (l.after db)

end Rosclaw.MissionStore
