/-
The tables of the task kernel and the statements that change them.

A task row is looked up by its task id, a revision by the id and its number, an
artifact, a verification and an input by their own ids; rows stand in the order in
which they were inserted.  The connection commits every statement by itself, and a
statement is refused when a text it binds has no UTF-8 form or when it breaks a
uniqueness constraint.
-/
import Rosclaw.Lib.Dict
import Rosclaw.Lib.Text
import Rosclaw.Lib.Txn

namespace Rosclaw.TaskKernel

inductive TaskState
  | running | waitingOperation | waitingInput | waitingPermission | paused | verifying
  | recovering | succeeded | blocked | failed | cancelled
deriving DecidableEq, Repr

namespace TaskState

def name : TaskState → PyStr
  | running => "RUNNING"
  | waitingOperation => "WAITING_OPERATION"
  | waitingInput => "WAITING_INPUT"
  | waitingPermission => "WAITING_PERMISSION"
  | paused => "PAUSED"
  | verifying => "VERIFYING"
  | recovering => "RECOVERING"
  | succeeded => "SUCCEEDED"
  | blocked => "BLOCKED"
  | failed => "FAILED"
  | cancelled => "CANCELLED"

/-- `state in TASK_TERMINAL`. -/
def terminal : TaskState → Bool
  | succeeded | blocked | failed | cancelled => true
  | _ => false

end TaskState

/-- A row of `tasks`. -/
structure Task where
  missionId : PyStr
  rootGoal : PyStr
  mode : PyStr
  bodyId : PyStr
  workspacePath : PyStr
  state : TaskState
  activeRevision : Nat
  locale : PyStr
  /-- the microsecond of `created_at` -/
  createdAt : Int
  terminalReason : Option PyStr
  userAcceptedAt : Option Int
deriving DecidableEq, Repr

/-- `TaskDeliverableV2`, as the verdict reads it. -/
structure Deliverable where
  kind : PyStr
  mediaType : PyStr
  required : Bool
deriving DecidableEq, Repr

/-- `TaskSpecV2`, as the verdict reads it. -/
structure TaskSpec where
  deliverables : List Deliverable
deriving DecidableEq, Repr

structure AcceptanceRun where
  argv : List PyStr
  timeoutSec : Nat
deriving DecidableEq, Repr

/-- `acceptance_json`; `{}` is the default of the column. -/
structure Acceptance where
  requiredFiles : List PyStr
  run : Option AcceptanceRun
deriving DecidableEq, Repr

/-- A row of `task_revisions`. -/
structure Revision where
  userMessageId : PyStr
  goalDelta : PyStr
  acceptance : Acceptance
  /-- `acceptance_spec_json` is set -/
  acceptanceSpec : Bool
  taskSpec : TaskSpec
  createdAt : Int
deriving DecidableEq, Repr

/-- A row of `task_session_bindings`, of the task and the session of its key. -/
structure Binding where
  role : PyStr
  active : Bool
deriving DecidableEq, Repr

/-- A row of `user_inputs`, of the message of its key. -/
structure UserInput where
  missionId : PyStr
  sessionRef : PyStr
  text : PyStr
  forceNew : Bool
  taskId : Option PyStr
  createdAt : Int
deriving DecidableEq, Repr

/-- `metadata["lineage"]`; a field that is not there is the empty text. -/
structure Lineage where
  kind : PyStr
  renderReceiptPath : PyStr
  renderReceiptDigest : PyStr
  inputTraceDigest : PyStr
  traceId : PyStr
  revision : Option Int
deriving DecidableEq, Repr

/-- `metadata["resource"]`. -/
structure Resource where
  resourceId : PyStr
  quality : PyStr
  canonical : Bool
  modelDigest : PyStr
deriving DecidableEq, Repr

structure Metadata where
  resource : Option Resource
  lineage : Option Lineage
  /-- `evidence.levels` -/
  levels : List PyStr
deriving DecidableEq, Repr

/-- A row of `artifacts`, of the artifact id of its key. -/
structure Artifact where
  taskId : PyStr
  revision : Nat
  path : PyStr
  mediaType : PyStr
  sha256 : PyStr
  sizeBytes : Nat
  producer : PyStr
  metadata : Metadata
deriving DecidableEq, Repr

inductive VerificationStatus
  | pass | superseded
deriving DecidableEq, Repr

/-- A row of `verifications`, of the verification id of its key. -/
structure Verification where
  taskId : PyStr
  revision : Nat
  status : VerificationStatus
  checks : Nat
  grade : PyStr
  trackingMaxErrorM : Option Rat
  /-- `evidence_json["artifact_ids"]` -/
  artifactIds : List PyStr
deriving DecidableEq, Repr

/-- A row of `action_txns`, as the verdict reads it. -/
structure ActionTxn where
  missionId : PyStr
  piSessionId : PyStr
  state : PyStr
deriving DecidableEq, Repr

/-- A row of `task_events`. -/
structure Event where
  taskId : PyStr
  sessionRef : PyStr
  eventType : PyStr
  payload : PyVal

inductive Lifecycle
  | active | completed
deriving DecidableEq, Repr

inductive Execution
  | running | succeeded
deriving DecidableEq, Repr

inductive OutcomeVerification
  | pass | passNearLimit | failed | partly | cancelled
deriving DecidableEq, Repr

inductive Delivery
  | delivered | partly | nothing | needsRepair | missing
deriving DecidableEq, Repr

/-- `RepairDirective`; the one of a task that is over has no fingerprint. -/
structure RepairDirective where
  criterion : PyStr
  repairable : Bool
  fingerprint : Option PyStr
  failures : List PyStr
deriving DecidableEq, Repr

/-- `ArtifactRef`; the command that opens it repeats its id. -/
structure ArtifactRef where
  artifactId : PyStr
  kind : PyStr
  mediaType : PyStr
  path : PyStr
  sizeBytes : Nat
  digest : PyStr
  producer : PyStr
deriving DecidableEq, Repr

structure TaskOutcome where
  taskId : PyStr
  revision : Nat
  lifecycle : Lifecycle
  execution : Execution
  verification : OutcomeVerification
  delivery : Delivery
  accepted : Bool
  workspaceProjection : PyStr
  domain : PyStr
  trusted : Bool
  levels : List PyStr
  artifactRefs : List ArtifactRef
  createdAt : Int
  repairDirective : Option RepairDirective
deriving DecidableEq, Repr

/-- A row of `task_repairs`, of the repair id of its key. -/
structure Repair where
  taskId : PyStr
  revision : Nat
  fingerprint : PyStr
  directive : RepairDirective
deriving DecidableEq, Repr

structure Tables where
  inputs : Dict PyStr UserInput
  tasks : Dict PyStr Task
  revisions : Dict (PyStr × Nat) Revision
  /-- `harness_sessions`: the native id of the backend and the directory -/
  sessions : Dict PyStr (PyStr × PyStr)
  bindings : Dict (PyStr × PyStr) Binding
  events : List Event
  artifacts : Dict PyStr Artifact
  verifications : Dict PyStr Verification
  outcomes : Dict (PyStr × Nat) TaskOutcome
  repairs : Dict PyStr Repair
  actionTxns : List ActionTxn

def Tables.empty : Tables :=
  { inputs := ∅, tasks := ∅, revisions := ∅, sessions := ∅, bindings := ∅, events := []
    artifacts := ∅, verifications := ∅, outcomes := ∅, repairs := ∅, actionTxns := [] }

inductive Write
  | insertInput (messageId : PyStr) (i : UserInput)
  /-- `UPDATE user_inputs SET task_id` -/
  | attachInput (messageId taskId : PyStr)
  | insertTask (taskId : PyStr) (t : Task)
  | insertRevision (taskId : PyStr) (revision : Nat) (r : Revision)
  /-- `INSERT OR IGNORE INTO harness_sessions` -/
  | insertSession (sessionRef backendNativeId cwd : PyStr)
  | insertBinding (taskId sessionRef : PyStr)
  /-- `UPDATE task_session_bindings SET active = 0` -/
  | releaseBinding (taskId sessionRef : PyStr)
  /-- `UPDATE tasks SET active_revision, state = 'RUNNING'` -/
  | reopenTask (taskId : PyStr) (revision : Nat)
  /-- `UPDATE tasks SET active_revision` -/
  | reviseTask (taskId : PyStr) (revision : Nat)
  /-- the `UPDATE` of `transition` -/
  | setState (taskId : PyStr) (state : TaskState) (reason : PyStr)
  /-- `UPDATE tasks SET state = 'WAITING_INPUT'` -/
  | waitInput (taskId : PyStr)
  /-- `UPDATE tasks SET user_accepted_at` -/
  | acceptTask (taskId : PyStr) (now : Int)
  /-- `UPDATE task_revisions SET acceptance_json, acceptance_spec_json` -/
  | freezeAcceptance (taskId : PyStr) (revision : Nat) (acceptance : Acceptance)
  | insertArtifact (artifactId : PyStr) (a : Artifact)
  | insertVerification (verificationId : PyStr) (v : Verification)
  /-- `UPDATE verifications SET status = 'SUPERSEDED'` -/
  | supersede (taskId : PyStr)
  /-- `INSERT OR IGNORE INTO task_outcomes` -/
  | insertOutcome (taskId : PyStr) (revision : Nat) (o : TaskOutcome)
  | insertRepair (repairId : PyStr) (r : Repair)
  | emit (e : Event)

namespace Metadata

def texts (m : Metadata) : List PyStr :=
  (m.resource.elim [] fun r => [r.resourceId, r.quality, r.modelDigest]) ++
    (m.lineage.elim [] fun l =>
      [l.kind, l.renderReceiptPath, l.renderReceiptDigest, l.inputTraceDigest, l.traceId]) ++
    m.levels

end Metadata

def Write.texts : Write → List PyStr
  | .insertInput m i => [m, i.missionId, i.sessionRef, i.text]
  | .attachInput m tid => [m, tid]
  | .insertTask tid t => [tid, t.missionId, t.rootGoal, t.mode, t.bodyId, t.workspacePath, t.locale]
  | .insertRevision tid _ r => [tid, r.userMessageId, r.goalDelta]
  | .insertSession s b c => [s, b, c]
  | .insertBinding tid s => [tid, s]
  | .releaseBinding tid s => [tid, s]
  | .reopenTask tid _ => [tid]
  | .reviseTask tid _ => [tid]
  | .setState tid _ reason => [tid, reason]
  | .waitInput tid => [tid]
  | .acceptTask tid _ => [tid]
  | .freezeAcceptance tid _ a => tid :: a.requiredFiles ++ a.run.elim [] AcceptanceRun.argv
  | .insertArtifact k a => [k, a.taskId, a.path, a.mediaType, a.sha256, a.producer] ++ a.metadata.texts
  | .insertVerification k v => k :: v.taskId :: v.grade :: v.artifactIds
  | .supersede tid => [tid]
  | .insertOutcome tid _ o =>
      tid :: o.domain :: o.levels ++ o.repairDirective.elim [] RepairDirective.failures
  | .insertRepair k r => k :: r.taskId :: r.fingerprint :: r.directive.failures
  | .emit e => [e.taskId, e.sessionRef]

def Write.encodable : Write → Bool
  | .emit e => e.taskId.encodable && e.sessionRef.encodable && e.payload.encodable
  | w => w.texts.all PyStr.encodable

namespace Tables

def admits (db : Tables) : Write → Bool
  | .insertInput m _ => !db.inputs.contains m
  | .insertTask tid _ => !db.tasks.contains tid
  | .insertRevision tid n r =>
      !db.revisions.contains (tid, n) && !db.revisions.values.any (·.userMessageId = r.userMessageId)
  | .insertBinding tid s =>
      !db.bindings.contains (tid, s) &&
        !db.bindings.entries.any fun e => e.1.1 = tid ∧ e.2.role = "primary" ∧ e.2.active
  | .insertArtifact k _ => !db.artifacts.contains k
  | .insertVerification k _ => !db.verifications.contains k
  | .insertRepair k _ => !db.repairs.contains k
  | _ => true

def apply (db : Tables) : Write → Tables
  | .insertInput m i => { db with inputs := db.inputs.set m i }
  | .attachInput m tid =>
      { db with inputs := db.inputs.mapVals fun k i => if k = m then { i with taskId := some tid } else i }
  | .insertTask tid t => { db with tasks := db.tasks.set tid t }
  | .insertRevision tid n r => { db with revisions := db.revisions.set (tid, n) r }
  | .insertSession s b c =>
      { db with sessions :=
          if db.sessions.contains s || db.sessions.values.any (·.1 = b) then db.sessions
          else db.sessions.set s (b, c) }
  | .insertBinding tid s => { db with bindings := db.bindings.set (tid, s) ⟨"primary", true⟩ }
  | .releaseBinding tid s =>
      { db with bindings := db.bindings.mapVals fun k b => if k = (tid, s) then { b with active := false } else b }
  | .reopenTask tid n =>
      { db with tasks := db.tasks.mapVals fun k t =>
          if k = tid then { t with activeRevision := n, state := .running } else t }
  | .reviseTask tid n =>
      { db with tasks := db.tasks.mapVals fun k t => if k = tid then { t with activeRevision := n } else t }
  | .setState tid st reason =>
      { db with tasks := db.tasks.mapVals fun k t =>
          if k = tid then
            { t with state := st, terminalReason := if reason.isEmpty then t.terminalReason else some reason }
          else t }
  | .waitInput tid =>
      { db with tasks := db.tasks.mapVals fun k t => if k = tid then { t with state := .waitingInput } else t }
  | .acceptTask tid now =>
      { db with tasks := db.tasks.mapVals fun k t => if k = tid then { t with userAcceptedAt := some now } else t }
  | .freezeAcceptance tid n a =>
      { db with revisions := db.revisions.mapVals fun k r =>
          if k = (tid, n) then { r with acceptance := a, acceptanceSpec := true } else r }
  | .insertArtifact k a => { db with artifacts := db.artifacts.set k a }
  | .insertVerification k v => { db with verifications := db.verifications.set k v }
  | .supersede tid =>
      { db with verifications := db.verifications.mapVals fun _ v =>
          if v.taskId = tid ∧ v.status = .pass then { v with status := .superseded } else v }
  | .insertOutcome tid n o =>
      { db with outcomes := if db.outcomes.contains (tid, n) then db.outcomes else db.outcomes.set (tid, n) o }
  | .insertRepair k r => { db with repairs := db.repairs.set k r }
  | .emit e => { db with events := db.events ++ [e] }

end Tables

/-- How an operation ends when it does not answer. -/
inductive KernelError
  | valueError (message : PyStr)
  | assertionError
  | unicodeEncodeError
  | integrityError
  /-- a contract model refuses a field -/
  | validationError
  | osError
deriving DecidableEq, Repr

instance : Store Tables Write KernelError where
  refuses db w :=
    if !w.encodable then some .unicodeEncodeError
    else if !db.admits w then some .integrityError
    else none
  apply := Tables.apply

abbrev Kernel := Txn Tables Write KernelError

theorem refuses_eq_none {db : Tables} {w : Write} :
    Store.refuses db w = none ↔ w.encodable = true ∧ db.admits w = true := by
  show (if !w.encodable then some KernelError.unicodeEncodeError
    else if !db.admits w then some KernelError.integrityError else none) = none ↔ _
  cases w.encodable <;> cases db.admits w <;> simp

@[simp] theorem apply_eq (db : Tables) (w : Write) : Store.apply db w = db.apply w := rfl

end Rosclaw.TaskKernel
