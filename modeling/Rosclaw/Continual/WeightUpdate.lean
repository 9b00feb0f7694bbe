/-
`WeightUpdateService` (`continual/services/weight_update.py`) and its inference service.

A method of the weight service appends a request to its own journal, calls the inference service,
and appends how the call ended.  A new process opens the inference service, which aborts the
motions that were under way, and then the weight service, which resolves what is pending.
The parameters of a request and the texts of exceptions are left out of the journal: nothing
reads them.
-/
import Rosclaw.Continual.Inference
import Rosclaw.Lib.Machine

namespace Rosclaw.Continual.WeightUpdateService

open EventSourced InferenceService

inductive OperationName
  | publish | verify | stage | discard | activate | freeze | unfreeze | rollback
deriving DecidableEq, Repr

inductive Operation (H B : Type)
  | publish (policy : PolicyVersion H) (artifact : B)
  | verify
  | stage
  | discard (reason : String)
  | activate (phase : SkillPhase) (report : GateReport H)
  | freeze (reason : String)
  | unfreeze (reason : String)
  | rollback (reason : String)

variable {H B : Type}

def Operation.name : Operation H B → OperationName
  | .publish _ _ => .publish
  | .verify => .verify
  | .stage => .stage
  | .discard _ => .discard
  | .activate _ _ => .activate
  | .freeze _ => .freeze
  | .unfreeze _ => .unfreeze
  | .rollback _ => .rollback

inductive WeightEvent (H : Type)
  | requested (operationId : H) (operation : OperationName) (inferenceEventHashBefore : Option H)
  | completed (operationId : H) (operation : OperationName) (inferenceEventHash : H)
      (recovered : Bool)
  | aborted (operationId : H) (operation : OperationName) (recovered : Bool)

structure ServiceHashes (H B : Type) extends Hashes H B where
  /-- `canonical_hash` of an operation, the number of the next event and the last hash of the
  inference journal -/
  operationId : Operation H B → Nat → H → H
  /-- `last_hash` of an inference journal, which is the hash of its last event -/
  lastHash : List (InferenceEvent H) → H

/-- A request that has not ended: its operation, and the hash of the inference journal before. -/
abbrev Pending (H : Type) := OperationName × Option H

/-- `expected` in `_recover_pending`. -/
def expects : OperationName → InferenceEvent H → Bool
  | .publish, .published _ _ => true
  | .verify, .verified _ => true
  | .stage, .staged _ => true
  | .discard, .discarded _ _ _ => true
  | .activate, .activated _ _ _ => true
  | .activate, .frozen _ _ => true
  | .freeze, .frozen _ _ => true
  | .unfreeze, .unfrozen _ _ => true
  | .rollback, .rolledBack _ _ _ => true
  | _, _ => false

section

variable [DecidableEq H]

def pendingAfter (pending : Dict H (Pending H)) : WeightEvent H → Dict H (Pending H)
  | .requested operationId operation before => pending.set operationId (operation, before)
  | .completed operationId _ _ _ | .aborted operationId _ _ => pending.erase operationId

def pendingOf (es : List (WeightEvent H)) : Dict H (Pending H) := es.foldl pendingAfter ∅

variable (hs : ServiceHashes H B)

/-- What `_recover_pending` does with a request. -/
inductive Classified (H : Type)
  | complete (inferenceEventHash : H)
  | abort
  | ambiguous

def indicesOf (es : List (InferenceEvent H)) (before : H) : List Nat :=
  (List.range es.length).filter fun i => hs.lastHash (es.take (i + 1)) = before

def classify (es : List (InferenceEvent H)) (operation : OperationName) (before : Option H) :
    Classified H :=
  match before.map (indicesOf hs es) with
  | some [i] => match es.drop (i + 1) with
    | [] => .abort
    | [e] => if expects operation e then .complete (hs.lastHash (es.take (i + 2))) else .ambiguous
    | _ :: _ :: _ => .ambiguous
  | _ => .abort

/-- The call that a method makes: the blobs as it leaves them, and the event that it appends. -/
def callback [DecidableEq B] (blobs : Blobs H B) (st : Inference H) :
    Operation H B → Blobs H B × Option (InferenceEvent H)
  | .publish policy artifact => publish hs.toHashes blobs st policy artifact
  | .verify => (blobs, verifyPublished hs.toHashes blobs st)
  | .stage => (blobs, stage hs.toHashes st)
  | .discard reason => (blobs, discardCandidate hs.toHashes st reason)
  | .activate phase report => (blobs, activate hs.toHashes blobs st phase report)
  | .freeze reason => (blobs, freeze reason .safety)
  | .unfreeze reason => (blobs, unfreeze st reason)
  | .rollback reason => (blobs, rollbackActive st reason)

end

/-! ### The process -/

inductive Control (H B : Type)
  | down
  /-- `InferenceService.__init__` has these motions to abort -/
  | opening (st : Inference H) (leases : List H)
  /-- both services; `WeightUpdateService.__init__` has these requests to resolve -/
  | serving (st : Inference H) (pending : List (H × Pending H))
  /-- it has frozen the inference service for the first of them -/
  | freezing (st : Inference H) (job : H × Pending H) (pending : List (H × Pending H))
  /-- the request is in the journal -/
  | requested (st : Inference H) (operationId : H) (op : Operation H B)
  /-- the call has returned or raised -/
  | called (st : Inference H) (operationId : H) (op : Operation H B) (returned : Bool)

def Control.state : Control H B → Option (Inference H)
  | .down => none
  | .opening st _ | .serving st _ | .freezing st _ _ | .requested st _ _ | .called st _ _ _ => some st

/-- What is remembered about a request: its event, the length of the inference journal and the
slots at that time, and if its call has made an event durable. -/
structure Request (H : Type) where
  event : WeightEvent H
  length : Nat
  slots : Slots H
  wrote : Bool

/-- A request with the event that ended it, and the slots at that time. -/
structure Resolved (H : Type) where
  request : Request H
  event : WeightEvent H
  slots : Slots H

/-- The journals and the blobs, the process, and what is remembered of the requests. -/
structure State (H B : Type) where
  inference : List (InferenceEvent H)
  weight : List (WeightEvent H)
  blobs : Blobs H B
  control : Control H B
  current : Option (Request H)
  past : List (Resolved H)

inductive Label (H B : Type)
  /-- `InferenceService(root, active=…, active_artifact=…)` on an empty journal -/
  | create (active : PolicyVersion H) (artifact : B)
  /-- `InferenceService(root)`, up to the motions -/
  | openInference
  /-- the next motion is aborted -/
  | abortMotion
  /-- `WeightUpdateService(root, inference=…)`, up to what is pending -/
  | openWeights
  /-- the next append of `_recover_pending` -/
  | recover
  | request (op : Operation H B)
  | call
  | resolve
  | beginMotion (episodeId : String) (phase : SkillPhase)
  | endMotion (leaseId : H) (aborted : Bool) (reason : String)
  /-- the process ends; `stored` if a publication has stored its blob -/
  | crash (stored : Bool)

section

variable [DecidableEq H] (hs : ServiceHashes H B) (s : State H B)

/-- `self.log.append(…)` and `self._apply(…)` of the inference service. -/
def State.log (st : Inference H) (e : InferenceEvent H) (next : Inference H → Control H B)
    (raised : Control H B) : State H B :=
  { s with
    inference := s.inference ++ [e]
    control := (applyEvent hs.toHashes st e).elim raised next }

def State.close (e : WeightEvent H) (st : Inference H) (pending : List (H × Pending H)) :
    State H B :=
  { s with
    weight := s.weight ++ [e]
    control := .serving st pending
    current := none
    past := s.past ++ s.current.toList.map fun r => ⟨r, e, st.toSlots⟩ }

/-- `__init__`, after the journal is replayed. -/
def opened (blobs : Blobs H B) (st : Inference H) : Control H B :=
  if ∀ p ∈ st.policies, (readBlob hs.toHashes blobs p).isSome then
    .opening st (st.motions.entries.map Prod.fst)
  else .down

def create [DecidableEq B] (active : PolicyVersion H) (artifact : B) : State H B :=
  match storeBlob hs.toHashes s.blobs active artifact with
  | none => s
  | some blobs =>
      let s' : State H B := { s with blobs := blobs }
      s'.log hs {} (.initialized active.toPolicyFields active.artifactHash) (opened hs blobs) .down

def openInference : State H B :=
  { s with
    control := (replay (applyEvent hs.toHashes) {} s.inference).elim .down (opened hs s.blobs) }

/-- `_recover_pending`, up to its first append. -/
def recover (st : Inference H) (job : H × Pending H) (pending : List (H × Pending H)) :
    State H B :=
  match classify hs s.inference job.2.1 job.2.2 with
  | .complete inferenceEventHash =>
      s.close (.completed job.1 job.2.1 inferenceEventHash true) st pending
  | .abort => s.close (.aborted job.1 job.2.1 true) st pending
  | .ambiguous => s.log hs st
      (.frozen "ambiguous inference mutations followed an interrupted weight operation"
        (some .safety)) (fun st => .freezing st job pending) .down

/-- `_run`, up to the request. -/
def request (st : Inference H) (op : Operation H B) : State H B :=
  let operationId := hs.operationId op (s.weight.length + 1) (hs.lastHash s.inference)
  let e := WeightEvent.requested operationId op.name (some (hs.lastHash s.inference))
  { s with
    weight := s.weight ++ [e]
    control := .requested st operationId op
    current := some ⟨e, s.inference.length, st.toSlots, false⟩ }

def call [DecidableEq B] (st : Inference H) (operationId : H) (op : Operation H B) : State H B :=
  let result := callback hs s.blobs st op
  match result.2 with
  | none => { s with blobs := result.1, control := .called st operationId op false }
  | some e =>
      let s' : State H B := { s with
        blobs := result.1
        current := s.current.map fun r => { r with wrote := true } }
      s'.log hs st e (fun st => .called st operationId op true) (.called st operationId op false)

/-- `_run`, after the callback. -/
def resolve (st : Inference H) (operationId : H) (op : Operation H B) (returned : Bool) :
    State H B :=
  s.close (if returned then .completed operationId op.name (hs.lastHash s.inference) false
    else .aborted operationId op.name false) st []

def motion (st : Inference H) : Option (InferenceEvent H) → State H B
  | none => s
  | some e => s.log hs st e (fun st => .serving st []) (.serving st [])

def crashBlobs [DecidableEq B] (stored : Bool) : Blobs H B :=
  match s.control with
  | .requested st _ op => if stored then (callback hs s.blobs st op).1 else s.blobs
  | _ => s.blobs

end

def weightUpdates [DecidableEq H] [DecidableEq B] (hs : ServiceHashes H B) :
    Machine (State H B) (Label H B) where
  Init s := s = ⟨[], [], ∅, .down, none, []⟩
  step s l := match l, s.control with
    | .create active artifact, .down =>
        if s.inference.isEmpty then some (create hs s active artifact) else none
    | .openInference, .down => if s.inference.isEmpty then none else some (openInference hs s)
    | .abortMotion, .opening st (leaseId :: leases) =>
        some (s.log hs st (recoveredAbort leaseId) (fun st => .opening st leases) .down)
    | .openWeights, .opening st [] =>
        some { s with control := .serving st (pendingOf s.weight).entries }
    | .recover, .serving st (job :: pending) => some (recover hs s st job pending)
    | .recover, .freezing st job pending =>
        some (s.close (.aborted job.1 job.2.1 true) st pending)
    | .request op, .serving st [] => some (request hs s st op)
    | .call, .requested st operationId op => some (call hs s st operationId op)
    | .resolve, .called st operationId op returned =>
        some (resolve hs s st operationId op returned)
    | .beginMotion episodeId phase, .serving st [] =>
        some (motion hs s st
          (InferenceService.beginMotion hs.toHashes st episodeId phase (s.inference.length + 1)))
    | .endMotion leaseId aborted reason, .serving st [] =>
        some (motion hs s st (InferenceService.endMotion st leaseId aborted reason))
    | .crash stored, _ => some { s with blobs := crashBlobs hs s stored, control := .down }
    | _, _ => none

end Rosclaw.Continual.WeightUpdateService
