/-
`LearnerService` (`continual/services/learner.py`): jobs that turn batches into candidates.

The state of the service is the replay of its journal.  `execute` appends that a job started,
calls the executor, stores what it made, and appends that the job was completed; whatever is
raised on the way makes it append that the job is quarantined.
The mapping of metrics is a value of a type `M`: the numbers are finite, and JSON keeps them.
-/
import Rosclaw.Continual.Policy
import Rosclaw.Lib.Dict
import Rosclaw.Lib.EventSourced
import Rosclaw.Lib.Machine

namespace Rosclaw.Continual.LearnerService

open EventSourced

/-- What is computed from bytes (of type `B`) and dictionaries. -/
structure Hashes (H B : Type) where
  /-- the SHA-256 of the bytes -/
  digest : B → H
  /-- `version_hash` -/
  versionHash : PolicyFields H → H
  /-- `canonical_hash` of a batch, a parent and the number of the next event -/
  jobId : H → H → Nat → H

structure Batch (H : Type) where
  batchHash : H
  learnerVersion : Int

/-- `LearnerProduct`. -/
structure Product (H B M : Type) where
  candidate : PolicyVersion H
  artifact : B
  checkpoint : B
  metrics : M

/-- `LearnerServiceReceipt`. -/
structure Receipt (H M : Type) where
  jobId : H
  batchHash : H
  parentPolicyHash : H
  candidatePolicyHash : H
  artifactHash : H
  checkpointHash : H
  metrics : M
  eventHash : H

inductive LearnerEvent (H M : Type)
  | initialized (parent : PolicyFields H)
  | parentAdvanced (parent : PolicyFields H)
  | jobStarted (jobId batchHash parentPolicyHash : H)
  | jobCompleted (jobId batchHash parentPolicyHash : H) (candidate : PolicyFields H)
      (artifactHash checkpointHash : H) (metrics : M)
  | jobQuarantined (jobId batchHash : H) (reason : String) (recovered : Bool)

abbrev Logged (H M : Type) := LearnerEvent H M × H

structure Learner (H M : Type) where
  parent : Option (PolicyVersion H) := none
  completed : Dict H (Receipt H M) := ∅
  candidates : Dict H (PolicyVersion H) := ∅
  pending : Dict H H := ∅
  quarantined : List H := []

/-- The directory of blobs: the bytes of each name. -/
inductive Suffix
  | artifact | checkpoint
deriving DecidableEq, Repr

abbrev Blobs (H B : Type) := Dict (Suffix × H) B

variable {H B M : Type} [DecidableEq H]

section

variable (hs : Hashes H B)

/-- `_read_blob` does not raise. -/
def readable (blobs : Blobs H B) (suffix : Suffix) (contentHash : H) : Bool :=
  (blobs.get? (suffix, contentHash)).any fun payload => hs.digest payload = contentHash

namespace Learner

variable (s : Learner H M)

def known (versionHash : H) : Bool :=
  s.completed.values.any fun receipt => receipt.candidatePolicyHash = versionHash

end Learner

def receiptOf (jobId batchHash parentPolicyHash : H) (candidate : PolicyVersion H)
    (artifactHash checkpointHash : H) (metrics : M) (eventHash : H) : Receipt H M :=
  ⟨jobId, batchHash, parentPolicyHash, hs.versionHash candidate.toPolicyFields, artifactHash,
    checkpointHash, metrics, eventHash⟩

/-- `_apply`; `none` if it raises. -/
def applyEvent (blobs : Blobs H B) (s : Learner H M) : Logged H M → Option (Learner H M)
  | (.initialized parent, _) =>
      if s.parent.isSome then none
      else (policyVersionFromDict parent).map fun p => { s with parent := some p }
  | (.parentAdvanced parent, _) =>
      (policyVersionFromDict parent).bind fun p =>
        if s.known (hs.versionHash p.toPolicyFields) then some { s with parent := some p }
        else none
  | (.jobStarted jobId batchHash parentPolicyHash, _) =>
      s.parent.bind fun parent =>
        if parentPolicyHash ≠ hs.versionHash parent.toPolicyFields ∨ s.pending.contains jobId ∨
            s.completed.contains batchHash then none
        else some { s with pending := s.pending.set jobId batchHash }
  | (.jobCompleted jobId batchHash parentPolicyHash candidate artifactHash checkpointHash metrics,
      eventHash) =>
      (policyVersionFromDict candidate).bind fun c =>
        s.parent.bind fun parent =>
          if s.pending.get? jobId = some batchHash ∧
              parentPolicyHash = hs.versionHash parent.toPolicyFields ∧
              PolicyFields.Follows hs.versionHash parent.toPolicyFields c.toPolicyFields ∧
              c.artifactHash = artifactHash ∧ readable hs blobs .artifact artifactHash ∧
              readable hs blobs .checkpoint checkpointHash then
            some { s with
              completed := s.completed.set batchHash (receiptOf hs jobId batchHash
                parentPolicyHash c artifactHash checkpointHash metrics eventHash)
              candidates := s.candidates.set batchHash c
              pending := s.pending.erase jobId }
          else none
  | (.jobQuarantined jobId batchHash _ _, _) =>
      if s.pending.get? jobId = some batchHash then
        some { s with
          pending := s.pending.erase jobId
          quarantined := if batchHash ∈ s.quarantined then s.quarantined
            else s.quarantined ++ [batchHash] }
      else none

/-! ### The executor and its product -/

/-- How a blob is written; `kept` if its link was made. -/
inductive Stored
  | done
  | raised (kept : Bool)
  | crashed (kept : Bool)

/-- A call of the executor, and the writing of the two blobs. -/
structure Work (H B M : Type) where
  /-- nothing if the executor raises -/
  product : Option (Product H B M)
  /-- the process ends in the executor -/
  crash : Bool
  artifact : Stored
  checkpoint : Stored
  reason : String

/-- How the part of `execute` ends that may be quarantined. -/
inductive Ended (H B M : Type)
  | product (p : Product H B M)
  | raised
  | crashed

/-- `_store_blob` of bytes with this hash, and what follows. -/
def storeBlob [DecidableEq B] (blobs : Blobs H B) (suffix : Suffix) (contentHash : H)
    (payload : B) (stored : Stored) (next : Blobs H B → Blobs H B × Ended H B M) :
    Blobs H B × Ended H B M :=
  if hs.digest payload ≠ contentHash then (blobs, .raised)
  else match blobs.get? (suffix, contentHash), stored with
    | some old, _ => if old = payload then next blobs else (blobs, .raised)
    | none, .done => next (blobs.set (suffix, contentHash) payload)
    | none, .raised kept =>
        (if kept then blobs.set (suffix, contentHash) payload else blobs, .raised)
    | none, .crashed kept =>
        (if kept then blobs.set (suffix, contentHash) payload else blobs, .crashed)

/-- `executor(batch)`, `_validate_product` and the two `_store_blob`. -/
def work [DecidableEq B] (blobs : Blobs H B) (parent : PolicyVersion H) (w : Work H B M) :
    Blobs H B × Ended H B M :=
  if w.crash then (blobs, .crashed)
  else match w.product with
    | none => (blobs, .raised)
    | some p =>
        if PolicyFields.Follows hs.versionHash parent.toPolicyFields p.candidate.toPolicyFields ∧
            hs.digest p.artifact = p.candidate.artifactHash then
          storeBlob hs blobs .artifact p.candidate.artifactHash p.artifact w.artifact
            fun blobs => storeBlob hs blobs .checkpoint (hs.digest p.checkpoint) p.checkpoint
              w.checkpoint fun blobs => (blobs, .product p)
        else (blobs, .raised)

/-! ### The service -/

/-- The journal, the blobs, and what has happened: the batches that an executor was called with,
and the receipts that `execute` returned. -/
structure State (H B M : Type) where
  service : Service (Learner H M) (Logged H M)
  blobs : Blobs H B
  invoked : List H
  returned : List (H × Receipt H M)

abbrev Append (H : Type) := Fate × H

inductive Label (H B M : Type)
  /-- `LearnerService(root, parent=parent)` on an empty journal -/
  | create (parent : PolicyVersion H) (a : Append H)
  /-- `LearnerService(root)`; the process is killed after the appends of the list -/
  | recover (as : List (Append H))
  | execute (batch : Batch H) (start : Append H) (w : Work H B M) (last : Append H)
  | advanceParent (policy : PolicyVersion H) (a : Append H)

variable (s : State H B M)

/-- `self.log.append(…)` and `self._apply(…)`. -/
def State.log (v : Service (Learner H M) (Logged H M)) (es : List (Logged H M)) (st : Learner H M)
    (e : LearnerEvent H M) (a : Append H) :
    Service (Learner H M) (Logged H M) × Option (Learner H M) :=
  attempt (applyEvent hs s.blobs) v es st (e, a.2) a.1

/-- `__init__` on an empty journal; there is no service if it raises. -/
def create (parent : PolicyVersion H) (a : Append H) : State H B M :=
  match s.log hs ⟨s.service.durable, some ([], {})⟩ [] {}
      (.initialized parent.toPolicyFields) a with
  | (v, some _) => { s with service := v }
  | (v, none) => { s with service := ⟨v.durable, none⟩ }

/-- The appends of `__init__` for the jobs that are pending. -/
def quarantineAll : List (H × H) → List (Append H) → Service (Learner H M) (Logged H M) →
    Service (Learner H M) (Logged H M)
  | [], _, v => v
  | _ :: _, [], v => ⟨v.durable, none⟩
  | (jobId, batchHash) :: jobs, a :: as, v =>
      match v.live with
      | none => v
      | some (es, st) =>
          match s.log hs v es st (.jobQuarantined jobId batchHash
              "service recovery found an incomplete optimizer update" true) a with
          | (v', some _) => quarantineAll jobs as v'
          | (v', none) => ⟨v'.durable, none⟩

/-- `__init__` on a journal that holds events. -/
def recover (as : List (Append H)) : State H B M :=
  let v := reopen (applyEvent hs s.blobs) {} s.service
  match v.live with
  | none => { s with service := v }
  | some (_, st) => { s with service := quarantineAll hs s st.pending.entries as v }

def State.called (blobs : Blobs H B) (batchHash : H) : State H B M :=
  { s with blobs := blobs, invoked := s.invoked ++ [batchHash] }

/-- `execute`, after the event that the job started. -/
def finish [DecidableEq B] (v : Service (Learner H M) (Logged H M)) (st : Learner H M)
    (parent : PolicyVersion H) (batch : Batch H) (jobId : H) (w : Work H B M) (a : Append H) :
    State H B M :=
  let s' := s.called (work hs s.blobs parent w).1 batch.batchHash
  match (work hs s.blobs parent w).2, v.live with
  | .product p, some (es, _) =>
      let logged := s'.log hs v es st (.jobCompleted jobId batch.batchHash
        (hs.versionHash parent.toPolicyFields) p.candidate.toPolicyFields
        p.candidate.artifactHash (hs.digest p.checkpoint) p.metrics) a
      { s' with
        service := logged.1
        returned := s.returned ++ (logged.2.bind fun st' =>
          (st'.completed.get? batch.batchHash).map (batch.batchHash, ·)).toList }
  | .raised, some (es, _) =>
      { s' with service :=
          (s'.log hs v es st (.jobQuarantined jobId batch.batchHash w.reason false) a).1 }
  | _, _ => { s' with service := ⟨v.durable, none⟩ }

def execute [DecidableEq B] (es : List (Logged H M)) (st : Learner H M) (batch : Batch H)
    (start : Append H) (w : Work H B M) (last : Append H) : State H B M :=
  match st.completed.get? batch.batchHash, st.parent with
  | some receipt, _ => { s with returned := s.returned ++ [(batch.batchHash, receipt)] }
  | none, none => s
  | none, some parent =>
      if batch.batchHash ∈ st.quarantined ∨ batch.learnerVersion ≠ parent.version.toInt then s
      else
        let parentHash := hs.versionHash parent.toPolicyFields
        let jobId := hs.jobId batch.batchHash parentHash (es.length + 1)
        match s.log hs s.service es st (.jobStarted jobId batch.batchHash parentHash) start with
        | (v, none) => { s with service := v }
        | (v, some st') => finish hs s v st' parent batch jobId w last

def advanceParent (es : List (Logged H M)) (st : Learner H M) (policy : PolicyVersion H)
    (a : Append H) : State H B M :=
  if st.known (hs.versionHash policy.toPolicyFields) then
    { s with service :=
        (s.log hs s.service es st (.parentAdvanced policy.toPolicyFields) a).1 }
  else s

end

def learnerService [DecidableEq B] (hs : Hashes H B) : Machine (State H B M) (Label H B M) where
  Init s := s = ⟨⟨[], none⟩, ∅, [], []⟩
  step s l := match l with
    | .create parent a =>
        if s.service.durable = [] ∧ s.service.live.isNone then some (create hs s parent a)
        else none
    | .recover as => if s.service.durable = [] then none else some (recover hs s as)
    | .execute batch start w last =>
        s.service.live.map fun l => execute hs s l.1 l.2 batch start w last
    | .advanceParent policy a => s.service.live.map fun l => advanceParent hs s l.1 l.2 policy a

end Rosclaw.Continual.LearnerService
