/-
`InferenceService` (`continual/services/inference.py`): the slots of the policy that is served,
and the motions that have leased its version.

Each method appends at most one event to the journal and applies it; what a method checks before
and what `_apply` checks again are written apart, as in the source.
-/
import Rosclaw.Continual.Policy
import Rosclaw.Lib.Dict
import Rosclaw.Lib.EventSourced

namespace Rosclaw.Continual.InferenceService

inductive SkillPhase
  | stand | prepare | weightTransfer | swing | contact | recovery | complete
deriving DecidableEq, Repr

inductive ContinualDecision
  | promoteSim | needMoreEvidence | reject
deriving DecidableEq, Repr

/-- `ContinualGateReport`. -/
structure GateReport (H : Type) where
  decision : ContinualDecision
  parentPolicyHash : H
  candidatePolicyHash : H
  activationAllowed : Bool
  evidenceDomain : String := "SIM"

inductive FreezeKind
  | transient | safety
deriving DecidableEq, Repr

/-- What is computed from bytes (of type `B`) and dictionaries. -/
structure Hashes (H B : Type) where
  /-- the SHA-256 of the bytes -/
  digest : B → H
  isEmpty : B → Bool
  /-- `version_hash` -/
  versionHash : PolicyFields H → H
  /-- `canonical_hash` of an episode, a policy and the number of the next event -/
  leaseId : String → H → Nat → H

structure MotionVersionLease (H : Type) where
  episodeId : String
  policyVersion : PyInt
  policyVersionHash : H
  artifactHash : H
  bodyHash : H
  phaseAtStart : SkillPhase

inductive InferenceEvent (H : Type)
  | initialized (active : PolicyFields H) (artifactHash : H)
  | published (policy : PolicyFields H) (artifactHash : H)
  | verified (policyVersionHash : H)
  | staged (policyVersionHash : H)
  | discarded (policyVersionHash : H) (reason : String) (activePolicyHash : H)
  | activated (active rollback : PolicyFields H) (reason : String)
  | frozen (reason : String) (kind : Option FreezeKind)
  | unfrozen (reason : String) (priorFreezeKind : FreezeKind)
  | rolledBack (active rollback : PolicyFields H) (reason : String)
  | motionBegan (leaseId : H) (lease : MotionVersionLease H)
  | motionEnded (leaseId : H) (reason : String)
  | motionAborted (leaseId : H) (reason : String) (recovered : Bool)

structure Slots (H : Type) where
  active : Option (PolicyVersion H) := none
  candidate : Option (PolicyVersion H) := none
  rollback : Option (PolicyVersion H) := none
  published : Option (PolicyVersion H) := none
  publishedVerified : Bool := false
  frozen : Bool := false
  freezeKind : Option FreezeKind := none

structure Inference (H : Type) extends Slots H where
  motions : Dict H (MotionVersionLease H) := ∅

abbrev Blobs (H B : Type) := Dict H B

variable {H B : Type} [DecidableEq H]

def Slots.policies (s : Slots H) : List (PolicyVersion H) :=
  [s.active, s.candidate, s.rollback, s.published].filterMap id

/-- `_candidate or _published`. -/
def Slots.pending (s : Slots H) : Option (PolicyVersion H) := s.candidate.or s.published

def Slots.SafetyFrozen (s : Slots H) : Prop := s.frozen = true ∧ s.freezeKind = some .safety

section

variable (hs : Hashes H B)

/-- `_validate_successor` does not raise. -/
def Slots.Successor (s : Slots H) (policy : PolicyVersion H) : Prop :=
  ∃ active ∈ s.active,
    PolicyFields.Follows hs.versionHash active.toPolicyFields policy.toPolicyFields

instance Slots.instDecidableSuccessor (s : Slots H) (policy : PolicyVersion H) :
    Decidable (s.Successor hs policy) := by
  unfold Slots.Successor
  infer_instance

/-! ### The reducer -/

def MotionVersionLease.Pins (lease : MotionVersionLease H) (p : PolicyVersion H) : Prop :=
  lease.policyVersionHash = hs.versionHash p.toPolicyFields ∧
    lease.policyVersion.toInt = p.version.toInt ∧ lease.artifactHash = p.artifactHash ∧
    lease.bodyHash = p.bodyHash

instance MotionVersionLease.instDecidablePins (lease : MotionVersionLease H)
    (p : PolicyVersion H) : Decidable (lease.Pins hs p) := by
  unfold MotionVersionLease.Pins
  infer_instance

def Inference.inMotion (s : Inference H) (episodeId : String) : Bool :=
  s.motions.values.any fun lease => lease.episodeId = episodeId

/-- `_apply`; `none` if it raises. -/
def applyEvent (s : Inference H) : InferenceEvent H → Option (Inference H)
  | .initialized active artifactHash =>
      if s.active.isSome then none
      else (policyVersionFromDict active).bind fun p =>
        if artifactHash = p.artifactHash then some { s with active := some p } else none
  | .published policy artifactHash =>
      if s.published.isSome ∨ s.candidate.isSome then none
      else (policyVersionFromDict policy).bind fun p =>
        if artifactHash = p.artifactHash ∧ s.Successor hs p then
          some { s with published := some p, publishedVerified := false }
        else none
  | .verified policyVersionHash =>
      s.published.bind fun p =>
        if policyVersionHash = hs.versionHash p.toPolicyFields then
          some { s with publishedVerified := true }
        else none
  | .staged policyVersionHash =>
      s.published.bind fun p =>
        if policyVersionHash = hs.versionHash p.toPolicyFields then
          some { s with candidate := some p, published := none, publishedVerified := false }
        else none
  | .discarded policyVersionHash _ activePolicyHash =>
      s.pending.bind fun p => s.active.bind fun active =>
        if policyVersionHash = hs.versionHash p.toPolicyFields ∧
            activePolicyHash = hs.versionHash active.toPolicyFields then
          some { s with candidate := none, published := none, publishedVerified := false }
        else none
  | .activated active rollback _ =>
      (policyVersionFromDict active).bind fun new => (policyVersionFromDict rollback).bind fun old =>
        s.candidate.bind fun candidate => s.active.bind fun current =>
          if hs.versionHash new.toPolicyFields = hs.versionHash candidate.toPolicyFields ∧
              hs.versionHash old.toPolicyFields = hs.versionHash current.toPolicyFields then
            some { s with
              active := some new
              rollback := some old
              candidate := none
              frozen := false
              freezeKind := none }
          else none
  -- an event without a kind is a safety freeze
  | .frozen _ kind => some { s with frozen := true, freezeKind := some (kind.getD .safety) }
  | .unfrozen _ _ => if s.frozen then some { s with frozen := false, freezeKind := none } else none
  | .rolledBack active rollback _ =>
      (policyVersionFromDict active).bind fun new => (policyVersionFromDict rollback).bind fun old =>
        s.rollback.bind fun target => s.active.bind fun current =>
          if hs.versionHash new.toPolicyFields = hs.versionHash target.toPolicyFields ∧
              hs.versionHash old.toPolicyFields = hs.versionHash current.toPolicyFields then
            some { s with
              active := some new
              rollback := some old
              candidate := none
              published := none
              publishedVerified := false
              frozen := false
              freezeKind := none }
          else none
  | .motionBegan leaseId lease =>
      s.active.bind fun active =>
        if lease.Pins hs active ∧ s.inMotion lease.episodeId = false then
          some { s with
            motions := (s.motions.set leaseId
              { lease with policyVersion := .int lease.policyVersion.toInt }) }
        else none
  | .motionEnded leaseId _ | .motionAborted leaseId _ _ =>
      if s.motions.contains leaseId then some { s with motions := s.motions.erase leaseId }
      else none

/-! ### Blobs -/

/-- `_verify_artifact` does not raise. -/
def verifies (policy : PolicyVersion H) (artifact : B) : Bool :=
  !hs.isEmpty artifact && decide (hs.digest artifact = policy.artifactHash)

def readBlob (blobs : Blobs H B) (policy : PolicyVersion H) : Option B :=
  (blobs.get? policy.artifactHash).filter (verifies hs policy)

def storeBlob [DecidableEq B] (blobs : Blobs H B) (policy : PolicyVersion H) (artifact : B) :
    Option (Blobs H B) :=
  if verifies hs policy artifact then
    match blobs.get? policy.artifactHash with
    | some old => if old = artifact then some blobs else none
    | none => some (blobs.set policy.artifactHash artifact)
  else none

/-! ### The slot on which an activation is tried -/

inductive WeightSlotState
  | active | candidateStaged | frozen | rolledBack
deriving DecidableEq, Repr

structure ResidualWeightSlot (H : Type) where
  active : PolicyVersion H
  candidate : Option (PolicyVersion H) := none
  rollbackTarget : Option (PolicyVersion H) := none
  state : WeightSlotState := .active

namespace ResidualWeightSlot

variable (slot : ResidualWeightSlot H)

/-- `__init__`. -/
def new (active : PolicyVersion H) (activeArtifact : B) : Option (ResidualWeightSlot H) :=
  if verifies hs active activeArtifact then some { active := active } else none

def stage (candidate : PolicyVersion H) (artifact : B) : Option (ResidualWeightSlot H) :=
  if slot.state = .frozen ∨ slot.candidate.isSome then none
  else if verifies hs candidate artifact = true ∧
      candidate.version.toInt = slot.active.version.toInt + 1 ∧
      candidate.parentVersionHash = some (hs.versionHash slot.active.toPolicyFields) ∧
      candidate.bodyHash = slot.active.bodyHash ∧
      candidate.safetyKernelHash = slot.active.safetyKernelHash then
    some { slot with candidate := some candidate, state := .candidateStaged }
  else none

def safeSwapPhases : List SkillPhase := [.stand, .prepare, .complete]

/-- The report promotes the candidate of the slot over its active policy. -/
def Promotes (report : GateReport H) (active candidate : PolicyVersion H) : Prop :=
  report.decision = .promoteSim ∧ report.activationAllowed = true ∧
    report.evidenceDomain = "SIM" ∧ report.parentPolicyHash = active.artifactHash ∧
    report.candidatePolicyHash = candidate.artifactHash

instance instDecidablePromotes (report : GateReport H) (active candidate : PolicyVersion H) :
    Decidable (Promotes report active candidate) := by
  unfold Promotes
  infer_instance

/-- `value` of a phase. -/
def phaseText : SkillPhase → String
  | .stand => "stand"
  | .prepare => "prepare"
  | .weightTransfer => "weight_transfer"
  | .swing => "swing"
  | .contact => "contact"
  | .recovery => "recovery"
  | .complete => "complete"

/-- The slot after `activate`, and the reason of its receipt. -/
def activate (phase : SkillPhase) (report : GateReport H) :
    Option (ResidualWeightSlot H × String) :=
  slot.candidate.bind fun candidate =>
    if slot.state ≠ .candidateStaged then none
    else if phase ∉ safeSwapPhases then
      some ({ slot with state := .frozen },
        "unsafe mid-motion swap requested during " ++ phaseText phase)
    else if Promotes report slot.active candidate then
      some ({ slot with
          rollbackTarget := some slot.active
          active := candidate
          candidate := none
          state := .active },
        "SIM-only candidate atomically activated at a safe boundary")
    else some ({ slot with state := .frozen },
      "promotion evidence is missing, rejected, or identity-mismatched")

end ResidualWeightSlot

/-! ### The methods

Each gives the event that it appends; `none` if it raises before. -/

variable (blobs : Blobs H B) (s : Inference H)

/-- `_publish`, with the blobs as it leaves them. -/
def publish [DecidableEq B] (policy : PolicyVersion H) (artifact : B) :
    Blobs H B × Option (InferenceEvent H) :=
  if s.frozen ∨ s.published.isSome ∨ s.candidate.isSome ∨ ¬ s.Successor hs policy then
    (blobs, none)
  else match storeBlob hs blobs policy artifact with
    | none => (blobs, none)
    | some blobs => (blobs, some (.published policy.toPolicyFields policy.artifactHash))

def verifyPublished : Option (InferenceEvent H) :=
  s.published.bind fun p =>
    if s.Successor hs p ∧ (readBlob hs blobs p).isSome then
      some (.verified (hs.versionHash p.toPolicyFields))
    else none

def stage : Option (InferenceEvent H) :=
  s.published.bind fun p =>
    if s.publishedVerified then some (.staged (hs.versionHash p.toPolicyFields)) else none

def discardCandidate (reason : String) : Option (InferenceEvent H) :=
  if s.motions.entries ≠ [] ∨ blank reason then none
  else s.pending.bind fun p => s.active.map fun active =>
    .discarded (hs.versionHash p.toPolicyFields) reason (hs.versionHash active.toPolicyFields)

def freeze (reason : String) (kind : FreezeKind) : Option (InferenceEvent H) :=
  if blank reason then none else some (.frozen reason (some kind))

def activate (phase : SkillPhase) (report : GateReport H) : Option (InferenceEvent H) :=
  s.candidate.bind fun candidate => s.active.bind fun active =>
    if s.frozen = true ∧ s.freezeKind ≠ some .transient then none
    else if s.motions.entries ≠ [] then
      freeze "activation requested while a motion version lease was active" .transient
    else do
      let slot ← ResidualWeightSlot.new hs active (← readBlob hs blobs active)
      let slot ← slot.stage hs candidate (← readBlob hs blobs candidate)
      let result ← slot.activate phase report
      if result.1.state ≠ .active then freeze result.2 .safety
      else some (.activated candidate.toPolicyFields active.toPolicyFields result.2)

def unfreeze (reason : String) : Option (InferenceEvent H) :=
  if s.frozen = false ∨ s.motions.entries ≠ [] ∨ blank reason then none
  else some (.unfrozen reason (s.freezeKind.getD .safety))

def rollbackActive (reason : String) : Option (InferenceEvent H) :=
  if s.motions.entries ≠ [] ∨ blank reason then none
  else s.rollback.bind fun target => s.active.map fun failed =>
    .rolledBack target.toPolicyFields failed.toPolicyFields reason

/-- `begin_motion`; `next` is the number of the next event. -/
def beginMotion (episodeId : String) (phase : SkillPhase) (next : Nat) :
    Option (InferenceEvent H) :=
  if s.frozen ∨ blank episodeId ∨ s.inMotion episodeId then none
  else s.active.map fun policy =>
    let policyHash := hs.versionHash policy.toPolicyFields
    .motionBegan (hs.leaseId episodeId policyHash next)
      ⟨episodeId, policy.version, policyHash, policy.artifactHash, policy.bodyHash, phase⟩

def endMotion (leaseId : H) (aborted : Bool) (reason : String) : Option (InferenceEvent H) :=
  if s.motions.contains leaseId = false ∨ (aborted = true ∧ blank reason = true) then none
  else if aborted then some (.motionAborted leaseId reason false)
  else some (.motionEnded leaseId "motion reached COMPLETE")

/-- The event for a motion that `__init__` finds. -/
def recoveredAbort (leaseId : H) : InferenceEvent H :=
  .motionAborted leaseId
    "service recovery aborted the in-flight motion; old actions were not replayed" true

end

end Rosclaw.Continual.InferenceService
