/-
`CanonicalChampionRegistry` (`continual/champion_registry.py`): an append-only list of records, and
the champions that are active on its tracks.
-/
import Rosclaw.Feedback.Contracts
import Rosclaw.Lib.Machine

namespace Rosclaw.Champions

open Feedback (Platform canonicalHash isSha256)

def isAlphanumeric (c : Nat) : Bool :=
  (97 ≤ c && c ≤ 122) || (65 ≤ c && c ≤ 90) || (48 ≤ c && c ≤ 57)

def isIdentifier (s : PyStr) : Bool :=
  (s.codes.head?.any isAlphanumeric) && s.codes.tail.length ≤ 127
    && s.codes.tail.all fun c => isAlphanumeric c || c = 95 || c = 46 || c = 58 || c = 45

inductive PromotionAuthority
  | baselineStrictExam | pairedDominance | sealedSpecialistExam
deriving DecidableEq, Repr

def PromotionAuthority.value : PromotionAuthority → PyStr
  | .baselineStrictExam => "baseline_strict_exam"
  | .pairedDominance => "paired_dominance"
  | .sealedSpecialistExam => "sealed_specialist_exam"

inductive ChampionRecordKind
  | globalBaseline | trackReplacement | specialistBaseline | candidateArchived
deriving DecidableEq, Repr

namespace ChampionRecordKind

def value : ChampionRecordKind → PyStr
  | .globalBaseline => "global_baseline"
  | .trackReplacement => "track_replacement"
  | .specialistBaseline => "specialist_baseline"
  | .candidateArchived => "candidate_archived"

/-- The authority that `_require_baseline` is called with. -/
def baselineAuthority : ChampionRecordKind → Option PromotionAuthority
  | .globalBaseline => some .baselineStrictExam
  | .specialistBaseline => some .sealedSpecialistExam
  | .trackReplacement | .candidateArchived => none

def isBaseline (k : ChampionRecordKind) : Bool := k.baselineAuthority.isSome

end ChampionRecordKind

/-- `ChampionRegistryRecord`; `sim_only` is true of all of them. -/
structure ChampionRegistryRecord where
  agentId : PyStr
  trackId : PyStr
  artifactHash : PyStr
  evidenceHash : PyStr
  scenarioSuiteHash : PyStr
  authority : PromotionAuthority
  kind : ChampionRecordKind
  evidenceValid : Bool
  promotionPassed : Bool
  generation : Nat
  parentRecordHash : Option PyStr
  parentArtifactHash : Option PyStr
  sourceParentArtifactHash : Option PyStr
  schemaVersion : PyStr := "rosclaw.continual.champion_registry_record.v1"
  identified : isIdentifier agentId = true ∧ isIdentifier trackId = true
  hashed : isSha256 artifactHash = true ∧ isSha256 evidenceHash = true
    ∧ isSha256 scenarioSuiteHash = true
  hashedParents : parentRecordHash.all isSha256 = true ∧ parentArtifactHash.all isSha256 = true
    ∧ sourceParentArtifactHash.all isSha256 = true
  /-- `_require_baseline` -/
  baseline : ∀ a, kind.baselineAuthority = some a → authority = a ∧ parentRecordHash = none
    ∧ parentArtifactHash = none ∧ generation = 0 ∧ evidenceValid = true ∧ promotionPassed = true
  /-- `_require_child` -/
  child : kind.isBaseline = false → authority = .pairedDominance ∧ parentRecordHash.isSome = true
    ∧ parentArtifactHash.isSome = true ∧ 0 < generation
  replacement : kind = .trackReplacement → evidenceValid = true ∧ promotionPassed = true
  archived : kind = .candidateArchived → promotionPassed = false
deriving DecidableEq

namespace ChampionRegistryRecord

variable (os : Platform) (r : ChampionRegistryRecord)

def toDict : PyVal :=
  .dict [("schema_version", .str r.schemaVersion), ("agent_id", .str r.agentId),
    ("track_id", .str r.trackId), ("artifact_hash", .str r.artifactHash),
    ("evidence_hash", .str r.evidenceHash), ("scenario_suite_hash", .str r.scenarioSuiteHash),
    ("authority", .str r.authority.value), ("kind", .str r.kind.value),
    ("evidence_valid", .bool r.evidenceValid), ("promotion_passed", .bool r.promotionPassed),
    ("generation", .int r.generation),
    ("parent_record_hash", r.parentRecordHash.elim .none .str),
    ("parent_artifact_hash", r.parentArtifactHash.elim .none .str),
    ("source_parent_artifact_hash", r.sourceParentArtifactHash.elim .none .str),
    ("sim_only", .bool true)]

def recordHash : Option PyStr := canonicalHash os r.toDict

def passing : Bool := r.evidenceValid && r.promotionPassed

end ChampionRegistryRecord

/-- The variables of `_replay`. -/
structure Replay where
  heads : Dict PyStr ChampionRegistryRecord
  recordHashes : List (Option PyStr)
  artifactKeys : List (PyStr × PyStr)

def Replay.start : Replay := ⟨∅, [], []⟩

variable (os : Platform)

/-- The body of the loop of `_replay`; the error is the text of the `ValueError`. -/
def Replay.add (s : Replay) (r : ChampionRegistryRecord) : Except PyStr Replay :=
  if r.recordHash os ∈ s.recordHashes then .error "duplicate champion record hash"
  else if (r.trackId, r.artifactHash) ∈ s.artifactKeys then
    .error "artifact is already recorded on this track"
  else
    let seen (heads : Dict PyStr ChampionRegistryRecord) : Replay :=
      ⟨heads, s.recordHashes ++ [r.recordHash os],
        s.artifactKeys ++ [(r.trackId, r.artifactHash)]⟩
    match s.heads.get? r.trackId with
    | none =>
        if r.kind.isBaseline then .ok (seen (s.heads.set r.trackId r))
        else .error "child record has no active track head"
    | some active =>
        if r.kind.isBaseline then .error "track already has a baseline"
        else if r.parentRecordHash ≠ active.recordHash os then
          .error "parent record is not the active track head"
        else if r.parentArtifactHash ≠ some active.artifactHash then
          .error "parent artifact is not the active track head"
        else if r.generation ≠ active.generation + 1 then
          .error "child generation does not follow the active track head"
        else if r.kind = .trackReplacement then .ok (seen (s.heads.set r.trackId r))
        else .ok (seen s.heads)

def replay (records : List ChampionRegistryRecord) : Except PyStr Replay :=
  records.foldlM (Replay.add os) .start

/-- `CanonicalChampionRegistry`: its records, and what `_replay` makes of them, each time. -/
structure Registry where
  records : List ChampionRegistryRecord
  state : Replay
  replayed : replay os records = .ok state

namespace Registry

variable {os}

/-- `CanonicalChampionRegistry()`. -/
def empty : Registry os := ⟨[], .start, rfl⟩

def append (reg : Registry os) (r : ChampionRegistryRecord) : Except PyStr (Registry os) :=
  if reg.records.any fun existing => existing.recordHash os = r.recordHash os then
    .error "champion record is already registered"
  else
    match h : replay os (reg.records ++ [r]) with
    | .ok state => .ok ⟨reg.records ++ [r], state, h⟩
    | .error e => .error e

/-- `active_head`, of a valid track id. -/
def activeHead (reg : Registry os) (trackId : PyStr) : Option ChampionRegistryRecord :=
  reg.state.heads.get? trackId

end Registry

def parent? (records : List ChampionRegistryRecord) (r : ChampionRegistryRecord) :
    Option ChampionRegistryRecord :=
  r.parentRecordHash.bind fun hash => records.find? fun p => p.recordHash os = some hash

/-- The record that is reached from a record by so many steps to a parent. -/
def climb (records : List ChampionRegistryRecord) :
    Nat → ChampionRegistryRecord → Option ChampionRegistryRecord
  | 0, r => some r
  | n + 1, r => (parent? os records r).bind (climb records n)

def machine : Machine (Registry os) ChampionRegistryRecord where
  Init := fun reg => reg = .empty
  step := fun reg r => (reg.append r).toOption

end Rosclaw.Champions
