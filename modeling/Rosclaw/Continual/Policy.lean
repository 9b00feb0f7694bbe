/-
`PolicyVersion` and its dictionary (`continual/contracts.py`, `continual/serde.py`).

Texts are those that UTF-8 can encode; content hashes are the values of a type `H`, so that
`_require_hash` does not raise.  An `int` field may hold a `bool`.

* `fromDict_toDict_iff` — a policy is rebuilt as it was if and only if it has the schema tag and
  its version is no `bool`.
-/
import Rosclaw.Lib.PyVal

namespace Rosclaw.Continual

/-- The value of an `int` field. -/
inductive PyInt
  | int (n : Int)
  | bool (b : Bool)
deriving DecidableEq, Repr

/-- `int(n)`. -/
def PyInt.toInt : PyInt → Int
  | .int n => n
  | .bool b => if b then 1 else 0

/-- `not name.strip()`. -/
def blank (s : String) : Bool := (PyStr.ofString s).isBlank

structure PolicyFields (H : Type) where
  version : PyInt
  artifactHash : H
  controllerSnapshotHash : H
  bodyHash : H
  safetyKernelHash : H
  observationNames : List String
  residualActionNames : List String
  parentVersionHash : Option H := none
  schemaVersion : String := "rosclaw.continual.policy_version.v1"
deriving DecidableEq

variable {H : Type}

namespace PolicyFields

def NamesOk (names : List String) : Prop :=
  names ≠ [] ∧ names.Nodup ∧ ∀ name ∈ names, blank name = false

/-- `__post_init__` does not raise. -/
structure Valid (p : PolicyFields H) : Prop where
  nonneg : 0 ≤ p.version.toInt
  parent : p.parentVersionHash = none ↔ p.version.toInt = 0
  observations : NamesOk p.observationNames
  actions : NamesOk p.residualActionNames
  dimension : p.residualActionNames.length ≤ 32

instance (names : List String) : Decidable (NamesOk names) := by
  unfold NamesOk
  infer_instance

theorem valid_iff (p : PolicyFields H) :
    p.Valid ↔ 0 ≤ p.version.toInt ∧ (p.parentVersionHash.isNone = true ↔ p.version.toInt = 0) ∧
      NamesOk p.observationNames ∧ NamesOk p.residualActionNames ∧
      p.residualActionNames.length ≤ 32 := by
  rw [Option.isNone_iff_eq_none]
  exact ⟨fun h => ⟨h.nonneg, h.parent, h.observations, h.actions, h.dimension⟩,
    fun ⟨h₁, h₂, h₃, h₄, h₅⟩ => ⟨h₁, h₂, h₃, h₄, h₅⟩⟩

instance (p : PolicyFields H) : Decidable p.Valid := decidable_of_iff _ p.valid_iff.symm

/-- `_IMMUTABLE` identity: what a successor may not change. -/
def SameIdentity (p q : PolicyFields H) : Prop :=
  p.bodyHash = q.bodyHash ∧ p.safetyKernelHash = q.safetyKernelHash ∧
    p.controllerSnapshotHash = q.controllerSnapshotHash ∧
    p.observationNames = q.observationNames ∧ p.residualActionNames = q.residualActionNames

instance [DecidableEq H] (p q : PolicyFields H) : Decidable (SameIdentity p q) := by
  unfold SameIdentity
  infer_instance

def Follows (versionHash : PolicyFields H → H) (parent policy : PolicyFields H) : Prop :=
  policy.version.toInt = parent.version.toInt + 1 ∧
    policy.parentVersionHash = some (versionHash parent) ∧ policy.SameIdentity parent

instance instDecidableFollows [DecidableEq H] (versionHash : PolicyFields H → H)
    (parent policy : PolicyFields H) : Decidable (Follows versionHash parent policy) := by
  unfold Follows
  infer_instance

end PolicyFields

structure PolicyVersion (H : Type) extends PolicyFields H where
  valid : toPolicyFields.Valid
deriving DecidableEq

/-- The schema tag that `_policy` asks for. -/
def policySchema : String := "rosclaw.continual.policy_version.v1"

/-- The fields with an `int` for a version; the tag is left to its default. -/
def PolicyFields.rebuilt (d : PolicyFields H) : PolicyFields H :=
  { d with version := .int d.version.toInt, schemaVersion := policySchema }

def policyVersionFromDict (d : PolicyFields H) : Option (PolicyVersion H) :=
  if d.schemaVersion = policySchema then
    if h : d.rebuilt.Valid then some ⟨d.rebuilt, h⟩ else none
  else none

variable {d parent : PolicyFields H} {q : PolicyVersion H} (p : PolicyVersion H)

theorem fromDict_toDict :
    (policyVersionFromDict p.toPolicyFields).map PolicyVersion.toPolicyFields =
      if p.schemaVersion = policySchema then some p.rebuilt else none := by
  unfold policyVersionFromDict
  split
  · have hvalid : p.rebuilt.Valid :=
      ⟨p.valid.nonneg, p.valid.parent, p.valid.observations, p.valid.actions, p.valid.dimension⟩
    rw [dif_pos hvalid, Option.map_some]
  · rfl

theorem fromDict_isSome_iff :
    (policyVersionFromDict p.toPolicyFields).isSome = true ↔ p.schemaVersion = policySchema := by
  have h := congrArg Option.isSome (fromDict_toDict p)
  rw [Option.isSome_map] at h
  rw [h]
  split <;> simp_all

theorem toPolicyFields_inj {p : PolicyVersion H} (h : p.toPolicyFields = q.toPolicyFields) :
    p = q := by
  cases p
  cases q
  cases h
  rfl

theorem fromDict_toDict_iff : policyVersionFromDict p.toPolicyFields = some p ↔
      p.schemaVersion = policySchema ∧ p.version = .int p.version.toInt := by
  have hmap := fromDict_toDict p
  constructor
  · intro h
    rw [h, Option.map_some] at hmap
    split at hmap
    · next htag => exact ⟨htag, congrArg PolicyFields.version (Option.some.inj hmap)⟩
    · cases hmap
  · rintro ⟨htag, hversion⟩
    rw [if_pos htag] at hmap
    obtain ⟨q, hq, heq⟩ := Option.map_eq_some_iff.mp hmap
    rw [hq]
    refine congrArg some (toPolicyFields_inj ?_)
    rw [heq, PolicyFields.rebuilt, ← hversion, ← htag]

theorem fromDict_rebuilt (h : policyVersionFromDict d = some q) :
    policyVersionFromDict q.toPolicyFields = some q := by
  rw [fromDict_toDict_iff]
  unfold policyVersionFromDict at h
  split at h
  · split at h
    · cases h
      exact ⟨rfl, rfl⟩
    · cases h
  · cases h

theorem fromDict_fields (h : policyVersionFromDict d = some q) :
    q.version.toInt = d.version.toInt ∧ q.artifactHash = d.artifactHash ∧
      q.parentVersionHash = d.parentVersionHash ∧ q.toPolicyFields.SameIdentity d := by
  unfold policyVersionFromDict at h
  split at h
  · split at h
    · cases h
      exact ⟨rfl, rfl, rfl, rfl, rfl, rfl, rfl, rfl⟩
    · cases h
  · cases h

theorem follows_of_fromDict {versionHash : PolicyFields H → H}
    (hq : policyVersionFromDict d = some q) (h : PolicyFields.Follows versionHash parent d) :
    PolicyFields.Follows versionHash parent q.toPolicyFields := by
  obtain ⟨hversion, -, hparentHash, hb, hk, hcontroller, ho, hr⟩ := fromDict_fields hq
  obtain ⟨h₁, h₂, hb', hk', hcontroller', ho', hr'⟩ := h
  exact ⟨hversion.trans h₁, hparentHash.trans h₂, hb.trans hb', hk.trans hk',
    hcontroller.trans hcontroller', ho.trans ho', hr.trans hr'⟩

def samplePolicy (version : Nat) (artifactHash : Nat) (parent : Option Nat) : PolicyFields Nat where
  version := .int version
  artifactHash := artifactHash
  controllerSnapshotHash := 1
  bodyHash := 2
  safetyKernelHash := 3
  observationNames := ["q"]
  residualActionNames := ["dq"]
  parentVersionHash := parent

def firstPolicy : PolicyVersion Nat := ⟨samplePolicy 0 7 none, by decide⟩

def nextPolicy : PolicyVersion Nat := ⟨samplePolicy 1 8 (some 0), by decide⟩

end Rosclaw.Continual
