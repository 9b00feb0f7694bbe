/-
The exact action of a card (`contracts/operator/exact_action.py`): what the operator approves
is what the executor gets.

* `ExactAction`, `ExactAction.build` — the contract, with the hashes of its arguments and of
  all of it;
* `ofJson_toDict` — what is read back is what was written.
-/
import Rosclaw.Operator.Broker

namespace Rosclaw.Approvals

structure ExactAction where
  capabilityId : PyStr
  capabilityVersion : PyStr := "1.0.0"
  capabilitySource : PyStr := ""
  normalizedArguments : List (PyStr × PyVal)
  argumentsHash : PyStr
  authoritativeRiskTier : RiskTier
  sideEffectClass : PyStr := "IRREVERSIBLE"
  missionId : PyStr
  mode : Mode
  bodyId : PyStr
  bodyHash : PyStr
  contextRevision : Int
  contextHash : PyStr
  expectedEffect : PyStr := ""
  executorIdentity : PyStr := ""
  createdAt : PyStr
  expiresAt : PyStr
  actionIntentHash : PyStr

/-- `compute_arguments_hash`. -/
def argumentsHash (H : Host) (arguments : List (PyStr × PyVal)) : PyStr :=
  H.sha256Hex (.dict arguments)

namespace ExactAction

def title (a : ExactAction) : PyStr := a.capabilityId ++ "(" ++ a.argumentsHash.take 8 ++ ")"

def intentFields (a : ExactAction) : List (PyStr × PyVal) :=
  [("capability_id", .str a.capabilityId), ("capability_version", .str a.capabilityVersion),
    ("capability_source", .str a.capabilitySource),
    ("normalized_arguments", .dict a.normalizedArguments),
    ("arguments_hash", .str a.argumentsHash),
    ("authoritative_risk_tier", .str a.authoritativeRiskTier.value),
    ("side_effect_class", .str a.sideEffectClass), ("mission_id", .str a.missionId),
    ("mode", .str (Mode.value a.mode)), ("body_id", .str a.bodyId), ("body_hash", .str a.bodyHash),
    ("context_revision", .int a.contextRevision), ("context_hash", .str a.contextHash),
    ("expected_effect", .str a.expectedEffect), ("failure_handling", .str ""),
    ("verification_plan", .list []), ("executor_identity", .str a.executorIdentity),
    ("created_at", .str a.createdAt), ("expires_at", .str a.expiresAt)]

/-- `compute_action_intent_hash`. -/
def intentHash (H : Host) (a : ExactAction) : PyStr := H.sha256Hex (.dict a.intentFields)

/-- `model_dump_json`. -/
def toDict (a : ExactAction) : PyVal :=
  .dict (a.intentFields ++ [(("action_intent_hash" : PyStr), PyVal.str a.actionIntentHash),
    (("schema_version" : PyStr), PyVal.str "rosclaw.exact_action.v1")])

/-- `build_exact_action`: the hashes are computed from the rest. -/
def build (H : Host) (a : ExactAction) : ExactAction :=
  let a := { a with argumentsHash := Approvals.argumentsHash H a.normalizedArguments }
  { a with actionIntentHash := a.intentHash H }

end ExactAction

/-! ### Reading -/

def strField (d : PyVal) (key : String) : Option PyStr :=
  match d.get key with
  | .str s => some s
  | _ => none

def strFieldD (d : PyVal) (key : String) (default : PyStr) : Option PyStr :=
  match d.getD key (.str default) with
  | .str s => some s
  | _ => none

def dictField (d : PyVal) (key : String) : Option (List (PyStr × PyVal)) :=
  match d.get key with
  | .dict kvs => some kvs
  | _ => none

def intField (d : PyVal) (key : String) : Option Int :=
  match d.get key with
  | .int n => some n
  | _ => none

def modes : List Mode := [.simulation, .shadow, .real]

def riskTiers : List RiskTier := [.low, .medium, .high, .critical]

def modeOf (s : PyStr) : Option Mode := modes.find? fun m => Mode.value m = s

def riskTierOf (s : PyStr) : Option RiskTier := riskTiers.find? fun r => r.value = s

@[simp] theorem modeOf_value (m : Mode) : modeOf (Mode.value m) = some m := by
  cases m <;> decide

@[simp] theorem riskTierOf_value (r : RiskTier) : riskTierOf r.value = some r := by
  cases r <;> decide

/-- `ExactActionV1.model_validate_json`. -/
def ExactAction.ofDict (d : PyVal) : Option ExactAction := do
  return {
    capabilityId := ← (strField d "capability_id").filter fun s => !s.isEmpty
    capabilityVersion := ← strFieldD d "capability_version" "1.0.0"
    capabilitySource := ← strFieldD d "capability_source" ""
    normalizedArguments := ← dictField d "normalized_arguments"
    argumentsHash := ← strField d "arguments_hash"
    authoritativeRiskTier := ← (strField d "authoritative_risk_tier").bind riskTierOf
    sideEffectClass := ← strFieldD d "side_effect_class" "IRREVERSIBLE"
    missionId := ← strField d "mission_id"
    mode := ← (strField d "mode").bind modeOf
    bodyId := ← strField d "body_id"
    bodyHash := ← strField d "body_hash"
    contextRevision := ← intField d "context_revision"
    contextHash := ← strField d "context_hash"
    expectedEffect := ← strFieldD d "expected_effect" ""
    executorIdentity := ← strFieldD d "executor_identity" ""
    createdAt := ← strField d "created_at"
    expiresAt := ← strField d "expires_at"
    actionIntentHash := ← strField d "action_intent_hash" }

def ExactAction.ofJson : JsonText → Option ExactAction
  | .value d => ofDict d
  | _ => none

/-- **The contract on the card is the contract that was written.** -/
theorem ExactAction.ofJson_toDict {a : ExactAction} (h : a.capabilityId.isEmpty = false) :
    ofJson (.value a.toDict) = some a := by
  have hcapability : ((strField a.toDict "capability_id").filter fun s => !s.isEmpty)
      = some a.capabilityId := by
    show ((some a.capabilityId).filter fun s => !s.isEmpty) = _
    simp [Option.filter, h]
  have hrisk : (strField a.toDict "authoritative_risk_tier").bind riskTierOf
      = some a.authoritativeRiskTier := riskTierOf_value _
  have hmode : (strField a.toDict "mode").bind modeOf = some a.mode := modeOf_value _
  rw [ofJson, ofDict, hcapability, hrisk, hmode]
  rfl

end Rosclaw.Approvals
