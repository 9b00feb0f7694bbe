/-
The tool catalog: what is registered, under which name the model sees it, and what a call runs.

A tool has an id and a wire name, in which each `.` of the id is written `__`.  A call carries a
name, and the catalog takes it for the id it is, or for the wire name of the id that it reads
back.
-/
import Rosclaw.Lib.Dict
import Rosclaw.Lib.Text

namespace Rosclaw.ToolCatalog

def wireName (toolId : PyStr) : PyStr := toolId.replace "." "__"

def canonicalName (wire : PyStr) : PyStr := wire.replace "__" "."

/-! ### Entries -/

inductive ExecutionClass
  | observe | compute | physicalAction
deriving DecidableEq, Repr

inductive ToolSideEffectClass
  | none | reversible | irreversible
deriving DecidableEq, Repr

inductive ToolEvidenceClass
  | measured | simulated | configured | derived
deriving DecidableEq, Repr

inductive EffectClass
  | readOnly | pureCompute | workspaceWrite | hostProcess | networkEffect | simulatedEffect
  | shadowProposal | physicalEffect
deriving DecidableEq, Repr

/-- `ToolDescriptorV2`, with what the catalog reads of it and what its validator promises. -/
structure ToolDescriptor where
  toolId : PyStr
  source : PyStr
  executionClass : ExecutionClass
  sideEffectClass : ToolSideEffectClass
  effectDomain : PyStr
  evidenceClass : ToolEvidenceClass
  timeoutMs : Int
  cooperativeCancel : Bool
  modelCallable : Bool
  requiresExactActionGrant : Bool
  named : toolId.isEmpty = false
  sourced : source.isEmpty = false
  timed : 0 < timeoutMs
  /-- a physical action is never model-callable, and declares its grant -/
  physical : executionClass = .physicalAction →
    modelCallable = false ∧ requiresExactActionGrant = true
  granted : requiresExactActionGrant = true → modelCallable = false
  /-- an observation has no side effect -/
  observing : sideEffectClass ≠ .none → executionClass ≠ .observe
deriving DecidableEq

/-- `CapabilityDescriptorV2`: its id, source and effect. -/
structure Capability where
  capabilityId : PyStr
  source : PyStr
  effectClass : EffectClass
  reversible : Bool
  evidenceClass : PyStr
  named : capabilityId.isEmpty = false
  sourced : source.isEmpty = false
deriving DecidableEq

def simDomain : PyStr := "SIMULATION_STATE_ONLY"

def ToolEvidenceClass.text : ToolEvidenceClass → PyStr
  | .measured => "MEASURED"
  | .simulated => "SIMULATED"
  | .configured => "CONFIGURED"
  | .derived => "DERIVED"

def effectClassOf (d : ToolDescriptor) : EffectClass :=
  if d.executionClass = .physicalAction then .physicalEffect
  else if d.effectDomain = simDomain then .simulatedEffect
  else if d.executionClass = .compute then
    if d.evidenceClass = .simulated then .simulatedEffect else .pureCompute
  else .readOnly

def capabilityFromToolDescriptor (d : ToolDescriptor) : Capability where
  capabilityId := d.toolId
  source := d.source
  effectClass := effectClassOf d
  reversible := d.sideEffectClass ≠ .irreversible
  evidenceClass := d.evidenceClass.text
  named := d.named
  sourced := d.sourced

def EffectClass.executionClass : EffectClass → ExecutionClass
  | .physicalEffect => .physicalAction
  | .pureCompute | .simulatedEffect => .compute
  | _ => .observe

def evidenceOf (text : PyStr) : ToolEvidenceClass :=
  if text = "SIMULATED" ∨ text = "SIM_DYN_ROLLOUT" then .simulated
  else if text = "DERIVED" then .derived
  else if text = "CONFIGURED" then .configured
  else .measured

def toolDescriptorFromCapability (cap : Capability) : ToolDescriptor where
  toolId := cap.capabilityId
  source := cap.source
  executionClass := cap.effectClass.executionClass
  sideEffectClass :=
    if cap.effectClass.executionClass = .observe then .none
    else if cap.reversible then .reversible
    else .irreversible
  effectDomain := if cap.effectClass = .simulatedEffect then simDomain else ""
  evidenceClass := evidenceOf cap.evidenceClass
  timeoutMs := 2000
  cooperativeCancel := false
  modelCallable := cap.effectClass.executionClass ≠ .physicalAction
  requiresExactActionGrant := cap.effectClass.executionClass = .physicalAction
  named := cap.named
  sourced := cap.sourced
  timed := by omega
  physical := by
    intro h
    simp [h]
  granted := by
    intro h
    simpa using h
  observing := by
    intro h hobs
    exact h (if_pos hobs)

/-! ### The catalog -/

/-- `ToolCatalog`, with executors of type `X`. -/
structure Catalog (X : Type) where
  descriptors : Dict PyStr ToolDescriptor
  executors : Dict PyStr X
  quarantine : Dict PyStr PyStr
  capabilities : Dict PyStr Capability
  generation : Nat

inductive Refusal
  | reserved (toolId : PyStr)
  | toolRegistered (toolId : PyStr)
  | capabilityRegistered (cid : PyStr)
  | notInCatalog (toolId : PyStr)
  | physicalAction (toolId : PyStr)
  | notModelCallable (toolId : PyStr)
  | quarantined (toolId reason : PyStr)
  | noExecutor (toolId : PyStr)
deriving DecidableEq

/-- The text of the exception; `repr` is that of strings. -/
def Refusal.text (repr : PyStr → PyStr) : Refusal → PyStr
  | .reserved tid => "tool " ++ repr tid ++ ": '__' is reserved for the wire-name mapping"
  | .toolRegistered tid => "tool " ++ repr tid ++ " already registered"
  | .capabilityRegistered cid => "capability " ++ repr cid ++ " already registered"
  | .notInCatalog tid => "tool " ++ repr tid ++ " not in catalog"
  | .physicalAction tid =>
      "tool " ++ repr tid ++ " is PHYSICAL_ACTION — never directly executable; "
        ++ "it flows only through REQUEST_APPROVAL → Operator grant → rosclawd"
  | .notModelCallable tid => "tool " ++ repr tid ++ " is not model_callable"
  | .quarantined tid reason => "tool " ++ repr tid ++ " quarantined: " ++ reason
  | .noExecutor tid => "tool " ++ repr tid ++ " has no executor (source offline?)"

namespace Catalog

variable {X : Type}

/-- `ToolCatalog()`. -/
def new : Catalog X := ⟨∅, ∅, ∅, ∅, 0⟩

def store (c : Catalog X) (d : ToolDescriptor) (cap : Capability) (executor : Option X) :
    Catalog X :=
  { c with
    descriptors := c.descriptors.set d.toolId d
    capabilities := c.capabilities.set d.toolId cap
    executors := executor.elim c.executors (c.executors.set d.toolId)
    generation := c.generation + 1 }

def register (c : Catalog X) (d : ToolDescriptor) (executor : Option X) :
    Except Refusal (Catalog X) :=
  if d.toolId.contains "__" then .error (.reserved d.toolId)
  else if c.descriptors.contains d.toolId then .error (.toolRegistered d.toolId)
  else .ok (c.store d (capabilityFromToolDescriptor d) executor)

def replace (c : Catalog X) (d : ToolDescriptor) (executor : Option X) : Catalog X :=
  c.store d (capabilityFromToolDescriptor d) executor

def registerCapability (c : Catalog X) (cap : Capability) (executor : Option X) :
    Except Refusal (Catalog X) :=
  if c.capabilities.contains cap.capabilityId then
    .error (.capabilityRegistered cap.capabilityId)
  else .ok (c.store (toolDescriptorFromCapability cap) cap executor)

def quarantineTool (c : Catalog X) (toolId reason : PyStr) : Catalog X :=
  { c with quarantine := c.quarantine.set toolId reason, generation := c.generation + 1 }

def ofSource (c : Catalog X) (source : PyStr) : List PyStr :=
  (c.descriptors.entries.filter fun e => e.2.source = source).map fun e => e.2.toolId

def quarantineSource (c : Catalog X) (source reason : PyStr) : Catalog X :=
  let ids := c.ofSource source
  { c with
    quarantine := ids.foldl (fun q tid => q.set tid reason) c.quarantine
    generation := if ids.isEmpty then c.generation else c.generation + 1 }

def liftQuarantine (c : Catalog X) (toolId : PyStr) : Catalog X :=
  if c.quarantine.contains toolId then
    { c with quarantine := c.quarantine.erase toolId, generation := c.generation + 1 }
  else c

def liftSourceQuarantine (c : Catalog X) (source : PyStr) : Catalog X :=
  let doomed := (c.descriptors.entries.filter fun e => e.2.source = source).map Prod.fst
  { c with
    quarantine := doomed.foldl Dict.erase c.quarantine
    generation := if doomed.any c.quarantine.contains then c.generation + 1 else c.generation }

def canonical (c : Catalog X) (name : PyStr) : PyStr :=
  if c.descriptors.contains name then name
  else if c.descriptors.contains (canonicalName name) then canonicalName name
  else name

/-- What `execute` awaits: the executor of a tool, with a deadline in milliseconds if the tool
can be cancelled. -/
structure Job (X : Type) where
  toolId : PyStr
  executor : X
  deadlineMs : Option Int

/-- `execute`, with the descriptor at hand. -/
def perform (c : Catalog X) (d : ToolDescriptor) : Except Refusal (Job X) :=
  if d.executionClass = .physicalAction then .error (.physicalAction d.toolId)
  else if d.modelCallable = false then .error (.notModelCallable d.toolId)
  else
    match c.quarantine.get? d.toolId, c.executors.get? d.toolId with
    | some reason, _ => .error (.quarantined d.toolId reason)
    | none, none => .error (.noExecutor d.toolId)
    | none, some executor =>
        .ok ⟨d.toolId, executor, if d.cooperativeCancel then some d.timeoutMs else none⟩

def execute (c : Catalog X) (name : PyStr) : Except Refusal (Job X) :=
  match c.descriptors.get? (c.canonical name) with
  | none => .error (.notInCatalog name)
  | some d => c.perform d

/-- The names of the tools that `to_strict_tool` takes. -/
def wireNames (c : Catalog X) : List PyStr :=
  (c.descriptors.values.filter fun d =>
    d.executionClass ≠ .physicalAction ∧ d.modelCallable = true).map fun d => wireName d.toolId

end Catalog

inductive Op (X : Type)
  | register (d : ToolDescriptor) (executor : Option X)
  | replace (d : ToolDescriptor) (executor : Option X)
  | registerCapability (cap : Capability) (executor : Option X)
  | quarantineTool (toolId reason : PyStr)
  | quarantineSource (source reason : PyStr)
  | liftQuarantine (toolId : PyStr)
  | liftSourceQuarantine (source : PyStr)

variable {X : Type}

def Op.apply (c : Catalog X) : Op X → Except Refusal (Catalog X)
  | .register d executor => c.register d executor
  | .replace d executor => .ok (c.replace d executor)
  | .registerCapability cap executor => c.registerCapability cap executor
  | .quarantineTool tid reason => .ok (c.quarantineTool tid reason)
  | .quarantineSource source reason => .ok (c.quarantineSource source reason)
  | .liftQuarantine tid => .ok (c.liftQuarantine tid)
  | .liftSourceQuarantine source => .ok (c.liftSourceQuarantine source)

def Op.registers : Op X → Option PyStr
  | .register d _ | .replace d _ => some d.toolId
  | .registerCapability cap _ => some cap.capabilityId
  | _ => none

def accepted (c : Catalog X) : List (Op X) → Except Refusal (Catalog X)
  | [] => .ok c
  | op :: ops => (op.apply c).bind fun c' => accepted c' ops

end Rosclaw.ToolCatalog
