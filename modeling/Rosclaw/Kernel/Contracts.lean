/-
Versioned contracts for physical action execution (`kernel/contracts.py`).

`ActionEnvelope` is the request.  Its conversions to and from dictionaries are
the ones the daemon writes to and reads from its ledger, so they are modelled on
Python values, with their type checks.

* `ActionEnvelope.fromDict_toDict` — a stored action reads back as itself.
-/
import Rosclaw.Lib.DateTime

namespace Rosclaw

def ACTION_SCHEMA_VERSION : String := "rosclaw.action.v1"
def RECEIPT_SCHEMA_VERSION : String := "rosclaw.receipt.v1"

/-- The Python exceptions the modelled code can raise. -/
inductive PyError
  | valueError
  | typeError
  | attributeError
  | overflowError
deriving DecidableEq, Repr

/-- What the code takes from the interpreter and that no property depends on:
`str(v)` of a value that is no string, `float(s)` and `int(s)` of a string, how
deep `json.dumps` may recurse, and the SHA-256 hex digest of a value's canonical
text. -/
structure Builtins where
  repr : PyVal → String
  floatOfText : PyStr → Option PyFloat
  intOfText : PyStr → Option Int
  recursionLimit : Nat
  sha256Hex : PyVal → String

def Builtins.zero : Builtins where
  repr _ := ""
  floatOfText _ := none
  intOfText _ := none
  recursionLimit := 1000
  sha256Hex _ := "0000000000000000000000000000000000000000000000000000000000000000"

def Builtins.str (py : Builtins) : PyVal → PyStr
  | .str s => s
  | v => py.repr v

def Builtins.float (py : Builtins) : PyVal → Except PyError PyFloat
  | .bool b => .ok (.finite (if b then 1 else 0))
  | .int n => if n.natAbs < 2 ^ 1024 then .ok (.finite n) else .error .overflowError
  | .float x => .ok x
  | .str s => match py.floatOfText s with
    | some x => .ok x
    | none => .error .valueError
  | _ => .error .typeError

/-! ### Enumerations -/

def enumOfText {α : Type} (members : List α) (value : α → String) (s : PyStr) : Option α :=
  members.find? fun a => (value a : PyStr) = s

theorem enumOfText_value {α : Type} {members : List α} {value : α → String}
    (hn : (members.map value).Nodup) {a : α} (ha : a ∈ members) :
    enumOfText members value (value a) = some a := by
  induction members with
  | nil => exact nomatch ha
  | cons b bs ih =>
    rw [List.map_cons, List.nodup_cons] at hn
    rcases List.mem_cons.mp ha with rfl | ha
    · simp [enumOfText]
    · have hne : value b ≠ value a := fun h => hn.1 (h ▸ List.mem_map.mpr ⟨a, ha, rfl⟩)
      simpa [enumOfText, hne] using ih hn.2 ha

inductive ExecutionMode
  | fixture | dryRun | replay | simulation | shadow | real
deriving DecidableEq, Repr

namespace ExecutionMode

def value : ExecutionMode → String
  | fixture => "FIXTURE"
  | dryRun => "DRY_RUN"
  | replay => "REPLAY"
  | simulation => "SIMULATION"
  | shadow => "SHADOW"
  | real => "REAL"

def members : List ExecutionMode := [fixture, dryRun, replay, simulation, shadow, real]

def ofText : PyStr → Option ExecutionMode := enumOfText members value

variable (m : ExecutionMode)

@[simp] theorem ofText_value : ofText m.value = some m :=
  enumOfText_value (by simp [members, value]) (by cases m <;> simp [members])

@[simp] theorem ofText_upper_value : ofText (PyStr.upper m.value) = some m := by
  have hupper : PyStr.upper m.value = m.value := by cases m <;> rfl
  rw [hupper, ofText_value]

end ExecutionMode

/-- Required behavior when the owning Agent Session is lost. -/
inductive OrphanPolicy
  | stopOnClientLoss | cancelOnClientLoss | continueUntilDeadline | operatorHandoffRequired
deriving DecidableEq, Repr

namespace OrphanPolicy

def value : OrphanPolicy → String
  | stopOnClientLoss => "STOP_ON_CLIENT_LOSS"
  | cancelOnClientLoss => "CANCEL_ON_CLIENT_LOSS"
  | continueUntilDeadline => "CONTINUE_UNTIL_DEADLINE"
  | operatorHandoffRequired => "OPERATOR_HANDOFF_REQUIRED"

def members : List OrphanPolicy :=
  [stopOnClientLoss, cancelOnClientLoss, continueUntilDeadline, operatorHandoffRequired]

def ofText : PyStr → Option OrphanPolicy := enumOfText members value

@[simp] theorem ofText_upper_value (p : OrphanPolicy) : ofText (PyStr.upper p.value) = some p := by
  have hupper : PyStr.upper p.value = p.value := by cases p <;> rfl
  rw [hupper]
  exact enumOfText_value (by simp [members, value]) (by cases p <;> simp [members])

end OrphanPolicy

/-- Strongest acknowledgement that can be truthfully claimed. -/
inductive AcknowledgementStage
  | requestAccepted | commandDispatched | protocolAcknowledged | deliveryInferred
  | effectObserved | taskVerified
deriving DecidableEq, Repr

namespace AcknowledgementStage

def value : AcknowledgementStage → String
  | requestAccepted => "REQUEST_ACCEPTED"
  | commandDispatched => "COMMAND_DISPATCHED"
  | protocolAcknowledged => "PROTOCOL_ACKNOWLEDGED"
  | deliveryInferred => "DELIVERY_INFERRED"
  | effectObserved => "EFFECT_OBSERVED"
  | taskVerified => "TASK_VERIFIED"

def members : List AcknowledgementStage :=
  [requestAccepted, commandDispatched, protocolAcknowledged, deliveryInferred, effectObserved,
    taskVerified]

def ofText : PyStr → Option AcknowledgementStage := enumOfText members value

end AcknowledgementStage

/-- Observable states in the physical action lifecycle. -/
inductive ActionState
  | proposed | grounded | policyValidated | simulationValidated | authorizationRequired
  | authorized | waitingResource | scheduled | requestAccepted | commandDispatched
  | protocolAcknowledged | deliveryInferred | effectObserved | dispatched
  | driverAcknowledged | physicallyObserved | taskVerified | completed | blocked | failed
  | cancelled | timedOut | orphaned | degraded
deriving DecidableEq, Repr

namespace ActionState

def value : ActionState → String
  | proposed => "PROPOSED"
  | grounded => "GROUNDED"
  | policyValidated => "POLICY_VALIDATED"
  | simulationValidated => "SIMULATION_VALIDATED"
  | authorizationRequired => "AUTHORIZATION_REQUIRED"
  | authorized => "AUTHORIZED"
  | waitingResource => "WAITING_RESOURCE"
  | scheduled => "SCHEDULED"
  | requestAccepted => "REQUEST_ACCEPTED"
  | commandDispatched => "COMMAND_DISPATCHED"
  | protocolAcknowledged => "PROTOCOL_ACKNOWLEDGED"
  | deliveryInferred => "DELIVERY_INFERRED"
  | effectObserved => "EFFECT_OBSERVED"
  | dispatched => "DISPATCHED"
  | driverAcknowledged => "DRIVER_ACKNOWLEDGED"
  | physicallyObserved => "PHYSICALLY_OBSERVED"
  | taskVerified => "TASK_VERIFIED"
  | completed => "COMPLETED"
  | blocked => "BLOCKED"
  | failed => "FAILED"
  | cancelled => "CANCELLED"
  | timedOut => "TIMED_OUT"
  | orphaned => "ORPHANED"
  | degraded => "DEGRADED"

def members : List ActionState :=
  [proposed, grounded, policyValidated, simulationValidated, authorizationRequired, authorized,
    waitingResource, scheduled, requestAccepted, commandDispatched, protocolAcknowledged,
    deliveryInferred, effectObserved, dispatched, driverAcknowledged, physicallyObserved,
    taskVerified, completed, blocked, failed, cancelled, timedOut, orphaned, degraded]

def ofText : PyStr → Option ActionState := enumOfText members value

end ActionState

inductive EvidenceLevel
  | synthetic | requested | dispatchConfirmed | driverConfirmed | physicallyObserved
  | taskVerified
deriving DecidableEq, Repr

namespace EvidenceLevel

def value : EvidenceLevel → String
  | synthetic => "SYNTHETIC"
  | requested => "REQUESTED"
  | dispatchConfirmed => "DISPATCH_CONFIRMED"
  | driverConfirmed => "DRIVER_CONFIRMED"
  | physicallyObserved => "PHYSICALLY_OBSERVED"
  | taskVerified => "TASK_VERIFIED"

def members : List EvidenceLevel :=
  [synthetic, requested, dispatchConfirmed, driverConfirmed, physicallyObserved, taskVerified]

def ofText : PyStr → Option EvidenceLevel := enumOfText members value

variable (e : EvidenceLevel)

@[simp] theorem ofText_value : ofText e.value = some e :=
  enumOfText_value (by simp [members, value]) (by cases e <;> simp [members])

@[simp] theorem ofText_upper_value : ofText (PyStr.upper e.value) = some e := by
  have hupper : PyStr.upper e.value = e.value := by cases e <;> rfl
  rw [hupper, ofText_value]

end EvidenceLevel

inductive EvidenceDomain
  | fixture | simulation | replay | shadow | hardware
deriving DecidableEq, Repr

def EvidenceDomain.value : EvidenceDomain → String
  | fixture => "FIXTURE"
  | simulation => "SIMULATION"
  | replay => "REPLAY"
  | shadow => "SHADOW"
  | hardware => "HARDWARE"

def evidenceDomainForMode : ExecutionMode → EvidenceDomain
  | .fixture => .fixture
  | .dryRun => .fixture
  | .replay => .replay
  | .simulation => .simulation
  | .shadow => .shadow
  | .real => .hardware

/-! ### Authorization and verification -/

/-- Authorization facts attached by the caller or approval service.  The caller's
`approval_id` is kept as it came. -/
structure AuthorizationContext where
  principalId : PyStr := ""
  approved : Bool := false
  approvalId : PyVal := .none
  scopes : List PyStr := []
  provenance : PyVal.Dictionary := .ofEntries []

namespace AuthorizationContext

def toDict (a : AuthorizationContext) : PyVal :=
  .dict (("principal_id", .str a.principalId) :: ("approved", .bool a.approved) ::
    ("approval_id", a.approvalId) :: ("scopes", .list (a.scopes.map .str)) ::
    if a.provenance.1.truthy then [("provenance", a.provenance)] else [])

/-- `[str(item) for item in v]`. -/
def scopesOf (py : Builtins) : PyVal → Except PyError (List PyStr)
  | .list xs => .ok (xs.map py.str)
  | .tuple xs => .ok (xs.map py.str)
  | .dict kvs => .ok (kvs.map Prod.fst)
  | .str s => .ok (s.codes.map fun c => ⟨[c]⟩)
  | _ => .error .typeError

def fromDict (py : Builtins) (value : PyVal) : Except PyError AuthorizationContext := do
  -- `data = value or {}`
  let data : PyVal := if value.truthy then value else .dict []
  if !data.isDict then throw .attributeError
  let scopes ← scopesOf py (data.getD "scopes" (.list []))
  return {
    principalId := py.str (data.getD "principal_id" (.str ""))
    approved := (data.getD "approved" (.bool false)).truthy
    approvalId := data.get "approval_id"
    scopes := scopes
    provenance :=
      let provenance := data.getD "provenance" (.dict [])
      if h : provenance.isDict = true then ⟨provenance, h⟩ else .ofEntries [] }

variable (py : Builtins)

@[simp] theorem map_str_str (ss : List PyStr) : ss.map (py.str ∘ PyVal.str) = ss := by
  induction ss with
  | nil => rfl
  | cons s ss ih =>
    rw [List.map_cons, ih]
    rfl

/-- **A stored authorization reads back as itself.** -/
@[simp] theorem fromDict_toDict (a : AuthorizationContext) : fromDict py a.toDict = .ok a := by
  obtain ⟨principalId, approved, approvalId, scopes, provenance⟩ := a
  cases hempty : provenance.1.truthy with
  | false =>
    obtain rfl := PyVal.Dictionary.eq_empty_of_falsy hempty
    simp [fromDict, toDict, PyVal.truthy, PyVal.isDict, PyVal.get, scopesOf, Builtins.str, pure,
      Except.pure, bind, Except.bind, PyVal.Dictionary.ofEntries]
  | true =>
    simp [fromDict, toDict, hempty, PyVal.get, scopesOf, Builtins.str, pure, Except.pure, bind,
      Except.bind, provenance.2]

end AuthorizationContext

/-- Minimum verification requested for the action; the timeout is positive and at
most an hour. -/
structure VerificationPolicy where
  requiredEvidence : EvidenceLevel
  timeoutSec : Rat
  failClosed : Bool
  timeout_bounds : 0 < timeoutSec ∧ timeoutSec ≤ 3600

namespace VerificationPolicy

def toDict (p : VerificationPolicy) : PyVal :=
  .dict [("required_evidence", .str p.requiredEvidence.value),
    ("timeout_sec", .float (.finite p.timeoutSec)), ("fail_closed", .bool p.failClosed)]

/-- `__post_init__`: the timeout is finite and in range. -/
def make (e : EvidenceLevel) (timeout : PyFloat) (failClosed : Bool) :
    Except PyError VerificationPolicy :=
  match timeout with
  | .finite q =>
    if h : 0 < q ∧ q ≤ 3600 then .ok ⟨e, q, failClosed, h⟩ else .error .valueError
  | _ => .error .valueError

def fromDict (py : Builtins) (value : PyVal) : Except PyError VerificationPolicy := do
  let data : PyVal := if value.truthy then value else .dict []
  if !data.isDict then throw .attributeError
  let evidence := py.str (data.getD "required_evidence" (.str EvidenceLevel.taskVerified.value))
  match EvidenceLevel.ofText evidence.upper with
  | none => throw .valueError
  | some e =>
    let timeout ← py.float (data.getD "timeout_sec" (.float (.finite 30)))
    make e timeout (data.getD "fail_closed" (.bool true)).truthy

@[simp] theorem fromDict_toDict (py : Builtins) (p : VerificationPolicy) :
    fromDict py p.toDict = .ok p := by
  obtain ⟨e, q, f, h⟩ := p
  simp [fromDict, toDict, PyVal.truthy, PyVal.isDict, Builtins.str, Builtins.float, make, h,
    bind, Except.bind]

end VerificationPolicy

/-! ### The action envelope -/

/-- The fields of `ActionEnvelope`; `__post_init__` always leaves a deadline. -/
structure ActionFields where
  schemaVersion : PyStr
  actionId : PyStr
  actorId : PyStr
  agentFramework : PyStr
  sessionId : PyStr
  bodyId : PyStr
  bodySnapshotHash : PyStr
  capabilityId : PyStr
  arguments : PyVal.Dictionary
  executionMode : ExecutionMode
  authorization : AuthorizationContext
  riskClass : PyStr
  deadlineAt : DateTime
  leaseTtlMs : Nat
  renewIntervalMs : Nat
  orphanPolicy : OrphanPolicy
  stopCapability : PyStr
  parentTraceId : PyVal
  expectedEffect : PyVal
  verificationPolicy : VerificationPolicy

namespace ActionFields

/-- The fields `__post_init__` requires to be non-empty. -/
def required (a : ActionFields) : List PyStr :=
  [a.schemaVersion, a.actionId, a.actorId, a.agentFramework, a.sessionId, a.bodyId,
    a.capabilityId]

/-- What `__post_init__` checks. -/
def Valid (a : ActionFields) : Prop :=
  a.required.all (fun s => !s.isBlank) = true ∧ a.schemaVersion = ACTION_SCHEMA_VERSION ∧
    (100 ≤ a.leaseTtlMs ∧ a.leaseTtlMs ≤ 3600000) ∧
    (100 ≤ a.renewIntervalMs ∧ a.renewIntervalMs ≤ 3600000) ∧
    a.renewIntervalMs < a.leaseTtlMs ∧ a.stopCapability.isBlank = false

instance (a : ActionFields) : Decidable a.Valid := by unfold Valid; infer_instance

end ActionFields

/-- Canonical, versioned request for an action with physical implications. -/
structure ActionEnvelope extends ActionFields where
  valid : toActionFields.Valid

namespace ActionEnvelope

def toDict (a : ActionEnvelope) : PyVal :=
  .dict [("schema_version", .str a.schemaVersion), ("action_id", .str a.actionId),
    ("actor_id", .str a.actorId), ("agent_framework", .str a.agentFramework),
    ("session_id", .str a.sessionId), ("body_id", .str a.bodyId),
    ("body_snapshot_hash", .str a.bodySnapshotHash), ("capability_id", .str a.capabilityId),
    ("arguments", a.arguments), ("execution_mode", .str a.executionMode.value),
    ("authorization", a.authorization.toDict), ("risk_class", .str a.riskClass),
    ("deadline_at", .str a.deadlineAt.isoformat), ("lease_ttl_ms", .int a.leaseTtlMs),
    ("renew_interval_ms", .int a.renewIntervalMs), ("orphan_policy", .str a.orphanPolicy.value),
    ("stop_capability", .str a.stopCapability), ("parent_trace_id", a.parentTraceId),
    ("expected_effect", a.expectedEffect), ("verification_policy", a.verificationPolicy.toDict)]

def leaseMillis : PyVal → Except PyError Nat
  | .int n => if 100 ≤ n ∧ n ≤ 3600000 then .ok n.toNat else .error .valueError
  | _ => .error .typeError

theorem leaseMillis_int {n : Nat} (h : 100 ≤ n ∧ n ≤ 3600000) : leaseMillis (.int n) = .ok n := by
  have h' : (100 : Int) ≤ n ∧ (n : Int) ≤ 3600000 := by omega
  simp [leaseMillis, h']

/-- A key of `dict(v)`; lists and dictionaries have no hash. -/
def keyOf (py : Builtins) : PyVal → Except PyError PyKey
  | .str s => .ok (.str s)
  | .int n => .ok (.int n)
  | .float x => .ok (.float x (py.repr (.float x)))
  | .bool b => .ok (.bool b)
  | .none => .ok .none
  | _ => .error .typeError

/-- The two items of an element of `v` in `dict(v)`: of a list, a text, or a dictionary. -/
def pairOf : PyVal → Except PyError (PyVal × PyVal)
  | .list [k, v] | .tuple [k, v] => .ok (k, v)
  | .str ⟨[a, b]⟩ => .ok (.str ⟨[a]⟩, .str ⟨[b]⟩)
  | .dict [(k, _), (k', _)] => .ok (.str k, .str k')
  | .list _ | .tuple _ | .str _ | .dict _ => .error .valueError
  | _ => .error .typeError

/-- `dict(v)` of a value read from JSON: a dictionary, or a list of pairs with keys of any
type. -/
def entriesOf (py : Builtins) (v : PyVal) : Except PyError PyVal.Dictionary :=
  if h : v.isDict = true then .ok ⟨v, h⟩
  else match v with
    | .list xs => (xs.foldlM (fun kvs x => do
        let (k, v) ← pairOf x
        return PyVal.setKey (← keyOf py k) v kvs) []).map .ofItems
    | .str s => if s.codes = [] then .ok (.ofEntries []) else .error .valueError
    | _ => .error .typeError

@[simp] theorem entriesOf_dictionary (py : Builtins) (d : PyVal.Dictionary) :
    entriesOf py d = .ok d := dif_pos d.2

/-- `_parse_datetime`: `None` and `""` mean no timestamp, a naive one is UTC. -/
def parseDatetime (py : Builtins) (v : PyVal) : Except PyError (Option DateTime) :=
  match v with
  | .none => .ok none
  | v =>
    if (py.str v).codes = [] then .ok none
    else match DateTime.parseUtc (some 0) (py.str v) with
      | some t => .ok (some t)
      | none => .error .valueError

def roundHalfEven (q : Rat) : Int :=
  let f := q.floor
  if q - f < 1 / 2 then f
  else if 1 / 2 < q - f then f + 1
  else if f % 2 = 0 then f else f + 1

/-- `utc_now() + timedelta(seconds=max(0.1, timeout_sec))`. -/
def defaultDeadline (now : DateTime) (p : VerificationPolicy) : Except PyError DateTime :=
  match DateTime.ofParts (now.micros + (roundHalfEven (max (1 / 10) p.timeoutSec * 1000000)).toNat)
      now.offset with
  | some t => .ok t
  | none => .error .overflowError

def modeOf (s : PyStr) : Except PyError ExecutionMode :=
  match ExecutionMode.ofText s.upper with
  | some m => .ok m
  | none => .error .valueError

def orphanPolicyOf (s : PyStr) : Except PyError OrphanPolicy :=
  match OrphanPolicy.ofText s.upper with
  | some p => .ok p
  | none => .error .valueError

def stopCapabilityOf : PyVal → Except PyError PyStr
  | .str s => .ok s
  | _ => .error .valueError

/-- `__post_init__` on typed fields. -/
def make (a : ActionFields) : Except PyError ActionEnvelope :=
  if h : a.Valid then .ok ⟨a, h⟩ else .error .valueError

/-- `ActionEnvelope.from_dict`; `now` and `uuid` supply the defaults of a missing
deadline and a missing action id. -/
def fromDict (py : Builtins) (now : DateTime) (uuid : PyStr) (value : PyVal) :
    Except PyError ActionEnvelope := do
  let arguments ← entriesOf py (value.getD "arguments" (.dict []))
  let mode ← modeOf (py.str (value.getD "execution_mode" (.str "")))
  let authorization ← AuthorizationContext.fromDict py (value.get "authorization")
  let deadline ← parseDatetime py (value.get "deadline_at")
  let orphan ← orphanPolicyOf
    (py.str (value.getD "orphan_policy" (.str OrphanPolicy.stopOnClientLoss.value)))
  let policy ← VerificationPolicy.fromDict py (value.get "verification_policy")
  let deadlineAt ← match deadline with
    | some t => .ok t
    | none => defaultDeadline now policy
  let ttl ← leaseMillis (value.getD "lease_ttl_ms" (.int 10000))
  let renew ← leaseMillis (value.getD "renew_interval_ms" (.int 3000))
  let stop ← stopCapabilityOf (value.getD "stop_capability" (.str "safety.emergency_stop"))
  let actionId := value.get "action_id"
  make {
    schemaVersion := py.str (value.getD "schema_version" (.str ACTION_SCHEMA_VERSION))
    actionId := if actionId.truthy then py.str actionId else uuid
    actorId := py.str (value.getD "actor_id" (.str ""))
    agentFramework := py.str (value.getD "agent_framework" (.str ""))
    sessionId := py.str (value.getD "session_id" (.str ""))
    bodyId := py.str (value.getD "body_id" (.str ""))
    bodySnapshotHash := py.str (value.getD "body_snapshot_hash" (.str ""))
    capabilityId := py.str (value.getD "capability_id" (.str ""))
    arguments := arguments
    executionMode := mode
    authorization := authorization
    riskClass := py.str (value.getD "risk_class" (.str "medium"))
    deadlineAt := deadlineAt
    leaseTtlMs := ttl
    renewIntervalMs := renew
    orphanPolicy := orphan
    stopCapability := stop
    parentTraceId := value.get "parent_trace_id"
    expectedEffect := value.get "expected_effect"
    verificationPolicy := policy }

variable (py : Builtins)

theorem parseDatetime_isoformat (t : DateTime) :
    parseDatetime py (.str t.isoformat) = .ok (some t) := by
  simp [parseDatetime, Builtins.str, t.isoformat_ne_nil]

theorem actionId_ne_nil (a : ActionEnvelope) : a.actionId.codes ≠ [] := by
  intro h
  have := a.valid.1
  simp [ActionFields.required, PyStr.isBlank, h] at this

/-- **A stored action reads back as itself.** -/
@[simp] theorem fromDict_toDict (now : DateTime) (uuid : PyStr) (a : ActionEnvelope) :
    fromDict py now uuid a.toDict = .ok a := by
  obtain ⟨hreq, hschema, httl, hrenew, hlt, hstop⟩ := a.valid
  have hid := a.actionId_ne_nil
  simp [fromDict, toDict, PyVal.get, Builtins.str, bind, Except.bind, modeOf,
    orphanPolicyOf, parseDatetime_isoformat, leaseMillis_int httl, leaseMillis_int hrenew,
    stopCapabilityOf, PyVal.truthy, hid, make, a.valid]

theorem isBlank_a1 : PyStr.isBlank "a1" = false := by decide

/-- A well-formed action on body `b` with capability `c`, in session `s` of actor
`a`, that names the given approval. -/
def sample (actionId : PyStr) (hid : actionId.isBlank = false) (mode : ExecutionMode)
    (approvalId : PyVal) (deadlineAt : DateTime) : ActionEnvelope where
  schemaVersion := ACTION_SCHEMA_VERSION
  actionId := actionId
  actorId := "a"
  agentFramework := "f"
  sessionId := "s"
  bodyId := "b"
  bodySnapshotHash := "h"
  capabilityId := "c"
  arguments := .ofEntries []
  executionMode := mode
  authorization := { principalId := "op", approvalId := approvalId }
  riskClass := "medium"
  deadlineAt := deadlineAt
  leaseTtlMs := 10000
  renewIntervalMs := 3000
  orphanPolicy := .stopOnClientLoss
  stopCapability := "safety.emergency_stop"
  parentTraceId := .none
  expectedEffect := .none
  verificationPolicy := ⟨.taskVerified, 30, true, by decide, by decide⟩
  valid := by
    refine ⟨?_, rfl, ?_, ?_, ?_, ?_⟩
    · simp only [ActionFields.required, List.all_cons, List.all_nil, hid]
      decide
    all_goals
      dsimp only
      decide

end ActionEnvelope

end Rosclaw
