/-
The intent of an action (`daemon/permits.py`), of requests read from any frame
(`kernel/contracts.py`).

A request is read from a dictionary and written to one; a permit names the hash of what it is to do.
The arguments may be given as anything that `dict` takes, so their keys need not be strings, while
in the text that is hashed they all are.

* `fromDict_toDict` — what was written is read back as it was;
* `produced` — what is known of the values in a request that was read;
* `envelope_laws` — **requests with one hash have the same intent if and only if the keys of their
  arguments are of one kind**.
-/
import Rosclaw.Lib.PyObj
import Rosclaw.Kernel.Contracts

namespace Rosclaw.Intent

open PyJson List Option
open DateTime (utcToZ zToUtc zToUtc_utcToZ)

/-! ### What the code takes from the interpreter -/

/-- `str(v)` of a value that is no string, and `float(s)` of a text; both may raise, and a text that
is read as NaN is refused like one that is not read. -/
structure Texts where
  repr : PyObj → Option PyStr
  floatOfText : PyStr → Option Double

def Texts.str (texts : Texts) : PyObj → Option PyStr
  | .str s => some s
  | v => texts.repr v

/-- `float(v)`; an integer that is too large is infinite here, and refused as such. -/
def Texts.float (texts : Texts) : PyObj → Option Double
  | .bool b => some (Double.ofRat false (if b then 1 else 0))
  | .int n => some (Double.ofRat (n < 0) n.natAbs)
  | .float x => some x
  | .str s => texts.floatOfText s
  | _ => none

/-- The timestamps with a zone: `t.isoformat()`, `datetime.fromisoformat(s)` (in UTC, if the text
names no zone) and `t + timedelta(seconds=x)`.  A timestamp is read back from its text, which has
no `Z` in it. -/
structure Calendar (T : Type) where
  isoformat : T → PyStr
  fromisoformat : PyStr → Option T
  later : T → ℚ → Option T
  read_written : ∀ t, fromisoformat (isoformat t) = some t
  no_Z : ∀ t, 90 ∉ (isoformat t).codes
  nonempty : ∀ t, (isoformat t).codes ≠ []

theorem utcToZ_ne_nil {cs : List Nat} (h : cs ≠ []) : utcToZ cs ≠ [] := by
  fun_cases utcToZ cs with
  | case1 cs => exact cons_ne_nil _ _
  | case2 c cs hne => exact cons_ne_nil _ _
  | case3 => exact absurd rfl h

namespace Calendar

variable {T : Type} (cal : Calendar T)

def iso (t : T) : PyStr := ⟨utcToZ (cal.isoformat t).codes⟩

/-- `_parse_datetime`: `None` and `""` mean no timestamp. -/
def parseDatetime (texts : Texts) (v : PyObj) : Option (Option T) :=
  match v with
  | .none => some none
  | .str ⟨[]⟩ => some none
  | v => (texts.str v).bind fun s => (cal.fromisoformat ⟨zToUtc s.codes⟩).map some

@[simp] theorem parseDatetime_iso (texts : Texts) (t : T) :
    cal.parseDatetime texts (.str (cal.iso t)) = some (some t) := by
  have hne : (cal.iso t).codes ≠ [] := utcToZ_ne_nil (cal.nonempty t)
  have hread : cal.fromisoformat ⟨zToUtc (cal.iso t).codes⟩ = some t := by
    rw [iso, zToUtc_utcToZ (cal.no_Z t)]
    exact cal.read_written t
  rcases h : cal.iso t with ⟨_ | ⟨c, cs⟩⟩
  · rw [h] at hne
    exact absurd rfl hne
  · rw [h] at hread
    rw [parseDatetime, Texts.str, bind_some, hread, map_some]
    · intro hnone
      cases hnone
    · intro hempty
      cases hempty

theorem iso_inj {t t' : T} (h : cal.iso t = cal.iso t') : t = t' := by
  have hread := cal.read_written t
  have hread' := cal.read_written t'
  have hcodes : cal.isoformat t = cal.isoformat t' := by
    have heq := congrArg (fun s : PyStr => zToUtc s.codes) h
    simp only [iso, zToUtc_utcToZ (cal.no_Z _)] at heq
    exact codes_inj heq
  rw [hcodes, hread'] at hread
  exact (Option.some.inj hread).symm

end Calendar

/-- The timestamps to the microsecond. -/
def Calendar.dateTimes : Calendar DateTime where
  isoformat := DateTime.utcText
  fromisoformat := DateTime.parse (some 0)
  later t x := DateTime.ofParts (t.micros + (ActionEnvelope.roundHalfEven (x * 1000000)).toNat)
    t.offset
  read_written := DateTime.parse_localText (some 0)
  no_Z := DateTime.z_not_mem_localText
  nonempty t h := by
    have hread := DateTime.parse_localText (some 0) t
    rw [show t.localText (DateTime.offsetText t.offset) = [] from h] at hread
    cases hread

/-! ### Authorization and verification -/

/-- Authorization facts attached by the caller or approval service. -/
structure AuthorizationContext where
  principalId : PyStr := ""
  approved : Bool := false
  approvalId : PyObj := .none
  scopes : List PyStr := []
  provenance : List (Key × PyObj) := []

namespace AuthorizationContext

def toDict (a : AuthorizationContext) : PyObj :=
  .dict ((.str "principal_id", .str a.principalId) :: (.str "approved", .bool a.approved) ::
    (.str "approval_id", a.approvalId) :: (.str "scopes", .list (a.scopes.map .str)) ::
    if a.provenance.isEmpty then [] else [(.str "provenance", .dict a.provenance)])

/-- `[str(item) for item in v]`. -/
def scopesOf (texts : Texts) : PyObj → Option (List PyStr)
  | .list xs | .tuple xs => xs.mapM texts.str
  | .dict kvs => kvs.mapM fun e => texts.str e.1.obj
  | .str s => some (s.codes.map fun c => ⟨[c]⟩)
  | _ => none

def fromDict (texts : Texts) (value : PyObj) : Option AuthorizationContext := do
  let data ← dataOf value
  let principalId ← texts.str (getD data "principal_id" (.str ""))
  let scopes ← scopesOf texts (getD data "scopes" (.list []))
  return {
    principalId := principalId
    approved := truthy (getD data "approved" (.bool false))
    approvalId := getD data "approval_id" .none
    scopes := scopes
    provenance := match getD data "provenance" (.dict []) with
      | .dict kvs => kvs
      | _ => [] }

theorem mapM_str (texts : Texts) (ss : List PyStr) : ss.mapM (texts.str ∘ PyObj.str) = some ss := by
  induction ss with
  | nil => rfl
  | cons s ss ih =>
    rw [mapM_cons, ih]
    rfl

@[simp] theorem fromDict_toDict (texts : Texts) (a : AuthorizationContext) :
    fromDict texts a.toDict = some a := by
  obtain ⟨principalId, approved, approvalId, scopes, provenance⟩ := a
  cases provenance with
  | nil => simp [fromDict, toDict, dataOf, truthy, scopesOf, mapM_str, Texts.str]
  | cons e es => simp [fromDict, toDict, dataOf, truthy, scopesOf, mapM_str, Texts.str]

end AuthorizationContext

def seconds? (x : Double) : Option ℚ := (Key.float x).number?

def timeoutFits (x : Double) : Bool := (seconds? x).any fun q => 0 < q ∧ q ≤ 3600

/-- Minimum verification requested for the action. -/
structure VerificationPolicy where
  requiredEvidence : EvidenceLevel
  timeoutSec : Double
  failClosed : Bool
  timeout_fits : timeoutFits timeoutSec = true

namespace VerificationPolicy

def toDict (p : VerificationPolicy) : PyObj :=
  .dict [(.str "required_evidence", .str p.requiredEvidence.value),
    (.str "timeout_sec", .float p.timeoutSec), (.str "fail_closed", .bool p.failClosed)]

def make (e : EvidenceLevel) (timeout : Double) (failClosed : Bool) : Option VerificationPolicy :=
  if h : timeoutFits timeout = true then some ⟨e, timeout, failClosed, h⟩ else none

def fromDict (texts : Texts) (value : PyObj) : Option VerificationPolicy := do
  let data ← dataOf value
  let evidence ← texts.str (getD data "required_evidence" (.str EvidenceLevel.taskVerified.value))
  let level ← EvidenceLevel.ofText evidence.upper
  let timeout ← texts.float (getD data "timeout_sec" (.float (Double.ofRat false 30)))
  make level timeout (truthy (getD data "fail_closed" (.bool true)))

@[simp] theorem fromDict_toDict (texts : Texts) (p : VerificationPolicy) :
    fromDict texts p.toDict = some p := by
  obtain ⟨e, x, f, h⟩ := p
  simp [fromDict, toDict, dataOf, truthy, Texts.str, Texts.float, make, h]

end VerificationPolicy

/-! ### The request -/

/-- The fields of `ActionEnvelope`. -/
structure ActionFields (T : Type) where
  schemaVersion : PyStr
  actionId : PyStr
  actorId : PyStr
  agentFramework : PyStr
  sessionId : PyStr
  bodyId : PyStr
  bodySnapshotHash : PyStr
  capabilityId : PyStr
  arguments : List (Key × PyObj)
  executionMode : ExecutionMode
  authorization : AuthorizationContext
  riskClass : PyStr
  deadlineAt : T
  leaseTtlMs : Int
  renewIntervalMs : Int
  orphanPolicy : OrphanPolicy
  stopCapability : PyStr
  parentTraceId : PyObj
  expectedEffect : PyObj
  verificationPolicy : VerificationPolicy

namespace ActionFields

variable {T : Type}

/-- The fields `__post_init__` requires to be non-empty. -/
def required (a : ActionFields T) : List PyStr :=
  [a.schemaVersion, a.actionId, a.actorId, a.agentFramework, a.sessionId, a.bodyId,
    a.capabilityId]

/-- What `__post_init__` checks. -/
def Valid (a : ActionFields T) : Prop :=
  a.required.all (fun s => !s.isBlank) = true ∧ a.schemaVersion = ACTION_SCHEMA_VERSION ∧
    (100 ≤ a.leaseTtlMs ∧ a.leaseTtlMs ≤ 3600000) ∧
    (100 ≤ a.renewIntervalMs ∧ a.renewIntervalMs ≤ 3600000) ∧
    a.renewIntervalMs < a.leaseTtlMs ∧ a.stopCapability.isBlank = false

instance decidableValid (a : ActionFields T) : Decidable a.Valid := by
  unfold Valid
  infer_instance

end ActionFields

/-- Canonical, versioned request for an action with physical implications. -/
structure ActionEnvelope (T : Type) extends ActionFields T where
  valid : toActionFields.Valid

namespace ActionEnvelope

variable {T : Type} (texts : Texts) (cal : Calendar T) (limit : Nat) (sha : List Char → String)

/-- The entries of `to_dict`. -/
def entries (a : ActionEnvelope T) : List (Key × PyObj) :=
  [(.str "schema_version", .str a.schemaVersion), (.str "action_id", .str a.actionId),
    (.str "actor_id", .str a.actorId), (.str "agent_framework", .str a.agentFramework),
    (.str "session_id", .str a.sessionId), (.str "body_id", .str a.bodyId),
    (.str "body_snapshot_hash", .str a.bodySnapshotHash),
    (.str "capability_id", .str a.capabilityId), (.str "arguments", .dict a.arguments),
    (.str "execution_mode", .str a.executionMode.value),
    (.str "authorization", a.authorization.toDict), (.str "risk_class", .str a.riskClass),
    (.str "deadline_at", .str (cal.iso a.deadlineAt)), (.str "lease_ttl_ms", .int a.leaseTtlMs),
    (.str "renew_interval_ms", .int a.renewIntervalMs),
    (.str "orphan_policy", .str a.orphanPolicy.value),
    (.str "stop_capability", .str a.stopCapability), (.str "parent_trace_id", a.parentTraceId),
    (.str "expected_effect", a.expectedEffect),
    (.str "verification_policy", a.verificationPolicy.toDict)]

def toDict (a : ActionEnvelope T) : PyObj := .dict (a.entries cal)

def intOf : PyObj → Option Int
  | .int n => some n
  | _ => none

def strOf : PyObj → Option PyStr
  | .str s => some s
  | _ => none

/-- `str(v or f"action_{uuid.uuid4().hex}")`. -/
def actionIdOf (uuid : PyStr) (v : PyObj) : Option PyStr :=
  if truthy v then texts.str v else some uuid

/-- The float `0.1`. -/
def tenth : ℚ := 3602879701896397 / 36028797018963968

/-- `utc_now() + timedelta(seconds=max(0.1, timeout_sec))`. -/
def defaultDeadline (now : T) (p : VerificationPolicy) : Option T :=
  cal.later now (max tenth ((seconds? p.timeoutSec).getD 0))

/-- `__post_init__` on typed fields. -/
def make (a : ActionFields T) : Option (ActionEnvelope T) :=
  if h : a.Valid then some ⟨a, h⟩ else none

/-- `from_dict` of a dictionary; `now` and `uuid` supply the defaults of a missing deadline and a
missing action id. -/
def fromEntries (now : T) (uuid : PyStr) (d : List (Key × PyObj)) : Option (ActionEnvelope T) := do
  let arguments ← entriesOf (getD d "arguments" (.dict []))
  let schemaVersion ← texts.str (getD d "schema_version" (.str ACTION_SCHEMA_VERSION))
  let actionId ← actionIdOf texts uuid (getD d "action_id" .none)
  let actorId ← texts.str (getD d "actor_id" (.str ""))
  let agentFramework ← texts.str (getD d "agent_framework" (.str ""))
  let sessionId ← texts.str (getD d "session_id" (.str ""))
  let bodyId ← texts.str (getD d "body_id" (.str ""))
  let bodySnapshotHash ← texts.str (getD d "body_snapshot_hash" (.str ""))
  let capabilityId ← texts.str (getD d "capability_id" (.str ""))
  let mode ← texts.str (getD d "execution_mode" (.str ""))
  let executionMode ← ExecutionMode.ofText mode.upper
  let authorization ← AuthorizationContext.fromDict texts (getD d "authorization" .none)
  let riskClass ← texts.str (getD d "risk_class" (.str "medium"))
  let deadline ← cal.parseDatetime texts (getD d "deadline_at" .none)
  let leaseTtlMs ← intOf (getD d "lease_ttl_ms" (.int 10000))
  let renewIntervalMs ← intOf (getD d "renew_interval_ms" (.int 3000))
  let orphan ← texts.str (getD d "orphan_policy" (.str OrphanPolicy.stopOnClientLoss.value))
  let orphanPolicy ← OrphanPolicy.ofText orphan.upper
  let stopCapability ← strOf (getD d "stop_capability" (.str "safety.emergency_stop"))
  let policy ← VerificationPolicy.fromDict texts (getD d "verification_policy" .none)
  let deadlineAt ← deadline.or (defaultDeadline cal now policy)
  make {
    schemaVersion := schemaVersion
    actionId := actionId
    actorId := actorId
    agentFramework := agentFramework
    sessionId := sessionId
    bodyId := bodyId
    bodySnapshotHash := bodySnapshotHash
    capabilityId := capabilityId
    arguments := arguments
    executionMode := executionMode
    authorization := authorization
    riskClass := riskClass
    deadlineAt := deadlineAt
    leaseTtlMs := leaseTtlMs
    renewIntervalMs := renewIntervalMs
    orphanPolicy := orphanPolicy
    stopCapability := stopCapability
    parentTraceId := getD d "parent_trace_id" .none
    expectedEffect := getD d "expected_effect" .none
    verificationPolicy := policy }

def fromDict (now : T) (uuid : PyStr) : PyObj → Option (ActionEnvelope T)
  | .dict d => fromEntries texts cal now uuid d
  | _ => none

theorem actionId_ne_nil (a : ActionEnvelope T) : a.actionId.codes ≠ [] := by
  intro h
  have := a.valid.1
  simp [ActionFields.required, PyStr.isBlank, h] at this

/-- **What was written is read back as it was**, at any time. -/
theorem fromDict_toDict (now : T) (uuid : PyStr) (a : ActionEnvelope T) :
    fromDict texts cal now uuid (a.toDict cal) = some a := by
  have hid := a.actionId_ne_nil
  simp [fromDict, fromEntries, toDict, entries, Texts.str, entriesOf, actionIdOf, truthy, hid,
    intOf, strOf, make, a.valid]

/-- What is known of the values in a request: the arguments are a dictionary, and the values are as
they were read. -/
structure Produced (a : ActionEnvelope T) : Prop where
  arguments : LoadedEntries a.arguments
  expectedEffect : Loaded a.expectedEffect

theorem loaded_empty : Loaded (.dict []) := ⟨trivial, .nil, trivial⟩

theorem produced {now : T} {uuid : PyStr} {v : PyObj} {a : ActionEnvelope T} (hv : Loaded v)
    (h : fromDict texts cal now uuid v = some a) : a.Produced := by
  unfold fromDict at h
  split at h
  · case h_1 d =>
    have hd := loaded_dict hv
    rw [fromEntries] at h
    obtain ⟨arguments, harguments, h⟩ := bind_eq_some_iff.mp h
    -- the other parts of the request
    iterate 20 obtain ⟨_, -, h⟩ := bind_eq_some_iff.mp h
    rw [make] at h
    split at h
    · cases h
      refine ⟨?_, ?_⟩
      · exact entriesOf_laws (hd.getD "arguments" loaded_empty) harguments
      · exact hd.getD "expected_effect" ⟨trivial, trivial⟩
    · cases h
  · cases h

/-! ### The hash of the intent -/

/-- The entries of `to_dict` that are hashed. -/
def intentFields : List String :=
  ["body_id", "body_snapshot_hash", "capability_id", "arguments", "execution_mode", "risk_class",
    "deadline_at", "expected_effect", "verification_policy", "lease_ttl_ms", "renew_interval_ms",
    "orphan_policy", "stop_capability"]

/-- `intent`, of `payload = action.to_dict()`. -/
def intent (a : ActionEnvelope T) : List (Key × PyObj) :=
  intentFields.map fun s : String => (.str s, getD (a.entries cal) s .none)

theorem intent_eq (a : ActionEnvelope T) : a.intent cal =
    [(.str "body_id", .str a.bodyId), (.str "body_snapshot_hash", .str a.bodySnapshotHash),
      (.str "capability_id", .str a.capabilityId), (.str "arguments", .dict a.arguments),
      (.str "execution_mode", .str a.executionMode.value), (.str "risk_class", .str a.riskClass),
      (.str "deadline_at", .str (cal.iso a.deadlineAt)),
      (.str "expected_effect", a.expectedEffect),
      (.str "verification_policy", a.verificationPolicy.toDict),
      (.str "lease_ttl_ms", .int a.leaseTtlMs), (.str "renew_interval_ms", .int a.renewIntervalMs),
      (.str "orphan_policy", .str a.orphanPolicy.value),
      (.str "stop_capability", .str a.stopCapability)] := by
  simp only [intent, intentFields, entries, map_cons, map_nil, getD_cons,
    String.reduceEq, if_true, if_false]

def intentText (a : ActionEnvelope T) : Option (List Char) :=
  canonicalJson limit (.dict (a.intent cal))

/-- `action_intent_hash`, by the hexadecimal digest of a text. -/
def actionIntentHash (a : ActionEnvelope T) : Option String :=
  (a.intentText cal limit).map fun t => "sha256:" ++ sha t

def withAuthorization (a : ActionEnvelope T) (authorization : AuthorizationContext) :
    ActionEnvelope T where
  toActionFields := { a.toActionFields with authorization := authorization }
  valid := a.valid

structure Agree (a b : ActionEnvelope T) : Prop where
  bodyId : a.bodyId = b.bodyId
  bodySnapshotHash : a.bodySnapshotHash = b.bodySnapshotHash
  capabilityId : a.capabilityId = b.capabilityId
  arguments : Alike (.dict a.arguments) (.dict b.arguments)
  executionMode : a.executionMode = b.executionMode
  riskClass : a.riskClass = b.riskClass
  deadlineAt : a.deadlineAt = b.deadlineAt
  expectedEffect : Alike a.expectedEffect b.expectedEffect
  verificationPolicy : a.verificationPolicy = b.verificationPolicy
  leaseTtlMs : a.leaseTtlMs = b.leaseTtlMs
  renewIntervalMs : a.renewIntervalMs = b.renewIntervalMs
  orphanPolicy : a.orphanPolicy = b.orphanPolicy
  stopCapability : a.stopCapability = b.stopCapability

def StringKeys (a : ActionEnvelope T) : Prop := ∀ k ∈ a.arguments.map Prod.fst, k.isStr = true

/-- The arguments of both requests have strings as keys, or those of neither. -/
def SameKinds (a b : ActionEnvelope T) : Prop := a.StringKeys ↔ b.StringKeys

theorem intent_keys (a : ActionEnvelope T) :
    ((a.intent cal).map Prod.fst).Pairwise fun k k' => ¬ k.Same k' := by
  have hnodup : intentFields.Nodup := by decide
  rw [intent, List.map_map, List.pairwise_map]
  exact hnodup.imp fun hne => not_same_str fun heq => hne (PyStr.ofString_inj.mp heq)

theorem loaded_policy (p : VerificationPolicy) : Loaded p.toDict := by
  refine ⟨?_, ?_, ?_⟩
  · exact ⟨⟨rfl, trivial⟩, ⟨rfl, trivial⟩, ⟨rfl, trivial⟩, trivial⟩
  · simp [Key.Same, Key.number?]
  · exact ⟨trivial, trivial, trivial, trivial⟩

theorem wellFormed_intent {a : ActionEnvelope T} (h : a.Produced) :
    WellFormed (.dict (a.intent cal)) := by
  refine ⟨a.intent_keys cal, wellFormedEntries_iff.mpr ?_⟩
  rw [intent_eq]
  simp only [forall_mem_cons, not_mem_nil, false_implies, implies_true, and_true]
  exact ⟨trivial, trivial, trivial, h.arguments.wellFormed, trivial, trivial, trivial,
    h.expectedEffect.2, (loaded_policy _).2, trivial, trivial, trivial, trivial⟩

theorem isStr_intent (a : ActionEnvelope T) : ∀ k ∈ (a.intent cal).map Prod.fst, k.isStr = true := by
  intro k hk
  rw [intent, List.map_map] at hk
  obtain ⟨s, -, rfl⟩ := List.mem_map.mp hk
  rfl

theorem field_texts {a b : ActionEnvelope T} {w : Json}
    (ha : arrange (.dict (a.intent cal)) = some w) (hb : arrange (.dict (b.intent cal)) = some w) :
    ∀ s ∈ intentFields, ∃ y, arrange (getD (a.entries cal) s .none) = some y ∧
      arrange (getD (b.entries cal) s .none) = some y := by
  intro s hs
  exact common_text ha hb (kinds_of_all (a.isStr_intent cal) (b.isStr_intent cal))
    (b.intent_keys cal) (mem_map_of_mem hs) (mem_map_of_mem hs)

theorem str_eq {s s' : PyStr} (h : ∃ y, arrange (.str s) = some y ∧ arrange (.str s') = some y) :
    s = s' := by
  obtain ⟨y, hs, hs'⟩ := h
  exact Json.str.inj (Option.some.inj (hs.trans hs'.symm))

theorem int_eq {n n' : Int} (h : ∃ y, arrange (.int n) = some y ∧ arrange (.int n') = some y) :
    n = n' := by
  obtain ⟨y, hn, hn'⟩ := h
  exact Json.int.inj (Option.some.inj (hn.trans hn'.symm))

theorem float_eq {x x' : Double}
    (h : ∃ y, arrange (.float x) = some y ∧ arrange (.float x') = some y) : x = x' := by
  obtain ⟨y, hx, hx'⟩ := h
  exact Json.float.inj (Option.some.inj (hx.trans hx'.symm))

theorem bool_eq {b b' : Bool}
    (h : ∃ y, arrange (.bool b) = some y ∧ arrange (.bool b') = some y) : b = b' := by
  obtain ⟨y, hb, hb'⟩ := h
  exact Json.bool.inj (Option.some.inj (hb.trans hb'.symm))

theorem mode_eq {m m' : ExecutionMode} (h : (m.value : PyStr) = m'.value) : m = m' := by
  have hread := congrArg ExecutionMode.ofText h
  rw [ExecutionMode.ofText_value, ExecutionMode.ofText_value] at hread
  exact Option.some.inj hread

theorem orphanPolicy_eq {p p' : OrphanPolicy} (h : (p.value : PyStr) = p'.value) : p = p' := by
  have hread := congrArg (fun s => OrphanPolicy.ofText s.upper) h
  simp only [OrphanPolicy.ofText_upper_value] at hread
  exact Option.some.inj hread

theorem evidence_eq {e e' : EvidenceLevel} (h : (e.value : PyStr) = e'.value) : e = e' := by
  have hread := congrArg EvidenceLevel.ofText h
  rw [EvidenceLevel.ofText_value, EvidenceLevel.ofText_value] at hread
  exact Option.some.inj hread

theorem policy_eq {p p' : VerificationPolicy}
    (h : ∃ y, arrange p.toDict = some y ∧ arrange p'.toDict = some y) : p = p' := by
  obtain ⟨y, hp, hp'⟩ := h
  have hstr : ∀ q : VerificationPolicy, ∀ k ∈ [Key.str "required_evidence", .str "timeout_sec",
      .str "fail_closed"], k.isStr = true := by
    intro q k hk
    simp only [mem_cons, not_mem_nil, or_false] at hk
    rcases hk with rfl | rfl | rfl <;> rfl
  have htext := fun (k : Key) (v v' : PyObj) (hv : (k, v) ∈ _) (hv' : (k, v') ∈ _) =>
    common_text hp hp' (kinds_of_all (hstr p) (hstr p')) (loaded_policy p').2.1 hv hv'
  have hevidence := evidence_eq (str_eq (htext _ _ _ (.head _) (.head _)))
  have htimeout := float_eq (htext _ _ _ (.tail _ (.head _)) (.tail _ (.head _)))
  have hclosed := bool_eq (htext _ _ _ (.tail _ (.tail _ (.head _))) (.tail _ (.tail _ (.head _))))
  obtain ⟨e, x, f, hfits⟩ := p
  obtain ⟨e', x', f', hfits'⟩ := p'
  obtain rfl : e = e' := hevidence
  obtain rfl : x = x' := htimeout
  obtain rfl : f = f' := hclosed
  rfl

/-- Requests whose intents have one text agree if and only if the keys of their arguments are of one
kind. -/
theorem agree_iff {a b : ActionEnvelope T} (ha : a.Produced) (hb : b.Produced) {w : Json}
    (hw : arrange (.dict (a.intent cal)) = some w) (hw' : arrange (.dict (b.intent cal)) = some w) :
    a.Agree b ↔ a.SameKinds b := by
  have htexts := field_texts cal hw hw'
  simp only [intentFields, entries, forall_mem_cons, getD_cons, String.reduceEq, if_true,
    if_false] at htexts
  obtain ⟨hbody, hsnapshot, hcapability, ⟨y, harguments, harguments'⟩, hmode, hrisk, hdeadline,
    ⟨y', heffect, heffect'⟩, hpolicy, hlease, hrenew, horphan, hstop, -⟩ := htexts
  have hkinds := alike_iff_kinds ha.arguments hb.arguments harguments harguments'
  constructor
  · exact fun hagree => hkinds.mp hagree.arguments
  · intro hsame
    exact {
      bodyId := str_eq hbody
      bodySnapshotHash := str_eq hsnapshot
      capabilityId := str_eq hcapability
      arguments := hkinds.mpr hsame
      executionMode := mode_eq (str_eq hmode)
      riskClass := str_eq hrisk
      deadlineAt := cal.iso_inj (str_eq hdeadline)
      expectedEffect := alike_of_arrange ha.expectedEffect.1 hb.expectedEffect.1 heffect heffect'
      verificationPolicy := policy_eq hpolicy
      leaseTtlMs := int_eq hlease
      renewIntervalMs := int_eq hrenew
      orphanPolicy := orphanPolicy_eq (str_eq horphan)
      stopCapability := str_eq hstop }

def NoCollision (a b : ActionEnvelope T) : Prop :=
  ∀ t t', a.intentText cal limit = some t → b.intentText cal limit = some t' → sha t = sha t' →
    t = t'

theorem text_of_hash {a b : ActionEnvelope T} (ha : a.Produced) (hb : b.Produced)
    (hsha : NoCollision cal limit sha a b) {digest : String}
    (h : a.actionIntentHash cal limit sha = some digest)
    (h' : b.actionIntentHash cal limit sha = some digest) :
    ∃ w, arrange (.dict (a.intent cal)) = some w ∧ arrange (.dict (b.intent cal)) = some w := by
  rw [actionIntentHash] at h h'
  obtain ⟨t, ht, rfl⟩ := map_eq_some_iff.mp h
  obtain ⟨t', ht', heq⟩ := map_eq_some_iff.mp h'
  obtain rfl := hsha t t' ht ht' ((String.append_right_inj _).mp heq.symm)
  rw [intentText, canonicalJson] at ht ht'
  obtain ⟨w, hw, ht⟩ := bind_eq_some_iff.mp ht
  obtain ⟨w', hw', ht'⟩ := bind_eq_some_iff.mp ht'
  obtain ⟨hplain, -, rfl⟩ := encoded_iff.mp ht
  obtain ⟨hplain', -, htext⟩ := encoded_iff.mp ht'
  have hdistinct := (arrange_laws hw (wellFormed_intent cal ha)).1
  have hdistinct' := (arrange_laws hw' (wellFormed_intent cal hb)).1
  obtain rfl := Json.text_inj hplain hdistinct hplain' hdistinct' htext
  exact ⟨w, hw, hw'⟩

/-- **A request is read back as it was written, with the hash that it had, which does not depend on
its authorization; two requests with one hash agree if and only if the keys of their arguments are
of one kind.** -/
theorem envelope_laws {now : T} {uuid : PyStr} {frame : Json} (hframe : frame.Distinct)
    {a : ActionEnvelope T} (h : fromDict texts cal now uuid (ofJson frame) = some a) :
    (∀ now' uuid', ∃ a', fromDict texts cal now' uuid' (a.toDict cal) = some a' ∧
      a'.toDict cal = a.toDict cal ∧
      a'.actionIntentHash cal limit sha = a.actionIntentHash cal limit sha) ∧
    (∀ authorization, (a.withAuthorization authorization).actionIntentHash cal limit sha =
      a.actionIntentHash cal limit sha) ∧
    ∀ now' uuid' frame' b, frame'.Distinct →
      fromDict texts cal now' uuid' (ofJson frame') = some b → NoCollision cal limit sha a b →
      ∀ digest, a.actionIntentHash cal limit sha = some digest →
        b.actionIntentHash cal limit sha = some digest → (a.Agree b ↔ a.SameKinds b) := by
  refine ⟨fun now' uuid' => ?_, fun authorization => ?_, ?_⟩
  · exact ⟨a, fromDict_toDict texts cal now' uuid' a, rfl, rfl⟩
  · rw [actionIntentHash, actionIntentHash, intentText, intentText, intent_eq, intent_eq]
    rfl
  · intro now' uuid' frame' b hframe' hb hsha digest hdigest hdigest'
    have ha := produced texts cal (loaded_ofJson hframe) h
    have hb := produced texts cal (loaded_ofJson hframe') hb
    obtain ⟨w, hw, hw'⟩ := text_of_hash cal limit sha ha hb hsha hdigest hdigest'
    exact agree_iff cal ha hb hw hw'

/-! ### Requests with two hashes -/

/-- The float `1.0`. -/
def one : Double := .nonzero false ⟨2 ^ 52, -52, by decide, by decide, by decide, by decide, .inl (by decide)⟩

theorem one_fits : timeoutFits one = true := by
  have hvalue : seconds? one = some 1 := by
    rw [seconds?, one, Key.number?, if_neg Bool.false_ne_true, Binary64.value]
    norm_num
  rw [timeoutFits, hvalue]
  norm_num

def frame (arguments : Json) : Json :=
  .obj [("actor_id", .str "a"), ("agent_framework", .str "f"), ("session_id", .str "s"),
    ("body_id", .str "b"), ("capability_id", .str "c"), ("arguments", arguments),
    ("execution_mode", .str ExecutionMode.real.value),
    ("deadline_at", .str (Calendar.dateTimes.iso DateTime.second)),
    ("verification_policy", .obj [("timeout_sec", .float one)])]

def framed (arguments : List (Key × PyObj)) : ActionEnvelope DateTime where
  schemaVersion := ACTION_SCHEMA_VERSION
  actionId := "a1"
  actorId := "a"
  agentFramework := "f"
  sessionId := "s"
  bodyId := "b"
  bodySnapshotHash := ""
  capabilityId := "c"
  arguments := arguments
  executionMode := .real
  authorization := {}
  riskClass := "medium"
  deadlineAt := DateTime.second
  leaseTtlMs := 10000
  renewIntervalMs := 3000
  orphanPolicy := .stopOnClientLoss
  stopCapability := "safety.emergency_stop"
  parentTraceId := .none
  expectedEffect := .none
  verificationPolicy := ⟨.taskVerified, one, true, one_fits⟩
  valid := by
    refine ⟨?_, rfl, ?_, ?_, ?_, ?_⟩
    all_goals
      dsimp only [ActionFields.required]
      decide

theorem fromDict_frame {arguments : Json} {es : List (Key × PyObj)}
    (h : entriesOf (ofJson arguments) = some es) (now : DateTime) :
    fromDict texts Calendar.dateTimes now "a1" (ofJson (frame arguments)) = some (framed es) := by
  have hvalid := (framed es).valid
  simp [frame, ofJson, ofEntries, fromDict, fromEntries, h, Texts.str, actionIdOf, truthy,
    AuthorizationContext.fromDict, AuthorizationContext.scopesOf, dataOf, intOf, strOf,
    VerificationPolicy.fromDict, VerificationPolicy.make, Texts.float, one_fits, make]
  exact ⟨hvalid, rfl⟩

theorem intentText_framed {es es' : List (Key × PyObj)}
    (h : arrange (.dict es) = arrange (.dict es')) :
    (framed es).intentText Calendar.dateTimes limit =
      (framed es').intentText Calendar.dateTimes limit := by
  have hentries : arrangeEntries ((framed es).intent Calendar.dateTimes) =
      arrangeEntries ((framed es').intent Calendar.dateTimes) := by
    rw [intent_eq, intent_eq]
    simp only [arrangeEntries, framed, h]
  rw [intentText, intentText, canonicalJson, canonicalJson, arrange, arrange, hentries]

theorem writable_str (n : Nat) {s : PyStr} (h : Json.validStr s = true) : Writable n (.str s) :=
  ⟨.str s, rfl, h, Nat.zero_le n⟩

theorem writable_int (n : Nat) {i : Int} (h : Json.intFits i = true) : Writable n (.int i) :=
  ⟨.int i, rfl, h, Nat.zero_le n⟩

theorem writable_policy (p : VerificationPolicy) : Writable 1 p.toDict := by
  have hfinite : p.timeoutSec.isFinite = true := by
    have hfits := p.timeout_fits
    cases hx : p.timeoutSec with
    | inf neg =>
      rw [hx] at hfits
      cases hfits
    | _ => rfl
  have hlevel : Json.validStr p.requiredEvidence.value = true := by
    cases p.requiredEvidence <;> decide
  refine writable_dict ?_ ?_
  · simp only [forall_mem_cons, not_mem_nil, false_implies, implies_true, and_true]
    exact ⟨⟨rfl, by decide⟩, ⟨rfl, by decide⟩, ⟨rfl, by decide⟩⟩
  · simp only [forall_mem_cons, not_mem_nil, false_implies, implies_true, and_true]
    exact ⟨writable_str 0 hlevel, ⟨.float p.timeoutSec, rfl, hfinite, le_refl 0⟩,
      ⟨.bool p.failClosed, rfl, trivial, le_refl 0⟩⟩

theorem intentText_framed_isSome {es : List (Key × PyObj)} (h : Writable 1 (.dict es)) :
    ∃ t, (framed es).intentText Calendar.dateTimes 2 = some t := by
  refine canonicalJson_isSome (writable_dict ?_ ?_)
  · intro e he
    rw [intent] at he
    obtain ⟨s, hs, rfl⟩ := mem_map.mp he
    refine ⟨rfl, ?_⟩
    have hall : ∀ s ∈ intentFields, Json.validStr (PyStr.ofString s) = true := by decide
    exact hall s hs
  · rw [intent_eq]
    simp only [forall_mem_cons, not_mem_nil, false_implies, implies_true, and_true]
    dsimp only [framed]
    exact ⟨writable_str 1 (by decide), writable_str 1 (by decide), writable_str 1 (by decide), h,
      writable_str 1 (by decide), writable_str 1 (by decide), writable_str 1 (by decide),
      ⟨.null, rfl, trivial, Nat.zero_le 1⟩, writable_policy _, writable_int 1 (by decide),
      writable_int 1 (by decide), writable_str 1 (by decide), writable_str 1 (by decide)⟩

/-- The interpreter's texts, of which a frame of strings needs none. -/
def noTexts : Texts where
  repr _ := none
  floatOfText _ := none

/-- The arguments `{"1": "x"}`. -/
def namedArguments : Json := .obj [("1", .str "x")]

/-- The arguments `[[1, "x"]]`. -/
def listedArguments : Json := .arr [.arr [.int 1, .str "x"]]

theorem writable_named : Writable 1 (.dict [(.str "1", .str "x")]) :=
  ⟨.obj [("1", .str "x")], rfl, ⟨⟨by decide, (by decide : Json.validStr "x" = true)⟩, trivial⟩,
    le_refl 1⟩

theorem distinct_frame {arguments : Json} (h : arguments.Distinct) : (frame arguments).Distinct := by
  refine ⟨?_, trivial, trivial, trivial, trivial, trivial, h, trivial, trivial, ⟨?_, ?_⟩, trivial⟩
  · have hnodup : (["actor_id", "agent_framework", "session_id", "body_id", "capability_id",
        "arguments", "execution_mode", "deadline_at", "verification_policy"] : List String).Nodup := by
      decide
    exact @List.Nodup.map _ _ _ PyStr.ofString (fun _ _ => PyStr.ofString_inj.mp) hnodup
  · exact nodup_singleton _
  · exact ⟨trivial, trivial⟩

theorem envelope_laws_named : ∃ (a : ActionEnvelope DateTime) (digest : String),
    fromDict noTexts Calendar.dateTimes DateTime.second "a1" (ofJson (frame namedArguments)) =
        some a ∧
      a.actionIntentHash Calendar.dateTimes 2 String.ofList = some digest ∧
      (∃ a', fromDict noTexts Calendar.dateTimes DateTime.second "a1"
          (a.toDict Calendar.dateTimes) = some a' ∧
        a'.actionIntentHash Calendar.dateTimes 2 String.ofList = some digest) ∧
      a.Agree a := by
  have hdistinct : (frame namedArguments).Distinct :=
    distinct_frame ⟨List.nodup_singleton _, trivial, trivial⟩
  have hread : fromDict noTexts Calendar.dateTimes DateTime.second "a1"
      (ofJson (frame namedArguments)) = some (framed [(.str "1", .str "x")]) :=
    fromDict_frame noTexts rfl DateTime.second
  obtain ⟨t, ht⟩ := intentText_framed_isSome writable_named
  have hhash : (framed [(.str "1", .str "x")]).actionIntentHash Calendar.dateTimes 2
      String.ofList = some ("sha256:" ++ String.ofList t) := by
    rw [actionIntentHash, ht, Option.map_some]
  obtain ⟨hagain, -, hagree⟩ :=
    envelope_laws noTexts Calendar.dateTimes 2 String.ofList hdistinct hread
  refine ⟨_, _, hread, hhash, ?_, ?_⟩
  · obtain ⟨a', ha', -, hsame⟩ := hagain DateTime.second "a1"
    exact ⟨a', ha', hsame.trans hhash⟩
  · have hsha : NoCollision Calendar.dateTimes 2 String.ofList (framed [(.str "1", .str "x")])
        (framed [(.str "1", .str "x")]) := fun t t' ht ht' _ => Option.some.inj (ht.symm.trans ht')
    exact (hagree _ _ _ _ hdistinct hread hsha _ hhash hhash).mpr Iff.rfl

/-- The arguments `{"1": "x"}` and `[[1, "x"]]` are different, and have one hash. -/
theorem one_hash : ∃ a b : ActionEnvelope DateTime,
    (frame namedArguments).Distinct ∧ (frame listedArguments).Distinct ∧
      fromDict noTexts Calendar.dateTimes DateTime.second "a1" (ofJson (frame namedArguments)) =
        some a ∧
      fromDict noTexts Calendar.dateTimes DateTime.second "a1" (ofJson (frame listedArguments)) =
        some b ∧
      (∀ sha, ∃ digest, a.actionIntentHash Calendar.dateTimes 2 sha = some digest ∧
        b.actionIntentHash Calendar.dateTimes 2 sha = some digest) ∧
      ¬ a.Agree b := by
  refine ⟨framed [(.str "1", .str "x")], framed [(.int 1, .str "x")], ?_, ?_, ?_, ?_, ?_, ?_⟩
  · exact distinct_frame ⟨List.nodup_singleton _, trivial, trivial⟩
  · exact distinct_frame ⟨⟨trivial, trivial, trivial⟩, trivial⟩
  · exact fromDict_frame noTexts rfl DateTime.second
  · exact fromDict_frame noTexts rfl DateTime.second
  · intro sha
    obtain ⟨t, ht⟩ := intentText_framed_isSome writable_named
    have hsame : arrange (.dict [(.str "1", .str "x")]) = arrange (.dict [(.int 1, .str "x")]) :=
      rfl
    have ht' := (intentText_framed 2 hsame).symm.trans ht
    refine ⟨"sha256:" ++ sha t, ?_, ?_⟩
    · rw [actionIntentHash, ht, Option.map_some]
    · rw [actionIntentHash, ht', Option.map_some]
  · intro hagree
    obtain ⟨⟨⟨v, hin, -⟩, -⟩, -⟩ := hagree.arguments
    cases hin with
    | tail _ hin => cases hin

end ActionEnvelope

end Rosclaw.Intent
