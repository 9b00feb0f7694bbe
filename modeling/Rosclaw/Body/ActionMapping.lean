/-
The mapping from the actions of a policy to the joints of a body (`body/action_mapping/`).

* `getUnitConversion` — the units that can be converted (`units.py`);
* `generateActionMapping` — one entry a body joint, and whether the mapping is blocked.
Floats are rationals, `math.pi` is the double of that name, and `none` is an exception.
-/
import Mathlib.Data.Rat.Defs
import Rosclaw.Lib.LastWriter
import Rosclaw.Lib.PyVal

namespace Rosclaw.ActionMapping

/-! ## Units -/

def pi : ℚ := 884279719003555 / 281474976710656

def aliases : List (PyStr × List PyStr) :=
  [("rad", ["rad", "radians", "radian"]), ("deg", ["deg", "degrees", "degree"]),
   ("m", ["m", "meters", "meter", "metres", "metre"]),
   ("mm", ["mm", "millimeters", "millimeter"])]

/-- `_normalize`; `lower` is `str.lower`. -/
def normalize (lower : PyStr → PyStr) (unit : PyStr) : PyStr :=
  let token := lower unit.strip
  ((aliases.find? fun a => token ∈ a.2).map Prod.fst).getD token

def supportedConversions : List ((PyStr × PyStr) × (ℚ → ℚ)) :=
  [(("rad", "rad"), id), (("deg", "deg"), id), (("m", "m"), id), (("mm", "mm"), id),
   (("rad", "deg"), fun v => v * 180 / pi), (("deg", "rad"), fun v => v * pi / 180),
   (("m", "mm"), fun v => v * 1000), (("mm", "m"), fun v => v / 1000)]

def getUnitConversion (lower : PyStr → PyStr) (fromUnit toUnit : PyStr) : Option (ℚ → ℚ) :=
  let fromNorm := normalize lower fromUnit
  let toNorm := normalize lower toUnit
  if fromNorm = toNorm then some id else supportedConversions.lookup (fromNorm, toNorm)

/-! ## Spaces and mappings -/

inductive MappingCompatibility
  | exact | convertible | partially | incompatible | unknown
deriving DecidableEq, Repr

/-- The last three are the entries of `metadata` that are read. -/
structure ActionSpace (M : Type*) where
  representation : PyStr
  names : List PyStr
  units : List PyStr
  scale : Option M
  offset : Option M
  sign : Option M

structure BodyActionSpace where
  representation : PyStr
  jointNames : List PyStr
  units : List PyStr
  referenceFrame : PyStr

/-- `float(x)` and `int(x)` of an entry of the metadata. -/
structure Conversions (M : Type*) where
  float : M → Option ℚ
  int : M → Option Int

inductive BlockReason
  /-- `Body has no controllable joints` -/
  | noJoints
  /-- `Policy action names are missing` -/
  | noNames
  /-- `Unsupported policy action representation: ...` -/
  | unsupported (representation : PyStr)
  /-- `Representation mismatch: policy=... body=...` -/
  | mismatch (policy body : PyStr)
  /-- `No policy action names match body joint names` -/
  | noMatch
  /-- `Partial mapping is not allowed by default` -/
  | notAllowed
  /-- `One or more matched joints have incompatible units` -/
  | incompatibleUnits
  /-- `Action length mismatch: expected ... values, got ...` -/
  | lengthMismatch (expected : Int) (got : Nat)
deriving DecidableEq, Repr

inductive Warning
  /-- `Cannot convert unit '...' to body unit '...'` -/
  | cannotConvert (policyUnit bodyUnit : PyStr)
  /-- `Body joints without policy match: ...` -/
  | unmatchedBody (names : List PyStr)
  /-- `Policy actions without body match: ...` -/
  | unmatchedPolicy (names : List PyStr)
deriving DecidableEq, Repr

/-- The `policy_index` of a joint without a policy name, -1, is `none`. -/
structure JointMapping where
  policyName : PyStr
  bodyName : PyStr
  policyIndex : Option Nat
  bodyIndex : Nat
  scale : ℚ := 1
  offset : ℚ := 0
  sign : Int := 1
  unitConversion : Option PyStr := none
  compatible : Bool := true
  warning : Option Warning := none

structure ActionMapping (M : Type*) where
  policySpace : ActionSpace M
  bodySpace : BodyActionSpace
  joints : List JointMapping := []
  compatibility : MappingCompatibility
  blockReasons : List BlockReason
  warnings : List Warning := []
  allowPartial : Bool

def ActionMapping.isBlocked {M : Type*} (m : ActionMapping M) : Bool :=
  if m.compatibility = .incompatible ∨ m.compatibility = .unknown then true
  else if m.compatibility = .partially ∧ m.allowPartial = false then true
  else !m.blockReasons.isEmpty

/-! ## `generate_action_mapping` -/

/-- `{name: i for i, name in enumerate(names)}`, asked for a name. -/
def nameToIndex (names : List PyStr) (name : PyStr) : Option Nat :=
  LastWriter.last name names.zipIdx

/-- `units[i] if i < len(units) else ""`. -/
def unitAt (units : List PyStr) (i : Nat) : PyStr := units.getD i ""

section

variable {M : Type*} (conv : Conversions M) (lower : PyStr → PyStr) (policy : ActionSpace M)
  (body : BodyActionSpace)

def calibration : Option (ℚ × ℚ × Int) := do
  let scale ← (policy.scale.map conv.float).getD (some 1)
  let offset ← (policy.offset.map conv.float).getD (some 0)
  let sign ← (policy.sign.map conv.int).getD (some 1)
  pure (scale, offset, sign)

/-- The entry of a joint that the policy names, with the calibration that was read. -/
def matchedJoint (bodyName : PyStr) (bodyIndex policyIndex : Nat) (c : ℚ × ℚ × Int) :
    JointMapping :=
  let bodyUnit := unitAt body.units bodyIndex
  let policyUnit := unitAt policy.units policyIndex
  let compatible := (getUnitConversion lower policyUnit bodyUnit).isSome
  { policyName := policy.names.getD policyIndex ""
    bodyName := bodyName
    policyIndex := some policyIndex
    bodyIndex := bodyIndex
    scale := c.1
    offset := c.2.1
    sign := c.2.2
    unitConversion :=
      if policyUnit ≠ bodyUnit then some (policyUnit ++ PyStr.ofString "->" ++ bodyUnit) else none
    compatible := compatible
    warning := if compatible then none else some (.cannotConvert policyUnit bodyUnit) }

def jointOf (bodyName : PyStr) : Option JointMapping := do
  let bodyIndex ← nameToIndex body.jointNames bodyName
  match nameToIndex policy.names bodyName with
  | none =>
      pure { policyName := "", bodyName := bodyName, policyIndex := none, bodyIndex := bodyIndex,
             compatible := false }
  | some policyIndex =>
      let c ← calibration conv policy
      pure (matchedJoint lower policy body bodyName bodyIndex policyIndex c)

def representations : List PyStr := ["joint_position", "joint_velocity", "joint_torque"]

/-- The compatibility of the joints, the reasons to block, and the warnings that are added. -/
def classify (allowPartial : Bool) (joints : List JointMapping) :
    MappingCompatibility × List BlockReason × List Warning :=
  let unmatchedBody := joints.filter (·.policyIndex.isNone)
  let unmatchedPolicy := policy.names.filter (· ∉ body.jointNames)
  if joints.all (·.policyIndex.isNone) then (.incompatible, [.noMatch], [])
  else if unmatchedBody ≠ [] ∨ unmatchedPolicy ≠ [] then
    (.partially, if allowPartial then [] else [.notAllowed],
      (if unmatchedBody ≠ [] then [.unmatchedBody (unmatchedBody.map (·.bodyName))] else []) ++
      (if unmatchedPolicy ≠ [] then [.unmatchedPolicy unmatchedPolicy] else []))
  else if joints.any (!·.compatible) then (.incompatible, [.incompatibleUnits], [])
  else if joints.any (·.unitConversion.isSome) then (.convertible, [], [])
  else (.exact, [], [])

def mappingOf (allowPartial : Bool) (joints : List JointMapping) : ActionMapping M :=
  let c := classify policy body allowPartial joints
  { policySpace := policy, bodySpace := body, joints := joints, compatibility := c.1,
    blockReasons := c.2.1, warnings := joints.filterMap (·.warning) ++ c.2.2,
    allowPartial := allowPartial }

def generateActionMapping (allowPartial : Bool) : Option (ActionMapping M) :=
  let blocked := fun (compatibility : MappingCompatibility) (reason : BlockReason) => some
    { policySpace := policy, bodySpace := body, compatibility := compatibility,
      blockReasons := [reason], allowPartial := allowPartial }
  if body.jointNames = [] then blocked .incompatible .noJoints
  else if policy.names = [] then blocked .unknown .noNames
  else if policy.representation ∉ representations then
    blocked .unknown (.unsupported policy.representation)
  else if policy.representation ≠ body.representation then
    blocked .incompatible (.mismatch policy.representation body.representation)
  else (body.jointNames.mapM (jointOf conv lower policy body)).map
    (mappingOf policy body allowPartial)

end

/-! ## `map_action_to_body` -/

structure MappedAction where
  bodyActionValues : List ℚ
  bodyJointNames : List PyStr
  compatibility : MappingCompatibility
  blocked : Bool
  blockReasons : List BlockReason
  warnings : List Warning
  referenceFrame : PyStr := ""
  chunkSize : Option Int := none

/-- `chunk_size or 1`. -/
def chunksOf (chunkSize : Option Int) : Int :=
  if chunkSize.getD 0 = 0 then 1 else chunkSize.getD 0

section

variable {M : Type*} (lower : PyStr → PyStr) (values : List ℚ) (mapping : ActionMapping M)

def valueOf (chunkOffset : Nat) (joint : JointMapping) : Option ℚ := do
  let policyIndex ← joint.policyIndex
  let value ← values[chunkOffset + policyIndex]?
  let value := joint.sign * (joint.scale * value + joint.offset)
  if joint.unitConversion.isSome then do
    let policyUnit ← mapping.policySpace.units[policyIndex]?
    let bodyUnit ← mapping.bodySpace.units[joint.bodyIndex]?
    -- a value whose unit cannot be converted is written as it is
    pure (((getUnitConversion lower policyUnit bodyUnit).getD id) value)
  else pure value

/-- `body_row` of a chunk; joints without a policy name are passed over. -/
def bodyRow (chunk : Nat) : Option (List ℚ) := do
  let writes ← (mapping.joints.filter (·.policyIndex.isSome)).mapM
    fun joint => (valueOf lower values mapping (chunk * mapping.policySpace.names.length) joint).map
      fun value => (joint.bodyIndex, value)
  pure (writes.foldl (fun row w => row.set w.1 w.2)
    (List.replicate mapping.bodySpace.jointNames.length 0))

def mapActionToBody (chunkSize : Option Int) : Option MappedAction :=
  let chunks := chunksOf chunkSize
  let expected := mapping.policySpace.names.length * chunks
  if mapping.isBlocked then some
    { bodyActionValues := [], bodyJointNames := [], compatibility := mapping.compatibility,
      blocked := true, blockReasons := mapping.blockReasons, warnings := mapping.warnings }
  else if values.length ≠ expected then some
    { bodyActionValues := [], bodyJointNames := [], compatibility := mapping.compatibility,
      blocked := true, blockReasons := [.lengthMismatch expected values.length],
      warnings := mapping.warnings }
  else ((List.range chunks.toNat).mapM (bodyRow lower values mapping)).map fun rows =>
    { bodyActionValues := rows.flatten, bodyJointNames := mapping.bodySpace.jointNames,
      compatibility := mapping.compatibility, blocked := false, blockReasons := [],
      warnings := mapping.warnings, referenceFrame := mapping.bodySpace.referenceFrame,
      chunkSize := chunkSize }

end

end Rosclaw.ActionMapping
