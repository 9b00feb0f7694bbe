/-
`HostOpsPolicy` (`hostops/policy.py`): which plans may be executed.

A plan is a JSON object.  Errors are given by what their texts are made of.

* `validateValue_ok`, `safeToken_head` — an accepted text starts with a letter or a digit.
-/
import Rosclaw.Lib.PyVal

namespace Rosclaw.HostOps

/-- `ALLOWED_OPERATION_TYPES`. -/
inductive OpType
  | packageInstall | packageRemove | packageInstallDeb | packageUpdate
  | repositoryAdd | repositoryRemove | repositoryEnable | repositoryInstallPackage
  | keyringInstall | systemdEnable | systemdStart | systemdRestart
  | udevInstallRule | udevReload | userGroupAdd | fileManagedWrite
  | networkFetchVerified | artifactFetch
deriving DecidableEq, Repr

namespace OpType

def name : OpType → String
  | packageInstall => "package.install"
  | packageRemove => "package.remove"
  | packageInstallDeb => "package.install_deb"
  | packageUpdate => "package.update"
  | repositoryAdd => "repository.add"
  | repositoryRemove => "repository.remove"
  | repositoryEnable => "repository.enable"
  | repositoryInstallPackage => "repository.install_package"
  | keyringInstall => "keyring.install"
  | systemdEnable => "systemd.enable"
  | systemdStart => "systemd.start"
  | systemdRestart => "systemd.restart"
  | udevInstallRule => "udev.install_rule"
  | udevReload => "udev.reload"
  | userGroupAdd => "user.group_add"
  | fileManagedWrite => "file.managed_write"
  | networkFetchVerified => "network.fetch_verified"
  | artifactFetch => "artifact.fetch"

def all : List OpType :=
  [packageInstall, packageRemove, packageInstallDeb, packageUpdate, repositoryAdd,
    repositoryRemove, repositoryEnable, repositoryInstallPackage, keyringInstall, systemdEnable,
    systemdStart, systemdRestart, udevInstallRule, udevReload, userGroupAdd, fileManagedWrite,
    networkFetchVerified, artifactFetch]

def ofName (s : PyStr) : Option OpType := all.find? fun t => decide (PyStr.ofString t.name = s)

end OpType

/-- `FORBIDDEN_OPERATION_FIELDS`. -/
def forbiddenFields : List PyStr := ["command", "shell", "script", "bash", "sh", "eval", "exec"]

/-- `[a-zA-Z0-9]`. -/
def isAlnum (c : Nat) : Bool :=
  (97 ≤ c && c ≤ 122) || (65 ≤ c && c ≤ 90) || (48 ≤ c && c ≤ 57)

/-- A letter, a digit, or one of plus, underscore, dot, colon, tilde, slash and hyphen. -/
def isTokenChar (c : Nat) : Bool := isAlnum c || c ∈ [43, 95, 46, 58, 126, 47, 45]

/-- `_SAFE_TOKEN.match(s)`; its `$` also matches before a newline at the end. -/
def safeToken (s : PyStr) : Bool :=
  match s.codes with
  | [] => false
  | c :: cs => isAlnum c && (cs.all isTokenChar ||
      (decide (cs.getLast? = some 10) && cs.dropLast.all isTokenChar))

/-- `sub in s`. -/
def hasSub (s sub : PyStr) : Bool := s.codes.tails.any fun t => sub.codes.isPrefixOf t

/-- The texts of `HostOpsPolicyError`. -/
inductive PlanError
  | notObject
  | noOperations
  | notAnObject (index : Nat)
  | noType (index : Nat)
  | notAllowed (index : Nat) (type : PyStr)
  | forbidden (index : Nat) (fields : List PyStr)
  | content (index : Nat)
  | path (index : Nat) (value : PyVal)
  | unsafeToken (index : Nat) (key : PyStr) (value : PyStr)
  | emptyList (index : Nat) (key : PyStr)
  | unsupported (index : Nat) (key : PyStr) (value : PyVal)

mutual

def validateValue (index : Nat) (key : PyStr) : PyVal → Except PlanError Unit
  | .str s => if safeToken s = true ∧ hasSub s ".." = false then .ok ()
      else .error (.unsafeToken index key s)
  | .list [] => .error (.emptyList index key)
  | .list (x :: xs) => do
      validateValue index key x
      validateValues index key xs
  | .int _ | .float _ | .bool _ | .none => .ok ()
  | v => .error (.unsupported index key v)

def validateValues (index : Nat) (key : PyStr) : List PyVal → Except PlanError Unit
  | [] => .ok ()
  | x :: xs => do
      validateValue index key x
      validateValues index key xs

end

def validPath : PyVal → Bool
  | .str s => s.codes.head? = some 47 && !hasSub s ".." && !s.codes.any PyStr.isSpace
  | _ => false

def validateField (index : Nat) (type : OpType) (key : PyStr) (value : PyVal) :
    Except PlanError Unit :=
  if key = "type" then .ok ()
  else if type = .fileManagedWrite ∧ key = "content" then
    match value with
    | .str _ => .ok ()
    | _ => .error (.content index)
  else if type = .fileManagedWrite ∧ key = "path" then
    if validPath value then .ok () else .error (.path index value)
  else validateValue index key value

def validateFields (index : Nat) (type : OpType) : List (PyStr × PyVal) → Except PlanError Unit
  | [] => .ok ()
  | (key, value) :: fields => do
      validateField index type key value
      validateFields index type fields

/-- `FORBIDDEN_OPERATION_FIELDS & {k for k, v in op.items() if v}`. -/
def smuggled (fields : List (PyStr × PyVal)) : List PyStr :=
  PyStr.sortedSet ((fields.filter fun e => e.2.truthy && decide (e.1 ∈ forbiddenFields)).map
    Prod.fst)

def validateOperation (index : Nat) : PyVal → Except PlanError Unit
  | .dict fields =>
      match PyVal.getEntry "type" .none fields with
      | .str type =>
          if type.codes = [] then .error (.noType index)
          else match OpType.ofName type with
            | none => .error (.notAllowed index type)
            | some t =>
                if smuggled fields ≠ [] then .error (.forbidden index (smuggled fields))
                else validateFields index t fields
      | _ => .error (.noType index)
  | _ => .error (.notAnObject index)

def validateOperations : Nat → List PyVal → Except PlanError Unit
  | _, [] => .ok ()
  | index, op :: ops => do
      validateOperation index op
      validateOperations (index + 1) ops

def operationsOf (plan : PyVal) : List PyVal :=
  match plan.get "operations" with
  | .list ops => ops
  | _ => []

def validatePlan (plan : PyVal) : Except PlanError Unit :=
  if plan.isDict = false then .error .notObject
  else match plan.get "operations" with
    | .list (op :: ops) => validateOperations 0 (op :: ops)
    | _ => .error .noOperations

/-- `require_approval` does not raise. -/
def requireApproval (planHash : PyVal → PyStr) (plan approval : PyVal) : Bool :=
  approval.truthy && (approval.get "approved").truthy &&
    match approval.get "plan_hash" with
    | .str hash => decide (hash = planHash plan)
    | _ => false

/-! ### What an accepted operation has -/

variable {A B E : Type} {index : Nat} {key s : PyStr} {value x : PyVal} {xs : List PyVal}

theorem bind_ok {x : Except E A} {f : A → Except E B} {b : B} (h : x >>= f = .ok b) :
    ∃ a, x = .ok a ∧ f a = .ok b := by
  cases x with
  | error e => cases h
  | ok a => exact ⟨a, rfl, h⟩

theorem safeToken_head (h : safeToken s = true) : ∃ c cs, s.codes = c :: cs ∧ isAlnum c = true := by
  unfold safeToken at h
  cases hcodes : s.codes with
  | nil =>
    rw [hcodes] at h
    cases h
  | cons c cs =>
    rw [hcodes, Bool.and_eq_true] at h
    exact ⟨c, cs, rfl, h.1⟩

theorem validateValue_str (h : validateValue index key (.str s) = .ok ()) : safeToken s = true := by
  unfold validateValue at h
  split at h
  · next hsafe => exact hsafe.1
  · cases h

theorem validateValues_mem (h : validateValues index key xs = .ok ()) (hx : x ∈ xs) :
    validateValue index key x = .ok () := by
  induction xs with
  | nil => cases hx
  | cons y ys ih =>
    obtain ⟨_, hy, hys⟩ := bind_ok h
    rcases List.mem_cons.mp hx with rfl | hx
    · exact hy
    · exact ih hys hx

theorem validateValue_list (h : validateValue index key (.list xs) = .ok ()) (hx : x ∈ xs) :
    validateValue index key x = .ok () := by
  cases xs with
  | nil => cases hx
  | cons y ys =>
    obtain ⟨_, hy, hys⟩ := bind_ok h
    rcases List.mem_cons.mp hx with rfl | hx
    · exact hy
    · exact validateValues_mem hys hx

theorem validateFields_mem {type : OpType} {fields : List (PyStr × PyVal)}
    (h : validateFields index type fields = .ok ()) (hmem : (key, value) ∈ fields) :
    validateField index type key value = .ok () := by
  induction fields with
  | nil => cases hmem
  | cons e fields ih =>
    obtain ⟨_, he, hrest⟩ := bind_ok h
    rcases List.mem_cons.mp hmem with rfl | hmem
    · exact he
    · exact ih hrest hmem

end Rosclaw.HostOps
