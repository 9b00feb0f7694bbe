/-
The registry of operator enrollments: what it holds in memory, and its file.

A change is made in memory and then saved; a save can fail at any of its steps, and `os.write` may
write less than it was given without raising.  What `json.loads` makes of a whole file is a `PyVal`.
-/
import Rosclaw.Lib.Dict
import Rosclaw.Lib.Machine
import Rosclaw.Lib.PyVal

namespace Rosclaw.OperatorRegistry

structure EnrollmentRecord where
  enrollmentId : PyStr
  publicKeyPem : PyStr
  operatorUid : Int
  purpose : PyStr
  createdAt : PyStr
  status : PyStr := "active"
  version : Int := 1
  revokedAt : PyStr := ""
deriving DecidableEq

/-- The steps of `_save`, each of which can raise. -/
inductive SaveStep
  | mkdir | chmodDir | openTmp | fchmod | write | fsync | close | islink | rename | openDir | fsyncDir
  | closeDir
deriving DecidableEq

def SaveStep.renamed : SaveStep → Bool
  | openDir | fsyncDir | closeDir => true
  | _ => false

/-- What the calls raise; the text of a corrupt registry quotes the exception of the parser. -/
inductive RegistryError
  | registryError (code message : PyStr)
  | corrupt
  | valueError
  | osError (step : SaveStep)
deriving DecidableEq

/-- `_records` and `_burned_nonces`; the set is held as its sorted list. -/
structure Memory where
  records : Dict PyStr EnrollmentRecord
  burned : List PyStr

def Memory.empty : Memory := ⟨∅, []⟩

/-- A file: what its text denotes, where it is JSON, and its mode. -/
structure File where
  content : Option PyVal
  mode : Nat

/-- The registry file and the temporary one beside it. -/
structure Disk where
  file : Option File
  tmp : Option File

structure Registry where
  path : Option PyStr
  memory : Memory
  disk : Disk

/-! ### Records as data -/

def EnrollmentRecord.asdict (r : EnrollmentRecord) : PyVal :=
  .dict [("enrollment_id", .str r.enrollmentId), ("public_key_pem", .str r.publicKeyPem),
    ("operator_uid", .int r.operatorUid), ("purpose", .str r.purpose), ("created_at", .str r.createdAt),
    ("status", .str r.status), ("version", .int r.version), ("revoked_at", .str r.revokedAt)]

def strOf : PyVal → Option PyStr
  | .str s => some s
  | _ => none

def intOf : PyVal → Option Int
  | .int n => some n
  | _ => none

def fieldNames : List PyStr :=
  ["enrollment_id", "public_key_pem", "operator_uid", "purpose", "created_at", "status", "version",
    "revoked_at"]

/-- `EnrollmentRecord(**raw)`, of values of the types that `asdict` writes. -/
def recordOf (raw : PyVal) : Option EnrollmentRecord :=
  match raw with
  | .dict kvs =>
    if kvs.all (fun e => e.1 ∈ fieldNames) then do
      let enrollmentId ← strOf (raw.get "enrollment_id")
      let publicKeyPem ← strOf (raw.get "public_key_pem")
      let operatorUid ← intOf (raw.get "operator_uid")
      let purpose ← strOf (raw.get "purpose")
      let createdAt ← strOf (raw.get "created_at")
      let status ← strOf (raw.getD "status" (.str "active"))
      let version ← intOf (raw.getD "version" (.int 1))
      let revokedAt ← strOf (raw.getD "revoked_at" (.str ""))
      pure ⟨enrollmentId, publicKeyPem, operatorUid, purpose, createdAt, status, version, revokedAt⟩
    else none
  | _ => none

def listOf {α : Type} (f : PyVal → Option α) : PyVal → Option (List α)
  | .list xs => xs.mapM f
  | _ => none

/-- What `_save` writes. -/
def Memory.payload (m : Memory) : PyVal :=
  .dict [("enrollments", .list (m.records.values.map EnrollmentRecord.asdict)),
    ("burned_nonces", .list (m.burned.map .str))]

/-! ### The file -/

def loadRecords (publicKey : PyStr → Bool) :
    List EnrollmentRecord → Dict PyStr EnrollmentRecord → Option (Dict PyStr EnrollmentRecord)
  | [], d => some d
  | r :: rs, d =>
      if publicKey r.publicKeyPem then loadRecords publicKey rs (d.set r.enrollmentId r) else none

/-- `f"{mode:o}"`. -/
def octal (n : Nat) : PyStr := PyStr.ofString (String.ofList (Nat.toDigits 8 n))

def load (publicKey : PyStr → Bool) (path : PyStr) (file : File) : Except RegistryError Memory :=
  if file.mode % 64 ≠ 0 then
    .error (.registryError "REGISTRY_PERMISSIONS"
      ("registry " ++ path ++ " must be 0600 (found " ++ octal file.mode ++ ")"))
  else
    match file.content with
    | none => .error .corrupt
    | some data =>
      match listOf recordOf (data.getD "enrollments" (.list [])),
          listOf strOf (data.getD "burned_nonces" (.list [])) with
      | some rs, some nonces =>
        match loadRecords publicKey rs ∅ with
        | some records => .ok ⟨records, PyStr.sortedSet nonces⟩
        | none => .error .corrupt
      | _, _ => .error .corrupt

/-- What happens to a save: the step that raises, and whether the write is a short one. -/
structure Fault where
  failsAt : Option SaveStep
  short : Bool
deriving DecidableEq

def Fault.none : Fault := ⟨Option.none, false⟩

def SaveStep.error (path : PyStr) : SaveStep → RegistryError
  | islink => .registryError "REGISTRY_SYMLINK" ("refusing to replace symlink " ++ path)
  | st => .osError st

def attempt (path : PyStr) (fault : Fault) (st : SaveStep) (d : Disk)
    (rest : Disk → Except RegistryError Unit × Disk) : Except RegistryError Unit × Disk :=
  if fault.failsAt = some st then (.error (st.error path), d) else rest d

/-- `_save` with a path. -/
def saveTo (path : PyStr) (fault : Fault) (m : Memory) (d : Disk) : Except RegistryError Unit × Disk :=
  attempt path fault .mkdir d fun d =>
  attempt path fault .chmodDir d fun d =>
  attempt path fault .openTmp d fun d =>
  attempt path fault .fchmod { d with tmp := some ⟨none, 0o600⟩ } fun d =>
  attempt path fault .write d fun d =>
  attempt path fault .fsync
    { d with tmp := some ⟨if fault.short then none else m.payload.canon, 0o600⟩ } fun d =>
  attempt path fault .close d fun d =>
  attempt path fault .islink d fun d =>
  attempt path fault .rename d fun d =>
  attempt path fault .openDir { file := d.tmp, tmp := none } fun d =>
  attempt path fault .fsyncDir d fun d =>
  attempt path fault .closeDir d fun d => (.ok (), d)

namespace Registry

def save (s : Registry) (fault : Fault) : Except RegistryError Unit × Registry :=
  match s.path with
  | none => (.ok (), s)
  | some path =>
    let (r, d) := saveTo path fault s.memory s.disk
    (r, { s with disk := d })

def restarted (publicKey : PyStr → Bool) (s : Registry) : Except RegistryError Memory :=
  match s.path, s.disk.file with
  | some path, some file => load publicKey path file
  | _, _ => .ok .empty

def commit (s : Registry) (fault : Fault) (answer : Option EnrollmentRecord) :
    Except RegistryError (Option EnrollmentRecord) × Registry :=
  match s.save fault with
  | (.ok _, s') => (.ok answer, s')
  | (.error e, s') => (.error e, s')

def withRecord (s : Registry) (r : EnrollmentRecord) : Registry :=
  { s with memory := { s.memory with records := s.memory.records.set r.enrollmentId r } }

def register (publicKey : PyStr → Bool) (s : Registry) (id pem : PyStr) (uid : Int)
    (purpose now : PyStr) (fault : Fault) :
    Except RegistryError (Option EnrollmentRecord) × Registry :=
  if publicKey pem then
    match s.memory.records.get? id with
    | some existing =>
      if existing.publicKeyPem ≠ pem then
        (.error (.registryError "ENROLLMENT_KEY_CONFLICT"
          ("enrollment " ++ id ++ " already registered with a different key; " ++
            "revoke it first (no silent rotation)")), s)
      else if existing.status = "revoked" then
        (.error (.registryError "ENROLLMENT_REVOKED"
          ("enrollment " ++ id ++ " was revoked; use a new enrollment id")), s)
      else (.ok (some existing), s)
    | none =>
      let record : EnrollmentRecord :=
        { enrollmentId := id, publicKeyPem := pem, operatorUid := uid, purpose := purpose
          createdAt := now }
      (s.withRecord record).commit fault (some record)
  else (.error .valueError, s)

def revoke (s : Registry) (id now : PyStr) (fault : Fault) :
    Except RegistryError (Option EnrollmentRecord) × Registry :=
  match s.memory.records.get? id with
  | none => (.error (.registryError "ENROLLMENT_UNKNOWN" ("unknown enrollment " ++ id)), s)
  | some record =>
    let revoked := { record with status := "revoked", revokedAt := now }
    ({ s with memory := { s.memory with records := s.memory.records.set id revoked } } : Registry).commit
      fault (some revoked)

def burnNonce (s : Registry) (nonce : PyStr) (fault : Fault) :
    Except RegistryError (Option EnrollmentRecord) × Registry :=
  if nonce ∈ s.memory.burned then
    (.error (.registryError "NONCE_REPLAY" "challenge nonce already used"), s)
  else
    ({ s with memory := { s.memory with
        burned := PyStr.sortedSet (nonce :: s.memory.burned) } } : Registry).commit fault none

end Registry

/-! ### Any sequence of calls -/

inductive Call
  | register (id pem : PyStr) (uid : Int) (purpose now : PyStr)
  | revoke (id now : PyStr)
  | burnNonce (nonce : PyStr)

def Registry.perform (publicKey : PyStr → Bool) (s : Registry) (c : Call) (fault : Fault) :
    Except RegistryError (Option EnrollmentRecord) × Registry :=
  match c with
  | .register id pem uid purpose now => s.register publicKey id pem uid purpose now fault
  | .revoke id now => s.revoke id now fault
  | .burnNonce nonce => s.burnNonce nonce fault

inductive Label
  | call (c : Call) (fault : Fault)
  | restart

def Registry.step (publicKey : PyStr → Bool) (s : Registry) : Label → Option Registry
  | .call c fault => some (s.perform publicKey c fault).2
  | .restart =>
    match s.restarted publicKey with
    | .ok m => some { s with memory := m }
    | .error _ => none

/-- A registry from its construction on, on a path with any file that loads, or without one. -/
def registries (publicKey : PyStr → Bool) : Machine Registry Label where
  Init := fun s => s.restarted publicKey = .ok s.memory
  step := Registry.step publicKey

end Rosclaw.OperatorRegistry
