/-
`HostOpsExecutor` (`hostops/executor.py`) with `dry_run=False`.

What an operation meets on the host is given (`Host`): how its child process ends, what is at the
other end of a fetch, and whether the files can be written.  An exception other than
`HostOpsPolicyError` is given by its class.
-/
import Rosclaw.HostOps.Policy

namespace Rosclaw.HostOps

/-- How `subprocess.run` ends. -/
inductive Child
  | exited (returncode : Int) (stderr : PyStr)
  | timedOut
  | undecodable
  | notStarted
deriving DecidableEq, Repr

/-- How a fetch ends; a blob is given by its digest. -/
inductive Fetch
  | blob (digest : PyStr)
  /-- a `URLError`, `OSError` or `ValueError` -/
  | failed (error : PyStr)
  | raised (exception : String)
deriving DecidableEq, Repr

structure Host where
  /-- `str` of what is no text -/
  strOf : PyVal → PyStr
  child : Child
  /-- `str(self.artifacts_dir / name)` -/
  artifactPath : PyStr → PyStr
  /-- `path.exists()` of an artifact; nothing if it raises -/
  artifactExists : PyStr → Option Bool
  fetch : Fetch
  /-- `realpath`, and if it is inside the managed roots; nothing if it raises -/
  realpath : PyStr → Option (PyStr × Bool)
  /-- the files can be written -/
  stored : Bool

/-- The texts of `HostOpsPolicyError`. -/
inductive Refusal
  | unmapped (type : OpType)
  | artifactName (name : PyVal)
  | notFetched (name : PyStr)
  | fetchName (name : PyStr)
  | noUrl
  | noDigest
  | mismatch (name expected actual : PyStr)
  | notAbsolute (path : PyStr)
  | outside (path : PyStr)

inductive Exn
  | refused (reason : Refusal)
  | raised (exception : String)

inductive Result
  | ran (type : OpType) (argv : List PyStr) (returncode : Int) (stderr : Option PyStr)
  | refused (type : OpType) (reason : Refusal)
  | fetchFailed (type : OpType) (error : PyStr)
  | fetched (type : OpType) (artifact digest : PyStr)
  | written (type : OpType) (path : PyStr) (mode : Int)

/-- `result["status"] == "FAILED"`. -/
def Result.failed : Result → Bool
  | .ran _ _ returncode _ => returncode ≠ 0
  | .refused _ _ | .fetchFailed _ _ => true
  | .fetched _ _ _ | .written _ _ _ => false

inductive Effect
  | ran (argv : List PyStr)
  /-- the implementation of the broker -/
  | python
deriving DecidableEq, Repr

/-- `op[key]`, if it is there. -/
def field? (key : PyStr) : List (PyStr × PyVal) → Option PyVal
  | [] => none
  | (k, v) :: fields => if k = key then some v else field? key fields

/-- `op[key]`. -/
def field (key : PyStr) (fields : List (PyStr × PyVal)) : Except Exn PyVal :=
  match field? key fields with
  | some v => .ok v
  | none => .error (.raised "KeyError")

/-- `*v` in a list. -/
def splat : PyVal → Except Exn (List PyVal)
  | .str s => .ok (s.codes.map fun c => .str ⟨[c]⟩)
  | .list xs | .tuple xs => .ok xs
  | .dict kvs => .ok (kvs.map fun e => .str e.1)
  | _ => .error (.raised "TypeError")

def isText (s : PyStr) : PyVal → Bool
  | .str t => decide (t = s)
  | _ => false

variable (h : Host)

/-- `str(v)`. -/
def strOf : PyVal → PyStr
  | .str s => s
  | v => h.strOf v

def resolveArtifact : PyVal → Except Exn PyStr
  | .str name =>
      if hasSub name "/" = true ∨ hasSub name ".." = true ∨ name.codes = [] then
        .error (.refused (.artifactName (.str name)))
      else match h.artifactExists name with
        | none => .error (.raised "OSError")
        | some false => .error (.refused (.notFetched name))
        | some true => .ok (h.artifactPath name)
  -- no text: `in` looks for an element, and the path cannot be joined
  | v => do
      let xs ← splat v
      if xs.any (isText "/") = true ∨ xs.any (isText "..") = true ∨ xs = [] then
        .error (.refused (.artifactName v))
      else .error (.raised "TypeError")

def text (s : String) : PyVal := .str s

def toArgv (t : OpType) (fields : List (PyStr × PyVal)) : Except Exn (List PyVal) :=
  match t with
  | .packageInstall => do
      return [text "apt-get", text "install", text "-y"] ++ (← splat (← field "packages" fields))
  | .packageRemove => do
      return [text "apt-get", text "remove", text "-y"] ++ (← splat (← field "packages" fields))
  | .packageUpdate => return [text "apt-get", text "update"]
  | .packageInstallDeb => do
      return [text "dpkg", text "-i", .str (← resolveArtifact h (← field "artifact" fields))]
  | .repositoryEnable => do
      return [text "add-apt-repository", text "-y", .str (strOf h (← field "repository" fields))]
  | .systemdEnable => do
      return [text "systemctl", text "enable", .str (strOf h (← field "unit" fields))]
  | .systemdStart => do
      return [text "systemctl", text "start", .str (strOf h (← field "unit" fields))]
  | .systemdRestart => do
      return [text "systemctl", text "restart", .str (strOf h (← field "unit" fields))]
  | .udevReload => return [text "udevadm", text "control", text "--reload-rules"]
  | .userGroupAdd => do
      let group ← field "group" fields
      let user ← field "user" fields
      return [text "usermod", text "-aG", .str (strOf h group), .str (strOf h user)]
  | t => .error (.refused (.unmapped t))

/-- `a or b`. -/
def orElse (a b : PyVal) : PyVal := if a.truthy then a else b

def artifactFetch (fields : List (PyStr × PyVal)) : Except Exn Result :=
  let op := PyVal.dict fields
  let name := strOf h (orElse (orElse (op.get "name") (op.get "source")) (text ""))
  let url := strOf h (op.getD "url" (text ""))
  let expected := strOf h (op.getD "sha256" (text ""))
  if name.codes = [] ∨ hasSub name "/" = true ∨ hasSub name ".." = true then
    .error (.refused (.fetchName name))
  else if url.codes = [] then .error (.refused .noUrl)
  else if expected.codes = [] then .error (.refused .noDigest)
  else match h.fetch with
    | .failed error => .ok (.fetchFailed .artifactFetch error)
    | .raised exception => .error (.raised exception)
    | .blob actual =>
        if actual ≠ expected then .error (.refused (.mismatch name expected actual))
        else if h.stored then .ok (.fetched .artifactFetch name actual)
        else .error (.raised "OSError")

/-- The digits of a number of base 8, which single underscores may separate. -/
def octalDigits (acc : Nat) : List Nat → Option Nat
  | [] => none
  | [c] => if 48 ≤ c ∧ c ≤ 55 then some (8 * acc + (c - 48)) else none
  | c :: 95 :: cs => if 48 ≤ c ∧ c ≤ 55 then octalDigits (8 * acc + (c - 48)) cs else none
  | c :: cs => if 48 ≤ c ∧ c ≤ 55 then octalDigits (8 * acc + (c - 48)) cs else none

/-- A number of base 8 with its prefix `0o`, which an underscore may follow. -/
def octalPrefixed : List Nat → Option Nat
  | 48 :: 111 :: 95 :: cs | 48 :: 79 :: 95 :: cs => octalDigits 0 cs
  | 48 :: 111 :: cs | 48 :: 79 :: cs => octalDigits 0 cs
  | cs => octalDigits 0 cs

/-- `int(s, 8)` of a text of ASCII characters. -/
def octal (s : PyStr) : Option Int :=
  match s.strip.codes with
  | 45 :: cs => (octalPrefixed cs).map fun n => -(n : Int)
  | 43 :: cs => (octalPrefixed cs).map fun n => (n : Int)
  | cs => (octalPrefixed cs).map fun n => (n : Int)

/-- The modes that `os.chmod` takes. -/
def isCInt (n : Int) : Bool := -2147483648 ≤ n && n ≤ 2147483647

def managedWrite (fields : List (PyStr × PyVal)) : Except Exn Result :=
  let op := PyVal.dict fields
  let rawPath := strOf h (op.getD "path" (text ""))
  match octal (strOf h (op.getD "mode" (text "0644"))) with
  | none => .error (.raised "ValueError")
  | some mode =>
      if rawPath.codes.head? ≠ some 47 then .error (.refused (.notAbsolute rawPath))
      else match h.realpath rawPath with
        | none => .error (.raised "ValueError")
        | some (_, false) => .error (.refused (.outside rawPath))
        | some (resolved, true) =>
            if h.stored = false then .error (.raised "OSError")
            else if isCInt mode then .ok (.written .fileManagedWrite resolved mode)
            else .error (.raised "OverflowError")

/-- The texts of an argument vector; nothing if it holds something else. -/
def texts : List PyVal → Option (List PyStr)
  | [] => some []
  | .str s :: vs => (texts vs).map (s :: ·)
  | _ => none

/-- `subprocess.run`, and the result of its end. -/
def runChild (t : OpType) (argv : List PyStr) : Option Effect × Except Exn Result :=
  match h.child with
  | .exited returncode stderr =>
      (some (.ran argv), .ok (.ran t argv returncode
        (if returncode = 0 then none else some ⟨stderr.codes.drop (stderr.length - 500)⟩)))
  | .timedOut => (some (.ran argv), .error (.raised "TimeoutExpired"))
  | .undecodable => (some (.ran argv), .error (.raised "UnicodeDecodeError"))
  | .notStarted => (none, .error (.raised "OSError"))

/-- `_execute_op`, before `HostOpsPolicyError` is caught. -/
def tryOp (t : OpType) (fields : List (PyStr × PyVal)) : Option Effect × Except Exn Result :=
  match t with
  | .artifactFetch => (some .python, artifactFetch h fields)
  | .fileManagedWrite => (some .python, managedWrite h fields)
  | t => match toArgv h t fields with
    | .error e => (none, .error e)
    | .ok argv => match texts argv with
      | none => (none, .error (.raised "TypeError"))
      | some argv => runChild h t argv

/-- `except HostOpsPolicyError`. -/
def caught (t : OpType) : Except Exn Result → Except String Result
  | .ok result => .ok result
  | .error (.refused reason) => .ok (.refused t reason)
  | .error (.raised exception) => .error exception

def typed : PyVal → Option (OpType × List (PyStr × PyVal))
  | .dict fields => match PyVal.getEntry "type" .none fields with
    | .str type => (OpType.ofName type).map fun t => (t, fields)
    | _ => none
  | _ => none

def executeOp (op : PyVal) : Option Effect × Except String Result :=
  match typed op with
  | some (t, fields) => ((tryOp h t fields).1, caught t (tryOp h t fields).2)
  -- a plan with such an operation is not valid
  | none => (none, .error "KeyError")

/-- What the loop of `execute` has run, and its results. -/
structure Run where
  effects : List (Option Effect)
  results : Except String (List Result)

/-- The loop of `execute`; `host i` is what the operation `i` meets. -/
def executeOps (host : Nat → Host) : Nat → List PyVal → Run
  | _, [] => ⟨[], .ok []⟩
  | i, op :: ops =>
      match executeOp (host i) op with
      | (effect, .error exception) => ⟨[effect], .error exception⟩
      | (effect, .ok result) =>
          if result.failed then ⟨[effect], .ok [result]⟩
          else
            let rest := executeOps host (i + 1) ops
            ⟨effect :: rest.effects, rest.results.map (result :: ·)⟩

/-- How `execute` ends. -/
inductive Outcome
  | invalid (error : PlanError)
  | notApproved
  | started (run : Run)

/-- `execute` with `dry_run=False`. -/
def execute (planHash : PyVal → PyStr) (host : Nat → Host) (plan approval : PyVal) : Outcome :=
  match validatePlan plan with
  | .error e => .invalid e
  | .ok () =>
      if requireApproval planHash plan approval then .started (executeOps host 0 (operationsOf plan))
      else .notApproved

end Rosclaw.HostOps
