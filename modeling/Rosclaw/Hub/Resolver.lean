/-
The resolver of asset references (`hub/resolver.py`).

* `versionKey` — how versions are ordered;
* `matchesSpec` — a version against an exact version or a list of comparisons.
The parser of semantic versions is a parameter: a text has a precedence, which build metadata does
not change, or it is none.
-/
import Mathlib.Data.List.Lex
import Mathlib.Data.List.MinMax
import Mathlib.Data.Sum.Order
import Rosclaw.Lib.Text

namespace Rosclaw.Hub

variable {V : Type*} [LinearOrder V] (precedence : PyStr → Option V)

structure AssetRef where
  type : PyStr
  namespaceName : PyStr
  name : PyStr
  version : Option PyStr
deriving DecidableEq, Repr

/-- What the scan has found: a reference, its path, and the lifecycle of the manifest, whose values
are texts. -/
structure Candidate where
  ref : AssetRef
  path : PyStr
  channel : Option PyStr
  status : Option PyStr
deriving DecidableEq, Repr

/-- `c_ref.version or ""`. -/
def Candidate.text (c : Candidate) : PyStr := c.ref.version.getD ""

/-- `CHANNELS`. -/
def channels : List PyStr := ["experimental", "beta", "stable", "deprecated"]

/-- `a or b or "stable"`. -/
def channelFromManifest (c : Candidate) : PyStr :=
  if c.channel.getD "" ≠ "" then c.channel.getD ""
  else if c.status.getD "" ≠ "" then c.status.getD "" else "stable"

/-- `_version_key`: a version that is not semantic is above all that are. -/
def versionKey (version : PyStr) : V ⊕ₗ List Nat :=
  match precedence version with
  | some v => toLex (.inl v)
  | none => toLex (.inr version.codes)

/-- `_OP_FUNCS`. -/
def opFuncs (op : PyStr) : Option (Ordering → Bool) :=
  if op = "==" then some (· == .eq)
  else if op = "!=" then some (· != .eq)
  else if op = ">" then some (· == .gt)
  else if op = ">=" then some (· != .lt)
  else if op = "<" then some (· == .lt)
  else if op = "<=" then some (· != .gt)
  else none

def isOp (c : Nat) : Bool := c = 0x3C || c = 0x3D || c = 0x3E || c = 0x21

/-- `re.match(r"^(?P<op>[<>=!]+)(?P<ver>.+)$", part)`: if there is nothing after the operator, its
last character is given to the version.  A point of the pattern is no newline. -/
def splitOp (part : PyStr) : Option (PyStr × PyStr) :=
  let op := part.codes.takeWhile isOp
  let ver := part.codes.dropWhile isOp
  if ver.contains 0x0A then none
  else if ver ≠ [] then (if op = [] then none else some (⟨op⟩, ⟨ver⟩))
  else if op.length < 2 then none
  else some (⟨op.dropLast⟩, ⟨op.drop (op.length - 1)⟩)

/-- A comparison of the list. -/
def passes (version part : PyStr) : Bool :=
  ((splitOp part).bind fun m => (opFuncs m.1).bind fun func =>
    (precedence version).bind fun v => (precedence m.2.strip).map fun t =>
      func (compare v t)).getD false

/-- `[p.strip() for p in spec.split(",") if p.strip()]`. -/
def parts (spec : PyStr) : List PyStr :=
  ((spec.splitAt fun c => c = 0x2C).map PyStr.strip).filter fun p => p.codes ≠ []

def matchesSpec (version spec : PyStr) : Bool :=
  let spec := spec.strip
  if spec = version then true
  else if (precedence spec).isSome ∧ (precedence version).isSome then
    precedence version = precedence spec
  else if parts spec = [] then false
  else (parts spec).all (passes precedence version)

inductive Failure
  /-- `No local manifest found for ...` -/
  | notFound
  /-- `No ... release found for ...` -/
  | noRelease (channel : PyStr)
  /-- `No version satisfies '...' for ...` -/
  | unsatisfied (spec : PyStr)
deriving DecidableEq, Repr

structure ResolvedAsset where
  ref : AssetRef
  manifestPath : PyStr
deriving DecidableEq, Repr

def sameAsset (ref : AssetRef) (c : Candidate) : Bool :=
  c.ref.type = ref.type ∧ c.ref.namespaceName = ref.namespaceName ∧ c.ref.name = ref.name

/-- `_matching_candidates`; the scan is the argument. -/
def matchingCandidates (ref : AssetRef) (scan : List Candidate) : List Candidate :=
  scan.filter (sameAsset ref)

/-- `(ref.version or "").strip()`. -/
def versionSpec (ref : AssetRef) : PyStr := (ref.version.getD "").strip

/-- `_choose_latest`: the first candidate with the highest key. -/
def chooseLatest (candidates : List Candidate) : Option Candidate :=
  candidates.argmax fun c => versionKey precedence c.text

/-- The candidates that a reference leaves, and the error if there are none. -/
def selected (ref : AssetRef) (scan : List Candidate) : List Candidate × Failure :=
  let candidates := matchingCandidates ref scan
  let spec := versionSpec ref
  if candidates = [] then ([], .notFound)
  else if spec = "" then (candidates, .notFound)
  else if spec.lower ∈ channels then
    (candidates.filter fun c => (channelFromManifest c).lower = spec.lower, .noRelease spec.lower)
  else (candidates.filter fun c => matchesSpec precedence c.text spec, .unsatisfied spec)

def resolve (ref : AssetRef) (scan : List Candidate) : Except Failure ResolvedAsset :=
  let s := selected precedence ref scan
  match chooseLatest precedence s.1 with
  | none => .error s.2
  | some chosen => .ok ⟨{ ref with version := chosen.ref.version }, chosen.path⟩

end Rosclaw.Hub
