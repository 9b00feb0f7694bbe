/-
Generations of an index, and the pointer to the active one (`storage/versioned_collections.py`).

Every build leaves a row in the registry, under an id of its own, and one more row for each logical
name points to the active generation and to the one before it.  The statuses in the rows of the
builds are written after the pointer, and `registry` computes them anew from it.
-/
import Rosclaw.Lib.Dict
import Rosclaw.Lib.PyVal

namespace Rosclaw.VersionedCollections

def registryLimit : Nat := 10000

inductive Status
  | building
  | ready
  | active
  | old
  | failed
deriving DecidableEq, Repr

structure EmbeddingProfile where
  profileId : PyStr
  modelId : PyStr
  modelRevision : PyStr
  dimension : Int
  normalize : Bool
  distance : PyStr
  queryInstruction : Option PyStr
  documentInstruction : Option PyStr
  providerType : PyStr
deriving DecidableEq, Repr

structure BuildRow where
  id : PyStr
  buildId : PyStr
  logicalName : PyStr
  physicalCollection : PyStr
  embeddingProfileId : PyStr
  modelId : PyStr
  modelRevision : PyStr
  dimension : Int
  normalize : Bool
  distance : PyStr
  queryInstructionEnabled : Bool
  documentInstructionEnabled : Bool
  providerType : PyStr
  analyzer : PyStr
  corpusHash : PyStr
  recordCount : Int
  status : Status
  createdAt : Option Rat
  activatedAt : Option Rat
deriving DecidableEq, Repr

structure Pointer where
  id : PyStr
  logicalName : PyStr
  activePhysicalCollection : PyStr
  activeActivatedAt : Rat
  previousPhysicalCollection : Option PyStr
  previousActivatedAt : Option Rat
  updatedAt : Rat
deriving DecidableEq, Repr

/-- A row that the registry writes; watermarks are rows of the projection. -/
inductive Row
  | build (r : BuildRow)
  | pointer (p : Pointer)
deriving DecidableEq, Repr

namespace Row

def id : Row → PyStr
  | build r => r.id
  | pointer p => p.id

def logicalName : Row → PyStr
  | build r => r.logicalName
  | pointer p => p.logicalName

def build? : Row → Option BuildRow
  | build r => some r
  | pointer _ => none

def pointer? : Row → Option Pointer
  | build _ => none
  | pointer p => some p

end Row

/-- The rows of the table `projection_registry`, by id. -/
abbrev Registry := Dict PyStr Row

/-- The order in which the engine finds rows, and the digest in the id of a pointer. -/
structure Backend where
  scan : List Row → List Row
  scan_perm : ∀ rows, (scan rows).Perm rows
  sha256 : PyStr → PyStr

/-- What `_verify_row` returns. -/
structure Verification where
  ok : Bool
  reason : Option PyStr
  expected : Int
  actual : Option Int
  dimension : Option Int
  profileDimension : Option Int
  providerMatches : Option Bool
  physicalCollection : PyStr
deriving DecidableEq, Repr

inductive Refusal
  | emptyBuild
  | providerRequired
  | notConnected
  /-- the engine, the provider or the records raise -/
  | external
  | insertFailed
  | collectionExists (name : PyStr)
  | nothingToActivate (profileId analyzer : PyStr)
  | nothingToRestore
  | catchUpFailed
  | unverified (v : Verification)
deriving DecidableEq, Repr

/-! ### Reading the registry -/

/-- `store.query`: at most so many rows, as the engine finds them. -/
def query (b : Backend) (t : Registry) (p : Row → Bool) (limit : Nat) : List Row :=
  (b.scan (t.values.filter p)).take limit

/-- The order of `created_at`, and of the ids where this is the same. -/
def Before (r r' : BuildRow) : Prop :=
  r.createdAt.getD 0 < r'.createdAt.getD 0 ∨
    r.createdAt.getD 0 = r'.createdAt.getD 0 ∧ r.id.le r'.id = true

instance instDecidableBefore (r r' : BuildRow) : Decidable (Before r r') :=
  inferInstanceAs (Decidable (_ ∨ _ ∧ _))

def rows (b : Backend) (l : PyStr) (t : Registry) : List BuildRow :=
  ((query b t (fun row => row.logicalName = l) registryLimit).filterMap Row.build?).insertionSort
    Before

def pointerId (b : Backend) (l : PyStr) : PyStr :=
  "projection_active_" ++ ⟨(b.sha256 l).codes.take 24⟩

def pointer (b : Backend) (l : PyStr) (t : Registry) : Option Pointer :=
  (query b t (fun row => row.id = pointerId b l) 1).head?.bind Row.pointer?

def rowByCollection (b : Backend) (l : PyStr) (t : Registry) : Option PyStr → Option BuildRow
  | none => none
  | some name =>
      if name = "" then none else (rows b l t).find? fun r => r.physicalCollection = name

def truthy (time : Option Rat) : Bool := time.any (· ≠ 0)

/-- A row as `registry` shows it. -/
def effective (p : Option Pointer) (r : BuildRow) : BuildRow :=
  let activeName := p.map Pointer.activePhysicalCollection
  let previousName := p.bind Pointer.previousPhysicalCollection
  let name := some r.physicalCollection
  if name = activeName then
    { r with status := .active, activatedAt := p.map Pointer.activeActivatedAt }
  else if r.status ≠ .building ∧ r.status ≠ .failed then
    { r with
      status := if name = previousName ∨ truthy r.activatedAt then .old else .ready
      activatedAt :=
        if name = previousName then p.bind Pointer.previousActivatedAt else r.activatedAt }
  else r

def registry (b : Backend) (l : PyStr) (t : Registry) : List BuildRow :=
  (rows b l t).map (effective (pointer b l t))

/-- `max(rows, key=…)`, the first of the greatest. -/
def maxBy (key : BuildRow → Rat) : List BuildRow → Option BuildRow
  | [] => none
  | r :: rs => some (rs.foldl (fun best r' => if key best < key r' then r' else best) r)

def active (b : Backend) (l : PyStr) (t : Registry) : Option BuildRow :=
  match pointer b l t with
  | some p =>
      (rowByCollection b l t (some p.activePhysicalCollection)).map fun r =>
        { r with status := .active, activatedAt := some p.activeActivatedAt }
  -- a registry that was written before there were pointers
  | none =>
      maxBy (fun r => r.activatedAt.getD 0) ((rows b l t).filter fun r => r.status = .active)

def selectBuild (b : Backend) (l : PyStr) (t : Registry) (profile : EmbeddingProfile)
    (analyzer : PyStr) (allowed : Status) : Option BuildRow :=
  maxBy (fun r => r.createdAt.getD 0) <|
    (registry b l t).filter fun r =>
      r.embeddingProfileId = profile.profileId ∧ r.analyzer = analyzer ∧ r.status = allowed

/-! ### Builds -/

/-- What the engine answers during one operation; `none` if it raises. -/
structure Engine where
  connected : Bool
  hasCollection : PyStr → Option Bool
  count : PyStr → Option Int
  dimension : PyStr → Option (Option Int)

/-- A call of `build`: its arguments, what it draws and is told, and which writes succeed. -/
structure BuildCall where
  provider : Option EmbeddingProfile
  analyzer : PyStr
  recordCount : Nat
  corpusHash : PyStr
  buildId : PyStr
  rowHex : PyStr
  createdAt : Rat
  engine : Engine
  /-- the configuration and the hash of the records are computed -/
  prepared : Bool
  /-- the collection is created and filled -/
  backfilled : Bool
  firstWrite : Bool
  readyWrite : Bool
  failedWrite : Bool

def physicalName (l : PyStr) (profile : EmbeddingProfile) (analyzer generation : PyStr) : PyStr :=
  l ++ "__" ++ profile.profileId ++ "__" ++ analyzer ++ "__g" ++ generation

def BuildCall.begin (c : BuildCall) (l : PyStr) : Except Refusal BuildRow :=
  if c.recordCount = 0 then .error .emptyBuild
  else
    match c.provider with
    | none => .error .providerRequired
    | some profile =>
        if !c.engine.connected then .error .notConnected
        else if !c.prepared then .error .external
        else .ok {
          id := "projection_build_" ++ c.rowHex
          buildId := c.buildId
          logicalName := l
          physicalCollection := physicalName l profile c.analyzer c.buildId
          embeddingProfileId := profile.profileId
          modelId := profile.modelId
          modelRevision := profile.modelRevision
          dimension := profile.dimension
          normalize := profile.normalize
          distance := profile.distance
          queryInstructionEnabled := profile.queryInstruction.any (· ≠ ⟨[]⟩)
          documentInstructionEnabled := profile.documentInstruction.any (· ≠ ⟨[]⟩)
          providerType := profile.providerType
          analyzer := c.analyzer
          corpusHash := c.corpusHash
          recordCount := 0
          status := .building
          createdAt := some c.createdAt
          activatedAt := none }

/-- `_register`, where the insert succeeds. -/
def register (t : Registry) (r : BuildRow) : Registry := t.set r.id (.build r)

/-- The collection under the name of the row is created and filled. -/
def BuildCall.fill (c : BuildCall) (name : PyStr) : Except Refusal Unit :=
  match c.engine.hasCollection name with
  | none => .error .external
  | some true => .error (.collectionExists name)
  | some false => if c.backfilled then .ok () else .error .external

def build (l : PyStr) (t : Registry) (c : BuildCall) : Except Refusal BuildRow × Registry :=
  match c.begin l with
  | .error e => (.error e, t)
  | .ok row =>
      if !c.firstWrite then (.error .insertFailed, t)
      else
        match c.fill row.physicalCollection with
        | .error e => (.error e, fail (register t row) row)
        | .ok () =>
            let row' := { row with recordCount := c.recordCount, status := .ready }
            if c.readyWrite then (.ok row', register (register t row) row')
            else (.error .insertFailed, fail (register t row) row')
where
  /-- The status after an exception, if it can be written. -/
  fail (t : Registry) (row : BuildRow) : Registry :=
    if c.failedWrite then register t { row with status := .failed } else t

/-! ### Switches -/

def verifyRow (provider : Option EmbeddingProfile) (e : Engine) (r : BuildRow)
    (requireProviderMatch : Bool) : Except Refusal Verification :=
  if provider.isNone && requireProviderMatch then .error .providerRequired
  else if !e.connected then .error .notConnected
  else
    match e.hasCollection r.physicalCollection with
    | none => .error .external
    | some false => .ok {
        ok := false
        reason := some "physical collection missing"
        expected := r.recordCount
        actual := none
        dimension := none
        profileDimension := provider.map EmbeddingProfile.dimension
        providerMatches := none
        physicalCollection := r.physicalCollection }
    | some true =>
        match e.count r.physicalCollection, e.dimension r.physicalCollection with
        | some actual, some actualDimension =>
            let providerMatches := provider.map fun profile =>
              decide (r.embeddingProfileId = profile.profileId ∧ r.dimension = profile.dimension)
            .ok {
              ok := actual = r.recordCount && actualDimension = some r.dimension &&
                (providerMatches = some true || !requireProviderMatch)
              reason := none
              expected := r.recordCount
              actual := some actual
              dimension := actualDimension
              profileDimension := provider.map EmbeddingProfile.dimension
              providerMatches := providerMatches
              physicalCollection := r.physicalCollection }
        | _, _ => .error .external

def Verification.admits {α : Type} (v : Verification) (choice : α) : Except Refusal α :=
  if v.ok then .ok choice else .error (.unverified v)

/-- Which writes of a switch succeed: the pointer, the status of the generation that was active, and
that of the new one. -/
structure Writes where
  pointer : Bool
  oldStatus : Bool
  activeStatus : Bool

structure ActivateCall where
  provider : Option EmbeddingProfile
  analyzer : PyStr
  engine : Engine
  now : Rat
  writes : Writes

structure RollbackCall where
  provider : Option EmbeddingProfile
  /-- whether `catch_up` returns, if it is given -/
  catchUp : Option (BuildRow → Bool)
  engine : Engine
  now : Rat
  writes : Writes

inductive Choice
  /-- the generation that is active -/
  | keep (r : BuildRow)
  | switch (target : BuildRow) (current : Option BuildRow)

/-- `activate`, up to its first write. -/
def chooseActivate (b : Backend) (l : PyStr) (t : Registry) (c : ActivateCall) :
    Except Refusal Choice :=
  match c.provider with
  | none => .error .providerRequired
  | some profile =>
      let ready := selectBuild b l t profile c.analyzer .ready
      let current := (active b l t).filter fun r =>
        r.embeddingProfileId = profile.profileId ∧ r.analyzer = c.analyzer
      match (ready.or current).or (selectBuild b l t profile c.analyzer .old) with
      | none => .error (.nothingToActivate profile.profileId c.analyzer)
      | some target =>
          if target.status = .active then .ok (.keep target)
          else (verifyRow c.provider c.engine target true).bind fun v =>
            v.admits (.switch target (active b l t))

/-- The generation to which `rollback` goes back. -/
def previous (b : Backend) (l : PyStr) (t : Registry) : Option BuildRow :=
  match pointer b l t with
  | some p => rowByCollection b l t p.previousPhysicalCollection
  | none =>
      maxBy (fun r => r.activatedAt.getD 0) ((registry b l t).filter fun r => r.status = .old)

/-- The row after `catch_up`, with the number of records that the collection has now. -/
def RollbackCall.caughtUp (c : RollbackCall) (target : BuildRow) : Except Refusal BuildRow :=
  match c.catchUp with
  | none => .ok target
  | some catchUp =>
      if !catchUp target then .error .catchUpFailed
      else
        match c.engine.count target.physicalCollection with
        | none => .error .external
        | some n => .ok { target with recordCount := n }

/-- `rollback`, up to its first write. -/
def chooseRollback (b : Backend) (l : PyStr) (t : Registry) (c : RollbackCall) :
    Except Refusal Choice :=
  match previous b l t with
  | none => .error .nothingToRestore
  | some target =>
      match c.caughtUp target with
      | .error e => .error e
      | .ok target =>
          (verifyRow c.provider c.engine target false).bind fun v =>
            v.admits (.switch target (active b l t))

/-- `_mark_build_status`: a write that fails is logged. -/
def markBuildStatus (t : Registry) (r : Option BuildRow) (status : Status)
    (activatedAt : Option Rat) (succeeds : Bool) : Registry :=
  match r with
  | none => t
  | some r =>
      if succeeds then register t { r with status := status, activatedAt := activatedAt } else t

def newPointer (b : Backend) (l : PyStr) (target : BuildRow) (current : Option BuildRow)
    (now : Rat) : Pointer where
  id := pointerId b l
  logicalName := l
  activePhysicalCollection := target.physicalCollection
  activeActivatedAt := now
  previousPhysicalCollection := current.map BuildRow.physicalCollection
  previousActivatedAt := current.bind BuildRow.activatedAt
  updatedAt := now

/-- The writes of `activate` and of `rollback`. -/
def switchTo (b : Backend) (l : PyStr) (t : Registry) (target : BuildRow)
    (current : Option BuildRow) (now : Rat) (w : Writes) : Except Refusal BuildRow × Registry :=
  if !w.pointer then (.error .insertFailed, t)
  else
    let t := t.set (pointerId b l) (.pointer (newPointer b l target current now))
    let t := markBuildStatus t current .old (current.bind BuildRow.activatedAt) w.oldStatus
    let t := markBuildStatus t (some target) .active (some now) w.activeStatus
    (.ok { target with status := .active, activatedAt := some now }, t)

def commit (b : Backend) (l : PyStr) (t : Registry) (now : Rat) (w : Writes) :
    Except Refusal Choice → Except Refusal BuildRow × Registry
  | .error e => (.error e, t)
  | .ok (.keep r) => (.ok r, t)
  | .ok (.switch target current) => switchTo b l t target current now w

def activate (b : Backend) (l : PyStr) (t : Registry) (c : ActivateCall) :
    Except Refusal BuildRow × Registry :=
  commit b l t c.now c.writes (chooseActivate b l t c)

def rollback (b : Backend) (l : PyStr) (t : Registry) (c : RollbackCall) :
    Except Refusal BuildRow × Registry :=
  commit b l t c.now c.writes (chooseRollback b l t c)

/-! ### Runs -/

inductive Op
  | build (c : BuildCall)
  | activate (c : ActivateCall)
  | rollback (c : RollbackCall)

def step (b : Backend) (l : PyStr) (t : Registry) : Op → Except Refusal BuildRow × Registry
  | .build c => build l t c
  | .activate c => activate b l t c
  | .rollback c => rollback b l t c

def run (b : Backend) (l : PyStr) (t : Registry) (ops : List Op) : Registry :=
  ops.foldl (fun t op => (step b l t op).2) t

def Choice.written (w : Writes) : Choice → Option BuildRow
  | .keep _ => none
  | .switch target _ => if w.pointer then some target else none

def switched (b : Backend) (l : PyStr) (t : Registry) : Op → Option BuildRow
  | .build _ => none
  | .activate c => (chooseActivate b l t c).toOption.bind (Choice.written c.writes)
  | .rollback c => (chooseRollback b l t c).toOption.bind (Choice.written c.writes)

/-- The generation to which the pointer was written last, after a run; at its begin there is one
given. -/
def lastSwitched (b : Backend) (l : PyStr) : Option PyStr → Registry → List Op → Option PyStr
  | last, _, [] => last
  | last, t, op :: ops =>
      lastSwitched b l (((switched b l t op).map BuildRow.physicalCollection).or last)
        (step b l t op).2 ops

end Rosclaw.VersionedCollections
