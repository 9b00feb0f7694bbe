/-
The migration runner on a SQLite connection.

* `Tables`, `Database` — the table of migrations and everything else, with a record of what was
  executed that no statement sees;
* `Platform` — what is taken from Python and from SQLite: what a statement does is left open.
Errors of the disk and of locks are left out, and so is the time at which a migration was applied.
-/
import Rosclaw.Lib.Dict
import Rosclaw.Lib.Machine
import Rosclaw.Lib.Savepoint
import Rosclaw.Storage.MigrationScript

namespace Rosclaw.Migrations

open Savepoint

/-- What statements see: `schema_migrations`, if it is there, with the checksum of each version, and
everything else. -/
structure Tables (R : Type) where
  records : Option (Dict PyStr (Option PyStr))
  rest : R

structure Execution where
  version : PyStr
  statement : PyStr
deriving DecidableEq

/-- The tables, and which statements of scripts made them. -/
structure Database (R : Type) where
  tables : Tables R
  history : List Execution

abbrev Connection (R : Type) := Session PyStr (Database R)

/-- A statement as SQLite reads it: a command, and whether Python begins a transaction for it. -/
structure Statement (R : Type) where
  isDml : Bool
  command : Command PyStr (Tables R)

structure Platform (R : Type) where
  /-- the value of a character of `\d` -/
  decimal : Nat → Option Nat
  /-- `\w` -/
  isWord : Nat → Bool
  /-- the connection begins transactions by itself -/
  implicit : Bool
  /-- the deferred constraints of the other tables hold -/
  valid : R → Bool
  parse : PyStr → Statement R

/-- A file of the directory: its name, the hash of its bytes and its text. -/
structure File where
  name : PyStr
  checksum : PyStr
  text : PyStr
  hashed : checksum.codes ≠ []

section Runner

variable {R : Type} (p : Platform R)

/-! ### Files -/

/-- `_version_from_filename`. -/
def versionText (name : PyStr) : Option PyStr :=
  let digits := name.codes.takeWhile fun c => (p.decimal c).isSome
  if digits.isEmpty then none else some ⟨digits⟩

/-- `int(version)`. -/
def versionNumber (version : PyStr) : Nat :=
  version.codes.foldl (fun n c => 10 * n + (p.decimal c).getD 0) 0

def File.version (f : File) : PyStr := (versionText p f.name).getD ""

def File.number (f : File) : Nat := versionNumber p (f.version p)

def after (text : String) (cs : List Nat) : Option (List Nat) :=
  if (PyStr.ofString text).codes.isPrefixOf cs then some (cs.drop (PyStr.ofString text).codes.length)
  else none

def readBackend (text : PyStr) : PyStr :=
  let word := (after "--" ((text.splitlines.head?).getD "").codes).bind fun cs =>
    (after "backend:" (cs.dropWhile PyStr.isSpace)).map fun cs =>
      (cs.dropWhile PyStr.isSpace).takeWhile p.isWord
  match word with
  | some (c :: cs) => (PyStr.mk (c :: cs)).lower
  | _ => "all"

def File.targets (f : File) : Bool := readBackend p f.text = "all" || readBackend p f.text = "sqlite"

def sorted (files : List File) : List File :=
  files.insertionSort fun f f' => f.number p ≤ f'.number p

/-! ### Statements -/

/-- A command on the tables, as a command on the database; a statement of a script leaves its
mark. -/
def onDatabase (execution : Option Execution) :
    Command PyStr (Tables R) → Command PyStr (Database R)
  | .start => .start
  | .commit => .commit
  | .rollback => .rollback
  | .savepoint name => .savepoint name
  | .release name => .release name
  | .rollbackTo name => .rollbackTo name
  | .run f => .run fun d => (f d.tables).map fun t => ⟨t, d.history ++ execution.toList⟩

def Platform.holds (d : Database R) : Bool := p.valid d.tables.rest

/-- `connection.execute(statement)`. -/
def execute (execution : Option Execution) (s : Statement R) (c : Connection R) :
    Connection R × Bool :=
  let c :=
    if p.implicit && s.isDml && !c.active then ((Command.start).execute p.holds c).1 else c
  (onDatabase execution s.command).execute p.holds c

/-- `connection.commit()`. -/
def pyCommit (c : Connection R) : Connection R × Bool :=
  if c.active then Savepoint.commit p.holds c else (c, true)

/-- `CREATE TABLE IF NOT EXISTS schema_migrations …`, and its column for checksums. -/
def createTable : Statement R :=
  ⟨false, .run fun t => .ok ⟨some (t.records.getD ∅), t.rest⟩⟩

/-- A statement that writes `schema_migrations`. -/
def onRecords (f : Dict PyStr (Option PyStr) → Dict PyStr (Option PyStr)) : Statement R :=
  ⟨true, .run fun t =>
    match t.records with
    | none => .error .statement
    | some records => .ok ⟨some (f records), t.rest⟩⟩

def record (version checksum : PyStr) : Statement R :=
  onRecords fun records => records.set version (some checksum)

def updateChecksum (version checksum : PyStr) : Statement R :=
  onRecords fun records =>
    records.mapVals fun v recorded => if v = version then some checksum else recorded

def savepointName : PyStr := "rosclaw_migration"

def mark : Statement R := ⟨false, .savepoint savepointName⟩

def release : Statement R := ⟨false, .release savepointName⟩

def goBack : Statement R := ⟨false, .rollbackTo savepointName⟩

/-! ### The runner -/

/-- An exception that leaves `apply`. -/
inductive Error
  | valueError
  | checksumMismatch (version name : PyStr)
  | operationalError
deriving DecidableEq

def executeScript (version : PyStr) : List PyStr → Connection R → Connection R × Bool
  | [], c => (c, true)
  | s :: rest, c =>
      match execute p (some ⟨version, s⟩) (p.parse s) c with
      | (c', true) => executeScript version rest c'
      | (c', false) => (c', false)

/-- The `try` block of a migration. -/
def attempt (f : File) (c : Connection R) : Connection R × Bool :=
  match executeScript p (f.version p) (splitStatements f.text) c with
  | (c₁, false) => (c₁, false)
  | (c₁, true) =>
    match execute p none (record (f.version p) f.checksum) c₁ with
    | (c₂, false) => (c₂, false)
    | (c₂, true) => execute p none release c₂

/-- The `except` block of a migration. -/
def undo (c : Connection R) : Connection R × Bool :=
  match execute p none goBack c with
  | (c₁, false) => (c₁, false)
  | (c₁, true) => ((execute p none release c₁).1, false)

/-- One migration that is not recorded: its savepoint, its script and its record. -/
def migrate (f : File) (c : Connection R) : Connection R × Bool :=
  match attempt p f (execute p none mark c).1 with
  | (c₁, true) => pyCommit p c₁
  | (c₁, false) => undo p c₁

def hasChecksum (recorded : Option PyStr) : Bool := recorded.any fun s => !s.isEmpty

/-- The loop of `apply`; `applied` is what was recorded before it. -/
def applyFiles (applied : Dict PyStr (Option PyStr)) :
    List File → Connection R → Connection R × Except Error (List PyStr)
  | [], c => (c, .ok [])
  | f :: files, c =>
      if !f.targets p then applyFiles applied files c
      else
        match applied.get? (f.version p) with
        | some recorded =>
            if hasChecksum recorded then
              if recorded = some f.checksum then applyFiles applied files c
              else (c, .error (.checksumMismatch (f.version p) f.name))
            else
              match execute p none (updateChecksum (f.version p) f.checksum) c with
              | (c₁, false) => (c₁, .error .operationalError)
              | (c₁, true) =>
                match pyCommit p c₁ with
                | (c₂, false) => (c₂, .error .operationalError)
                | (c₂, true) => applyFiles applied files c₂
        | none =>
            match migrate p f c with
            | (c₁, false) => (c₁, .error .operationalError)
            | (c₁, true) =>
              let r := applyFiles applied files c₁
              (r.1, r.2.map (f.version p :: ·))

def recorded (c : Connection R) : Dict PyStr (Option PyStr) := c.current.tables.records.getD ∅

def apply (files : List File) (c : Connection R) : Connection R × Except Error (List PyStr) :=
  match execute p none createTable c with
  | (c₁, false) => (c₁, .error .operationalError)
  | (c₁, true) =>
      if files.any fun f => (versionText p f.name).isNone then (c₁, .error .valueError)
      else applyFiles p (recorded c₁) (sorted p files) c₁

def pending (files : List File) (c : Connection R) : Connection R × Except Error (List PyStr) :=
  match execute p none createTable c with
  | (c₁, false) => (c₁, .error .operationalError)
  | (c₁, true) =>
      if files.any fun f => (versionText p f.name).isNone then (c₁, .error .valueError)
      else (c₁, .ok (((sorted p files).filter fun f =>
        !(recorded c₁).contains (f.version p) && f.targets p).map (·.version p)))

/-! ### A database over its life -/

/-- A call of the runner with the directory as it is then, or another writer's commit. -/
inductive Step (R : Type)
  | apply (files : List File)
  | write (f : Tables R → Tables R)

def Step.after (c : Connection R) : Step R → Connection R
  | .apply files => (Migrations.apply p files c).1
  | .write f => .closed ⟨f c.current.tables, c.current.history⟩

end Runner

end Rosclaw.Migrations
