/-
Artifacts: `register_artifact`, with the run directory of a task and the files that it reads.

A call comes with the file system that it finds.  The projection of a new artifact into `outputs/`
is left out: it writes files and no row, and the next call may find any files.
-/
import Rosclaw.TaskKernel.InputBinding

namespace Rosclaw.TaskKernel

open Txn

/-! ### Files -/

inductive Entry
  | directory
  | file (content : List UInt8) (modifiedAt : Int)

/-- The file system as a call finds it; times are in microseconds. -/
structure Disk where
  /-- `Path(p).resolve()` -/
  resolve : PyStr → PyStr
  entry : PyStr → Option Entry

structure Host where
  /-- `_home` -/
  home : PyStr
  /-- `hashlib.sha256(content).hexdigest()` -/
  sha256 : List UInt8 → PyStr
  /-- `str(json.loads(content).get("input_trace_digest", ""))` -/
  inputTraceDigest : List UInt8 → Except KernelError PyStr

def parts (p : PyStr) : List PyStr :=
  (p.splitAt (· = 0x2F)).filter fun s => !(s.isEmpty || s = ".")

/-- `Path(p).name`. -/
def fileName (p : PyStr) : PyStr := (parts p).getLast?.getD ""

def parentName (p : PyStr) : PyStr := (parts p).dropLast.getLast?.getD ""

/-- `Path(a) / b`. -/
def joinPath (a b : PyStr) : PyStr := if b.startsWith "/" then b else a ++ "/" ++ b

def zones : List PyStr := ["scratch", "outputs", "evidence", "logs"]

def Host.runDir (h : Host) (taskId : PyStr) (revision : Nat) : PyStr :=
  joinPath (joinPath (joinPath h.home "runs") taskId) ("r" ++ PyStr.ofNat revision)

/-- `zone_of`; a file outside of the run directory is in no zone. -/
def zoneOf (h : Host) (d : Disk) (taskId : PyStr) (revision : Nat) (path : PyStr) : PyStr :=
  let base := parts (d.resolve (h.runDir taskId revision))
  let file := parts (d.resolve path)
  if base.isPrefixOf file then
    match (file.drop base.length).head? with
    | some part => if zones.contains part then part else ""
    | none => ""
  else ""

/-! ### The operation -/

/-- `get_task`, by a caller that refuses an unknown task. -/
def knownTask (taskId : PyStr) : Kernel Task :=
  check taskId.encodable .unicodeEncodeError >>= fun _ =>
  read (fun db : Tables => db.tasks.get? taskId) >>= fun
  | some t => pure t
  | none => raise (.valueError ("unknown task " ++ taskId.quoted))

/-- The arguments of `register_artifact`, and what the surroundings answer. -/
structure RegisterCall where
  taskId : PyStr
  path : PyStr
  mediaType : PyStr
  producer : PyStr := "model:tool"
  metadata : Metadata := ⟨none, none, []⟩
  disk : Disk
  /-- of `new_id("art")` -/
  uuid : PyStr

/-- What `register_artifact` answers; a new record leaves out the revision and the producer. -/
structure Registered where
  artifactId : PyStr
  artifact : Artifact
  zone : PyStr
  idempotentReplay : Bool

def previewKind : PyStr := "preview_2d"

/-- The lineage as it is registered: the digests are computed from the receipt, and the revision is
the active one. -/
def Lineage.stamp (h : Host) (d : Disk) (revision : Nat) (l : Lineage) : Except KernelError Lineage :=
  if l.kind = previewKind then .ok { l with revision := some revision }
  else if l.renderReceiptPath.isEmpty then
    .error (.valueError "LINEAGE_UNREADABLE: lineage 缺 render_receipt_path")
  else
    match d.entry l.renderReceiptPath with
    | none =>
      .error (.valueError ("LINEAGE_UNREADABLE: render receipt 不存在: " ++ l.renderReceiptPath))
    | some .directory => .error .osError
    | some (.file content _) =>
      (h.inputTraceDigest content).map fun digest =>
        { l with
          renderReceiptDigest := "sha256:" ++ h.sha256 content
          inputTraceDigest := digest
          traceId := if l.traceId.isEmpty then parentName l.renderReceiptPath else l.traceId
          revision := some revision }

def stampLineage (h : Host) (d : Disk) (revision : Nat) :
    Option Lineage → Except KernelError (Option Lineage)
  | none => .ok none
  | some l => (l.stamp h d revision).map some

namespace RegisterCall

variable (c : RegisterCall)

def artifactId : PyStr := newId "art" c.uuid

def file (t : Task) : PyStr :=
  c.disk.resolve (joinPath (c.disk.resolve t.workspacePath) c.path)

/-- `file.read_bytes()`. -/
def content (t : Task) : Except KernelError (List UInt8) :=
  match c.disk.entry (c.file t) with
  | none =>
    .error (.valueError ("artifact 不存在: " ++ c.path ++ "（解析根: " ++
      c.disk.resolve t.workspacePath ++ "）"))
  | some .directory => .error .osError
  | some (.file content _) => .ok content

def zone (h : Host) (t : Task) : PyStr := zoneOf h c.disk c.taskId t.activeRevision (c.file t)

def zoneRefuses (h : Host) (t : Task) : Except KernelError Unit :=
  if c.zone h t = "scratch" then
    .error (.valueError ("SCRATCH_NOT_DELIVERABLE: " ++ c.file t ++
      " 在 scratch 草稿区——草稿不是交付物；请把最终交付物写入 outputs/ 再登记"))
  else if c.zone h t = "evidence" && !c.producer.startsWith "kernel:" then
    .error (.valueError ("EVIDENCE_KERNEL_ONLY: " ++ c.file t ++
      " 在 evidence 受信区——该目录只接受内核管道登记；模型的交付物请写 outputs/"))
  else .ok ()

def row (h : Host) (t : Task) (content : List UInt8) : Except KernelError Artifact :=
  (stampLineage h c.disk t.activeRevision c.metadata.lineage).map fun lineage =>
    { taskId := c.taskId
      revision := t.activeRevision
      path := c.file t
      mediaType := c.mediaType
      sha256 := h.sha256 content
      sizeBytes := content.length
      producer := c.producer
      metadata := { c.metadata with lineage := lineage } }

/-- `artifact.created`. -/
def created (a : Artifact) : Event :=
  ⟨c.taskId, "", "artifact.created",
    .dict [("artifact_id", .str c.artifactId), ("path", .str a.path), ("bytes", .int a.sizeBytes)]⟩

end RegisterCall

def Tables.stored (db : Tables) (taskId digest : PyStr) : Option (PyStr × Artifact) :=
  db.artifacts.entries.find? fun e => e.2.taskId = taskId ∧ e.2.sha256 = digest

def registerArtifact (h : Host) (c : RegisterCall) : Kernel Registered :=
  knownTask c.taskId >>= fun t =>
  ofExcept (c.content t) >>= fun content =>
  ofExcept (c.zoneRefuses h t) >>= fun _ =>
  read (fun db : Tables => db.stored c.taskId (h.sha256 content)) >>= fun
  | some (k, a) => pure ⟨k, a, "", true⟩
  | none =>
    ofExcept (c.row h t content) >>= fun a =>
    exec (.insertArtifact c.artifactId a) >>= fun _ =>
    exec (.emit (c.created a)) >>= fun _ =>
    pure ⟨c.artifactId, a, c.zone h t, false⟩

end Rosclaw.TaskKernel
