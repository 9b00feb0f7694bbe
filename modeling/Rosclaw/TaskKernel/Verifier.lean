/-
What a task is accepted for (`verifier.py`).

* `Failure`, `Failure.text` — the failures that a verdict can list, with their texts;
* `verifyArtifacts`, `verifyAcceptance`, `verdictFor` — the checks, and what they come to.
-/
import Rosclaw.TaskKernel.Artifacts

namespace Rosclaw.TaskKernel

/-! ### Failures -/

inductive Failure
  | artifactMissing (name : PyStr)
  | artifactEmpty (name : PyStr)
  | hashMismatch (name : PyStr)
  | fixture (name : PyStr)
  | trustedEvidenceMissing
  | fileMissing (rel : PyStr)
  | interpreterRefused (argv0 : PyStr)
  | interpreterMissing (argv0 : PyStr)
  | runFailed (code : Int) (tail : PyStr)
  | runTimeout (seconds : Nat)
  | acceptanceMissing
  /-- an artifact of another revision -/
  | revisionSplice (artifactId : PyStr) (revision active : Nat)
  | planAuthorityMissing
  | resourceMissing
  | manifestMissing (robotId : PyStr)
  | resourceMismatch (resourceId robotId : PyStr)
  | nonCanonical (quality : PyStr)
  | resourceDigestMismatch
  | modelLineageMissing (name : PyStr)
  | lineageMissing (name : PyStr)
  /-- a lineage of another revision -/
  | lineageSplice (revision : Option Int) (active : Nat)
  /-- a trace from before the revision -/
  | traceSplice
  | traceMissing (traceId : PyStr)
  | lineageDigestMismatch
  | deliverableMissing (kind : PyStr)
deriving DecidableEq, Repr

/-- `min(float(run.get("timeout_sec", 600)), 600)`, as it is printed. -/
def timeoutText (seconds : Nat) : PyStr :=
  if seconds ≤ 600 then PyStr.ofNat seconds ++ ".0" else "600"

namespace Failure

def text : Failure → PyStr
  | artifactMissing name => "artifact 不存在: " ++ name
  | artifactEmpty name => "artifact 为空: " ++ name
  | hashMismatch name => "artifact hash 失配（登记后被改写）: " ++ name
  | fixture name =>
      "RESOURCE_PROVENANCE_FAILED: 产物引用测试夹具 " ++ name ++ "——正式任务不得使用 fixture 资产"
  | trustedEvidenceMissing =>
      "TRUSTED_EVIDENCE_MISSING: 机器人行为任务缺受信管道的独立验证证据——模型自产 artifact 不算数"
  | fileMissing rel => "缺交付文件 " ++ rel
  | interpreterRefused argv0 => "验收解释器 " ++ argv0.quoted ++ " 不在白名单——拒绝执行"
  | interpreterMissing argv0 => "验收解释器 " ++ argv0.quoted ++ " 未安装"
  | runFailed code tail => "验收测试失败(rc=" ++ PyStr.ofInt code ++ "): " ++ tail
  | runTimeout seconds => "验收测试超时(" ++ timeoutText seconds ++ "s)"
  | acceptanceMissing => "ACCEPTANCE_MISSING: 无 artifact、无验收定义、无总结——零证据不得成功"
  | revisionSplice artifactId revision active =>
      "REVISION_SPLICE: 产物 " ++ artifactId ++ " 属于旧 revision r" ++ PyStr.ofNat revision ++
        "（当前 r" ++ PyStr.ofNat active ++ "）——旧产物不得交付新 revision"
  | planAuthorityMissing =>
      "PLAN_AUTHORITY_MISSING: 具身任务缺受信执行证据（PlanGraph plan.node 事件 / Operator 链 COMPLETED txn / kernel 核验血缘产物 / kernel:capability 仿真 receipt 四选一）——手拼低层产物不得发布终态"
  | resourceMissing => "RESOURCE_PROVENANCE_MISSING: 行为任务产物无资源证明"
  | manifestMissing robotId =>
      "RESOURCE_PROVENANCE_MISSING: 无 " ++ robotId ++ " 权威 manifest 可比对"
  | resourceMismatch resourceId robotId =>
      "RESOURCE_ID_MISMATCH: " ++ resourceId ++ " != robot:" ++ robotId
  | nonCanonical quality => "NON_CANONICAL_RESOURCE: quality=" ++ quality
  | resourceDigestMismatch => "RESOURCE_DIGEST_MISMATCH: 实际加载模型 与权威 manifest 摘要不符"
  | modelLineageMissing name =>
      "LINEAGE_MISSING: 模型自产媒体 " ++ name ++ " 无血缘——EXPERIMENTAL，不当受信交付证据"
  | lineageMissing name =>
      "LINEAGE_MISSING: 受信声明媒体 " ++ name ++ " 缺 render receipt/trace 血缘"
  | lineageSplice revision active =>
      "REVISION_SPLICE: 血缘 revision " ++ revision.elim (PyStr.ofString "None") PyStr.ofInt ++ " != 活跃 " ++
        PyStr.ofNat active ++ "——跨 revision 拼接"
  | traceSplice =>
      "REVISION_SPLICE: trace 证据产生时间早于当前 revision 开始——旧 revision 证据不得复用"
  | traceMissing traceId => "LINEAGE_TRACE_MISSING: trace " ++ traceId ++ " 不存在"
  | lineageDigestMismatch =>
      "LINEAGE_DIGEST_MISMATCH: renderer 输入 digest 与 该 trace 实际内容不符——renderer 吃的不是这条 trace"
  | deliverableMissing kind =>
      "DELIVERABLE_MISSING: required 交付物 " ++ kind ++
        " 未在产物账本（按 kind 匹配——2D 预览不满足场景视频）"

end Failure

/-! ### The verifier -/

inductive RunResult
  | exited (code : Int) (tail : PyStr)
  | timedOut
  | raised

structure Shell where
  /-- `shutil.which(name) is not None` -/
  installed : PyStr → Bool
  run : List PyStr → Nat → RunResult

def argv0Allowlist : List PyStr := ["python3", "python", "pytest"]

/-- One artifact of `verify_artifacts`. -/
def verifyArtifact (h : Host) (d : Disk) (a : Artifact) : Except KernelError (List Failure) :=
  match d.entry a.path with
  | none => .ok [.artifactMissing (fileName a.path)]
  | some .directory => .error .osError
  | some (.file content _) =>
    if content.isEmpty then .ok [.artifactEmpty (fileName a.path)]
    else if h.sha256 content ≠ a.sha256 then .ok [.hashMismatch (fileName a.path)]
    else .ok []

def verifyArtifacts (h : Host) (d : Disk) : List Artifact → Except KernelError (List Failure)
  | [] => .ok []
  | a :: as =>
    match verifyArtifact h d a with
    | .error e => .error e
    | .ok fs => (verifyArtifacts h d as).map fun rest => fs ++ rest

/-- One entry of `required_files`: the comparison is of texts. -/
def verifyFile (d : Disk) (workspace rel : PyStr) : List Failure :=
  let candidate := d.resolve (joinPath workspace rel)
  if !candidate.startsWith (d.resolve workspace) || (d.entry candidate).isNone then
    [.fileMissing rel]
  else []

/-- `acceptance["run"]`. -/
def verifyRun (sh : Shell) (r : AcceptanceRun) : Except KernelError (List Failure) :=
  let argv0 := r.argv.head?.getD ""
  if !argv0Allowlist.contains argv0 then .ok [.interpreterRefused argv0]
  else if !sh.installed argv0 then .ok [.interpreterMissing argv0]
  else
    match sh.run r.argv (min r.timeoutSec 600) with
    | .exited code tail => .ok (if code = 0 then [] else [.runFailed code tail])
    | .timedOut => .ok [.runTimeout r.timeoutSec]
    | .raised => .error .osError

/-- `verify_acceptance`: the number of checks, and the failures. -/
def verifyAcceptance (d : Disk) (sh : Shell) (acceptance : Acceptance) (workspace : PyStr) :
    Except KernelError (Nat × List Failure) :=
  let files := acceptance.requiredFiles.flatMap (verifyFile d workspace)
  match acceptance.run with
  | none => .ok (acceptance.requiredFiles.length, files)
  | some r => (verifyRun sh r).map fun fs => (acceptance.requiredFiles.length + 1, files ++ fs)

structure Evidence where
  artifacts : List Artifact
  acceptance : Acceptance
  workspace : PyStr
  summary : PyStr
  requireTrustedEvidence : Bool
  trustedEvidencePresent : Bool
  extraFailures : List Failure

/-- A verdict, which passes if it has no failures. -/
structure Verdict where
  checks : Nat
  failures : List Failure

namespace Evidence

variable (e : Evidence)

def fixtures : List Failure :=
  e.artifacts.flatMap fun a =>
    if a.path.contains "tests/fixtures" then [.fixture (fileName a.path)] else []

def untrusted : List Failure :=
  if e.requireTrustedEvidence && !e.trustedEvidencePresent then [.trustedEvidenceMissing] else []

/-- The verdict, after the checks of the artifacts and of the acceptance. -/
def verdict (verified : List Failure) (accepted : Nat × List Failure) : Verdict :=
  let failures := verified ++ e.fixtures ++ e.untrusted ++ e.extraFailures ++ accepted.2
  if e.artifacts.length + accepted.1 = 0 then
    -- a task that only answers: the summary is the one check that is left
    ⟨1, if e.summary.isBlank then failures ++ [.acceptanceMissing] else failures⟩
  else ⟨e.artifacts.length + accepted.1, failures⟩

end Evidence

def verdictFor (h : Host) (d : Disk) (sh : Shell) (e : Evidence) : Except KernelError Verdict :=
  match verifyArtifacts h d e.artifacts with
  | .error err => .error err
  | .ok verified => (verifyAcceptance d sh e.acceptance e.workspace).map (e.verdict verified)

/-! ### Deliverables -/

end Rosclaw.TaskKernel
