/-
What a verdict that passes says.

A required file is compared with the workspace as a text, so a directory whose name continues the
name of the workspace passes for a part of it.

* `verifyArtifacts_ok`, `verifyFile_ok`, `verifyRun_ok`, `verifyAcceptance_ok` — what the parts of
  a verdict accept;
* `Accepted`, `passes_iff` — a verdict passes if and only if each part accepts;
* `verdict_sound_iff` — a passing verdict is sound unless a required file escapes.
-/
import Rosclaw.TaskKernel.Verifier

namespace Rosclaw.TaskKernel

section Parts

variable {h : Host} {d : Disk} {sh : Shell} {e : Evidence} {workspace : PyStr}

/-! ### The parts of a verdict -/

def Artifact.Genuine (h : Host) (d : Disk) (a : Artifact) : Prop :=
  ∃ content modifiedAt, d.entry a.path = some (.file content modifiedAt) ∧ content ≠ [] ∧
    h.sha256 content = a.sha256

theorem verifyArtifact_ok {a : Artifact} : verifyArtifact h d a = .ok [] ↔ a.Genuine h d := by
  unfold verifyArtifact Artifact.Genuine
  cases hentry : d.entry a.path with
  | none => simp
  | some entry =>
    cases entry with
    | directory => simp
    | file content modifiedAt =>
      by_cases hempty : content.isEmpty = true
      · simp only [if_pos hempty]
        constructor
        · intro hok
          cases hok
        · rintro ⟨content', modifiedAt', heq, hne, -⟩
          cases heq
          exact absurd (List.isEmpty_iff.mp hempty) hne
      · simp only [if_neg hempty]
        constructor
        · intro hok
          split at hok
          · cases hok
          · next hdigest =>
            refine ⟨content, modifiedAt, rfl, ?_, not_not.mp hdigest⟩
            exact fun hnil => hempty (List.isEmpty_iff.mpr hnil)
        · rintro ⟨content', modifiedAt', heq, -, hdigest⟩
          cases heq
          exact if_neg (not_not.mpr hdigest)

theorem verifyArtifacts_ok {as : List Artifact} :
    verifyArtifacts h d as = .ok [] ↔ ∀ a ∈ as, a.Genuine h d := by
  induction as with
  | nil => simp [verifyArtifacts]
  | cons a as ih =>
    rw [List.forall_mem_cons, ← verifyArtifact_ok, ← ih, verifyArtifacts]
    cases verifyArtifact h d a with
    | error e => simp
    | ok fs =>
      cases verifyArtifacts h d as with
      | error e => simp [Except.map]
      | ok rest => simp [Except.map]

/-- The path that is checked for an entry of `required_files`. -/
def candidate (d : Disk) (workspace rel : PyStr) : PyStr := d.resolve (joinPath workspace rel)

theorem verifyFile_ok {rel : PyStr} : verifyFile d workspace rel = [] ↔
      (candidate d workspace rel).startsWith (d.resolve workspace) = true ∧
        (d.entry (candidate d workspace rel)).isSome = true := by
  rw [verifyFile, candidate]
  cases (d.resolve (joinPath workspace rel)).startsWith (d.resolve workspace) <;>
    cases d.entry (d.resolve (joinPath workspace rel)) <;> simp

/-- The run is of an interpreter that is allowed and there, and it exits with 0. -/
def AcceptanceRun.Succeeds (sh : Shell) (r : AcceptanceRun) : Prop :=
  argv0Allowlist.contains (r.argv.head?.getD "") = true ∧
    sh.installed (r.argv.head?.getD "") = true ∧
    ∃ tail, sh.run r.argv (min r.timeoutSec 600) = .exited 0 tail

theorem verifyRun_ok {r : AcceptanceRun} : verifyRun sh r = .ok [] ↔ r.Succeeds sh := by
  rw [verifyRun, AcceptanceRun.Succeeds]
  cases argv0Allowlist.contains (r.argv.head?.getD "") with
  | false => simp
  | true =>
    cases sh.installed (r.argv.head?.getD "") with
    | false => simp
    | true =>
      cases sh.run r.argv (min r.timeoutSec 600) with
      | exited code tail =>
        by_cases hcode : code = 0
        · simp [hcode]
        · simp [hcode]
      | timedOut => simp
      | raised => simp

/-- What the acceptance document asks for is there. -/
structure Acceptance.Met (d : Disk) (sh : Shell) (workspace : PyStr) (a : Acceptance) : Prop where
  files : ∀ rel ∈ a.requiredFiles, verifyFile d workspace rel = []
  run : ∀ r, a.run = some r → r.Succeeds sh

theorem verifyAcceptance_ok {a : Acceptance} {n : Nat} :
    verifyAcceptance d sh a workspace = .ok (n, []) ↔
      a.Met d sh workspace ∧ n = a.requiredFiles.length + if a.run.isSome then 1 else 0 := by
  have hfiles : a.requiredFiles.flatMap (verifyFile d workspace) = [] ↔
      ∀ rel ∈ a.requiredFiles, verifyFile d workspace rel = [] := List.flatMap_eq_nil_iff
  rw [verifyAcceptance]
  cases hrun : a.run with
  | none =>
    simp only [Except.ok.injEq, Prod.mk.injEq, hfiles]
    constructor
    · rintro ⟨rfl, hall⟩
      exact ⟨⟨hall, fun r hr => by rw [hrun] at hr; cases hr⟩, rfl⟩
    · rintro ⟨hmet, rfl⟩
      exact ⟨rfl, hmet.files⟩
  | some r =>
    have hr : r.Succeeds sh ↔ verifyRun sh r = .ok [] := verifyRun_ok.symm
    dsimp only
    constructor
    · intro hok
      cases hverify : verifyRun sh r with
      | error err =>
        rw [hverify] at hok
        cases hok
      | ok fs =>
        rw [hverify] at hok
        obtain ⟨hn, hnil⟩ := Prod.mk.inj (Except.ok.inj hok)
        obtain ⟨hnone, rfl⟩ := List.append_eq_nil_iff.mp hnil
        refine ⟨⟨hfiles.mp hnone, fun r' hr' => ?_⟩, hn.symm⟩
        rw [hrun] at hr'
        cases hr'
        exact hr.mpr hverify
    · rintro ⟨hmet, rfl⟩
      rw [hr.mp (hmet.run r hrun), hfiles.mpr hmet.files]
      rfl

/-! ### The verdict -/

/-- Everything that a verdict checks is as it should be. -/
structure Evidence.Accepted (h : Host) (d : Disk) (sh : Shell) (e : Evidence) : Prop where
  genuine : ∀ a ∈ e.artifacts, a.Genuine h d
  fixtures : e.fixtures = []
  trusted : e.untrusted = []
  extra : e.extraFailures = []
  met : e.acceptance.Met d sh e.workspace
  /-- a task without artifacts and acceptance has a summary -/
  summary : e.artifacts = [] → e.acceptance.requiredFiles = [] → e.acceptance.run = none →
    e.summary.isBlank = false

/-- `verdict_for` returns PASS. -/
def Passes (h : Host) (d : Disk) (sh : Shell) (e : Evidence) (v : Verdict) : Prop :=
  verdictFor h d sh e = .ok v ∧ v.failures = []

def Evidence.checks (e : Evidence) : Nat :=
  e.artifacts.length + (e.acceptance.requiredFiles.length + if e.acceptance.run.isSome then 1 else 0)

theorem checks_eq_zero : e.checks = 0 ↔
    e.artifacts = [] ∧ e.acceptance.requiredFiles = [] ∧ e.acceptance.run = none := by
  rw [Evidence.checks, Nat.add_eq_zero_iff, Nat.add_eq_zero_iff, List.length_eq_zero_iff,
    List.length_eq_zero_iff]
  cases e.acceptance.run <;> simp

theorem verdict_failures {verified : List Failure} {accepted : Nat × List Failure} :
    (e.verdict verified accepted).failures = [] ↔
      verified = [] ∧ e.fixtures = [] ∧ e.untrusted = [] ∧ e.extraFailures = [] ∧
        accepted.2 = [] ∧ (e.artifacts.length + accepted.1 = 0 → e.summary.isBlank = false) := by
  rw [Evidence.verdict]
  by_cases hzero : e.artifacts.length + accepted.1 = 0
  · rw [if_pos hzero]
    cases e.summary.isBlank with
    | true => simp [hzero]
    | false => simp [hzero]
  · rw [if_neg hzero]
    simp only [List.append_eq_nil_iff, and_assoc, hzero, false_imp_iff, and_true]

theorem verdict_checks {verified : List Failure} {accepted : Nat × List Failure} :
    (e.verdict verified accepted).checks = max 1 (e.artifacts.length + accepted.1) := by
  rw [Evidence.verdict]
  split
  · next hzero =>
    show 1 = max 1 (e.artifacts.length + accepted.1)
    omega
  · next hsome =>
    show e.artifacts.length + accepted.1 = max 1 (e.artifacts.length + accepted.1)
    omega

/-- **A verdict passes if and only if each part accepts.** -/
theorem passes_iff : (∃ v, Passes h d sh e v) ↔ e.Accepted h d sh := by
  have hsummary : (e.checks = 0 → e.summary.isBlank = false) ↔
      (e.artifacts = [] → e.acceptance.requiredFiles = [] → e.acceptance.run = none →
        e.summary.isBlank = false) := by
    rw [checks_eq_zero]
    constructor
    · intro himp h₁ h₂ h₃
      exact himp ⟨h₁, h₂, h₃⟩
    · rintro himp ⟨h₁, h₂, h₃⟩
      exact himp h₁ h₂ h₃
  constructor
  · rintro ⟨v, hok, hnil⟩
    rw [verdictFor] at hok
    cases hverified : verifyArtifacts h d e.artifacts with
    | error err =>
      rw [hverified] at hok
      cases hok
    | ok verified =>
      rw [hverified] at hok
      cases haccepted : verifyAcceptance d sh e.acceptance e.workspace with
      | error err =>
        rw [haccepted] at hok
        cases hok
      | ok accepted =>
        rw [haccepted] at hok
        cases hok
        obtain ⟨rfl, hfixtures, huntrusted, hextra, hnone, hblank⟩ := verdict_failures.mp hnil
        obtain ⟨n, failures⟩ := accepted
        obtain rfl : failures = [] := hnone
        obtain ⟨hmet, rfl⟩ := verifyAcceptance_ok.mp haccepted
        exact ⟨verifyArtifacts_ok.mp hverified, hfixtures, huntrusted, hextra, hmet,
          hsummary.mp hblank⟩
  · intro hacc
    have haccepted := verifyAcceptance_ok.mpr ⟨hacc.met, rfl⟩
    refine ⟨e.verdict [] (e.acceptance.requiredFiles.length +
      if e.acceptance.run.isSome then 1 else 0, []), ?_, ?_⟩
    · rw [verdictFor, verifyArtifacts_ok.mpr hacc.genuine, haccepted]
      rfl
    · exact verdict_failures.mpr ⟨rfl, hacc.fixtures, hacc.trusted, hacc.extra, rfl,
        hsummary.mpr hacc.summary⟩

theorem Passes.accepted {v : Verdict} (hv : Passes h d sh e v) : e.Accepted h d sh :=
  passes_iff.mp ⟨v, hv⟩

theorem Passes.checks_eq {v : Verdict} (hv : Passes h d sh e v) : v.checks = max 1 e.checks := by
  obtain ⟨hok, -⟩ := id hv
  have hacc := hv.accepted
  rw [verdictFor, verifyArtifacts_ok.mpr hacc.genuine, verifyAcceptance_ok.mpr ⟨hacc.met, rfl⟩] at hok
  cases hok
  exact verdict_checks

end Parts

/-! ### Soundness -/

def Inside (dir path : PyStr) : Prop := parts dir <+: parts path ∧ parts dir ≠ parts path

instance (dir path : PyStr) : Decidable (Inside dir path) := inferInstanceAs (Decidable (_ ∧ _))

/-- A required file that is there and begins with the text of the workspace, but is not strictly
inside of it. -/
def Escapes (d : Disk) (workspace rel : PyStr) : Prop :=
  verifyFile d workspace rel = [] ∧ ¬ Inside (d.resolve workspace) (candidate d workspace rel)

structure Sound (h : Host) (d : Disk) (sh : Shell) (e : Evidence) (v : Verdict) : Prop where
  files : ∀ rel ∈ e.acceptance.requiredFiles,
    (d.entry (candidate d e.workspace rel)).isSome = true ∧
      Inside (d.resolve e.workspace) (candidate d e.workspace rel)
  /-- a workspace apart from this one has no file that is required here -/
  foreign : ∀ other, ∀ rel ∈ e.acceptance.requiredFiles,
    Inside other (candidate d e.workspace rel) →
      parts other <+: parts (d.resolve e.workspace) ∨ parts (d.resolve e.workspace) <+: parts other
  artifacts : ∀ a ∈ e.artifacts, a.Genuine h d
  run : ∀ r, e.acceptance.run = some r →
    ∃ tail, sh.run r.argv (min r.timeoutSec 600) = .exited 0 tail
  checks : 1 ≤ v.checks
  /-- something has been checked -/
  checked : e.checks ≠ 0 ∨ e.summary.isBlank = false

/-- **A verdict that passes is sound if and only if no required file escapes**, or the verdict
does not pass for another reason. -/
theorem verdict_sound_iff (h : Host) (d : Disk) (sh : Shell) (e : Evidence) :
    (∀ v, Passes h d sh e v → Sound h d sh e v) ↔
      (∀ rel ∈ e.acceptance.requiredFiles, ¬ Escapes d e.workspace rel) ∨ ¬ e.Accepted h d sh := by
  constructor
  · intro hsound
    by_cases hacc : e.Accepted h d sh
    · obtain ⟨v, hv⟩ := passes_iff.mpr hacc
      refine .inl fun rel hrel hescapes => ?_
      exact hescapes.2 ((hsound v hv).files rel hrel).2
    · exact .inr hacc
  · intro hcond v hv
    have hacc := hv.accepted
    have hnone := hcond.resolve_right (not_not.mpr hacc)
    have hinside : ∀ rel ∈ e.acceptance.requiredFiles,
        Inside (d.resolve e.workspace) (candidate d e.workspace rel) := by
      intro rel hrel
      by_contra hout
      exact hnone rel hrel ⟨hacc.met.files rel hrel, hout⟩
    refine ⟨fun rel hrel => ?_, fun other rel hrel hother => ?_, hacc.genuine, fun r hr => ?_, ?_, ?_⟩
    · exact ⟨(verifyFile_ok.mp (hacc.met.files rel hrel)).2, hinside rel hrel⟩
    · exact List.prefix_or_prefix_of_prefix hother.1 (hinside rel hrel).1
    · exact (hacc.met.run r hr).2.2
    · rw [hv.checks_eq]
      omega
    · by_cases hzero : e.checks = 0
      · obtain ⟨h₁, h₂, h₃⟩ := checks_eq_zero.mp hzero
        exact .inr (hacc.summary h₁ h₂ h₃)
      · exact .inl hzero

/-! ### A neighbour -/

/-- The parts of a path without `..`, on a disk without symbolic links. -/
def collapse : List PyStr → List PyStr → List PyStr
  | stack, [] => stack.reverse
  | stack, p :: ps => if p = ".." then collapse stack.tail ps else collapse (p :: stack) ps

def oneFile (path : PyStr) (content : List UInt8) : Disk where
  resolve p := (collapse [] (parts p)).foldl (fun s part => s ++ "/" ++ part) ⟨[]⟩
  entry p := if p = path then some (.file content 0) else none

/-- The task in `/tasks/a` requires a file; the one that is there is of the task in `/tasks/ab`. -/
def neighbour : Evidence where
  artifacts := []
  acceptance := ⟨["../ab/report.md"], none⟩
  workspace := "/tasks/a"
  summary := ""
  requireTrustedEvidence := false
  trustedEvidencePresent := false
  extraFailures := []

def noShell : Shell := ⟨fun _ => false, fun _ _ => .raised⟩

def anyHost : Host := ⟨"/home", fun _ => "", fun _ => .ok ""⟩

/-- **A file of another workspace is accepted.** -/
theorem neighbour_accepted :
    ¬ ∀ v, Passes anyHost (oneFile "/tasks/ab/report.md" [1]) noShell neighbour v →
      Sound anyHost (oneFile "/tasks/ab/report.md" [1]) noShell neighbour v := by
  have hfile : verifyFile (oneFile "/tasks/ab/report.md" [1]) "/tasks/a" "../ab/report.md" = [] := by
    decide +kernel
  have houtside : ¬ Inside ((oneFile "/tasks/ab/report.md" [1]).resolve "/tasks/a")
      (candidate (oneFile "/tasks/ab/report.md" [1]) "/tasks/a" "../ab/report.md") := by
    decide +kernel
  intro hsound
  have hacc : neighbour.Accepted anyHost (oneFile "/tasks/ab/report.md" [1]) noShell := by
    refine ⟨?_, rfl, rfl, rfl, ⟨?_, ?_⟩, ?_⟩
    · intro a ha
      cases ha
    · intro rel hrel
      obtain rfl := List.mem_singleton.mp hrel
      exact hfile
    · intro r hr
      cases hr
    · intro _ hnone
      cases hnone
  obtain ⟨v, hv⟩ := passes_iff.mpr hacc
  exact houtside ((hsound v hv).files "../ab/report.md" (List.mem_singleton_self _)).2

end Rosclaw.TaskKernel
