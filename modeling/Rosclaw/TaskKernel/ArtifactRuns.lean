/-
One reference for a content, over every run of the kernel.

`register_artifact` looks for a reference of the task that has the digest of the content, and
inserts a row if there is none.  Any other statements of the kernel come between two of its calls,
and a call may be killed between its own.

* `added_step` — a step adds one row of `artifacts` at most, and changes none;
* **`one_reference`** — a content that a task has a reference to keeps this one reference.
-/
import Rosclaw.Lib.Machine
import Rosclaw.TaskKernel.Artifacts

namespace Rosclaw.TaskKernel

open Txn List

def Write.registers : Write → Bool
  | .insertArtifact _ _ => true
  | _ => false

inductive KernelStep
  /-- a call, and after how many of its statements the process is killed, if it is -/
  | register (c : RegisterCall) (crash : Option Nat)
  /-- a statement of any other operation; none of them writes `artifacts` -/
  | statement (w : Write)

/-- The kernel; each registration finds the files of its own time. -/
def kernel (host : Host) : Machine Tables KernelStep where
  Init db := db = .empty
  step db
    | .register c crash => some (after db (cut crash (registerArtifact host c db).1))
    | .statement w =>
      if w.registers = false ∧ Store.refuses db w = none then some (db.apply w) else none

def OneReference (db : Tables) : Prop :=
  db.artifacts.UniqueBy fun _ a => some (a.taskId, a.sha256)

/-- There is no row of `artifacts` more, or one for a content that had none. -/
def Added (db db' : Tables) : Prop :=
  db'.artifacts = db.artifacts ∨ ∃ k a, db'.artifacts = db.artifacts.set k a ∧
    db.artifacts.get? k = none ∧ db.stored a.taskId a.sha256 = none

section

variable {a : Artifact} {c : RegisterCall} {content : List UInt8} {crash : Option Nat}
  {db db' : Tables} {host : Host} {k : PyStr} {t : Task} {w : Write} {ws : List Write}

theorem artifacts_apply (h : w.registers = false) : (db.apply w).artifacts = db.artifacts := by
  cases w with
  | insertArtifact k a => cases h
  | _ => rfl

theorem artifacts_cut (h : ∀ w ∈ ws, w.registers = false) :
    (after db (cut crash ws)).artifacts = db.artifacts :=
  after_cut_of_kept (P := fun db' : Tables => db'.artifacts = db.artifacts) crash rfl
    fun w hw _ hdb => (artifacts_apply (h w hw)).trans hdb

theorem row_ok (h : c.row host t content = .ok a) :
    a.taskId = c.taskId ∧ a.sha256 = host.sha256 content := by
  rw [RegisterCall.row] at h
  cases hlineage : stampLineage host c.disk t.activeRevision c.metadata.lineage with
  | error e =>
    rw [hlineage] at h
    cases h
  | ok lineage =>
    rw [hlineage] at h
    cases h
    exact ⟨rfl, rfl⟩

theorem knownTask_cases (taskId : PyStr) (db : Tables) :
    (∃ e, knownTask taskId db = ([], .error e)) ∨ ∃ t, knownTask taskId db = ([], .ok t) := by
  rw [knownTask]
  rcases check_bind_cases taskId.encodable .unicodeEncodeError _ db with h | ⟨-, h⟩
  · exact .inl ⟨_, h⟩
  rw [h, read_bind]
  cases db.tasks.get? taskId with
  | none => exact .inl ⟨_, rfl⟩
  | some t => exact .inr ⟨t, rfl⟩

/-- **What a registration writes**: nothing, or the row of a new reference before its event. -/
theorem registerArtifact_writes (host : Host) (c : RegisterCall) (db : Tables) :
    (registerArtifact host c db).1 = [] ∨ ∃ a ws,
      (registerArtifact host c db).1 = .insertArtifact c.artifactId a :: ws ∧
        (∀ w ∈ ws, w.registers = false) ∧ db.artifacts.get? c.artifactId = none ∧
          db.stored a.taskId a.sha256 = none := by
  rcases knownTask_cases c.taskId db with ⟨e, h⟩ | ⟨t, h⟩
  · exact .inl (by rw [registerArtifact, bind_of_error h])
  rw [registerArtifact, bind_of_ok h, after_nil, nil_append]
  cases c.content t with
  | error e => exact .inl rfl
  | ok content =>
    cases c.zoneRefuses host t with
    | error e => exact .inl rfl
    | ok =>
      rw [ofExcept_ok, Txn.pure_bind, ofExcept_ok, Txn.pure_bind, read_bind]
      cases hstored : db.stored c.taskId (host.sha256 content) with
      | some e => exact .inl rfl
      | none =>
        cases hrow : c.row host t content with
        | error e => exact .inl rfl
        | ok a =>
          obtain ⟨htask, hdigest⟩ := row_ok hrow
          dsimp only
          rw [ofExcept_ok, Txn.pure_bind]
          rcases exec_bind_cases (.insertArtifact c.artifactId a) _ db with ⟨e, -, h⟩ | ⟨hnew, h⟩
          · exact .inl (by rw [h])
          refine .inr ⟨a, _, by rw [h], fun w hw => ?_, ?_, by rwa [htask, hdigest]⟩
          · rcases exec_bind_cases (.emit (c.created a))
              (fun _ => (pure ⟨c.artifactId, a, c.zone host t, false⟩ : Kernel Registered))
              (db.apply (.insertArtifact c.artifactId a)) with ⟨e, -, h'⟩ | ⟨-, h'⟩
            · rw [apply_eq, h'] at hw
              cases hw
            · rw [apply_eq, h'] at hw
              rw [mem_singleton.mp hw]
              rfl
          · simpa [Tables.admits, Dict.contains] using (refuses_eq_none.mp hnew).2

/-- **A step adds one row at most.** -/
theorem added_step {l : KernelStep} (h : (kernel host).step db l = some db') : Added db db' := by
  cases l with
  | statement w =>
    obtain ⟨⟨hw, -⟩, hdb'⟩ := Option.ite_none_right_eq_some.mp h
    cases hdb'
    exact .inl (artifacts_apply hw)
  | register c crash =>
    cases h
    rcases registerArtifact_writes host c db with hnil | ⟨a, ws, heq, hws, hnew, hstored⟩
    · rw [hnil, cut_nil]
      exact .inl rfl
    rw [heq]
    by_cases hcrash : crash = some 0
    · subst hcrash
      exact .inl rfl
    · rw [cut_cons hcrash]
      exact .inr ⟨c.artifactId, a, artifacts_cut hws, hnew, hstored⟩

theorem Added.kept (h : Added db db') : db.artifacts.Kept db'.artifacts := by
  rcases h with heq | ⟨k, a, heq, hnew, -⟩
  · rw [heq]
    exact .refl _
  · rw [heq]
    exact Dict.kept_set hnew a

theorem OneReference.added (h : OneReference db) (hadded : Added db db') : OneReference db' := by
  rcases hadded with heq | ⟨k, a, heq, -, hstored⟩
  · rwa [OneReference, heq]
  · rw [OneReference, heq]
    refine h.set k fun k' a' key hget hkey hkey' => ?_
    have hnot := find?_eq_none.mp hstored (k', a') (Dict.mem_entries_iff.mpr hget)
    obtain ⟨htask, hdigest⟩ := Prod.mk.inj (Option.some_inj.mp (hkey'.trans hkey.symm))
    exact hnot (decide_eq_true ⟨htask, hdigest⟩)

theorem oneReference_of_reachable (h : (kernel host).Reachable db) : OneReference db := by
  refine h.invariant ?_ fun db l db' hdb _ hstep => hdb.added (added_step hstep)
  rintro _ rfl
  exact Dict.uniqueBy_empty _

/-- The one row that the look-up can find. -/
theorem OneReference.stored (h : OneReference db) (hget : db.artifacts.get? k = some a) :
    db.stored a.taskId a.sha256 = some (k, a) := by
  cases hstored : db.stored a.taskId a.sha256 with
  | none =>
    have hnot := find?_eq_none.mp hstored (k, a) (Dict.mem_entries_iff.mpr hget)
    exact absurd (decide_eq_true ⟨rfl, rfl⟩) hnot
  | some e =>
    rw [Tables.stored] at hstored
    have hget' := Dict.mem_entries_iff.mp (mem_of_find?_eq_some hstored)
    have hfound := find?_some hstored
    obtain ⟨htask, hdigest⟩ := of_decide_eq_true hfound
    have hk : e.1 = k := h e.1 k e.2 a _ hget' hget (by simp [htask, hdigest]) rfl
    rw [hk, hget] at hget'
    rw [← hk, Option.some_inj.mp hget']

end

/-- **A content has one reference.**  In every run a task has at most one reference to a content,
a reference stays as it was written, and to register its content once more, from whatever file,
answers it and writes nothing. -/
theorem one_reference {host : Host} {db db' : Tables} (hdb : (kernel host).Reachable db)
    (hrun : (kernel host).PathUnder (fun _ _ => True) db db') :
    OneReference db' ∧ db.artifacts.Kept db'.artifacts ∧
      ∀ (c : RegisterCall) t content k a, db.artifacts.get? k = some a → a.taskId = c.taskId →
        a.sha256 = host.sha256 content → c.taskId.encodable = true →
        db'.tasks.get? c.taskId = some t → c.content t = .ok content →
        c.zoneRefuses host t = .ok () →
          registerArtifact host c db' = ([], .ok ⟨k, a, "", true⟩) := by
  have hone := oneReference_of_reachable (hrun.reachable (fun _ _ h => h) hdb)
  have hkept : db.artifacts.Kept db'.artifacts := by
    induction hrun with
    | refl => exact .refl _
    | step hpath _ hstep ih =>
      have hmiddle := oneReference_of_reachable (hpath.reachable (fun _ _ h => h) hdb)
      exact (ih hmiddle).trans (added_step hstep).kept
  refine ⟨hone, hkept, fun c t content k a hget htask hdigest hid ht hcontent hzone => ?_⟩
  have hknown : knownTask c.taskId db' = ([], .ok t) := by
    rw [knownTask, check_of_true hid, Txn.pure_bind, read_bind, ht]
    rfl
  have hstored := hone.stored (hkept k a hget)
  rw [htask, hdigest] at hstored
  rw [registerArtifact, bind_of_ok hknown, after_nil, nil_append, hcontent, ofExcept_ok,
    Txn.pure_bind, hzone, ofExcept_ok, Txn.pure_bind, read_bind, hstored]
  rfl

def sampleTask : Task :=
  ⟨"mis_1", "draw", "SIMULATION", "", "/work", .running, 1, "auto", 0, none, none⟩

/-- A digest is the number of bytes. -/
def sampleHost : Host := ⟨"/home", fun bytes => .ofNat bytes.length, fun _ => .ok ""⟩

def sampleRegister (path uuid : PyStr) : RegisterCall :=
  { taskId := "task_1", path := path, mediaType := "text/plain", uuid := uuid
    disk := ⟨id, fun _ => some (.file [] 0)⟩ }

/-- The first registration is killed before its event, the second one is of a copy. -/
theorem one_reference_copied : ∃ db db' a,
    (kernel sampleHost).run .empty [.statement (.insertTask "task_1" sampleTask),
      .register (sampleRegister "/a" "1") (some 1)] = some db ∧
    (kernel sampleHost).step db (.statement (.acceptTask "task_1" 1)) = some db' ∧
    registerArtifact sampleHost (sampleRegister "/b" "2") db' = ([], .ok ⟨"art_1", a, "", true⟩) := by
  have hrun : ∃ db db' a t content, (kernel sampleHost).run .empty
      [.statement (.insertTask "task_1" sampleTask),
        .register (sampleRegister "/a" "1") (some 1)] = some db ∧
      (kernel sampleHost).step db (.statement (.acceptTask "task_1" 1)) = some db' ∧
      db.artifacts.get? "art_1" = some a ∧ a.taskId = "task_1" ∧
      a.sha256 = sampleHost.sha256 content ∧ db'.tasks.get? "task_1" = some t ∧
      (sampleRegister "/b" "2").content t = .ok content ∧
      (sampleRegister "/b" "2").zoneRefuses sampleHost t = .ok () :=
    ⟨_, _, _, _, _, rfl, rfl, rfl, rfl, rfl, rfl, rfl, rfl⟩
  obtain ⟨db, db', a, t, content, hfirst, hstep, hget, htask, hdigest, ht, hcontent, hzone⟩ := hrun
  have hlaws := one_reference (.of_run rfl hfirst) (.step .refl trivial hstep)
  exact ⟨db, db', a, hfirst, hstep,
    hlaws.2.2 _ t content _ a hget htask hdigest (by decide) ht hcontent hzone⟩

end Rosclaw.TaskKernel
