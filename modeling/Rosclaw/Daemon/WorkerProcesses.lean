/-
The processes of the Adapter workers over whole runs of their manager.

A call that replaces or drops a process works in two sections of the lock: it looks at
the record of the worker, lets go of the lock while the process ends, and writes the
record.  What it writes is right as long as no other call has put a new process there in
between.

* `disturbs`, `undisturbed` — the steps for which that is so;
* `Recorded` — a process that runs is the one its worker records;
* `one_process` — without such a step, every state is of that kind, and nothing that
  runs is ever dropped from the record;
* `process_dropped` — with it, a worker has two processes, and one of them is in no
  record.
-/
import Rosclaw.Daemon.WorkerManager

namespace Rosclaw

open List Option

namespace WorkerManager

variable {m m' : WorkerManager}

/-! ### The record of a worker -/

def recorded (m : WorkerManager) (id : PyStr) : Option Nat := (m.workers.get? id).bind Worker.process

/-- The worker records a process that runs and that is not the one the call has seen. -/
def replaced (m : WorkerManager) (id : PyStr) (seen : Option Nat) : Bool :=
  (m.recorded id).any fun p => m.isLive p && some p ≠ seen

/-- The task writes over a process that was put in the record while its thread did not
hold the lock. -/
def disturbs (m : WorkerManager) : ManagerTask → Bool
  | .stopClear id seen => m.replaced id seen
  | .monitorRespawn id seen =>
    (m.workers.get? id).any Worker.desiredRunning && !m.stopping && m.replaced id seen
  | _ => false

def undisturbed (m : WorkerManager) : ManagerLabel → Bool
  | .run i _ => !(m.taskOf i).any m.disturbs
  | _ => true

def Recorded (m : WorkerManager) : Prop :=
  ∀ p q, m.processes[p]? = some q → q.returncode = none → m.recorded q.workerId = some p

variable {a : After} {env : ManagerAnswers} {p : Nat} {rest us : List ManagerTask}
  {seen : Option Nat} {t : ManagerTask} {w w' : Worker}

theorem isLive_iff : m.isLive p = true ↔ ∃ q, m.processes[p]? = some q ∧ q.returncode = none := by
  unfold isLive
  rw [Option.any_eq_true]
  constructor
  · rintro ⟨q, hq, hlive⟩
    exact ⟨q, hq, by simpa using hlive⟩
  · rintro ⟨q, hq, hlive⟩
    exact ⟨q, hq, by simp [hlive]⟩

theorem not_isLive_of_poll (h : (m.poll p).isSome = true) : m.isLive p = false := by
  obtain ⟨code, hcode⟩ := isSome_iff_exists.mp h
  obtain ⟨q, hq, hcode⟩ := bind_eq_some_iff.mp hcode
  rw [Bool.eq_false_iff]
  intro hlive
  obtain ⟨q', hq', hnone⟩ := isLive_iff.mp hlive
  rw [hq, some_inj] at hq'
  subst hq'
  rw [hnone] at hcode
  cases hcode

theorem recorded_setWorker (id i : PyStr) (w : Worker) :
    (m.setWorker id w).recorded i = if id = i then w.process else m.recorded i := by
  unfold recorded setWorker
  dsimp only
  rw [Dict.get?_set]
  split <;> rfl

/-! ### Processes and records -/

/-- The records name spawned processes of their workers, and all that run. -/
structure Filed (m : WorkerManager) : Prop where
  recorded : m.Recorded
  spawned (id : PyStr) (p : Nat) : m.recorded id = some p →
    ∃ q, m.processes[p]? = some q ∧ q.workerId = id

structure SameProcesses (m m' : WorkerManager) : Prop where
  recorded (id : PyStr) : m'.recorded id = m.recorded id
  processes : m'.processes = m.processes

theorem Filed.same (h : m.Filed) (hs : SameProcesses m m') : m'.Filed := by
  constructor
  · intro p q hq hlive
    rw [hs.processes] at hq
    rw [hs.recorded]
    exact h.recorded p q hq hlive
  · intro id p hp
    rw [hs.recorded] at hp
    rw [hs.processes]
    exact h.spawned id p hp

variable {id : PyStr}

theorem same_setWorker (hw : m.workers.get? id = some w) (hp : w'.process = w.process) :
    SameProcesses m (m.setWorker id w') := by
  constructor
  · intro i
    rw [recorded_setWorker]
    split
    · next hi =>
      subst hi
      rw [hp, WorkerManager.recorded, hw]
      rfl
    · rfl
  · rfl

theorem getElem?_exit (p p' : Nat) (code : Int) : (m.exit p code).processes[p']?
    = if p = p' then (m.processes[p']?).map fun q => { q with returncode := some code }
      else m.processes[p']? := by
  unfold exit
  dsimp only
  rw [List.getElem?_modify]
  split <;> simp

theorem Filed.exit (h : m.Filed) (p : Nat) (code : Int) : (m.exit p code).Filed := by
  constructor
  · intro p' q hq hlive
    rw [getElem?_exit] at hq
    split at hq
    · obtain ⟨q₀, -, rfl⟩ := map_eq_some_iff.mp hq
      cases hlive
    · exact h.recorded p' q hq hlive
  · intro id p' hp'
    obtain ⟨q, hq, hid⟩ := h.spawned id p' hp'
    rw [getElem?_exit]
    split
    · exact ⟨{ q with returncode := some code }, by rw [hq]; rfl, hid⟩
    · exact ⟨q, hq, hid⟩

theorem Filed.clear (h : m.Filed) (hdead : ∀ p ∈ m.recorded id, m.isLive p = false)
    (hrec : ∀ i, m'.recorded i = if id = i then none else m.recorded i)
    (hproc : m'.processes = m.processes) : m'.Filed := by
  constructor
  · intro p q hq hlive
    rw [hproc] at hq
    have hp := h.recorded p q hq hlive
    rw [hrec]
    split
    · next hi =>
      subst hi
      have hnot := hdead p hp
      rw [isLive_iff.mpr ⟨q, hq, hlive⟩] at hnot
      cases hnot
    · exact hp
  · intro i p hp
    rw [hrec] at hp
    rw [hproc]
    split at hp
    · cases hp
    · exact h.spawned i p hp

theorem Filed.spawn (h : m.Filed) (hdead : ∀ p ∈ m.recorded id, m.isLive p = false)
    (hrec : ∀ i, m'.recorded i = if id = i then some m.processes.length else m.recorded i)
    (hproc : m'.processes = m.processes ++ [⟨id, none⟩]) : m'.Filed := by
  constructor
  · intro p q hq hlive
    rw [hproc, List.getElem?_append] at hq
    rw [hrec]
    split at hq
    · have hp := h.recorded p q hq hlive
      split
      · next hi =>
        subst hi
        have hnot := hdead p hp
        rw [isLive_iff.mpr ⟨q, hq, hlive⟩] at hnot
        cases hnot
      · exact hp
    · next hlt =>
      obtain ⟨hlen, rfl⟩ := List.getElem?_eq_some_iff.mp hq
      have hp : p = m.processes.length := by
        simp only [length_cons, length_nil] at hlen
        omega
      subst hp
      simp
  · intro i p hp
    rw [hrec] at hp
    rw [hproc]
    split at hp
    · next hi =>
      subst hi
      cases hp
      exact ⟨⟨id, none⟩, by simp, rfl⟩
    · obtain ⟨q, hq, hid⟩ := h.spawned i p hp
      refine ⟨q, ?_, hid⟩
      rw [List.getElem?_append_left (List.getElem?_eq_some_iff.mp hq).1]
      exact hq

/-! ### What a stretch leaves for the rest of its thread -/

/-- Time passes for the processes: none is forgotten, and none comes back. -/
structure Ages (m m' : WorkerManager) : Prop where
  spawned (p : Nat) (q : Process) : m.processes[p]? = some q →
    ∃ q', m'.processes[p]? = some q' ∧ q'.workerId = q.workerId
  poll (p : Nat) : (m.poll p).isSome = true → (m'.poll p).isSome = true

theorem Ages.refl (m : WorkerManager) : Ages m m := ⟨fun _ q hq => ⟨q, hq, rfl⟩, fun _ h => h⟩

theorem Ages.lt (h : Ages m m') (hp : p < m.processes.length) : p < m'.processes.length := by
  obtain ⟨q, hq⟩ : ∃ q, m.processes[p]? = some q := ⟨_, List.getElem?_eq_getElem hp⟩
  obtain ⟨q', hq', -⟩ := h.spawned p q hq
  exact (List.getElem?_eq_some_iff.mp hq').1

theorem ages_of_eq (h : m'.processes = m.processes) : Ages m m' := by
  constructor
  · intro p q hq
    exact ⟨q, by rw [h]; exact hq, rfl⟩
  · intro p hp
    unfold WorkerManager.poll
    rw [h]
    exact hp

theorem ages_exit (p : Nat) (code : Int) : Ages m (m.exit p code) := by
  constructor
  · intro p' q hq
    rw [getElem?_exit, hq]
    split
    · exact ⟨_, rfl, rfl⟩
    · exact ⟨q, rfl, rfl⟩
  · intro p' hp'
    unfold WorkerManager.poll at hp' ⊢
    rw [getElem?_exit]
    split
    · obtain ⟨c, hc⟩ := isSome_iff_exists.mp hp'
      obtain ⟨q, hq, -⟩ := bind_eq_some_iff.mp hc
      rw [hq]
      rfl
    · exact hp'

theorem ages_append {q : Process} (h : m'.processes = m.processes ++ [q]) : Ages m m' := by
  have hold : ∀ (p : Nat) (q' : Process), m.processes[p]? = some q' → m'.processes[p]? = some q' := by
    intro p q' hq'
    rw [h, List.getElem?_append_left (List.getElem?_eq_some_iff.mp hq').1]
    exact hq'
  constructor
  · intro p q' hq'
    exact ⟨q', hold p q' hq', rfl⟩
  · intro p hp
    obtain ⟨c, hc⟩ := isSome_iff_exists.mp hp
    obtain ⟨q', hq', hcode⟩ := bind_eq_some_iff.mp hc
    unfold WorkerManager.poll
    rw [hold p q' hq']
    exact isSome_iff_exists.mpr ⟨c, hcode⟩

/-- What a task knows about the process that its thread has seen: it was spawned, and
after the signals it has ended. -/
def settled (m : WorkerManager) : ManagerTask → Prop
  | .stopTerminate _ seen | .monitorTerminate _ seen | .failTerminate seen =>
    ∀ p ∈ seen, p < m.processes.length
  | .stopClear _ seen | .monitorRespawn _ seen => ∀ p ∈ seen, (m.poll p).isSome = true
  | _ => True

theorem settled_mono (h : Ages m m') (ht : m.settled t) : m'.settled t := by
  cases t with
  | stopTerminate id seen | monitorTerminate id seen | failTerminate seen =>
    intro p hp
    exact h.lt (ht p hp)
  | stopClear id seen | monitorRespawn id seen =>
    intro p hp
    exact h.poll p (ht p hp)
  | _ => trivial

/-- **What a stretch does**, as far as processes are concerned. -/
structure Spec (m m' : WorkerManager) (a : After) : Prop where
  filed : m'.Filed
  ages : Ages m m'
  threads : ∀ ts ∈ m'.threads, ts ∈ m.threads ∨ ∀ t ∈ ts, m'.settled t
  next : ∀ us, a = .next us → ∀ t ∈ us, m'.settled t

theorem Spec.of_same (h : m.Filed) (hs : SameProcesses m m') (ht : m'.threads = m.threads)
    (hnext : ∀ us, a = .next us → ∀ t ∈ us, m'.settled t) : Spec m m' a := by
  refine ⟨h.same hs, ages_of_eq hs.processes, fun ts hts => ?_, hnext⟩
  rw [ht] at hts
  exact .inl hts

theorem same_refl (m : WorkerManager) : SameProcesses m m := ⟨fun _ => rfl, rfl⟩

theorem Filed.lt (h : m.Filed) (hw : m.workers.get? id = some w) (hp : p ∈ w.process) :
    p < m.processes.length := by
  have hrec : m.recorded id = some p := by
    unfold WorkerManager.recorded
    rw [hw]
    exact hp
  obtain ⟨q, hq, -⟩ := h.spawned id p hrec
  exact (List.getElem?_eq_some_iff.mp hq).1

theorem spec_afterTerminate (h : m.Filed) (hseen : ∀ p ∈ seen, p < m.processes.length)
    (hus : ∀ m', Ages m m' → (∀ p ∈ seen, (m'.poll p).isSome = true) → ∀ t ∈ us, m'.settled t) :
    Spec m (m.afterTerminate seen env us).1 (m.afterTerminate seen env us).2 := by
  unfold afterTerminate terminate
  cases seen with
  | none =>
    refine .of_same h (same_refl m) rfl fun us' hus' => ?_
    obtain rfl : us = us' := by simpa using hus'
    exact hus m (.refl m) (by simp)
  | some p =>
    dsimp only
    by_cases hlive : m.isLive p = true
    · rw [if_pos hlive]
      cases hended : env.terminated with
      | none => exact .of_same h (same_refl m) rfl (by simp)
      | some code =>
        -- the process ends, and the thread goes on
        refine ⟨h.exit p code, ages_exit p code, fun ts hts => .inl hts, fun us' hus' => ?_⟩
        obtain rfl : us = us' := by simpa using hus'
        refine hus _ (ages_exit p code) fun p' hp' => ?_
        cases hp'
        obtain ⟨q, hq, -⟩ := isLive_iff.mp hlive
        show ((m.exit p code).poll p).isSome = true
        unfold WorkerManager.poll
        rw [getElem?_exit, if_pos rfl, hq]
        rfl
    · rw [if_neg hlive]
      refine .of_same h (same_refl m) rfl fun us' hus' => ?_
      obtain rfl : us = us' := by simpa using hus'
      refine hus m (.refl m) fun p' hp' => ?_
      cases hp'
      -- it had ended before
      obtain ⟨q, hq⟩ : ∃ q, m.processes[p]? = some q := ⟨_, List.getElem?_eq_getElem (hseen p rfl)⟩
      show (m.poll p).isSome = true
      unfold WorkerManager.poll
      rw [hq]
      cases hcode : q.returncode with
      | none => exact absurd (isLive_iff.mpr ⟨_, hq, hcode⟩) hlive
      | some code => exact isSome_iff_exists.mpr ⟨code, hcode⟩

/-! ### Spawning -/

/-- A spawn that fails leaves the process of the worker as it was; one that succeeds
puts a new process there. -/
theorem spawnLocked_cases (m : WorkerManager) (id : PyStr) (w : Worker) (isRestart : Bool)
    (env : ManagerAnswers) :
    (∃ w', w'.process = w.process ∧ (m.spawnLocked id w isRestart env).1 = m.setWorker id w' ∧
      ∃ fault, (m.spawnLocked id w isRestart env).2 = .error fault) ∨
    ∃ w' change, w'.process = some m.processes.length ∧
      m.spawnLocked id w isRestart env = ({ m.setWorker id w' with
        processes := m.processes ++ [⟨id, none⟩]
        threads := m.threads ++ [[.readStdout id m.processes.length]] }, .ok change) := by
  unfold spawnLocked
  dsimp only
  by_cases hbudget : (isRestart && decide ((prune w env.monotonic).spec.restartLimit ≤
      (prune w env.monotonic).restartTimes.length)) = true
  · rw [if_pos hbudget]
    refine .inl ⟨_, ?_, rfl, _, rfl⟩
    rfl
  · rw [if_neg hbudget]
    have hkept : (counted (prune w env.monotonic) isRestart env.monotonic).process = w.process := by
      unfold counted
      split <;> rfl
    cases env.spawn with
    | osError message =>
      refine .inl ⟨_, ?_, rfl, _, rfl⟩
      exact hkept
    | raised => exact .inl ⟨_, hkept, rfl, _, rfl⟩
    | spawned => exact .inr ⟨_, _, rfl, rfl⟩

def Vacant (m : WorkerManager) (id : PyStr) : Prop := ∀ p ∈ m.recorded id, m.isLive p = false

/-- **The spec of `_spawn_locked`**, for a worker none of whose processes runs and that
is passed with the process it records, or with none. -/
theorem spec_spawnLocked (h : m.Filed) (hvacant : m.Vacant id)
    (hw : w.process = m.recorded id ∨ w.process = none) (isRestart : Bool) (env : ManagerAnswers)
    (hnext : ∀ us, a = .next us → ∀ t ∈ us, ∀ m', settled m' t) :
    Spec m (m.spawnLocked id w isRestart env).1 a := by
  rcases spawnLocked_cases m id w isRestart env with
    ⟨w', hprocess, hm', -⟩ | ⟨w', change, hprocess, heq⟩
  · rw [hm']
    have hfiled : (m.setWorker id w').Filed := by
      rcases hw with hw | hw
      · refine h.same ⟨fun i => ?_, rfl⟩
        rw [recorded_setWorker]
        split
        · next hi =>
          subst hi
          exact hprocess.trans hw
        · rfl
      · refine h.clear hvacant (fun i => ?_) rfl
        rw [recorded_setWorker, hprocess, hw]
    exact ⟨hfiled, ages_of_eq rfl, fun ts hts => .inl hts, fun us hus t ht => hnext us hus t ht _⟩
  · rw [heq]
    refine ⟨h.spawn hvacant (fun i => ?_) rfl, ages_append rfl, fun ts hts => ?_,
      fun us hus t ht => hnext us hus t ht _⟩
    · show (m.setWorker id w').recorded i = _
      rw [recorded_setWorker, hprocess]
    · rcases mem_append.mp hts with hts | hts
      · exact .inl hts
      · rw [mem_singleton.mp hts]
        exact .inr fun t ht => by
          rw [mem_singleton.mp ht]
          trivial

/-! ### Every task -/

theorem recorded_of (hw : m.workers.get? id = some w) : m.recorded id = w.process := by
  unfold WorkerManager.recorded
  rw [hw]
  rfl

theorem settled_ready (id : PyStr) (b : Bool) : ∀ t ∈ (if b then [ManagerTask.awaitReady id] else []),
    ∀ m', settled m' t := by
  intro t ht m'
  cases b with
  | true =>
    rw [mem_singleton.mp ht]
    trivial
  | false => simp at ht

theorem spec_start (h : m.Filed) : Spec m m.start (.next []) := by
  unfold start
  split
  · exact .of_same h (same_refl m) rfl (by simp)
  · refine ⟨h.same ⟨fun _ => rfl, rfl⟩, ages_of_eq rfl, fun ts hts => ?_, by simp⟩
    rcases mem_append.mp hts with hts | hts
    · exact .inl hts
    · rw [mem_singleton.mp hts]
      refine .inr fun t ht => ?_
      rw [mem_singleton.mp ht]
      trivial

theorem spec_startLocked (h : m.Filed) (id : PyStr) (waitReady : Bool) (env : ManagerAnswers) :
    Spec m (m.startLocked id waitReady env).1 (m.startLocked id waitReady env).2 := by
  unfold startLocked
  cases hw : m.workers.get? id with
  | none => exact .of_same h (same_refl m) rfl (by simp)
  | some w =>
    dsimp only
    by_cases hlive : w.process.any m.isLive = true
    · rw [if_pos hlive]
      refine .of_same h (same_setWorker hw rfl) rfl fun us hus t ht => ?_
      rw [After.next.injEq] at hus
      subst hus
      exact settled_ready id waitReady t ht _
    · rw [if_neg hlive]
      -- the process of the worker, if it has one, has ended
      have hvacant : m.Vacant id := by
        intro p hp
        rw [recorded_of hw] at hp
        rw [Bool.eq_false_iff]
        intro hp'
        exact hlive (Option.any_eq_true .. |>.mpr ⟨p, hp, hp'⟩)
      have hspec : ∀ a : After, (∀ us, a = .next us → ∀ t ∈ us, ∀ m', settled m' t) →
          Spec m (m.spawnLocked id { w with desiredRunning := true } (0 < w.generation) env).1 a :=
        fun a => spec_spawnLocked (w := { w with desiredRunning := true }) h hvacant
          (.inl (recorded_of hw).symm) (0 < w.generation) env
      rcases hr : m.spawnLocked id { w with desiredRunning := true } (0 < w.generation) env with
        ⟨m', fault | change⟩ <;> rw [hr] at hspec <;> dsimp only
      · exact hspec _ (by simp)
      · refine hspec _ fun us hus t ht m' => ?_
        rw [After.next.injEq] at hus
        subst hus
        rcases List.mem_append.mp ht with ht | ht
        · rcases List.mem_pair.mp ht with rfl | rfl <;> trivial
        · exact settled_ready id waitReady t ht m'

theorem spec_stopLocked (h : m.Filed) (id : PyStr) :
    Spec m (m.stopLocked id).1 (m.stopLocked id).2 := by
  unfold stopLocked
  cases hw : m.workers.get? id with
  | none => exact .of_same h (same_refl m) rfl (by simp)
  | some w =>
    refine .of_same h (same_setWorker hw rfl) rfl fun us hus t ht => ?_
    rw [After.next.injEq] at hus
    subst hus
    rw [mem_singleton.mp ht]
    intro p hp
    exact h.lt hw hp

theorem vacant_of_settled (hsettled : ∀ p ∈ seen, (m.poll p).isSome = true)
    (hreplaced : m.replaced id seen = false) : m.Vacant id := by
  intro p hp
  rw [Bool.eq_false_iff]
  intro hlive
  by_cases hseen : seen = some p
  · have hended := not_isLive_of_poll (hsettled p hseen)
    rw [hlive] at hended
    cases hended
  · rw [replaced, Option.any_eq_false] at hreplaced
    have hp' := hreplaced p hp
    rw [hlive, Bool.true_and, decide_eq_false_iff_not, not_not] at hp'
    exact hseen hp'.symm

theorem spec_stopClear (h : m.Filed) (hvacant : m.Vacant id) :
    Spec m (m.stopClear id) (.next []) := by
  unfold stopClear
  cases hw : m.workers.get? id with
  | none => exact .of_same h (same_refl m) rfl (by simp)
  | some w =>
    refine ⟨h.clear hvacant (fun i => ?_) rfl, ages_of_eq rfl, fun ts hts => .inl hts, by simp⟩
    rw [recorded_setWorker]

theorem spec_monitorWorker (h : m.Filed) (id : PyStr) (env : ManagerAnswers) :
    Spec m (m.monitorWorker id env).1 (m.monitorWorker id env).2 := by
  have hidle : Spec m m (.next []) := .of_same h (same_refl m) rfl (by simp)
  unfold monitorWorker
  cases hw : m.workers.get? id with
  | none => exact hidle
  | some w =>
    dsimp only
    split
    · exact hidle
    · cases m.monitorReason w env with
      | none => exact hidle
      | some reason =>
        refine .of_same h (same_setWorker hw rfl) rfl fun us hus t ht => ?_
        rw [After.next.injEq] at hus
        subst hus
        rw [mem_singleton.mp ht]
        intro p hp
        exact h.lt hw hp

theorem spec_monitorRespawn (h : m.Filed) (env : ManagerAnswers)
    (hvacant : (m.workers.get? id).any Worker.desiredRunning = true → m.stopping = false →
      m.Vacant id) :
    Spec m (m.monitorRespawn id env).1 (m.monitorRespawn id env).2 := by
  have hidle : Spec m m (.next []) := .of_same h (same_refl m) rfl (by simp)
  unfold monitorRespawn
  cases hw : m.workers.get? id with
  | none => exact hidle
  | some w =>
    dsimp only
    by_cases hgone : w.desiredRunning = false ∨ m.stopping = true
    · rw [if_pos hgone]
      exact hidle
    · rw [if_neg hgone]
      rw [not_or, Bool.not_eq_false, Bool.not_eq_true] at hgone
      have hvacant := hvacant (by rw [hw]; exact hgone.1) hgone.2
      have hspec : ∀ a : After, (∀ us, a = .next us → ∀ t ∈ us, ∀ m', settled m' t) →
          Spec m (m.spawnLocked id { w with process := none } true env).1 a :=
        fun a => spec_spawnLocked h hvacant (.inr rfl) true env
      rcases hr : m.spawnLocked id { w with process := none } true env with
        ⟨m', (_ | _) | change⟩ <;> rw [hr] at hspec <;> dsimp only
      · -- the budget is exhausted, or the command cannot be run
        have hm' := hspec (.next []) (by simp)
        cases hw' : m'.workers.get? id with
        | none => exact hm'
        | some w' =>
          let failed : Worker := { w' with state := .failed, desiredRunning := false }
          have hsame : SameProcesses m' (m'.setWorker id failed) := same_setWorker hw' rfl
          exact ⟨hm'.filed.same hsame, ⟨hm'.ages.spawned, hm'.ages.poll⟩, hm'.threads, by simp⟩
      · exact hspec _ (by simp)
      · refine hspec _ fun us hus t ht m' => ?_
        rw [After.next.injEq] at hus
        subst hus
        rcases mem_pair.mp ht with rfl | rfl <;> trivial

theorem spec_failLocked (h : m.Filed) (id reason : PyStr) (expected : Option Nat) :
    Spec m (m.failLocked id reason expected).1 (m.failLocked id reason expected).2 := by
  have hidle : Spec m m (.next []) := .of_same h (same_refl m) rfl (by simp)
  unfold failLocked
  cases hw : m.workers.get? id with
  | none => exact .of_same h (same_refl m) rfl (by simp)
  | some w =>
    dsimp only
    split
    · exact hidle
    split
    · exact hidle
    · refine .of_same h (same_setWorker hw rfl) rfl fun us hus t ht => ?_
      rw [After.next.injEq] at hus
      subst hus
      rw [mem_singleton.mp ht]
      intro p hp
      exact h.lt hw hp

theorem process_received (w : Worker) (messageType : PyStr) (env : ManagerAnswers) :
    (received w messageType env).process = w.process := by
  unfold received
  dsimp only
  split
  · rfl
  · split
    · split <;> rfl
    · rfl

theorem spec_readStdout (h : m.Filed) (id : PyStr) (p : Nat) (env : ManagerAnswers) :
    Spec m (m.readStdout id p env).1 (m.readStdout id p env).2 := by
  have hidle : Spec m m (.next []) := .of_same h (same_refl m) rfl (by simp)
  have hfail : ∀ reason, Spec m m (.next [.failLocked id reason (some p)]) := by
    intro reason
    refine .of_same h (same_refl m) rfl fun us hus t ht => ?_
    rw [After.next.injEq] at hus
    subst hus
    rw [mem_singleton.mp ht]
    trivial
  unfold readStdout
  dsimp only
  cases env.line with
  | eof => exact hidle
  | oversized => exact hfail _
  | invalidJson => exact hfail _
  | message v =>
    dsimp only
    split
    · exact hfail _
    · split
      · exact .of_same h (same_refl m) rfl (by simp)
      · exact .of_same h (same_refl m) rfl (by simp)
      · split
        · cases hw : m.workers.get? id with
          | none => exact hidle
          | some w =>
            dsimp only
            split
            · refine .of_same h (same_setWorker hw (process_received w _ env)) rfl
                fun us hus t ht => ?_
              rw [After.next.injEq] at hus
              subst hus
              rw [mem_singleton.mp ht]
              trivial
            · exact hidle
        · exact hfail _
      · exact hfail _

/-- **Every stretch** that is not disturbed keeps the records and the processes
together. -/
theorem spec_exec (h : m.Filed) (ht : m.settled t) (hd : m.disturbs t = false)
    {r : WorkerManager × After} (hr : m.exec env t = some r) : Spec m r.1 r.2 := by
  have hidle : Spec m m (.next []) := .of_same h (same_refl m) rfl (by simp)
  cases t with
  | start =>
    cases hr
    exact spec_start h
  | startLocked id waitReady =>
    cases hr
    exact spec_startLocked h id waitReady env
  | notify change | notified | caught =>
    cases hr
    exact hidle
  | awaitReady id =>
    simp only [exec] at hr
    split at hr
    · cases hr
      exact hidle
    · split at hr
      · cases hr
        refine .of_same h (same_refl m) rfl fun us hus t ht => ?_
        rw [After.next.injEq] at hus
        subst hus
        rw [mem_singleton.mp ht]
        trivial
      · cases hr
  | stopLocked id =>
    cases hr
    exact spec_stopLocked h id
  | stopTerminate id seen =>
    cases hr
    refine spec_afterTerminate h ht fun m' _ hended t ht' => ?_
    rw [mem_singleton.mp ht']
    exact hended
  | stopClear id seen =>
    cases hr
    exact spec_stopClear h (vacant_of_settled ht hd)
  | close =>
    cases hr
    refine .of_same h ⟨fun _ => rfl, rfl⟩ rfl fun us hus t ht => ?_
    rw [After.next.injEq] at hus
    subst hus
    obtain ⟨id, -, ht⟩ := mem_flatMap.mp ht
    rcases mem_pair.mp ht with rfl | rfl <;> trivial
  | monitorLoop =>
    cases hr
    refine .of_same h (same_refl m) rfl fun us hus t ht => ?_
    rw [After.next.injEq] at hus
    subst hus
    split at ht
    · simp at ht
    · rcases mem_append.mp ht with ht | ht
      · obtain ⟨id, -, rfl⟩ := mem_map.mp ht
        trivial
      · rw [mem_singleton.mp ht]
        trivial
  | monitorWorker id =>
    cases hr
    exact spec_monitorWorker h id env
  | monitorTerminate id seen =>
    cases hr
    refine spec_afterTerminate h ht fun m' _ hended t ht' => ?_
    rw [mem_singleton.mp ht']
    exact hended
  | monitorRespawn id seen =>
    cases hr
    refine spec_monitorRespawn h env fun hdesired hstopping => ?_
    simp only [disturbs, hdesired, hstopping, Bool.not_false, Bool.true_and] at hd
    exact vacant_of_settled ht hd
  | readStdout id p =>
    cases hr
    exact spec_readStdout h id p env
  | failLocked id reason expected =>
    cases hr
    exact spec_failLocked h id reason expected
  | failTerminate seen =>
    cases hr
    exact spec_afterTerminate h ht fun m' _ _ t ht' => by simp at ht'

/-! ### Runs -/

/-- Records and processes agree, and every thread knows what it may. -/
structure Sound (m : WorkerManager) : Prop extends Filed m where
  threads : ∀ ts ∈ m.threads, ∀ t ∈ ts, m.settled t

theorem mem_tasks (ht : t ∈ a.tasks rest) : (∃ us, a = .next us ∧ t ∈ us) ∨ t ∈ rest := by
  cases a with
  | next us =>
    rcases mem_append.mp ht with ht | ht
    · exact .inl ⟨us, rfl, ht⟩
    · exact .inr ht
  | raised => exact .inr ((dropWhile_sublist _).subset (mem_of_mem_tail ht))

theorem sound_step {l : ManagerLabel} (h : m.Sound) (hl : m.undisturbed l = true)
    (hstep : m.step l = some m') : m'.Sound ∧ Ages m m' := by
  cases l with
  | register spec =>
    cases hstep
    split
    · exact ⟨h, .refl m⟩
    · next hnew =>
      have hnone : m.workers.get? spec.workerId = none := by
        simpa [Dict.contains] using hnew
      have hsame : SameProcesses m (m.setWorker spec.workerId { spec := spec }) := by
        refine ⟨fun i => ?_, rfl⟩
        rw [recorded_setWorker]
        split
        · next hi =>
          subst hi
          unfold WorkerManager.recorded
          rw [hnone]
          rfl
        · rfl
      have hages := ages_of_eq hsame.processes
      exact ⟨⟨h.toFiled.same hsame, fun ts hts t ht => settled_mono hages (h.threads ts hts t ht)⟩,
        hages⟩
  | call c =>
    cases hstep
    have hages : Ages m { m with threads := m.threads ++ [c.tasks] } := ages_of_eq rfl
    refine ⟨⟨h.toFiled.same ⟨fun _ => rfl, rfl⟩, fun ts hts t ht => ?_⟩, hages⟩
    rcases mem_append.mp hts with hts | hts
    · exact settled_mono hages (h.threads ts hts t ht)
    · rw [mem_singleton.mp hts] at ht
      cases c <;> simp only [ManagerCall.tasks, mem_cons, not_mem_nil, or_false] at ht
      · rw [ht]
        trivial
      · rcases ht with rfl | rfl <;> trivial
      · rw [ht]
        trivial
      · rcases ht with rfl | rfl | rfl <;> trivial
      · rw [ht]
        trivial
  | run i env =>
    simp only [step] at hstep
    split at hstep
    · next t ts hi =>
      obtain ⟨r, hr, rfl⟩ := map_eq_some_iff.mp hstep
      have hmem := mem_of_getElem? hi
      have hd : m.disturbs t = false := by
        simpa [undisturbed, taskOf, hi] using hl
      have hspec := spec_exec h.toFiled (h.threads _ hmem t mem_cons_self) hd hr
      have hages : Ages m { r.1 with threads := r.1.threads.set i (r.2.tasks ts) } :=
        ⟨hspec.ages.spawned, hspec.ages.poll⟩
      have hages' : Ages r.1 { r.1 with threads := r.1.threads.set i (r.2.tasks ts) } :=
        ages_of_eq rfl
      refine ⟨⟨hspec.filed.same ⟨fun _ => rfl, rfl⟩, fun us hus u hu => ?_⟩, hages⟩
      rcases mem_or_eq_of_mem_set hus with hus | rfl
      · rcases hspec.threads us hus with hus | hnew
        · exact settled_mono hages (h.threads us hus u hu)
        · exact settled_mono hages' (hnew u hu)
      · rcases mem_tasks hu with ⟨us, hus, hu⟩ | hu
        · exact settled_mono hages' (hspec.next us hus u hu)
        · exact settled_mono hages (h.threads _ hmem u (mem_cons_of_mem _ hu))
    · cases hstep
  | exit p code =>
    simp only [step] at hstep
    split at hstep
    · cases hstep
      exact ⟨⟨h.toFiled.exit p code, fun ts hts t ht =>
        settled_mono (ages_exit p code) (h.threads ts hts t ht)⟩, ages_exit p code⟩
    · cases hstep

theorem sound_init : ({} : WorkerManager).Sound := by
  refine ⟨⟨fun p q hq => ?_, fun id p hp => ?_⟩, by simp⟩
  · simp at hq
  · cases hp

theorem sound_of_reachable
    (h : workerManager.ReachableUnder (fun m l => m.undisturbed l = true) m) : m.Sound := by
  refine h.invariant ?_ ?_
  · rintro m rfl
    exact sound_init
  · intro m l m' hm hl hstep
    exact (sound_step hm hl hstep).1

/-- **A worker has at most one process that runs, and records it**; nothing that runs is
dropped from the record.  This holds in every run in which no call writes over a process
that another one has put in the record in the meantime. -/
theorem one_process (h : workerManager.ReachableUnder (fun m l => m.undisturbed l = true) m) :
    m.Recorded ∧
    (∀ (p p' : Nat) (q q' : Process), m.processes[p]? = some q → q.returncode = none → m.processes[p']? = some q' →
      q'.returncode = none → q.workerId = q'.workerId → p = p') ∧
    ∀ l m', m.undisturbed l = true → m.step l = some m' → ∀ id p, m.recorded id = some p →
      m'.recorded id ≠ some p → m'.isLive p = false := by
  have hsound := sound_of_reachable h
  refine ⟨hsound.recorded, ?_, ?_⟩
  · intro p p' q q' hq hlive hq' hlive' hid
    have hp := hsound.recorded p q hq hlive
    rw [hid, hsound.recorded p' q' hq' hlive'] at hp
    exact (Option.some_inj.mp hp).symm
  · intro l m' hl hstep id p hp hdropped
    obtain ⟨hsound', hages⟩ := sound_step hsound hl hstep
    rw [Bool.eq_false_iff]
    intro hlive
    obtain ⟨q, hq, rfl⟩ := hsound.spawned id p hp
    obtain ⟨q', hq', hid⟩ := hages.spawned p q hq
    obtain ⟨q'', hq'', hrunning⟩ := isLive_iff.mp hlive
    obtain rfl := Option.some_inj.mp (hq'.symm.trans hq'')
    exact hdropped (hid ▸ hsound'.recorded p q' hq' hrunning)

/-- A worker that is called `w`. -/
def sampleSpec : WorkerSpec where
  workerId := "w"
  command := ["worker"]
  valid_id := by decide
  valid_command := by decide
  positive := by decide +kernel

/-- The worker is started, its process ends, and the monitor restarts it. -/
def restartedRun : List ManagerLabel :=
  [.register sampleSpec, .call (.startWorker "w" false), .run 0 {}, .run 0 {}, .exit 0 1, .run 1 {},
    .run 1 {}, .run 1 {}, .run 1 {}]

theorem one_process_restartedRun :
    ∃ m, workerManager.runUnder (fun m l => m.undisturbed l = true) {} restartedRun = some m ∧
      m.isLive 1 = true ∧ m.recorded "w" = some 1 ∧ m.Recorded := by
  have hrun : (workerManager.runUnder (fun m l => m.undisturbed l = true) {} restartedRun).map
      (fun m => (m.isLive 1, m.recorded "w")) = some (true, some 1) := by
    decide +kernel
  obtain ⟨m, hm, hout⟩ := Option.map_eq_some_iff.mp hrun
  obtain ⟨hlive, hrecorded⟩ := Prod.mk.inj hout
  exact ⟨m, hm, hlive, hrecorded, (one_process (.of_runUnder rfl hm)).1⟩

/-- The worker is started, and started again by another client while a stop has let go
of the lock; the stop then clears the record, and the monitor finds the worker without a
process. -/
def droppedRun : List ManagerLabel :=
  [.register sampleSpec, .call (.startWorker "w" false), .run 0 {}, .run 0 {}, .run 0 {}, .run 0 {},
    .call (.stopWorker "w"), .run 3 {}, .run 3 {}, .call (.startWorker "w" false), .run 4 {},
    .run 4 {}, .run 4 {}, .run 4 {}, .run 3 {}, .run 1 {}, .run 1 {}, .run 1 {}, .run 1 {}, .run 1 {},
    .run 1 {}]

/-- The calls of that run have returned, and two processes of the worker run, of which one
is in no record. -/
theorem process_dropped :
    ∃ m, workerManager.Reachable m ∧ m.threads[0]? = some [] ∧ m.threads[3]? = some [] ∧
      m.threads[4]? = some [] ∧ m.isLive 1 = true ∧ m.isLive 2 = true ∧
      m.processes.map Process.workerId = ["w", "w", "w"] ∧ m.recorded "w" = some 2 ∧
      ¬ m.Recorded := by
  have hrun : (workerManager.run {} droppedRun).map (fun m =>
      ([m.threads[0]?, m.threads[3]?, m.threads[4]?], (m.isLive 1, m.isLive 2),
        m.processes.map Process.workerId, m.recorded "w"))
      = some ([some [], some [], some []], (true, true), [("w" : PyStr), "w", "w"], some 2) := by
    decide +kernel
  obtain ⟨m, hm, hout⟩ := Option.map_eq_some_iff.mp hrun
  simp only [Prod.mk.injEq, List.cons.injEq, and_true] at hout
  obtain ⟨⟨h₀, h₃, h₄⟩, ⟨hlive₁, hlive₂⟩, hids, hrecorded⟩ := hout
  refine ⟨m, .of_run rfl hm, h₀, h₃, h₄, hlive₁, hlive₂, hids, hrecorded, fun hfiled => ?_⟩
  obtain ⟨q, hq, hrunning⟩ := isLive_iff.mp hlive₁
  have hid : q.workerId = "w" := by
    have hids' := congrArg (·[1]?) hids
    rw [List.getElem?_map, hq] at hids'
    exact Option.some_inj.mp hids'
  have h₁ := hfiled 1 q hq hrunning
  rw [hid, hrecorded] at h₁
  exact absurd h₁ (by decide)

end WorkerManager

end Rosclaw
