/-
The supervision state (`_supervision_state` of `daemon/service.py`) and the latch of
the runtime.

A stop raises the flag first and sets the latch in a later stretch; `_arm_core` looks
at the latch only.  Between the two a thread that arms the daemon takes the flag back.

* `runSpec_exec`, `workSpec_work` — what a step does to the flag and to the latch;
* `Stops` — a raised flag whose latch is not set has a thread that is about to set it;
* `stays_stopped` — while nobody arms the daemon between the two stretches of a stop,
  a daemon that was stopped stays so until its process ends;
* `armed_during_stop` — without that, a stopped daemon is armed again.
-/
import Rosclaw.Daemon.Runs

namespace Rosclaw

open List Option

namespace Daemon

variable {C : DaemonConfig} {env : Answers}

def halted (d : Daemon) : Bool := d.supervision = .estopped || d.supervision = .stopping

def stopRequested (d : Daemon) : Bool := d.halted || d.latched

/-! ### What a step does to the flag and the latch -/

def JobsKept (d d' : Daemon) : Prop :=
  ∀ id, (d.jobs.get? id).isSome = true → (d'.jobs.get? id).isSome = true

variable {d' : Daemon} (d : Daemon)

theorem JobsKept.refl : JobsKept d d := fun _ h => h

theorem JobsKept.trans {d d'' : Daemon} (h : JobsKept d d') (h' : JobsKept d' d'') :
    JobsKept d d'' := fun id hid => h' id (h id hid)

theorem jobsKept_set {d : Daemon} {id : PyStr} {j : ActionJob} (h : d'.jobs = d.jobs.set id j) :
    JobsKept d d' := by
  intro i hi
  rw [h, Dict.get?_set]
  split
  · rfl
  · exact hi

theorem jobsKept_rel {R : ActionJob → ActionJob → Prop} {d : Daemon}
    (h : JobsRel R d.jobs d'.jobs) : JobsKept d d' := by
  intro id hid
  have hrel := h id
  obtain ⟨j, hj⟩ := isSome_iff_exists.mp hid
  rw [hj] at hrel
  generalize d'.jobs.get? id = o at hrel ⊢
  cases hrel
  rfl

/-- Neither the flag nor a thread of the pool has moved, the latch was not taken away,
and no job is gone. -/
structure SameControls (d d' : Daemon) : Prop where
  supervision : d'.supervision = d.supervision
  closed : d'.closed = d.closed
  latched : d.latched = true → d'.latched = true
  workers : d'.workers = d.workers
  jobs : JobsKept d d'

theorem SameControls.refl : SameControls d d := ⟨rfl, rfl, id, rfl, .refl d⟩

theorem SameControls.trans {d d'' : Daemon} (h : SameControls d d') (h' : SameControls d' d'') :
    SameControls d d'' :=
  ⟨h'.supervision.trans h.supervision, h'.closed.trans h.closed, h'.latched ∘ h.latched,
    h'.workers.trans h.workers, h.jobs.trans h'.jobs⟩

theorem sameControls_finishJob (j : ActionJob) (state : JobState) (receipt : List (PyStr × PyVal))
    (t : DateTime) : SameControls d (d.finishJob C j state receipt t).1 := by
  have hset : JobsKept d (d.setJob j.action.actionId (ended j state receipt t)) := jobsKept_set rfl
  unfold finishJob
  dsimp only
  split <;> exact ⟨rfl, rfl, id, rfl, hset⟩

theorem Move.controls {k : MoveKind} {d : Daemon} (h : Move C env k d d') (hk : k ≠ .supervise) :
    SameControls d d' := by
  cases h with
  | supervise => exact absurd rfl hk
  | latch => exact ⟨rfl, rfl, fun _ => rfl, rfl, .refl _⟩
  | touch h => exact ⟨rfl, rfl, id, rfl, jobsKept_rel h⟩
  | mark h => exact ⟨rfl, rfl, id, rfl, jobsKept_rel h⟩
  | unschedule h => exact ⟨rfl, rfl, id, rfl, jobsKept_rel h⟩
  | created => exact ⟨rfl, rfl, id, rfl, jobsKept_set rfl⟩
  | scheduled => exact ⟨rfl, rfl, id, rfl, jobsKept_set rfl⟩
  | @finish _ j hj hstate hfuture final state hfinal code message n =>
    have h := sameControls_finishJob (C := C)
      (d.reject j.action code message final (env.readings.after n)).1 j state
      (d.reject j.action code message final (env.readings.after n)).2.entries
      (env.readings.clock (n + 4))
    exact ⟨h.supervision, h.closed, h.latched, h.workers, h.jobs⟩
  | direct p h =>
    obtain ⟨g, l, hs, rfl, -⟩ := submitAction_eq h
    exact ⟨rfl, rfl, id, rfl, .refl _⟩
  | _ => exact ⟨rfl, rfl, id, rfl, .refl _⟩

theorem Moves.controls {ks : List MoveKind} {d : Daemon} (h : Moves C env ks d d')
    (hk : ∀ k ∈ ks, k ≠ .supervise) : SameControls d d' := by
  induction h with
  | refl => exact .refl d
  | tail _ hstep ih =>
    obtain ⟨k, hmem, hm⟩ := hstep
    exact ih.trans (hm.controls (hk k hmem))

theorem stopOverriddenAction_spec {d d' : Daemon} {id : PyStr} {j : ActionJob} {p : StopPoint}
    {next : Option StopPoint} (h : d.stopOverriddenAction id j env p = some (d', next)) :
    d'.workers = d.workers ∧ d'.closed = d.closed ∧ JobsKept d d' ∧
      ((p ≠ .latch ∧ next ≠ some .latch ∧ d'.supervision = d.supervision ∧ d'.latched = d.latched) ∨
        (next = some .latch ∧ d'.supervision = .estopped ∧ d'.latched = d.latched) ∨
        (p = .latch ∧ d'.supervision = d.supervision ∧ d'.latched = true)) := by
  cases p with
  | ask =>
    simp only [stopOverriddenAction] at h
    split at h <;> cases h
    · exact ⟨rfl, rfl, .refl d, .inl ⟨by simp, by simp, rfl, rfl⟩⟩
    · exact ⟨rfl, rfl, jobsKept_set rfl, .inl ⟨by simp, by simp, rfl, rfl⟩⟩
  | wait =>
    simp only [stopOverriddenAction] at h
    split at h
    · cases h
      exact ⟨rfl, rfl, .refl d, .inl ⟨by simp, by simp, rfl, rfl⟩⟩
    · contradiction
  | estop =>
    cases h
    exact ⟨rfl, rfl, .refl d, .inr (.inl ⟨rfl, rfl, rfl⟩)⟩
  | latch =>
    cases h
    exact ⟨rfl, rfl, .refl d, .inr (.inr ⟨rfl, rfl, rfl⟩)⟩
  | record receipt =>
    cases h
    exact ⟨rfl, rfl, jobsKept_set rfl, .inl ⟨by simp, by simp, rfl, rfl⟩⟩

end Daemon

/-! ### Stops that are under way -/

def Task.atLatch : Task → Bool
  | .latch | .stop _ .latch => true
  | _ => false

def WorkerPoint.atLatch : WorkerPoint → Bool
  | .stopping .latch _ => true
  | _ => false

/-- The stretch of `_arm_core` that sets the flag. -/
def Task.isArm : Task → Bool
  | .arm .. => true
  | _ => false

def Label.isRestart : Label → Bool
  | .restart _ => true
  | _ => false

def Task.isQuiet : Task → Bool
  | .estop | .latch | .disarmed .. | .whenRunning _ | .stop _ .latch => false
  | _ => true

def Task.isControl : Task → Bool
  | .estop | .latch | .arm .. | .disarmed .. | .close | .stop .. => true
  | _ => false

/-- The stretches of a thread are in order: the latch is set right after the flag was
raised, and before the daemon is reported disarmed. -/
def orderly (latched : Bool) : List Task → Bool
  | [] => true
  | .estop :: ts => ts.head?.any (fun t => t.atLatch) && orderly latched ts
  | .latch :: ts => orderly true ts
  | .disarmed .. :: ts => latched && orderly latched ts
  | .whenRunning t :: ts => t.isQuiet && orderly latched ts
  | _ :: ts => orderly latched ts

variable {latched : Bool} {t t' : Task} {ts : List Task}

theorem orderly_cons_quiet (ht : t.isQuiet = true) (ts : List Task) :
    orderly latched (t :: ts) = orderly latched ts := by
  cases t <;> first | rfl | exact nomatch ht

theorem orderly_append_quiet (h : ∀ t ∈ ts, t.isQuiet = true) (ts' : List Task) :
    orderly latched (ts ++ ts') = orderly latched ts' := by
  induction ts with
  | nil => rfl
  | cons t ts ih =>
    rw [cons_append, orderly_cons_quiet (h t mem_cons_self)]
    exact ih fun t' ht' => h t' (mem_cons_of_mem _ ht')

theorem orderly_of_latched (h : orderly latched ts = true) : orderly true ts = true := by
  induction ts generalizing latched with
  | nil => rfl
  | cons t ts ih =>
    cases t with
    | latch => exact h
    | estop | whenRunning =>
      simp only [orderly, Bool.and_eq_true] at h ⊢
      exact ⟨h.1, ih h.2⟩
    | disarmed =>
      simp only [orderly, Bool.and_eq_true] at h ⊢
      exact ⟨trivial, ih h.2⟩
    | _ => exact ih h

theorem orderly_tasks (C : DaemonConfig) (latched : Bool) (c : Call) :
    orderly latched (c.tasks C) = true := by
  cases c with
  | armRuntime reason peer | disarmRuntime reason peer | issueExecutionPermit q peer =>
    simp only [Call.tasks]
    split <;> rfl
  | _ => rfl

theorem kinds_of_not_isControl (h : t.isControl = false) : ∀ k ∈ t.kinds, k ≠ .supervise := by
  intro k hk
  cases t <;> simp only [Task.isControl, Bool.true_eq_false] at h <;>
    simp only [Task.kinds, mem_cons, not_mem_nil, or_false] at hk <;> grind

theorem isQuiet_of_not_isControl (h : t.isControl = false) (hw : ∀ u, t ≠ .whenRunning u) :
    t.isQuiet = true := by
  cases t <;> first | rfl | exact Bool.noConfusion h | exact absurd rfl (hw _)

theorem atLatch_of_isQuiet (h : t.isQuiet = true) : t.atLatch = false := by
  unfold Task.isQuiet at h
  unfold Task.atLatch
  split at h <;> simp_all

theorem Follows.isQuiet (h : Follows t t') (ht : t.isControl = false)
    (hw : ∀ u, t ≠ .whenRunning u) : t'.isQuiet = true := by
  cases h with
  | whenRunning => exact absurd rfl (hw _)
  | stop | armed | disarmed | closeCancel | closeLatch | closeShutdown => exact nomatch ht
  | _ => rfl

namespace Daemon

/-- What the stretch `t` of a thread does to the flag and to the latch. -/
structure RunSpec (d : Daemon) (t : Task) (r : Daemon × List Task) : Prop where
  workers : r.1.workers = d.workers
  jobs : JobsKept d r.1
  latched : d.latched = true → r.1.latched = true
  orderly : ∀ ts, Rosclaw.orderly d.latched (t :: ts) = true →
    Rosclaw.orderly r.1.latched (r.2 ++ ts) = true
  closed : (d.supervision = .stopping → d.closed = true) →
    r.1.supervision = .stopping → r.1.closed = true
  job : ∀ ts, Rosclaw.orderly d.latched (t :: ts) = true → ∀ id, .stop id .latch ∈ r.2 →
    (r.1.jobs.get? id).isSome = true
  flag : ∀ ts, Rosclaw.orderly d.latched (t :: ts) = true → r.1.supervision = .estopped →
    r.1.latched = true ∨ (r.2 ++ ts).head?.any Task.atLatch = true ∨
      (d.supervision = .estopped ∧ t.atLatch = false)
  supervision : r.1.supervision = d.supervision ∨ r.1.halted = true ∨
    (r.1.supervision = .armed ∧ (∃ reason peer, t = .arm reason peer) ∧ d.latched = false ∧
      d.closed = false)

variable {d : Daemon} {r : Daemon × List Task} {t : Task}

theorem RunSpec.of_quiet (h : SameControls d r.1) (ht : t.isQuiet = true)
    (hr : ∀ t' ∈ r.2, t'.isQuiet = true) :
    RunSpec d t r where
  workers := h.workers
  jobs := h.jobs
  latched := h.latched
  orderly ts hts := by
    rw [orderly_cons_quiet ht] at hts
    rw [orderly_append_quiet hr]
    cases hlat : r.1.latched with
    | true => exact orderly_of_latched hts
    | false =>
      have hlat' : d.latched = false := by
        rw [Bool.eq_false_iff]
        exact fun h' => Bool.noConfusion (hlat.symm.trans (h.latched h'))
      exact hlat' ▸ hts
  closed hc hsup := h.closed.trans (hc (h.supervision ▸ hsup))
  job _ _ _ hid := nomatch hr _ hid
  flag _ _ hflag := .inr (.inr ⟨h.supervision ▸ hflag, atLatch_of_isQuiet ht⟩)
  supervision := .inl h.supervision

/-- **What a thread does to the flag and to the latch.** -/
theorem runSpec_exec (hframed : t.framed = true) (hfiled : d.FiledJobs)
    (hjob : ∀ id, t = .stop id .latch → (d.jobs.get? id).isSome = true)
    (h : d.exec C env t = some r) : RunSpec d t r := by
  by_cases hcontrol : t.isControl = true
  · cases t with
    | estop =>
      cases h
      refine ⟨rfl, .refl d, id, fun ts hts => ?_, by simp, by simp, fun ts hts _ => ?_,
        .inr (.inl rfl)⟩
      · exact (Bool.and_eq_true_iff.mp hts).2
      · exact .inr (.inl (Bool.and_eq_true_iff.mp hts).1)
    | latch =>
      cases h
      exact ⟨rfl, .refl d, fun _ => rfl, fun ts hts => hts, fun hc hs => hc hs, by simp,
        fun _ _ _ => .inl rfl, .inl rfl⟩
    | disarmed reason peer =>
      cases h
      refine ⟨rfl, .refl d, id, fun ts hts => ?_, by simp, by simp, fun ts hts _ => ?_,
        .inr (.inl rfl)⟩
      · exact (Bool.and_eq_true_iff.mp hts).2
      · exact .inl (Bool.and_eq_true_iff.mp hts).1
    | arm reason peer =>
      cases h
      unfold arm
      split
      · exact ⟨rfl, .refl d, id, fun ts hts => hts, fun hc hs => hc hs, by simp,
          fun _ _ hs => .inr (.inr ⟨hs, rfl⟩), .inl rfl⟩
      · next hcan =>
        simp only [not_or, Bool.not_eq_true] at hcan
        exact ⟨rfl, .refl d, id, fun ts hts => hts, by simp, by simp, fun _ _ hs => (by cases hs),
          .inr (.inr ⟨rfl, ⟨reason, peer, rfl⟩, hcan.2.2.1, hcan.2.2.2.2⟩)⟩
    | close =>
      cases h
      split
      · exact ⟨rfl, .refl d, id, fun ts hts => hts, fun hc hs => hc hs, by simp,
          fun _ _ hs => .inr (.inr ⟨hs, rfl⟩), .inl rfl⟩
      · refine ⟨rfl, .refl d, id, fun ts hts => ?_, fun _ _ => rfl, fun _ _ id hid => ?_,
          fun _ _ hs => (by cases hs), .inr (.inl rfl)⟩
        · rw [append_assoc, orderly_append_quiet fun t ht => ?_]
          · exact orderly_of_latched hts
          · obtain ⟨id, -, rfl⟩ := mem_map.mp ht
            rfl
        · rcases mem_append.mp hid with hid | hid
          · obtain ⟨i, -, hi⟩ := mem_map.mp hid
            contradiction
          · simp at hid
    | stop id p =>
      simp only [exec] at h
      split at h
      · next hnone =>
        cases h
        have hp : p ≠ .latch := by
          rintro rfl
          have hsome := hjob id rfl
          rw [hnone] at hsome
          contradiction
        refine ⟨rfl, .refl d, fun h => h, fun ts hts => hts, fun hc hs => hc hs, by simp,
          fun _ _ hs => .inr (.inr ⟨hs, ?_⟩), .inl rfl⟩
        cases p <;> first | rfl | exact absurd rfl hp
      next j hj =>
      rcases hstop : d.stopOverriddenAction id j env p with _ | ⟨d', next⟩ <;> rw [hstop] at h
      · contradiction
      obtain ⟨hw, hclosed, hkept, hcase⟩ := stopOverriddenAction_spec hstop
      obtain rfl : r = (d', (next.map (Task.stop id)).toList) := by
        cases next <;> exact (some_inj.mp h).symm
      have hatLatch : p ≠ .latch → Task.atLatch (.stop id p) = false := by
        intro hp
        cases p <;> first | rfl | exact absurd rfl hp
      rcases hcase with ⟨hp, hnext, hsup, hlat⟩ | ⟨rfl, hsup, hlat⟩ | ⟨rfl, hsup, hlat⟩
      · refine ⟨hw, hkept, fun h => hlat.trans h, fun ts hts => ?_, fun hc hs => ?_, fun _ _ i hi => ?_,
          fun _ _ hs => .inr (.inr ⟨hsup ▸ hs, hatLatch hp⟩), .inl hsup⟩
        · show Rosclaw.orderly d'.latched _ = true
          rw [hlat]
          cases next <;> exact hts
        · exact hclosed.trans (hc (hsup ▸ hs))
        · obtain ⟨q, hq, hqi⟩ := map_eq_some_iff.mp (mem_toList.mp hi)
          exact absurd (hq.trans (congrArg some (Task.stop.inj hqi).2)) hnext
      · refine ⟨hw, hkept, fun h => hlat.trans h, fun ts hts => ?_, fun _ hs => ?_, fun _ _ i hi => ?_,
          fun _ _ _ => .inr (.inl rfl), .inr (.inl ?_)⟩
        · show Rosclaw.orderly d'.latched _ = true
          rw [hlat]
          exact hts
        · cases hsup.symm.trans hs
        · obtain ⟨rfl, -⟩ := Task.stop.inj (mem_singleton.mp hi)
          exact hkept i (isSome_iff_exists.mpr ⟨j, hj⟩)
        · simp [halted, hsup]
      · refine ⟨hw, hkept, fun _ => hlat, fun ts hts => ?_, fun hc hs => ?_, fun _ _ i hi => ?_,
          fun _ _ _ => .inl hlat, .inl hsup⟩
        · show Rosclaw.orderly d'.latched _ = true
          rw [hlat]
          cases next <;> exact orderly_of_latched hts
        · exact hclosed.trans (hc (hsup ▸ hs))
        · obtain rfl : next = some (.record env.stopReceipt) := by
            have := hstop
            simp only [stopOverriddenAction, Option.some.injEq, Prod.mk.injEq] at this
            exact this.2.symm
          cases (Task.stop.inj (mem_singleton.mp hi)).2
    | _ => contradiction
  · rw [Bool.not_eq_true] at hcontrol
    have hsame := (exec_moves hframed hfiled h).controls (kinds_of_not_isControl hcontrol)
    by_cases hw : ∃ u, t = .whenRunning u
    · obtain ⟨u, rfl⟩ := hw
      cases h
      have hu : ∀ {ts}, Rosclaw.orderly d.latched (.whenRunning u :: ts) = true →
          u.isQuiet = true ∧ Rosclaw.orderly d.latched ts = true := Bool.and_eq_true_iff.mp
      refine ⟨rfl, .refl d, id, fun ts hts => ?_, fun hc hs => hc hs,
        fun ts hts i hi => ?_, fun _ _ hs => .inr (.inr ⟨hs, rfl⟩), .inl rfl⟩
      · dsimp only
        split
        · exact (orderly_cons_quiet (hu hts).1 ts).trans (hu hts).2
        · exact (hu hts).2
      · dsimp only at hi
        split at hi
        · obtain rfl := mem_singleton.mp hi
          cases (hu hts).1
        · contradiction
    · exact .of_quiet hsame (isQuiet_of_not_isControl hcontrol fun u h => hw ⟨u, h⟩) fun t' ht' =>
        (follows_exec h ht').isQuiet hcontrol fun u h => hw ⟨u, h⟩

/-- What a step of the thread that runs the job `id` does to the flag and to the
latch. -/
structure WorkSpec (id : PyStr) (d d' : Daemon) : Prop where
  closed : d'.closed = d.closed
  jobs : JobsKept d d'
  latched : d.latched = true → d'.latched = true
  others : ∀ i, i ≠ id → d'.workers.get? i = d.workers.get? i
  supervision : d'.supervision = d.supervision ∨ (d'.supervision = .estopped ∧
    (d'.workers.get? id).any WorkerPoint.atLatch = true)
  atLatch : (d.workers.get? id).any WorkerPoint.atLatch = true → d'.latched = true

section

variable {d d' : Daemon} {id : PyStr} {p : WorkerPoint}

variable {d₁ : Daemon} {j : ActionJob}

theorem WorkSpec.of_same (hw : d.workers.get? id = some p) (hp : p.atLatch = false)
    (h : SameControls d d₁) (hsup : d'.supervision = d₁.supervision) (hcl : d'.closed = d₁.closed)
    (hlat : d'.latched = d₁.latched) (hjobs : d'.jobs = d₁.jobs)
    (hother : ∀ i, i ≠ id → d'.workers.get? i = d₁.workers.get? i) : WorkSpec id d d' where
  closed := hcl.trans h.closed
  jobs i hi := (congrArg (fun jobs => (jobs.get? i).isSome) hjobs).trans (h.jobs i hi)
  latched hl := hlat.trans (h.latched hl)
  others i hi := (hother i hi).trans (congrArg (·.get? i) h.workers)
  supervision := .inl (hsup.trans h.supervision)
  atLatch hat := by
    rw [hw] at hat
    exact Bool.noConfusion (hp.symm.trans hat)

theorem WorkSpec.goto (hw : d.workers.get? id = some p) (hp : p.atLatch = false)
    (h : SameControls d d₁) (q : WorkerPoint) : WorkSpec id d (d₁.goto id q) :=
  .of_same hw hp h rfl rfl rfl rfl fun _ hi => Dict.get?_set_of_ne _ _ hi.symm

theorem WorkSpec.retire (hw : d.workers.get? id = some p) (hp : p.atLatch = false)
    (h : SameControls d d₁) : WorkSpec id d (d₁.retire id) :=
  .of_same hw hp h rfl rfl rfl rfl fun _ hi => (Dict.get?_erase ..).trans (if_neg hi.symm)

theorem sameControls_setJob (d : Daemon) (id : PyStr) (j : ActionJob) :
    SameControls d (d.setJob id j) := ⟨rfl, rfl, fun h => h, rfl, jobsKept_set rfl⟩

theorem sameControls_markOn (d : Daemon) (f : Option LedgerFault) : SameControls d (d.markOn f) := by
  cases f <;> exact ⟨rfl, rfl, fun h => h, rfl, .refl d⟩

theorem sameControls_finishOverridden (d : Daemon) (j : ActionJob) (o : TerminalOverride)
    (r : Readings) : SameControls d (d.finishOverridden C j o r) := by
  unfold finishOverridden
  dsimp only
  refine .trans ?_ (sameControls_markOn _ _)
  have h := sameControls_finishJob (C := C) (d.reject j.action o.code o.message o.state r).1 j
    .finished (d.reject j.action o.code o.message o.state r).2.entries (r.clock 4)
  exact ⟨h.supervision, h.closed, h.latched, h.workers, h.jobs⟩

theorem workSpec_beginAction (hw : d.workers.get? id = some p) (hp : p.atLatch = false) :
    WorkSpec id d (d.beginAction C id j env) := by
  unfold beginAction
  dsimp only
  split
  · next o ho =>
    exact .retire hw hp (.trans (sameControls_setJob d id { j with terminalOverride := some o })
      (sameControls_finishOverridden _ _ o _))
  · have happend : ∀ j' e, SameControls d ((d.setJob id j').append C e).1 := fun j' e =>
      ⟨rfl, rfl, fun h => h, rfl, jobsKept_set rfl⟩
    specialize happend { j with state := .running, startedAt := some (env.readings.clock 1) }
      (startedEvent id (env.readings.clock 1))
    split
    · next d₁ h =>
      rw [h] at happend
      exact .goto hw hp happend _
    · next d₁ fault h =>
      rw [h] at happend
      exact .retire hw hp (happend.trans ⟨rfl, rfl, fun h => h, rfl, jobsKept_set rfl⟩)

theorem sameControls_finalizeAction (d : Daemon) (id : PyStr) (j : ActionJob)
    (receipt : List (PyStr × PyVal)) : SameControls d (d.finalizeAction C id j env receipt) := by
  have hfinish := sameControls_finishJob (C := C) d j .finished (finalReceipt j receipt env.readings)
    (env.readings.clock 2)
  rw [finalizeAction_eq]
  rcases hf : d.finishJob C j .finished (finalReceipt j receipt env.readings)
    (env.readings.clock 2) with ⟨d', _ | fault⟩ <;> rw [hf] at hfinish
  · exact hfinish
  · refine hfinish.trans (.trans ?_ (sameControls_setJob _ _ _))
    unfold unwritten
    dsimp only
    split
    · exact ⟨rfl, rfl, fun _ => rfl, rfl, .refl _⟩
    · exact ⟨rfl, rfl, fun h => h, rfl, .refl _⟩

/-- **What a thread of the pool does to the flag and to the latch.** -/
theorem workSpec_work (h : d.work C id env = some d') : WorkSpec id d d' := by
  unfold work at h
  split at h
  · next p j hw hj =>
    cases p with
    | begin => exact some_inj.mp h ▸ workSpec_beginAction hw rfl
    | dispatch =>
      cases h
      unfold dispatchAction
      dsimp only
      split
      · rcases d.authority.authorize C.py (env.readings.clock 0) d.ledger j.action j.peer with
          ⟨L, A, fault | decision⟩
        · refine .goto hw rfl ?_ _
          exact ⟨rfl, rfl, fun h => h, rfl, .refl d⟩
        · dsimp only
          split
          all_goals
            refine .goto hw rfl ?_ _
            exact ⟨rfl, rfl, fun h => h, rfl, .refl d⟩
      · refine .goto hw rfl ?_ _
        exact ⟨rfl, rfl, fun h => h, rfl, .refl d⟩
    | refuse code message =>
      cases h
      refine .goto hw rfl ?_ _
      exact ⟨rfl, rfl, fun h => h, rfl, .refl d⟩
    | failed marks =>
      cases h
      refine .goto hw rfl ?_ _
      cases marks <;> exact ⟨rfl, rfl, fun h => h, rfl, .refl d⟩
    | armed decision =>
      cases h
      split <;> exact .goto hw rfl (.refl d) _
    | hand decision =>
      simp only [runAction] at h
      split at h
      all_goals
        cases h
        refine .goto hw rfl ?_ _
        exact ⟨rfl, rfl, fun h => h, rfl, .refl d⟩
    | gateway p =>
      simp only [runAction] at h
      split at h
      · contradiction
      all_goals
        next hp =>
        cases h
        obtain ⟨g, l, hs, rfl, -⟩ := submitAction_eq hp
        refine .goto hw rfl ?_ _
        exact ⟨rfl, rfl, fun h => h, rfl, .refl d⟩
    | result receipt =>
      cases h
      exact .goto hw rfl (.refl d) _
    | finalize receipt =>
      cases h
      exact .retire hw rfl (sameControls_finalizeAction d id j receipt)
    | stopping p receipt =>
      simp only [runAction] at h
      rcases hstop : d.stopOverriddenAction id j env p with _ | ⟨d₁, next⟩ <;> rw [hstop] at h
      · contradiction
      obtain ⟨hworkers, hclosed, hkept, hcase⟩ := stopOverriddenAction_spec hstop
      obtain ⟨q, hq, rfl⟩ : ∃ q, (next = some .latch → q.atLatch = true) ∧ d' = d₁.goto id q := by
        cases next with
        | none => exact ⟨_, by simp, (some_inj.mp h).symm⟩
        | some p' => exact ⟨_, fun hp => some_inj.mp hp ▸ rfl, (some_inj.mp h).symm⟩
      have hothers : ∀ i, i ≠ id → (d₁.goto id q).workers.get? i = d.workers.get? i := fun i hi =>
        (Dict.get?_set_of_ne _ _ hi.symm).trans (congrArg (·.get? i) hworkers)
      rcases hcase with ⟨hp, -, hsup, hlat⟩ | ⟨rfl, hsup, hlat⟩ | ⟨rfl, hsup, hlat⟩
      · refine ⟨hclosed, hkept, fun hl => hlat.trans hl, hothers, .inl hsup, fun hat => ?_⟩
        rw [hw] at hat
        cases p <;> first | exact absurd rfl hp | contradiction
      · refine ⟨hclosed, hkept, fun hl => hlat.trans hl, hothers, .inr ⟨hsup, ?_⟩, fun hat => ?_⟩
        · show ((d₁.workers.set id q).get? id).any WorkerPoint.atLatch = true
          rw [Dict.get?_set_self]
          exact hq rfl
        · rw [hw] at hat
          obtain rfl : p = .latch := by
            cases p <;> first | rfl | contradiction
          simp [stopOverriddenAction] at hstop
      · exact ⟨hclosed, hkept, fun _ => hlat, hothers, .inl hsup, fun _ => hlat⟩
  · contradiction

theorem Tracked.worker_of_pending (hd : d.Tracked) (hj : d.jobs.get? id = some j)
    (hf : j.future = some .pending) : d.workers.get? id = none := by
  cases hd.stage id with
  | unknown _ hw | waiting _ hw | ended _ hw => exact hw
  | running hj' _ _ _ _ hf' =>
    obtain rfl := some_inj.mp (hj'.symm.trans hj)
    exact nomatch hf'.symm.trans hf

theorem workSpec_pick (hd : d.Tracked) (h : d.pick id = some d') : WorkSpec id d d' := by
  unfold pick at h
  cases hj : d.jobs.get? id with
  | none => simp [hj] at h
  | some j =>
    simp only [hj, ite_none_right_eq_some, Option.some.injEq] at h
    obtain ⟨hpending, rfl⟩ := h
    refine ⟨rfl, jobsKept_set rfl, fun h => h, fun i hi => Dict.get?_set_of_ne _ _ hi.symm, .inl rfl,
      fun hat => ?_⟩
    rw [hd.worker_of_pending hj hpending] at hat
    contradiction

end

end Daemon

namespace System

def stopUnderway (s : System) : Bool :=
  s.threads.any (fun ts => ts.head?.any Task.atLatch) ||
    s.daemon.workers.values.any WorkerPoint.atLatch

theorem stopUnderway_iff {s : System} : s.stopUnderway = true ↔
    (∃ ts ∈ s.threads, ts.head?.any Task.atLatch = true) ∨
      ∃ id p, s.daemon.workers.get? id = some p ∧ p.atLatch = true := by
  rw [stopUnderway, Bool.or_eq_true, List.any_eq_true, List.any_eq_true]
  constructor
  · rintro (h | ⟨p, hp, hat⟩)
    · exact .inl h
    · obtain ⟨id, hid⟩ := Dict.mem_values_iff.mp hp
      exact .inr ⟨id, p, hid, hat⟩
  · rintro (h | ⟨id, p, hid, hat⟩)
    · exact .inl h
    · exact .inr ⟨p, Dict.mem_values_iff.mpr ⟨id, hid⟩, hat⟩

/-- What the flag, the latch and the threads have to do with each other. -/
structure Stops (s : System) : Prop where
  orderly : ∀ ts ∈ s.threads, orderly s.daemon.latched ts = true
  flag : s.daemon.supervision = .estopped → s.daemon.latched = true ∨ s.stopUnderway = true
  closed : s.daemon.supervision = .stopping → s.daemon.closed = true
  /-- a thread that is about to set the latch for a job finds the job -/
  job : ∀ ts ∈ s.threads, ∀ id, .stop id .latch ∈ ts → (s.daemon.jobs.get? id).isSome = true

variable {C : DaemonConfig} {s s' : System} {env : Answers}

variable {d : Daemon} {i : Nat} {l : Label} {latched latched' : Bool} {t : Task} {ts : List Task}

theorem threads_after {threads : List (List Task)} (h : (s.after d threads env).alive = true) :
    (s.after d threads env).threads = threads := by
  have hdead : d.ledger.dead = false := by simpa [after] using h
  simp [after, hdead]

theorem orderly_mono (h : orderly latched ts = true) (hl : latched = true → latched' = true) :
    orderly latched' ts = true := by
  cases latched' with
  | true => exact orderly_of_latched h
  | false =>
    cases latched with
    | true => exact nomatch hl rfl
    | false => exact h

theorem Stops.after_run {r : Daemon × List Task} (hs : s.Stops)
    (hi : s.threads[i]? = some (t :: ts)) (hr : Daemon.RunSpec s.daemon t r)
    (halive : (s.after r.1 (s.threads.set i (r.2 ++ ts)) env).alive = true) :
    (s.after r.1 (s.threads.set i (r.2 ++ ts)) env).Stops := by
  have hthreads := threads_after halive
  have hlt : i < s.threads.length := (List.getElem?_eq_some_iff.mp hi).1
  have hself : r.2 ++ ts ∈ s.threads.set i (r.2 ++ ts) := mem_set hlt _
  have hmem := mem_of_getElem? hi
  have horderly := hs.orderly _ hmem
  refine ⟨fun us hus => ?_, fun hflag => ?_, hr.closed hs.closed, fun us hus id hid => ?_⟩
  · rw [hthreads] at hus
    rcases mem_or_eq_of_mem_set hus with hus | rfl
    · exact orderly_mono (hs.orderly us hus) hr.latched
    · exact hr.orderly ts horderly
  · rcases hr.flag ts horderly hflag with hf | hf | ⟨hf, ht⟩
    · exact .inl hf
    · exact .inr (stopUnderway_iff.mpr (.inl ⟨_, hthreads.symm ▸ hself, hf⟩))
    rcases hs.flag hf with hlat | hunder
    · exact .inl (hr.latched hlat)
    -- the thread that is about to set the latch is another one
    refine .inr (stopUnderway_iff.mpr ?_)
    rcases stopUnderway_iff.mp hunder with ⟨us, hus, hat⟩ | ⟨id, p, hp, hat⟩
    · obtain ⟨k, hk⟩ := mem_iff_getElem?.mp hus
      have hne : i ≠ k := by
        rintro rfl
        obtain rfl := some_inj.mp (hi.symm.trans hk)
        exact Bool.noConfusion (ht.symm.trans hat)
      refine .inl ⟨us, ?_, hat⟩
      rw [hthreads]
      exact mem_of_getElem? ((List.getElem?_set_ne hne).trans hk)
    · exact .inr ⟨id, p, (congrArg (·.get? id) hr.workers).trans hp, hat⟩
  · rw [hthreads] at hus
    rcases mem_or_eq_of_mem_set hus with hus | rfl
    · exact hr.jobs id (hs.job us hus id hid)
    · rcases mem_append.mp hid with hid | hid
      · exact hr.job ts horderly id hid
      · exact hr.jobs id (hs.job _ hmem id (mem_cons_of_mem _ hid))

theorem Stops.of_work {id : PyStr} (hs : s.Stops) (hd : Daemon.WorkSpec id s.daemon s'.daemon)
    (hthreads : s'.threads = s.threads) : s'.Stops := by
  refine ⟨fun us hus => ?_, fun hflag => ?_, fun hsup => ?_, fun us hus i hi => ?_⟩
  · exact orderly_mono (hs.orderly us (hthreads ▸ hus)) hd.latched
  · rcases hd.supervision with hsup | ⟨-, hat⟩
    · rcases hs.flag (hsup ▸ hflag) with hlat | hunder
      · exact .inl (hd.latched hlat)
      rcases stopUnderway_iff.mp hunder with ⟨us, hus, hat⟩ | ⟨i, p, hp, hat⟩
      · exact .inr (stopUnderway_iff.mpr (.inl ⟨us, hthreads.symm ▸ hus, hat⟩))
      by_cases hi : i = id
      · subst hi
        exact .inl (hd.atLatch (by rw [hp]; exact hat))
      · exact .inr (stopUnderway_iff.mpr (.inr ⟨i, p, (hd.others i hi).trans hp, hat⟩))
    · obtain ⟨p, hp, hat⟩ := (any_eq_true _ _).mp hat
      exact .inr (stopUnderway_iff.mpr (.inr ⟨id, p, hp, hat⟩))
  · rcases hd.supervision with hsup' | ⟨hsup', -⟩
    · exact hd.closed.trans (hs.closed (hsup' ▸ hsup))
    · cases hsup'.symm.trans hsup
  · exact hd.jobs i (hs.job us (hthreads ▸ hus) i hi)

theorem Stops.finds_job (hs : s.Stops) (hi : s.threads[i]? = some (t :: ts)) (id : PyStr)
    (ht : t = .stop id .latch) : (s.daemon.jobs.get? id).isSome = true :=
  hs.job _ (mem_of_getElem? hi) id (ht ▸ mem_cons_self)

theorem supervision_restart (h : (d.restart C env).2 = true) :
    (d.restart C env).1.supervision = .disarmed := by
  unfold Daemon.restart at h ⊢
  dsimp only at h ⊢
  split at h
  · exact nomatch h
  split at h
  · exact nomatch h
  split at h
  · exact nomatch h
  unfold Daemon.start at h ⊢
  split at h
  · exact nomatch h
  · simp_all

/-- **Every step keeps the flag, the latch and the threads in order.** -/
theorem stops_step (hsound : s.Sound) (hs : s.alive = true → s.Stops) (h : s.step C l = some s')
    (halive' : s'.alive = true) : s'.Stops := by
  cases l with
  | call c =>
    simp only [step, ite_none_right_eq_some, Bool.and_eq_true, Option.some.injEq] at h
    obtain ⟨⟨halive, -⟩, rfl⟩ := h
    have hs := hs halive
    refine ⟨fun ts hts => ?_, fun hflag => ?_, hs.closed, fun ts hts id hid => ?_⟩
    · rcases mem_append.mp hts with hts | hts
      · exact hs.orderly ts hts
      · obtain rfl := mem_singleton.mp hts
        exact orderly_tasks C _ c
    · refine (hs.flag hflag).imp_right fun hunder => stopUnderway_iff.mpr ?_
      rcases stopUnderway_iff.mp hunder with ⟨us, hus, hat⟩ | hworker
      · exact .inl ⟨us, mem_append_left _ hus, hat⟩
      · exact .inr hworker
    · rcases mem_append.mp hts with hts | hts
      · exact hs.job ts hts id hid
      · obtain rfl := mem_singleton.mp hts
        cases c with
        | armRuntime reason peer | disarmRuntime reason peer | issueExecutionPermit q peer =>
          simp only [Call.tasks] at hid
          split at hid <;> simp at hid
        | _ => simp [Call.tasks] at hid
  | run i env =>
    simp only [step] at h
    split at h
    · contradiction
    next halive =>
    split at h
    · next t ts hi =>
      obtain ⟨r, hr, rfl⟩ := map_eq_some_iff.mp h
      have halive : s.alive = true := by simpa using halive
      have hd := tracked_answered (hsound.tracked halive) env
      have hspec := Daemon.runSpec_exec (hsound.framed _ (mem_of_getElem? hi) t mem_cons_self)
        hd.filedJobs ((hs halive).finds_job hi) hr
      exact (hs halive).after_run hi ⟨hspec.workers, hspec.jobs, hspec.latched, hspec.orderly,
        hspec.closed, hspec.job, hspec.flag, hspec.supervision⟩ halive'
    · contradiction
  | work id env =>
    simp only [step] at h
    split at h
    · contradiction
    next halive =>
    obtain ⟨d, hd, rfl⟩ := map_eq_some_iff.mp h
    have hspec := Daemon.workSpec_work hd
    exact (hs (by simpa using halive)).of_work ⟨hspec.closed, hspec.jobs, hspec.latched, hspec.others,
      hspec.supervision, hspec.atLatch⟩ (threads_after halive')
  | pick id =>
    simp only [step] at h
    split at h
    · contradiction
    next halive =>
    obtain ⟨d, hd, rfl⟩ := map_eq_some_iff.mp h
    have halive : s.alive = true := by simpa using halive
    exact (hs halive).of_work (Daemon.workSpec_pick (hsound.tracked halive) hd) rfl
  | crash =>
    simp only [step, ite_none_right_eq_some, Option.some.injEq] at h
    obtain ⟨-, rfl⟩ := h
    contradiction
  | restart env =>
    simp only [step] at h
    split at h
    · contradiction
    cases h
    have hsup := supervision_restart (Bool.and_eq_true_iff.mp halive').1
    have hthreads : (s.after (s.daemon.restart C env).1 [] env).threads = [] := ite_self _
    refine ⟨fun ts hts => ?_, fun hflag => ?_, fun hflag => ?_, fun ts hts => ?_⟩
    · cases hthreads ▸ hts
    · cases hsup.symm.trans hflag
    · cases hsup.symm.trans hflag
    · cases hthreads ▸ hts

theorem stops_of_reachable (h : (controlPlane C).Reachable s) (halive : s.alive = true) : s.Stops :=
  h.invariant_of (P := fun s => s.alive = true → s.Stops) (fun _ => sound_of_reachable)
    (fun _ hinit halive => Bool.noConfusion (hinit.1.symm.trans halive))
    (fun _ _ _ hsound hs _ hstep => stops_step hsound hs hstep) halive

/-! ### A daemon that was stopped -/

/-- The step is one of `_arm_core` while a stop that raised the flag has not set the
latch. -/
def armsDuringStop (s : System) : Label → Bool
  | .run i _ => (s.threads[i]?.bind List.head?).any Task.isArm && s.stopUnderway
  | _ => false

theorem supervision_step (hsound : s.Sound) (hs : s.alive = true → s.Stops)
    (hl : l.isRestart = false) (harm : s.armsDuringStop l = false) (h : s.step C l = some s')
    (hstop : s.daemon.stopRequested = true) :
    (s'.daemon.supervision = s.daemon.supervision ∨ s'.daemon.halted = true) ∧
      (s.daemon.latched = true → s'.daemon.latched = true) := by
  cases l with
  | call c =>
    simp only [step, ite_none_right_eq_some, Option.some.injEq] at h
    obtain ⟨-, rfl⟩ := h
    exact ⟨.inl rfl, id⟩
  | run i env =>
    simp only [step] at h
    split at h
    · contradiction
    next halive =>
    split at h
    · next t ts hi =>
      obtain ⟨r, hr, rfl⟩ := map_eq_some_iff.mp h
      have halive : s.alive = true := by simpa using halive
      have hs := hs halive
      have hspec := Daemon.runSpec_exec (hsound.framed _ (mem_of_getElem? hi) t mem_cons_self)
        (tracked_answered (hsound.tracked halive) env).filedJobs (hs.finds_job hi) hr
      refine ⟨?_, hspec.latched⟩
      rcases hspec.supervision with hsame | hhalted | ⟨-, ⟨reason, peer, rfl⟩, hlat, hclosed⟩
      · exact .inl hsame
      · exact .inr hhalted
      -- `_arm_core` sees neither the latch nor that the daemon is closed
      have hlat : s.daemon.latched = false := hlat
      have hclosed : s.daemon.closed = false := hclosed
      simp only [armsDuringStop, hi, bind_some, List.head?_cons, any_some, Task.isArm,
        Bool.true_and] at harm
      simp only [Daemon.stopRequested, hlat, Bool.or_false, Daemon.halted, Bool.or_eq_true,
        decide_eq_true_eq] at hstop
      rcases hstop with hstop | hstop
      · rcases hs.flag hstop with h' | h'
        · exact Bool.noConfusion (hlat.symm.trans h')
        · exact Bool.noConfusion (harm.symm.trans h')
      · exact Bool.noConfusion (hclosed.symm.trans (hs.closed hstop))
    · contradiction
  | work id env =>
    simp only [step] at h
    split at h
    · contradiction
    obtain ⟨d, hd, rfl⟩ := map_eq_some_iff.mp h
    have hspec := Daemon.workSpec_work hd
    refine ⟨hspec.supervision.imp_right fun hsup => ?_, hspec.latched⟩
    show d.halted = true
    simp [Daemon.halted, hsup.1]
  | pick id =>
    simp only [step] at h
    split at h
    · contradiction
    next halive =>
    obtain ⟨d, hd, rfl⟩ := map_eq_some_iff.mp h
    have hspec := Daemon.workSpec_pick (hsound.tracked (by simpa using halive)) hd
    refine ⟨hspec.supervision.imp_right fun hsup => ?_, hspec.latched⟩
    show d.halted = true
    simp [Daemon.halted, hsup.1]
  | crash =>
    simp only [step, ite_none_right_eq_some, Option.some.injEq] at h
    obtain ⟨-, rfl⟩ := h
    exact ⟨.inl rfl, id⟩
  | restart env => contradiction

/-- A step of a started process that is not one of `_arm_core` during a stop. -/
def KeepsStopped (s : System) (l : Label) : Prop := l.isRestart = false ∧ s.armsDuringStop l = false

instance (s : System) (l : Label) : Decidable (s.KeepsStopped l) := by
  unfold KeepsStopped
  infer_instance

theorem stopRequested_step (hs : (controlPlane C).Reachable s) (hl : s.KeepsStopped l)
    (h : (controlPlane C).step s l = some s') :
    (s.daemon.halted = true → s'.daemon.halted = true) ∧
      (s.daemon.stopRequested = true → s'.daemon.stopRequested = true ∧
        (s.daemon.supervision ≠ .armed → s'.daemon.supervision ≠ .armed)) := by
  have hstep := supervision_step (sound_of_reachable hs) (stops_of_reachable hs) hl.1 hl.2 h
  have hhalted : s.daemon.halted = true → s'.daemon.halted = true := by
    intro hhalted
    rcases (hstep (Bool.or_eq_true_iff.mpr (.inl hhalted))).1 with hsame | hhalted'
    · rw [Daemon.halted, hsame]
      exact hhalted
    · exact hhalted'
  refine ⟨hhalted, fun hstop => ⟨?_, fun hne => ?_⟩⟩
  · rcases Bool.or_eq_true_iff.mp hstop with hstop' | hlat
    · exact Bool.or_eq_true_iff.mpr (.inl (hhalted hstop'))
    · exact Bool.or_eq_true_iff.mpr (.inr ((hstep hstop).2 hlat))
  · rcases (hstep hstop).1 with hsame | hhalted'
    · rwa [hsame]
    · intro harmed
      simp [Daemon.halted, harmed] at hhalted'

/-- **A daemon that was stopped stays stopped**: as long as `_arm_core` does not run
between the two stretches of a stop, the supervision state of a started process never
leaves ESTOPPED and STOPPING, and it does not become ARMED once a stop was requested. -/
theorem stays_stopped {t t' : System} {l : Label} (hs : (controlPlane C).Reachable s)
    (hpath : (controlPlane C).PathUnder KeepsStopped s t) (hl : t.KeepsStopped l)
    (hstep : (controlPlane C).step t l = some t') :
    (s.daemon.halted = true → t'.daemon.halted = true) ∧
      (s.daemon.stopRequested = true → t.daemon.supervision ≠ .armed →
        t'.daemon.supervision ≠ .armed) := by
  have ht := hpath.reachable (fun _ _ _ => trivial) hs
  have hkept : (s.daemon.halted = true → t.daemon.halted = true) ∧
      (s.daemon.stopRequested = true → t.daemon.stopRequested = true) :=
    hpath.invariant_of (P := fun t => (s.daemon.halted = true → t.daemon.halted = true) ∧
      (s.daemon.stopRequested = true → t.daemon.stopRequested = true)) (fun _ _ _ => trivial) hs
      (fun _ h => h)
      (fun u k u' hu ih hk hstep =>
        ⟨fun h => (stopRequested_step hu hk hstep).1 (ih.1 h),
          fun h => ((stopRequested_step hu hk hstep).2 (ih.2 h)).1⟩) ⟨id, id⟩
  exact ⟨fun h => (stopRequested_step ht hl hstep).1 (hkept.1 h),
    fun h => ((stopRequested_step ht hl hstep).2 (hkept.2 h)).2⟩

def stoppedDaemon : List Label :=
  [.restart {}, .call (.armRuntime "ready" ⟨1, 0, 0⟩), .run 0 {}, .call .emergencyStop, .run 1 {}]

def armedAgain : List Label := [.run 1 {}, .call (.armRuntime "again" ⟨1, 0, 0⟩)]

theorem stays_stopped_emergencyStop :
    ∃ s t t', (controlPlane (.small [])).run .blank stoppedDaemon = some s ∧
      (controlPlane (.small [])).runUnder KeepsStopped s armedAgain = some t ∧
      (controlPlane (.small [])).step t (.run 2 {}) = some t' ∧
      s.daemon.supervision = .estopped ∧ t'.daemon.halted = true := by
  have hrun : (((controlPlane (.small [])).run .blank stoppedDaemon).bind fun s =>
      ((controlPlane (.small [])).runUnder KeepsStopped s armedAgain).bind fun t =>
        ((controlPlane (.small [])).step t (.run 2 {})).map fun _ =>
          (s.daemon.supervision, decide (t.KeepsStopped (.run 2 {})))) = some (.estopped, true) := by
    decide +kernel
  obtain ⟨s, hs, hrun⟩ := Option.bind_eq_some_iff.mp hrun
  obtain ⟨t, ht, hrun⟩ := Option.bind_eq_some_iff.mp hrun
  obtain ⟨t', ht', hout⟩ := Option.map_eq_some_iff.mp hrun
  rw [Prod.mk.injEq, decide_eq_true_eq] at hout
  have hstays := stays_stopped (.of_run (init_blank _) hs) (.of_runUnder ht) hout.2 ht'
  exact ⟨s, t, t', hs, ht, ht', hout.1, hstays.1 (by simp [Daemon.halted, hout.1])⟩

/-- **An operator takes the flag of a stop back**, before the stop has set the latch. -/
theorem armed_during_stop :
    ∃ s t, (controlPlane (.small [])).Reachable s ∧
      (controlPlane (.small [])).PathUnder (fun _ l => l.isRestart = false) s t ∧
      s.daemon.supervision = .estopped ∧ t.daemon.supervision = .armed := by
  have hrun : (((controlPlane (.small [])).run .blank [.restart {},
      .call (.armRuntime "ready" ⟨1, 0, 0⟩), .call .emergencyStop, .run 1 {}]).bind fun s =>
        ((controlPlane (.small [])).runUnder (fun _ l => l.isRestart = false) s [.run 0 {}]).map
          fun t => (s.daemon.supervision, t.daemon.supervision)) = some (.estopped, .armed) := by
    decide +kernel
  obtain ⟨s, hs, hrun⟩ := Option.bind_eq_some_iff.mp hrun
  obtain ⟨t, ht, hout⟩ := Option.map_eq_some_iff.mp hrun
  rw [Prod.mk.injEq] at hout
  exact ⟨s, t, .of_run (init_blank _) hs, .of_runUnder ht, hout.1, hout.2⟩

end System

end Rosclaw
