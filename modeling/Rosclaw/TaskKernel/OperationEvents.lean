/-
The state of an operation and its terminal event.

* `OpStep` — what a write can do to the state of an operation and to its terminal events;
* `Progress` — some such writes one after the other; every segment but a failing reader
  makes progress (`progress_resume`, `progress_step`);
* `Onward` — terminal states stay, and `CANCELING` is left to `CANCELLED` only;
* `terminal_told_once` — the two over any interleaving, the second where no reader fails;
* `reader_error_tells_twice` — an operation with two terminal events.
-/
import Rosclaw.TaskKernel.OperationManager
import Mathlib.Logic.Relation

namespace Rosclaw.Operations

open Relation

variable {s s' s'' : Manager} {op op' : PyStr} {now : Int}

namespace Manager

def stateOf (s : Manager) (op : PyStr) : Option OperationState :=
  (s.operations.get? op).map Operation.state

def terminalEvents (s : Manager) (op : PyStr) : List TaskEvent :=
  s.events.filter fun e => e.operationId = op ∧ e.eventType.terminal = true

end Manager

def TaskEvent.Names (e : TaskEvent) (o : Outcome) : Prop :=
  e.eventType = o.event ∧ e.payload.get "state" = .str o.state.name

/-! ### What a write can do -/

/-- What a write can do to an operation: nothing, make it, move it between states that are
not terminal, or end it with its event. -/
inductive OpStep (op : PyStr) (s s' : Manager) : Prop
  | same (hstate : s'.stateOf op = s.stateOf op)
      (hevents : s'.terminalEvents op = s.terminalEvents op)
  | made {st : OperationState} (habsent : s.stateOf op = none) (hstate : s'.stateOf op = some st)
      (hst : st.terminal = false) (hevents : s'.terminalEvents op = s.terminalEvents op)
  | moved {st st' : OperationState} (hold : s.stateOf op = some st) (hst : st.terminal = false)
      (hstate : s'.stateOf op = some st') (hst' : st'.terminal = false)
      (hcanceling : st = .canceling → st' = .canceling)
      (hevents : s'.terminalEvents op = s.terminalEvents op)
  | ended {st : OperationState} {o : Outcome} {e : TaskEvent} (hold : s.stateOf op = some st)
      (hst : st.terminal = false) (hcanceling : st = .canceling → o = .cancelled)
      (hstate : s'.stateOf op = some o.state) (hnames : e.Names o)
      (hevents : s'.terminalEvents op = s.terminalEvents op ++ [e])

def Progress (s s' : Manager) : Prop := ∀ op, ReflTransGen (OpStep op) s s'

theorem Progress.refl (s : Manager) : Progress s s := fun _ => .refl

theorem Progress.trans (h : Progress s s') (h' : Progress s' s'') : Progress s s'' :=
  fun op => (h op).trans (h' op)

theorem Progress.of_steps (h : ∀ op, OpStep op s s') : Progress s s' := fun op => .single (h op)

theorem Progress.of_tables (hops : s'.operations = s.operations) (hevents : s'.events = s.events) :
    Progress s s' := by
  refine .of_steps fun op => .same ?_ ?_
  · rw [Manager.stateOf, hops]
    rfl
  · rw [Manager.terminalEvents, hevents]
    rfl

theorem stateOf_update (s : Manager) (op op' : PyStr) (f : Operation → Operation) :
    (s.update op f).stateOf op'
      = (s.operations.get? op').map fun r => (if op' = op then f r else r).state := by
  rw [Manager.stateOf, Manager.update, Dict.get?_mapVals, Option.map_map]
  rfl

theorem stateOf_update_of_ne (f : Operation → Operation) (h : op' ≠ op) :
    (s.update op f).stateOf op' = s.stateOf op' := by
  rw [stateOf_update, Manager.stateOf]
  simp [h]

@[simp] theorem stateOf_emit (s : Manager) (taskId : PyStr) (ev : EventType)
    (payload : List (PyStr × PyVal)) (op attemptId op' : PyStr) (now : Int) :
    (s.emit taskId ev payload op attemptId now).stateOf op' = s.stateOf op' := rfl

@[simp] theorem terminalEvents_update (s : Manager) (op op' : PyStr) (f : Operation → Operation) :
    (s.update op f).terminalEvents op' = s.terminalEvents op' := rfl

theorem terminalEvents_emit (s : Manager) (taskId : PyStr) (ev : EventType)
    (payload : List (PyStr × PyVal)) (op attemptId op' : PyStr) (now : Int) :
    (s.emit taskId ev payload op attemptId now).terminalEvents op' = s.terminalEvents op' ++
      if op = op' ∧ ev.terminal = true then [⟨taskId, attemptId, op, ev, .dict payload, now⟩]
      else [] := by
  rw [Manager.terminalEvents, Manager.emit, List.filter_append, Manager.terminalEvents]
  congr 1
  by_cases h : op = op' ∧ ev.terminal = true
  · simp [h]
  · rw [if_neg h]
    simp only [List.filter_cons, List.filter_nil]
    rw [if_neg (by simpa using h)]

theorem progress_emit (s : Manager) (taskId : PyStr) {ev : EventType} (hev : ev.terminal = false)
    (payload : List (PyStr × PyVal)) (op attemptId : PyStr) (now : Int) :
    Progress s (s.emit taskId ev payload op attemptId now) := by
  refine .of_steps fun op' => .same rfl ?_
  rw [terminalEvents_emit]
  simp [hev]

variable {f : Operation → Operation} {l : Label} {message ref : PyStr} {r : List Thread × Manager}
  {st : OperationState} {t : Thread}

theorem progress_update (s : Manager) (op : PyStr) (hf : ∀ r, (f r).state = r.state) :
    Progress s (s.update op f) := by
  refine .of_steps fun op' => .same ?_ (terminalEvents_update s op op' f)
  rw [stateOf_update, Manager.stateOf]
  refine Option.map_congr ?_
  intro r _
  split
  · exact hf r
  · rfl

theorem progress_move {r : Operation} (hrow : s.operations.get? op = some r)
    (hold : r.state.terminal = false) (hf : ∀ r, (f r).state = st) (hst : st.terminal = false)
    (hcanceling : r.state = .canceling → st = .canceling) : Progress s (s.update op f) := by
  refine .of_steps fun op' => ?_
  by_cases h : op' = op
  · subst h
    refine .moved ?_ hold ?_ hst hcanceling rfl
    · rw [Manager.stateOf, hrow]
      rfl
    · rw [stateOf_update, hrow]
      simp [hf]
  · exact .same (stateOf_update_of_ne f h) rfl

/-! ### The guarded writes -/

theorem progress_transition (s : Manager) (op : PyStr) {ev : Option EventType}
    (hst : st.terminal = false) (hev : ∀ e, ev = some e → e.terminal = false)
    (payload : List (PyStr × PyVal)) (now : Int) :
    Progress s (s.transition op st ev payload now) := by
  unfold Manager.transition
  split
  · exact .refl s
  · next r hrow =>
    split
    · exact .refl s
    · next hguard =>
      rw [not_or, Bool.not_eq_true] at hguard
      have hne : st ≠ .cancelled := by
        rintro rfl
        cases hst
      have hmove : Progress s (s.update op fun r' => { r' with state := st, heartbeatAt := now }) := by
        refine progress_move hrow hguard.1 (by intro r'; rfl) hst ?_
        intro hcanceling
        exact absurd ⟨hcanceling, hne⟩ hguard.2
      split
      · exact hmove
      · next e => exact hmove.trans (progress_emit _ _ (hev e rfl) _ _ _ _)

theorem progress_touch (s : Manager) (op : PyStr) (now : Int) : Progress s (s.touch op now) := by
  unfold Manager.touch
  split
  · exact .refl s
  · split
    · exact .refl s
    · exact progress_update s op (by intro r; rfl)

/-- **A terminal state is written with its event**, once and not over a cancellation. -/
theorem progress_writeTerminal (s : Manager) (op : PyStr) (o : Outcome) (code ref : PyStr) (now : Int) :
    Progress s (s.writeTerminal op o code ref now) := by
  unfold Manager.writeTerminal
  split
  · exact .refl s
  · next r hrow =>
    split
    · exact .refl s
    · next hterminal =>
      split
      · exact .refl s
      · next hguard =>
        refine .of_steps fun op' => ?_
        by_cases h : op' = op
        · subst h
          have hlive : r.state.terminal = false := by simpa using hterminal
          refine .ended (o := o) ?_ hlive ?_ ?_
            (e := ⟨r.taskId, "", op', o.event, .dict [("operation_id", .str op'),
              ("state", .str o.state.name), ("failure_code", .str code)], now⟩) ⟨rfl, rfl⟩ ?_
          · rw [Manager.stateOf, hrow]
            rfl
          · intro hcanceling
            by_contra hne
            exact hguard ⟨hcanceling, hne⟩
          · rw [stateOf_emit, stateOf_update, hrow]
            simp
          · rw [terminalEvents_emit, terminalEvents_update, if_pos ⟨rfl, o.event_terminal⟩]
        · refine .same (stateOf_update_of_ne _ h) ?_
          have hne : ¬ (op = op' ∧ o.event.terminal = true) := fun heq => h heq.1.symm
          rw [terminalEvents_emit, terminalEvents_update, if_neg hne, List.append_nil]

/-! ### The segments -/

theorem progress_enqueue {row : Operation} (habsent : s.operations.get? op = none)
    (hst : row.state.terminal = false) (payload : List (PyStr × PyVal)) (now : Int) :
    Progress s (s.enqueue op row payload now) := by
  refine .of_steps fun op' => ?_
  have hget := Dict.get?_set s.operations op op' row
  have hevents : (s.enqueue op row payload now).terminalEvents op' = s.terminalEvents op' := by
    rw [Manager.enqueue, terminalEvents_emit, if_neg (by simp [EventType.terminal]), List.append_nil]
    rfl
  by_cases h : op = op'
  · subst h
    refine .made ?_ ?_ hst hevents
    · rw [Manager.stateOf, habsent]
      rfl
    · show ((s.operations.set op row).get? op).map Operation.state = _
      rw [hget, if_pos rfl]
      rfl
  · refine .same ?_ hevents
    show ((s.operations.set op row).get? op').map Operation.state = _
    rw [hget, if_neg h]
    rfl

theorem not_contains {d : Dict PyStr Operation} (h : ¬ d.contains op = true) : d.get? op = none := by
  rwa [Dict.contains, Bool.not_eq_true, Option.isSome_eq_false_iff, Option.isNone_iff_eq_none] at h

theorem progress_spawnThread (s : Manager) (t : Thread) : Progress s (s.spawnThread t) :=
  .of_tables rfl rfl

theorem progress_goalSent (s : Manager) (op goalId : PyStr) : Progress s (s.goalSent op goalId) :=
  .of_tables rfl rfl

theorem progress_processSpawned (s : Manager) (op : PyStr) (pid : Nat) :
    Progress s (s.processSpawned op pid) := .of_tables rfl rfl

theorem progress_start {a : Manager.StartArgs} (h : s.start op a now = some s') : Progress s s' := by
  unfold Manager.start at h
  split at h
  · cases h
  · next hnew =>
    rw [← Option.some.inj h]
    exact (progress_enqueue (not_contains hnew) rfl _ _).trans (progress_spawnThread _ _)

theorem progress_actionAdmitted (s : Manager) (op : PyStr) (a : Manager.ActionArgs) (now : Int) :
    Progress s (s.actionAdmitted op a now) := by
  refine (progress_goalSent _ _ _).trans
    ((progress_transition _ _ rfl ?_ _ _).trans (progress_transition _ _ rfl ?_ _ _))
  · intro e he
    rw [← Option.some.inj he]
    rfl
  · intro e he
    cases he

theorem progress_startAction {a : Manager.ActionArgs} {sent : Bool}
    (h : s.startAction op a sent now = some s') : Progress s s' := by
  unfold Manager.startAction at h
  split at h
  · cases h
  · next hnew =>
    have hqueued : Progress s (s.actionQueued op a now) :=
      progress_enqueue (not_contains hnew) rfl _ _
    split at h
    · rw [← Option.some.inj h]
      exact hqueued.trans (progress_actionAdmitted _ _ _ _)
    · rw [← Option.some.inj h]
      exact hqueued

theorem progress_admitted (s : Manager) (op : PyStr) (argv : List PyStr) (pid : Nat) (now : Int) :
    Progress s (s.admitted op argv pid now) := by
  unfold Manager.admitted
  refine (progress_processSpawned _ _ _).trans ((progress_transition _ _ rfl ?_ _ _).trans
    (progress_update _ _ (by intro r; rfl)))
  intro e he
  rw [← Option.some.inj he]
  rfl

theorem progress_outputLine (s : Manager) (d : Driver) (text : PyStr) (now : Int) :
    Progress s (s.outputLine d text now) :=
  (progress_touch _ _ _).trans (progress_emit _ _ (show EventType.output.terminal = false from rfl) _ _ _ _)

theorem progress_popHandle (s : Manager) (op : PyStr) : Progress s (s.popHandle op) :=
  .of_tables rfl rfl

theorem progress_driverExit (s : Manager) (op : PyStr) (rc now : Int) :
    Progress s (s.driverExit op rc now) := by
  unfold Manager.driverExit
  split
  · exact progress_popHandle s op
  · split
    · exact progress_popHandle s op
    · exact (progress_popHandle s op).trans (progress_writeTerminal _ _ _ _ _ _)

theorem progress_signal (s : Manager) (op : PyStr) : Progress s (s.signal op) := .of_tables rfl rfl

theorem progress_cancelMarked (s : Manager) (op reason : PyStr) (now : Int) :
    Progress s (s.cancelMarked op reason now) := by
  unfold Manager.cancelMarked
  split
  · exact progress_spawnThread _ _
  · split
    · exact (progress_popHandle _ _).trans ((progress_signal _ _).trans (progress_spawnThread _ _))
    · exact (progress_popHandle _ _).trans (progress_writeTerminal _ _ _ _ _ _)

theorem progress_cancel (s : Manager) (op reason : PyStr) (now : Int) :
    Progress s (s.cancel op reason now) := by
  unfold Manager.cancel
  split
  · exact .refl s
  · next r hrow =>
    split
    · exact .refl s
    · next hterminal =>
      have hmark : Progress s (s.markCanceling op r reason now) :=
        (progress_move hrow (by simpa using hterminal) (by intro r'; rfl) rfl fun _ => rfl).trans
          (progress_emit _ _ rfl _ _ _ _)
      exact hmark.trans (progress_cancelMarked _ _ _ _)

theorem progress_reportProgress (s : Manager) (op : PyStr) (progress : PyVal) (now : Int) :
    Progress s (s.reportProgress op progress now) := by
  unfold Manager.reportProgress
  split
  · exact .refl s
  · split
    · exact .refl s
    · exact (progress_touch _ _ _).trans ((progress_update _ _ (by intro r; rfl)).trans
        (progress_emit _ _ (show EventType.progress.terminal = false from rfl) _ _ _ _))

theorem progress_forgetGoal (s : Manager) (op : PyStr) : Progress s (s.forgetGoal op) :=
  .of_tables rfl rfl

theorem progress_onResult {status : Int} (h : s.onResult op status ref now = some s') :
    Progress s s' := by
  unfold Manager.onResult at h
  split at h
  · rw [← Option.some.inj h]
    exact (progress_forgetGoal _ _).trans (progress_writeTerminal _ _ _ _ _ _)
  · cases h

theorem progress_foldl {f : Manager → PyStr × Operation → Manager} (hf : ∀ s e, Progress s (f s e))
    (es : List (PyStr × Operation)) (s : Manager) : Progress s (es.foldl f s) := by
  induction es generalizing s with
  | nil => exact .refl s
  | cons e es ih => exact (hf s e).trans (ih (f s e))

theorem progress_sweepRow (staleAfter now : Int) (s : Manager) (e : PyStr × Operation) :
    Progress s (s.sweepRow staleAfter now e) := by
  unfold Manager.sweepRow
  split
  · split
    · refine progress_transition _ _ rfl ?_ _ _
      intro ev hev
      rw [← Option.some.inj hev]
      rfl
    · exact .refl s
  · split
    · refine progress_transition _ _ rfl ?_ _ _
      intro ev hev
      rw [← Option.some.inj hev]
      rfl
    · exact .refl s

theorem progress_recoverRow (alive : Nat → Bool) (now : Int) (s : Manager) (e : PyStr × Operation) :
    Progress s (s.recoverRow alive now e) := by
  unfold Manager.recoverRow
  split
  · exact progress_writeTerminal _ _ _ _ _ _
  · split
    · refine (progress_transition _ _ rfl ?_ _ _).trans (.of_tables rfl rfl)
      intro ev hev
      rw [← Option.some.inj hev]
      rfl
    · exact progress_writeTerminal _ _ _ _ _ _

theorem progress_watchEnd (s : Manager) (op path : PyStr) (now : Int) :
    Progress s (s.watchEnd op path now) := by
  unfold Manager.watchEnd
  split
  · exact .refl s
  · split
    · exact .refl s
    · split <;> exact progress_writeTerminal _ _ _ _ _ _

theorem progress_resume {a : Answer} (ha : ∀ message, a ≠ .readerError message)
    (h : s.resume now t a = some r) : Progress s r.2 := by
  unfold Manager.resume at h
  split at h
  · rw [← Option.some.inj h]
    exact progress_admitted _ _ _ _ _
  · rw [← Option.some.inj h]
    exact .refl s
  · next d =>
    rw [← Option.some.inj h]
    show Progress s (s.transition d.operationId .running none [] now)
    refine progress_transition _ _ rfl ?_ _ _
    intro ev hev
    cases hev
  · rw [← Option.some.inj h]
    exact progress_outputLine _ _ _ _
  · rw [← Option.some.inj h]
    exact .refl s
  · next message => exact absurd rfl (ha message)
  · obtain ⟨rc, -, hr⟩ := Option.map_eq_some_iff.mp h
    rw [← hr]
    exact progress_driverExit _ _ _ _
  · obtain ⟨rc, -, hr⟩ := Option.map_eq_some_iff.mp h
    rw [← hr]
    exact progress_writeTerminal _ _ _ _ _ _
  · rw [← Option.some.inj h]
    exact (progress_signal _ _).trans (progress_writeTerminal _ _ _ _ _ _)
  · rw [← Option.some.inj h]
    exact progress_writeTerminal _ _ _ _ _ _
  · split at h
    · rw [← Option.some.inj h]
      exact .refl s
    · rw [← Option.some.inj h]
      exact progress_watchEnd _ _ _ _
  · cases h

def Label.ReadsOutput (l : Label) : Prop := ∀ i message now, l ≠ .turn i (.readerError message) now

theorem progress_step (hl : l.ReadsOutput) (h : s.step l = some s') : Progress s s' := by
  cases l with
  | start op a now => exact progress_start h
  | startAction op a sent now => exact progress_startAction h
  | cancel op reason now =>
    rw [← Option.some.inj h]
    exact progress_cancel _ _ _ _
  | feedback op progress now =>
    rw [feedback_eq h]
    exact progress_reportProgress _ _ _ _
  | result op status ref now => exact progress_onResult h
  | sweep staleAfter now =>
    rw [← Option.some.inj h]
    exact progress_foldl (progress_sweepRow staleAfter now) _ _
  | recover alive now =>
    rw [← Option.some.inj h]
    exact progress_foldl (progress_recoverRow alive now) _ _
  | turn i a now =>
    obtain ⟨t, r, -, hresume, rfl⟩ := turn_eq h
    have ha : ∀ message, a ≠ .readerError message := by
      rintro message rfl
      exact hl i message now rfl
    exact (progress_resume ha hresume).trans (.of_tables rfl rfl)
  | restart =>
    rw [← Option.some.inj h]
    exact .of_tables rfl rfl
  | exits op =>
    obtain ⟨p, -, rfl⟩ := exits_eq h
    exact .of_tables rfl rfl
  | reaped op rc =>
    obtain ⟨p, -, -, rfl⟩ := reaped_eq h
    exact .of_tables rfl rfl
  | command op =>
    obtain ⟨p, c, -, -, rfl⟩ := command_eq h
    exact .of_tables rfl rfl
  | exitFile path code =>
    rw [exitFile_eq h]
    exact .of_tables rfl rfl

/-! ### States go one way -/

/-- The operation is still there; a terminal state stays, and `CANCELING` stays or becomes
`CANCELLED`. -/
def Onward (op : PyStr) (s s' : Manager) : Prop :=
  ∀ st, s.stateOf op = some st → ∃ st', s'.stateOf op = some st' ∧
    (st.terminal = true → st' = st) ∧ (st = .canceling → st' = .canceling ∨ st' = .cancelled)

theorem Onward.refl (op : PyStr) (s : Manager) : Onward op s s :=
  fun st hst => ⟨st, hst, fun _ => rfl, fun h => .inl h⟩

theorem Onward.trans (h : Onward op s s') (h' : Onward op s' s'') : Onward op s s'' := by
  intro st hst
  obtain ⟨st', hst', hterminal, hcanceling⟩ := h st hst
  obtain ⟨st'', hst'', hterminal', hcanceling'⟩ := h' st' hst'
  refine ⟨st'', hst'', ?_, ?_⟩
  · intro ht
    obtain rfl := hterminal ht
    exact hterminal' ht
  · intro hc
    rcases hcanceling hc with rfl | rfl
    · exact hcanceling' rfl
    · exact .inr (hterminal' rfl)

theorem OpStep.onward (h : OpStep op s s') : Onward op s s' := by
  intro st hst
  cases h with
  | same hstate hevents => exact ⟨st, hstate.trans hst, fun _ => rfl, fun h => .inl h⟩
  | made habsent hstate _ _ =>
    rw [habsent] at hst
    cases hst
  | @moved st₀ st' hold hnot hstate hst' hcanceling hevents =>
    rw [hold] at hst
    cases hst
    refine ⟨st', hstate, ?_, fun h => .inl (hcanceling h)⟩
    intro ht
    rw [hnot] at ht
    cases ht
  | @ended st₀ o e hold hnot hcanceling hstate hnames hevents =>
    rw [hold] at hst
    cases hst
    refine ⟨o.state, hstate, ?_, ?_⟩
    · intro ht
      rw [hnot] at ht
      cases ht
    · intro hc
      rw [hcanceling hc]
      exact .inr rfl

theorem Progress.onward (h : Progress s s') (op : PyStr) : Onward op s s' := by
  have hsteps := h op
  clear h
  induction hsteps with
  | refl => exact Onward.refl op s
  | tail _ hstep ih => exact ih.trans hstep.onward

theorem resume_readerError (h : s.resume now t (.readerError message) = some r) :
    ∃ d, t = .reading d ∧ r = ([.waiting d], s.readerFailed d message now) := by
  cases t with
  | reading d => exact ⟨d, rfl, (Option.some.inj h).symm⟩
  | spawning d argv => cases h
  | entering d => cases h
  | waiting d => cases h
  | cancelling op reason => cases h
  | grace op reason => cases h
  | watching op pid path => cases h

theorem onward_step (h : s.step l = some s') (op : PyStr) : Onward op s s' := by
  by_cases hl : l.ReadsOutput
  · exact (progress_step hl h).onward op
  · rw [Label.ReadsOutput] at hl
    push Not at hl
    obtain ⟨i, message, now, rfl⟩ := hl
    have hrun : s.turn i (.readerError message) now = some s' := h
    unfold Manager.turn at hrun
    split at hrun
    · cases hrun
    · next t ht =>
      obtain ⟨r, hresume, hr⟩ := Option.map_eq_some_iff.mp hrun
      obtain ⟨d, -, rfl⟩ := resume_readerError hresume
      rw [← hr]
      exact Onward.refl op s

/-- **Between two states of any run** the state of an operation goes one way. -/
theorem onward_of_path (h : operationManager.PathUnder (fun _ _ => True) s s') (op : PyStr) :
    Onward op s s' := by
  induction h with
  | refl => exact Onward.refl op s
  | step _ _ hstep ih => exact ih.trans (onward_step hstep op)

/-! ### The terminal event -/

/-- The terminal event of the operation is there exactly when its state is terminal, once,
and names that state. -/
def Told (op : PyStr) (s : Manager) : Prop :=
  (∀ st, s.stateOf op = some st → st.terminal = true →
    ∃ o e, o.state = st ∧ s.terminalEvents op = [e] ∧ e.Names o) ∧
  ((∀ st, s.stateOf op = some st → st.terminal = false) → s.terminalEvents op = [])

theorem OpStep.told (h : OpStep op s s') (hs : Told op s) : Told op s' := by
  cases h with
  | same hstate hevents =>
    rw [Told, hstate, hevents]
    exact hs
  | @made st habsent hstate hst hevents =>
    have hnone : s.terminalEvents op = [] := by
      refine hs.2 ?_
      intro st' hst'
      rw [habsent] at hst'
      cases hst'
    rw [Told, hstate, hevents]
    refine ⟨?_, fun _ => hnone⟩
    intro st' hst' ht
    rw [← Option.some.inj hst', hst] at ht
    cases ht
  | @moved st st' hold hst hstate hst' hcanceling hevents =>
    have hnone : s.terminalEvents op = [] := by
      refine hs.2 ?_
      intro st₀ hst₀
      rw [hold] at hst₀
      rw [← Option.some.inj hst₀, hst]
    rw [Told, hstate, hevents]
    refine ⟨?_, fun _ => hnone⟩
    intro st₀ hst₀ ht
    rw [← Option.some.inj hst₀, hst'] at ht
    cases ht
  | @ended st o e hold hst hcanceling hstate hnames hevents =>
    have hnone : s.terminalEvents op = [] := by
      refine hs.2 ?_
      intro st₀ hst₀
      rw [hold] at hst₀
      rw [← Option.some.inj hst₀, hst]
    rw [hnone, List.nil_append] at hevents
    rw [Told, hstate, hevents]
    refine ⟨?_, ?_⟩
    · intro st' hst' _
      exact ⟨o, e, Option.some.inj hst', rfl, hnames⟩
    · intro hnot
      have ht := hnot o.state rfl
      rw [o.state_terminal] at ht
      cases ht

theorem Progress.told (h : Progress s s') (hs : Told op s) : Told op s' := by
  have hsteps := h op
  clear h
  induction hsteps with
  | refl => exact hs
  | tail _ hstep ih => exact hstep.told ih

/-- **Over any interleaving** terminal states stay and `CANCELING` is left to `CANCELLED`
only; and where no reader raises, every operation has its terminal event exactly when its
state is terminal. -/
theorem terminal_told_once (op : PyStr) :
    (∀ s s', operationManager.Reachable s →
      operationManager.PathUnder (fun _ _ => True) s s' → Onward op s s') ∧
    ∀ s, operationManager.ReachableUnder (fun _ l => l.ReadsOutput) s → Told op s := by
  refine ⟨?_, ?_⟩
  · intro s s' _ hpath
    exact onward_of_path hpath op
  · intro s h
    refine h.invariant (P := Told op) ?_ ?_
    · rintro s ⟨directory, rfl⟩
      refine ⟨?_, fun _ => rfl⟩
      intro st hst
      cases hst
    · intro s l s' hs hl hstep
      exact (progress_step hl hstep).told hs

/-- A process that is driven to its end; `a` is what its reader gets last. -/
def drivenRun (a : Answer) : List Label :=
  [.start "op" ⟨"task", "attempt", "render", ["render"], false, "goal", "process", none⟩ 0,
    .turn 0 (.spawned 7) 1, .turn 0 .go 2, .turn 0 a 3, .exits "op", .reaped "op" 0,
    .turn 0 .exited 4]

instance (l : Label) : Decidable l.ReadsOutput :=
  match l with
  | .turn _ (.readerError message) _ =>
      .isFalse fun h => h _ message _ rfl
  | .turn _ .go _ | .turn _ (.spawned _) _ | .turn _ .spawnFailed _ | .turn _ (.line _) _
  | .turn _ .eof _ | .turn _ .exited _ | .turn _ .timeout _ | .turn _ (.alive _) _ | .start _ _ _
  | .startAction _ _ _ _ | .cancel _ _ _ | .feedback _ _ _ | .result _ _ _ _ | .sweep _ _
  | .recover _ _ | .restart | .exits _ | .reaped _ _ | .command _
  | .exitFile _ _ =>
      .isTrue (by rintro i message now h; cases h)

/-- A process whose output ends. -/
theorem terminal_told_once_eof : ∃ s, s.stateOf "op" = some .succeeded ∧ Told "op" s := by
  have hrun : ∃ s, operationManager.runUnder (fun _ l => l.ReadsOutput) (Manager.fresh "operations")
      (drivenRun .eof) = some s ∧ s.stateOf "op" = some .succeeded := ⟨_, rfl, rfl⟩
  obtain ⟨s, hs, hstate⟩ := hrun
  exact ⟨s, hstate, (terminal_told_once "op").2 s (.of_runUnder ⟨"operations", rfl⟩ hs)⟩

/-- A line that is too long for the reader: the operation has failed and completed. -/
theorem reader_error_tells_twice : ∃ s, operationManager.Reachable s ∧
    s.stateOf "op" = some .succeeded ∧
    (s.terminalEvents "op").map TaskEvent.eventType = [.failed, .completed] ∧ ¬ Told "op" s := by
  have hrun : ∃ s, operationManager.run (Manager.fresh "operations")
      (drivenRun (.readerError "Separator is not found, and chunk exceed the limit")) = some s ∧
      s.stateOf "op" = some .succeeded ∧
      (s.terminalEvents "op").map TaskEvent.eventType = [.failed, .completed] := ⟨_, rfl, rfl, rfl⟩
  obtain ⟨s, hs, hstate, hevents⟩ := hrun
  refine ⟨s, .of_run ⟨"operations", rfl⟩ hs, hstate, hevents, ?_⟩
  intro htold
  obtain ⟨o, e, -, hone, -⟩ := htold.1 _ hstate rfl
  have hlen := congrArg List.length hevents
  rw [hone] at hlen
  simp at hlen

end Rosclaw.Operations
