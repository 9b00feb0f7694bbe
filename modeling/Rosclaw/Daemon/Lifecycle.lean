/-
The life of an action id, through any number of processes.

An action is submitted, possibly started, and ends; its events in the ledger say so
in this order, and `_run_action` hands it to the runtime once at most, after its
start.  In a process that is alive its job and the thread that runs the job stand
where the events say.

* `Stage` — where its job and the thread that runs it stand;
* `Move.tracked`, `tracked_work`, `tracked_pick` — the steps of the threads keep both.
-/
import Rosclaw.Daemon.Moves

namespace Rosclaw

open List Option

/-! ### The events of an action -/

def IsStart (id : PyStr) (e : LedgerEvent) : Prop :=
  ∃ t : DateTime, Ledger.Stored (startedEvent id t) e

def IsTerminal (id : PyStr) (e : LedgerEvent) : Prop :=
  ∃ (state : JobState) (t : DateTime) (receipt : List (PyStr × PyVal)),
    state.isActive = false ∧ Ledger.Stored (terminalEvent id state t (.dict receipt)) e

/-- The job that was made for an action, and its stored submission. -/
structure Submission (id : PyStr) (j : ActionJob) (e : LedgerEvent) : Prop where
  actionId : j.action.actionId = id
  framed : j.action.toDict.tupleFree = true
  lease : j.lastLeaseRenewedAt.instant < j.leaseExpiresAt.instant
  stored : Ledger.Stored (submittedEvent j) e

/-- The events of an action, the jobs that were made for it, and the actions that
were handed to the runtime under its id. -/
inductive History (id : PyStr) :
    List LedgerEvent → List ActionJob → List ActionEnvelope → Prop
  | unknown : History id [] [] []
  | submitted {j : ActionJob} {e : LedgerEvent} (h : Submission id j e) : History id [e] [j] []
  | refused {j : ActionJob} {e e' : LedgerEvent} (h : Submission id j e) (h' : IsTerminal id e') :
      History id [e, e'] [j] []
  | started {j : ActionJob} {e e' : LedgerEvent} {handed : List ActionEnvelope}
      (h : Submission id j e) (h' : IsStart id e') (hle : handed.length ≤ 1) :
      History id [e, e'] [j] handed
  | ended {j : ActionJob} {e e' e'' : LedgerEvent} {handed : List ActionEnvelope}
      (h : Submission id j e) (h' : IsStart id e') (h'' : IsTerminal id e'')
      (hle : handed.length ≤ 1) : History id [e, e', e''] [j] handed

variable {e : LedgerEvent} {id : PyStr} {j j' j₀ : ActionJob}

theorem eventType_of_isStart (h : IsStart id e) : e.eventType = "ACTION_STARTED" := by
  obtain ⟨t, hs⟩ := h
  exact hs.1

theorem eventType_of_isTerminal (h : IsTerminal id e) : e.eventType = "ACTION_TERMINAL" := by
  obtain ⟨state, t, receipt, -, hs⟩ := h
  exact hs.1

namespace History

variable {id : PyStr} {es : List LedgerEvent} {js : List ActionJob} {handed : List ActionEnvelope}
  {e : LedgerEvent}

theorem of_submitted (h : History id es js handed)
    (ht : es.map LedgerEvent.eventType = ["ACTION_SUBMITTED"]) :
    ∃ j e, es = [e] ∧ js = [j] ∧ handed = [] ∧ Submission id j e := by
  cases h with
  | submitted h => exact ⟨_, _, rfl, rfl, rfl, h⟩
  | _ => simp at ht

theorem of_started (h : History id es js handed)
    (ht : es.map LedgerEvent.eventType = ["ACTION_SUBMITTED", "ACTION_STARTED"]) :
    ∃ j e e', es = [e, e'] ∧ js = [j] ∧ handed.length ≤ 1 ∧ Submission id j e ∧ IsStart id e' := by
  cases h with
  | started h h' hle => exact ⟨_, _, _, rfl, rfl, hle, h, h'⟩
  | refused h h' => simp [eventType_of_isTerminal h'] at ht
  | _ => simp at ht

theorem finish (h : History id es js handed)
    (ht : es.map LedgerEvent.eventType = ["ACTION_SUBMITTED"] ∨
      es.map LedgerEvent.eventType = ["ACTION_SUBMITTED", "ACTION_STARTED"])
    (he : IsTerminal id e) : History id (es ++ [e]) js handed := by
  rcases ht with ht | ht
  · obtain ⟨j, e₁, rfl, rfl, rfl, hs⟩ := h.of_submitted ht
    exact .refused hs he
  · obtain ⟨j, e₁, e₂, rfl, rfl, hle, hs, hs'⟩ := h.of_started ht
    exact .ended hs hs' he hle

theorem start (h : History id es js handed)
    (ht : es.map LedgerEvent.eventType = ["ACTION_SUBMITTED"]) (he : IsStart id e) :
    History id (es ++ [e]) js handed := by
  obtain ⟨j, e₁, rfl, rfl, rfl, hs⟩ := h.of_submitted ht
  exact .started hs he (by simp)

theorem hand (h : History id es js [])
    (ht : es.map LedgerEvent.eventType = ["ACTION_SUBMITTED", "ACTION_STARTED"])
    (a : ActionEnvelope) : History id es js [a] := by
  obtain ⟨j, e₁, e₂, rfl, rfl, -, hs, hs'⟩ := h.of_started ht
  exact .started hs hs' (by simp)

theorem handed_le (h : History id es js handed) : handed.length ≤ 1 := by
  cases h with
  | started _ _ hle => exact hle
  | ended _ _ _ hle => exact hle
  | _ => simp

theorem created_le (h : History id es js handed) :
    js.length ≤ 1 ∧ ∀ j ∈ js, js = [j] ∧ es ≠ [] := by
  cases h <;> simp

theorem created_of_ne_nil (h : History id es js handed) (hne : es ≠ []) :
    ∃ j e es', js = [j] ∧ es = e :: es' ∧ Submission id j e := by
  cases h with
  | unknown => exact absurd rfl hne
  | submitted h => exact ⟨_, _, _, rfl, rfl, h⟩
  | refused h => exact ⟨_, _, _, rfl, rfl, h⟩
  | started h => exact ⟨_, _, _, rfl, rfl, h⟩
  | ended h => exact ⟨_, _, _, rfl, rfl, h⟩

theorem eq_nil_of_nil (h : History id [] js handed) : js = [] ∧ handed = [] := by
  cases h
  exact ⟨rfl, rfl⟩

theorem created_ne_nil {j : ActionJob} (h : History id es [j] handed) : es ≠ [] := by
  rintro rfl
  exact nomatch h

end History

/-! ### The job of an action, and its thread -/

/-- The job is the one that was made, further on its way. -/
structure SameJob (j₀ j : ActionJob) : Prop where
  action : j.action = j₀.action
  peer : j.peer = j₀.peer
  submittedAt : j.submittedAt = j₀.submittedAt

theorem SameJob.refl (j : ActionJob) : SameJob j j := ⟨rfl, rfl, rfl⟩

theorem SameJob.trans (h : SameJob j₀ j) (h' : SameJob j j') : SameJob j₀ j' :=
  ⟨h'.action.trans h.action, h'.peer.trans h.peer, h'.submittedAt.trans h.submittedAt⟩

theorem SameJob.symm (h : SameJob j₀ j) : SameJob j j₀ :=
  ⟨h.action.symm, h.peer.symm, h.submittedAt.symm⟩

def WorkerPoint.early : WorkerPoint → Bool
  | .begin | .dispatch | .armed _ | .hand _ => true
  | _ => false

def WorkerPoint.isBegin : WorkerPoint → Bool
  | .begin => true
  | _ => false

namespace Daemon

def events (d : Daemon) (id : PyStr) : List LedgerEvent := d.ledger.select "ACTION" (some id)

def eventTypes (d : Daemon) (id : PyStr) : List String := (d.events id).map LedgerEvent.eventType

def created (d : Daemon) (id : PyStr) : List ActionJob := d.log.filterMap fun
  | .created j => if j.action.actionId = id then some j else none
  | _ => none

/-- The actions that `_run_action` handed to the runtime under the id. -/
def handed (d : Daemon) (id : PyStr) : List ActionEnvelope := d.log.filterMap fun
  | .handed a => if a.actionId = id then some a else none
  | _ => none

/-- Where the job of the action and the thread that runs it stand. -/
inductive Stage (d : Daemon) (id : PyStr) : Prop
  | unknown (hj : d.jobs.get? id = none) (hw : d.workers.get? id = none)
  | waiting {j₀ j : ActionJob} (hj : d.jobs.get? id = some j) (hw : d.workers.get? id = none)
      (hc : d.created id = [j₀]) (hs : SameJob j₀ j) (hstate : j.state = .queued)
      (hf : j.future ≠ some .running) (ht : d.eventTypes id = ["ACTION_SUBMITTED"])
      (hr : id ∈ d.retained)
  | running {j₀ j : ActionJob} {p : WorkerPoint} (hj : d.jobs.get? id = some j)
      (hw : d.workers.get? id = some p) (hc : d.created id = [j₀]) (hs : SameJob j₀ j)
      (hstate : j.state = if p.isBegin then .queued else .running) (hf : j.future = some .running)
      (ht : d.eventTypes id
        = if p.isBegin then ["ACTION_SUBMITTED"] else ["ACTION_SUBMITTED", "ACTION_STARTED"])
      (hr : id ∈ d.retained) (hh : p.early = true → d.handed id = [])
  | ended {j₀ j : ActionJob} (hj : d.jobs.get? id = some j) (hw : d.workers.get? id = none)
      (hc : d.created id = [j₀]) (hs : SameJob j₀ j) (hstate : j.state.isActive = false)
      (hf : j.future ≠ some .pending)

/-- Every action has the events it should have, and its job stands where they say. -/
structure Tracked (d : Daemon) : Prop where
  history (id : PyStr) : History id (d.events id) (d.created id) (d.handed id)
  stage (id : PyStr) : d.Stage id

/-! ### What a step leaves alone -/

structure Unmoved (id : PyStr) (d d' : Daemon) : Prop where
  job : d'.jobs.get? id = d.jobs.get? id
  worker : d'.workers.get? id = d.workers.get? id
  events : d'.events id = d.events id
  created : d'.created id = d.created id
  handed : d'.handed id = d.handed id
  retained : id ∈ d.retained → id ∈ d'.retained

namespace Unmoved

variable {id : PyStr} {d d' d'' : Daemon}

theorem refl (id : PyStr) (d : Daemon) : Unmoved id d d := ⟨rfl, rfl, rfl, rfl, rfl, fun h => h⟩

theorem trans (h : Unmoved id d d') (h' : Unmoved id d' d'') : Unmoved id d d'' :=
  ⟨h'.job.trans h.job, h'.worker.trans h.worker, h'.events.trans h.events,
    h'.created.trans h.created, h'.handed.trans h.handed, fun hr => h'.retained (h.retained hr)⟩

theorem history (h : Unmoved id d d') (hd : History id (d.events id) (d.created id) (d.handed id)) :
    History id (d'.events id) (d'.created id) (d'.handed id) := by
  rw [h.events, h.created, h.handed]
  exact hd

theorem stage (h : Unmoved id d d') (hd : d.Stage id) : d'.Stage id := by
  have htypes : d'.eventTypes id = d.eventTypes id := by rw [eventTypes, h.events, eventTypes]
  cases hd with
  | unknown hj hw => exact .unknown (h.job.trans hj) (h.worker.trans hw)
  | waiting hj hw hc hs hstate hf ht hr =>
    exact .waiting (h.job.trans hj) (h.worker.trans hw) (h.created.trans hc) hs hstate hf
      (htypes.trans ht) (h.retained hr)
  | running hj hw hc hs hstate hf ht hr hh =>
    exact .running (h.job.trans hj) (h.worker.trans hw) (h.created.trans hc) hs hstate hf
      (htypes.trans ht) (h.retained hr) fun he => h.handed.trans (hh he)
  | ended hj hw hc hs hstate hf =>
    exact .ended (h.job.trans hj) (h.worker.trans hw) (h.created.trans hc) hs hstate hf

end Unmoved

variable {L L' : Ledger} {R S : ActionJob → ActionJob → Prop} {caller : Option PyStr}
  {d d' d₁ d₂ : Daemon} {e : LedgerEvent} {i id : PyStr} {jobs jobs' : Dict PyStr ActionJob}
  {next : GatewayPoint ⊕ ExecutionReceipt} {p q : WorkerPoint} {state : JobState}

theorem Tracked.of_unmoved (hd : d.Tracked) (id : PyStr) (hother : ∀ i, i ≠ id → Unmoved i d d')
    (hhist : History id (d'.events id) (d'.created id) (d'.handed id)) (hstage : d'.Stage id) :
    d'.Tracked := by
  refine ⟨fun i => ?_, fun i => ?_⟩
  · by_cases hi : i = id
    · exact hi ▸ hhist
    · exact (hother i hi).history (hd.history i)
  · by_cases hi : i = id
    · exact hi ▸ hstage
    · exact (hother i hi).stage (hd.stage i)

theorem Tracked.of_unmoved_all (hd : d.Tracked) (h : ∀ i, Unmoved i d d') : d'.Tracked :=
  ⟨fun i => (h i).history (hd.history i), fun i => (h i).stage (hd.stage i)⟩

/-! ### The pieces of a step -/

variable {C : DaemonConfig} {env : Answers}

theorem unmoved_ledger {K : String → Prop} (h : Writes K d.ledger L) (hK : ¬ K "ACTION")
    (i : PyStr) : Unmoved i d { d with ledger := L } :=
  ⟨rfl, rfl, h.select hK (some i), rfl, rfl, fun hr => hr⟩

theorem unmoved_setJob (hi : i ≠ id) (j : ActionJob) : Unmoved i d (d.setJob id j) :=
  ⟨Dict.get?_set_of_ne _ _ hi.symm, rfl, rfl, rfl, rfl, fun hr => hr⟩

theorem unmoved_goto (hi : i ≠ id) (p : WorkerPoint) : Unmoved i d (d.goto id p) :=
  ⟨rfl, Dict.get?_set_of_ne _ _ hi.symm, rfl, rfl, rfl, fun hr => hr⟩

theorem unmoved_retire (hi : i ≠ id) : Unmoved i d (d.retire id) := by
  refine ⟨rfl, ?_, rfl, rfl, rfl, fun hr => hr⟩
  show (d.workers.erase id).get? i = d.workers.get? i
  rw [Dict.get?_erase, if_neg hi.symm]

theorem unmoved_reject (d : Daemon) (a : ActionEnvelope) (code : String) (message : PyStr)
    (state : ActionState) (r : Readings) (i : PyStr) :
    Unmoved i d (d.reject a code message state r).1 := ⟨rfl, rfl, rfl, rfl, rfl, fun hr => hr⟩

theorem created_happen (d : Daemon) (h : Happening) (i : PyStr) :
    (d.happen h).created i = d.created i ++ ([h].filterMap fun
      | .created j => if j.action.actionId = i then some j else none
      | _ => none) := filterMap_append

theorem handed_happen (d : Daemon) (h : Happening) (i : PyStr) :
    (d.happen h).handed i = d.handed i ++ ([h].filterMap fun
      | .handed a => if a.actionId = i then some a else none
      | _ => none) := filterMap_append

theorem unmoved_happen (d : Daemon) {h : Happening} (i : PyStr)
    (hc : ∀ j, h = .created j → j.action.actionId ≠ i)
    (hh : ∀ a, h = .handed a → a.actionId ≠ i) : Unmoved i d (d.happen h) := by
  refine ⟨rfl, rfl, rfl, ?_, ?_, fun hr => hr⟩
  · rw [created_happen]
    cases h with
    | created j => simp [hc j rfl]
    | _ => simp
  · rw [handed_happen]
    cases h with
    | handed a => simp [hh a rfl]
    | _ => simp

theorem select_append_other (h : L'.events = L.events ++ [e]) (hi : e.entityId ≠ i) :
    L'.select "ACTION" (some i) = L.select "ACTION" (some i) := by
  rw [Ledger.select, h, filter_append, Ledger.select]
  simp [hi]

theorem select_append_self (h : L'.events = L.events ++ [e]) (hk : e.entityKind = "ACTION") :
    L'.select "ACTION" (some e.entityId) = L.select "ACTION" (some e.entityId) ++ [e] := by
  rw [Ledger.select, h, filter_append, Ledger.select]
  simp [hk]

theorem append_action (d : Daemon) (he : e.entityKind = "ACTION") :
    (∀ i, i ≠ e.entityId → Unmoved i d (d.append C e).1) ∧
      (((d.append C e).1.events e.entityId = d.events e.entityId ∧ (d.append C e).2.isSome) ∨
        ∃ e', Ledger.Stored e e' ∧
          (d.append C e).1.events e.entityId = d.events e.entityId ++ [e']) := by
  have hstored : ∀ e', Ledger.Stored e e' → (d.append C e).1.ledger.events = d.ledger.events ++ [e'] →
      (∀ i, i ≠ e.entityId → Unmoved i d (d.append C e).1) ∧
        (d.append C e).1.events e.entityId = d.events e.entityId ++ [e'] := by
    intro e' hs hev
    have hid : e'.entityId = e.entityId := hs.2.2.1
    refine ⟨fun i hi => ⟨rfl, rfl, ?_, rfl, rfl, fun hr => hr⟩, ?_⟩
    · exact select_append_other hev (hid ▸ hi.symm)
    · have := select_append_self hev (hs.2.1.trans he)
      rwa [hid] at this
  rcases Ledger.append_cases C.py d.ledger e with ⟨-, -, -, e', hs, hev⟩ | ⟨hf, hev, -⟩ |
    ⟨-, -, -, e', hs, hev⟩
  · obtain ⟨hother, hself⟩ := hstored e' hs hev
    exact ⟨hother, .inr ⟨e', hs, hself⟩⟩
  · have hselect : ∀ i, (d.append C e).1.events i = d.events i := by
      intro i
      show List.filter _ (d.ledger.append C.py e).1.events = _
      rw [hev]
      rfl
    exact ⟨fun i _ => ⟨rfl, rfl, hselect i, rfl, rfl, fun hr => hr⟩, .inl ⟨hselect _, hf⟩⟩
  · obtain ⟨hother, hself⟩ := hstored e' hs hev
    exact ⟨hother, .inr ⟨e', hs, hself⟩⟩

def ended (j : ActionJob) (state : JobState) (receipt : List (PyStr × PyVal)) (t : DateTime) :
    ActionJob :=
  { j with state := state, finishedAt := some t, receipt := some (.dict receipt) }

variable {j : ActionJob}

/-- **What the end of a job changes**: the job, and at most one event is stored. -/
theorem finishJob_spec (d : Daemon) (hid : j.action.actionId = id) (hstate : state.isActive = false)
    (receipt : List (PyStr × PyVal)) (t : DateTime) :
    (∀ i, i ≠ id → Unmoved i d (d.finishJob C j state receipt t).1) ∧
      (d.finishJob C j state receipt t).1.jobs.get? id = some (ended j state receipt t) ∧
      (d.finishJob C j state receipt t).1.workers = d.workers ∧
      (d.finishJob C j state receipt t).1.created id = d.created id ∧
      (d.finishJob C j state receipt t).1.handed id = d.handed id ∧
      (d.finishJob C j state receipt t).1.retained = d.retained ∧
      ((d.finishJob C j state receipt t).1.events id = d.events id ∨ ∃ e, IsTerminal id e ∧
          (d.finishJob C j state receipt t).1.events id = d.events id ++ [e]) := by
  subst hid
  set d₁ := d.setJob j.action.actionId (ended j state receipt t) with hd₁
  set e := terminalEvent j.action.actionId state t (.dict receipt) with he
  have hr : d.finishJob C j state receipt t
      = (if d₁.ledger.events.length < (d₁.append C e).1.ledger.events.length then
          (d₁.append C e).1.happen (.wrote j.action.actionId state receipt) else (d₁.append C e).1,
        (d₁.append C e).2) := rfl
  obtain ⟨hother, hself⟩ := append_action (C := C) d₁ (e := e) rfl
  have hlog : ∀ i, Unmoved i (d₁.append C e).1 (d.finishJob C j state receipt t).1 := by
    intro i
    rw [hr]
    dsimp only
    split
    · exact unmoved_happen _ i (fun _ h => nomatch h) (fun _ h => nomatch h)
    · exact .refl _ _
  have hjob : (d.finishJob C j state receipt t).1.jobs.get? j.action.actionId
      = some (ended j state receipt t) := by
    rw [(hlog _).job]
    exact Dict.get?_set_self ..
  refine ⟨fun i hi => ((unmoved_setJob hi _).trans (hother i hi)).trans (hlog i), hjob, ?_,
    (hlog _).created, (hlog _).handed, ?_, ?_⟩
  · rw [hr]
    dsimp only
    split <;> rfl
  · rw [hr]
    dsimp only
    split <;> rfl
  · rw [(hlog _).events]
    exact hself.imp (fun h => h.1) fun ⟨e', hs, hev⟩ => ⟨e', ⟨state, t, receipt, hstate, hs⟩, hev⟩

/-! ### The moves -/

structure Alike (j j' : ActionJob) : Prop where
  same : SameJob j j'
  state : j'.state = j.state
  future : j'.future = j.future ∨ (j.future = some .pending ∧ j'.future = some .cancelled)

theorem Alike.not_future {j j' : ActionJob} (h : Alike j j') {f : JobFuture} (hf : j.future ≠ some f)
    (hc : f ≠ .cancelled) : j'.future ≠ some f := by
  rcases h.future with hfuture | ⟨-, hfuture⟩
  · exact hfuture ▸ hf
  · rw [hfuture]
    exact fun he => hc (some_inj.mp he).symm

theorem Tracked.alike (hd : d.Tracked) (h : JobsRel Alike d.jobs jobs) :
    ({ d with jobs := jobs } : Daemon).Tracked := by
  refine ⟨hd.history, fun id => ?_⟩
  have hrel := h id
  cases hd.stage id with
  | unknown hj hw =>
    rw [hj] at hrel
    generalize hj' : jobs.get? id = o at hrel
    cases hrel
    exact .unknown hj' hw
  | waiting hj hw hc hs hstate hf ht hr =>
    rw [hj] at hrel
    generalize hj' : jobs.get? id = o at hrel
    cases hrel with
    | some ha =>
      exact .waiting hj' hw hc (hs.trans ha.same) (ha.state.trans hstate)
        (ha.not_future hf JobFuture.noConfusion) ht hr
  | running hj hw hc hs hstate hf ht hr hh =>
    rw [hj] at hrel
    generalize hj' : jobs.get? id = o at hrel
    cases hrel with
    | some ha =>
      have hfuture := ha.future
      rw [hf] at hfuture
      refine .running hj' hw hc (hs.trans ha.same) (ha.state.trans hstate) ?_ ht hr hh
      exact hfuture.resolve_right fun h => JobFuture.noConfusion (some_inj.mp h.1)
  | ended hj hw hc hs hstate hf =>
    rw [hj] at hrel
    generalize hj' : jobs.get? id = o at hrel
    cases hrel with
    | some ha =>
      exact .ended hj' hw hc (hs.trans ha.same) (ha.state ▸ hstate)
        (ha.not_future hf JobFuture.noConfusion)

theorem alike_of_touched {j j' : ActionJob} (h : Touched j j') : Alike j j' :=
  ⟨⟨h.action, h.peer, h.submittedAt⟩, h.state, .inl h.future⟩

theorem alike_of_marked {j j' : ActionJob} (h : Marked j j') : Alike j j' :=
  ⟨⟨h.action, h.peer, h.submittedAt⟩, h.state, .inl h.future⟩

theorem alike_of_unscheduled {j j' : ActionJob} (h : Unscheduled j j') : Alike j j' := by
  rcases h with rfl | ⟨hf, rfl⟩
  · exact ⟨.refl _, rfl, .inl rfl⟩
  · exact ⟨⟨rfl, rfl, rfl⟩, rfl, .inr ⟨hf, rfl⟩⟩

theorem JobsRel.mono (hRS : ∀ j j', R j j' → S j j') (h : JobsRel R jobs jobs') :
    JobsRel S jobs jobs' := by
  intro id
  have hrel := h id
  generalize jobs.get? id = o at hrel ⊢
  generalize jobs'.get? id = o' at hrel ⊢
  cases hrel with
  | some hr => exact .some (hRS _ _ hr)
  | none => exact .none

theorem Stage.of_queued (h : d.Stage id) (hj : d.jobs.get? id = some j) (hstate : j.state = .queued)
    (hf : j.future ≠ some .running) :
    ∃ j₀, d.workers.get? id = none ∧ d.created id = [j₀] ∧ SameJob j₀ j ∧
      d.eventTypes id = ["ACTION_SUBMITTED"] ∧ id ∈ d.retained := by
  cases h with
  | unknown hj' => exact nomatch hj'.symm.trans hj
  | waiting hj' hw hc hs _ _ ht hr =>
    obtain rfl := some_inj.mp (hj'.symm.trans hj)
    exact ⟨_, hw, hc, hs, ht, hr⟩
  | running hj' _ _ _ _ hf' =>
    obtain rfl := some_inj.mp (hj'.symm.trans hj)
    exact absurd hf' hf
  | ended hj' _ _ _ hstate' =>
    obtain rfl := some_inj.mp (hj'.symm.trans hj)
    rw [hstate] at hstate'
    exact nomatch hstate'

/-- A step inside the gateway moves the gateway and the leases; it may record the call
of an executor. -/
theorem submitAction_eq {p : GatewayPoint} (h : d.submitAction C caller env p = some (d', next)) :
    ∃ g l hs, d' = { d with gateway := g, leases := l, log := d.log ++ hs } ∧
      (hs = [] ∨ ∃ a, hs = [.invoked a caller]) := by
  have hsame : ∀ g l, ∃ g' l' hs, ({ d with gateway := g, leases := l } : Daemon)
      = { d with gateway := g', leases := l', log := d.log ++ hs } ∧
        (hs = [] ∨ ∃ a, hs = [Happening.invoked a caller]) := fun g l =>
    ⟨g, l, [], by rw [append_nil], .inl rfl⟩
  unfold submitAction at h
  cases p with
  | submit a =>
    dsimp only at h
    split at h <;> cases h <;> exact hsame _ _
  | refuse a code message =>
    cases h
    exact hsame _ _
  | lookup a =>
    dsimp only at h
    split at h <;> cases h <;> exact hsame _ _
  | wait a waiter =>
    dsimp only at h
    split at h
    · cases h
      exact hsame _ _
    · split at h
      · contradiction
      · split at h <;> cases h <;> exact hsame _ _
  | start a =>
    dsimp only at h
    split at h
    · cases h
      exact hsame _ _
    · split at h <;> cases h <;> exact hsame _ _
  | acquire e =>
    dsimp only at h
    split at h
    · cases h
      exact hsame _ _
    · split at h
      · cases h
        exact hsame _ _
      · split at h
        · contradiction
        · cases h
          exact hsame _ _
  | invoke e lease =>
    cases h
    exact ⟨d.gateway, d.leases, [.invoked e.action caller], rfl, .inr ⟨e.action, rfl⟩⟩
  | executing e lease =>
    dsimp only at h
    split at h
    · cases h
      exact hsame _ _
    · split at h <;> cases h <;> exact hsame _ _
  | store a receipt =>
    cases h
    exact hsame _ _
  | leave a receipt =>
    cases h
    exact hsame _ _

theorem unmoved_submitAction {p : GatewayPoint}
    (h : d.submitAction C caller env p = some (d', next)) (i : PyStr) : Unmoved i d d' := by
  obtain ⟨g, l, hs, rfl, rfl | ⟨a, rfl⟩⟩ := submitAction_eq h
  · refine ⟨rfl, rfl, rfl, ?_, ?_, fun hr => hr⟩ <;> simp [created, handed]
  · have hun : Unmoved i d (d.happen (.invoked a caller)) :=
      unmoved_happen d i (fun _ h => nomatch h) (fun _ h => nomatch h)
    exact ⟨hun.job, hun.worker, hun.events, hun.created, hun.handed, hun.retained⟩

theorem Tracked.finishJob (hd : d.Tracked) (hj : d.jobs.get? j.action.actionId = some j)
    (hstate : j.state = .queued) (hf : j.future = none ∨ j.future = some .cancelled)
    (hover : state.isActive = false) (receipt : List (PyStr × PyVal)) (t : DateTime) :
    (d.finishJob C j state receipt t).1.Tracked := by
  have hrunning : j.future ≠ some .running := by
    rcases hf with hf | hf <;> simp [hf]
  have hpending : j.future ≠ some .pending := by
    rcases hf with hf | hf <;> simp [hf]
  obtain ⟨j₀, hw, hc, hs, ht, -⟩ := (hd.stage _).of_queued hj hstate hrunning
  obtain ⟨hother, hjob, hworkers, hcreated, hhanded, -, hev⟩ :=
    finishJob_spec (C := C) d rfl hover receipt t
  refine hd.of_unmoved _ hother ?_ (.ended hjob (hworkers ▸ hw) (hcreated.trans hc)
    ⟨hs.action, hs.peer, hs.submittedAt⟩ hover hpending)
  have hhist := hd.history j.action.actionId
  rw [hcreated, hhanded]
  rcases hev with hev | ⟨e, hterm, hev⟩
  · exact hev ▸ hhist
  · exact hev ▸ hhist.finish (.inl ht) hterm

theorem Tracked.submitted (hd : d.Tracked)
    (hnew : d.ledger.select "ACTION" (some j.action.actionId) = [])
    (hs : Ledger.Stored (submittedEvent j) e) (hev : L.events = d.ledger.events ++ [e]) :
    (∀ i, i ≠ j.action.actionId → Unmoved i d ({ d with ledger := L }.happen (.created j))) ∧
      ({ d with ledger := L }.happen (.created j)).events j.action.actionId = [e] ∧
      ({ d with ledger := L }.happen (.created j)).created j.action.actionId = [j] ∧
      ({ d with ledger := L }.happen (.created j)).handed j.action.actionId = [] := by
  have hid : e.entityId = j.action.actionId := hs.2.2.1
  have hnone : d.created j.action.actionId = [] ∧ d.handed j.action.actionId = [] := by
    have hhist := hd.history j.action.actionId
    rw [events, hnew] at hhist
    exact hhist.eq_nil_of_nil
  refine ⟨fun i hi => ?_, ?_, ?_, ?_⟩
  · have hselect : L.select "ACTION" (some i) = d.ledger.select "ACTION" (some i) :=
      select_append_other hev (hid ▸ hi.symm)
    have hledger : Unmoved i d { d with ledger := L } := ⟨rfl, rfl, hselect, rfl, rfl, fun hr => hr⟩
    refine hledger.trans (unmoved_happen _ i (fun j' h => ?_) (fun _ h => nomatch h))
    obtain rfl := Happening.created.inj h
    exact hi.symm
  · have hself := select_append_self hev (hs.2.1.trans rfl)
    rw [hid, hnew] at hself
    exact hself
  · rw [created_happen, show ({ d with ledger := L } : Daemon).created j.action.actionId = [] from hnone.1]
    simp
  · rw [handed_happen, show ({ d with ledger := L } : Daemon).handed j.action.actionId = [] from hnone.2]
    simp

theorem Tracked.no_job (hd : d.Tracked) (hnew : d.ledger.select "ACTION" (some id) = []) :
    d.jobs.get? id = none ∧ d.workers.get? id = none := by
  have hhist := hd.history id
  rw [events, hnew] at hhist
  have hcreated := hhist.eq_nil_of_nil.1
  cases hd.stage id with
  | unknown hj hw => exact ⟨hj, hw⟩
  | waiting _ _ hc => exact nomatch hcreated.symm.trans hc
  | running _ _ hc => exact nomatch hcreated.symm.trans hc
  | ended _ _ hc => exact nomatch hcreated.symm.trans hc

/-- **A move keeps every action on its way.** -/
theorem Move.tracked {k : MoveKind} (h : Move C env k d d') (hd : d.Tracked) : d'.Tracked := by
  cases h with
  | flags => exact hd.of_unmoved_all fun i => ⟨rfl, rfl, rfl, rfl, rfl, fun hr => hr⟩
  | supervise => exact hd.of_unmoved_all fun i => ⟨rfl, rfl, rfl, rfl, rfl, fun hr => hr⟩
  | note h => exact hd.of_unmoved_all (unmoved_ledger h fun hk => hk.1 rfl)
  | authority h =>
    exact hd.of_unmoved_all fun i => .trans (unmoved_ledger h (fun hk => nomatch hk) i)
      ⟨rfl, rfl, rfl, rfl, rfl, fun hr => hr⟩
  | sessions => exact hd.of_unmoved_all fun i => ⟨rfl, rfl, rfl, rfl, rfl, fun hr => hr⟩
  | latch => exact hd.of_unmoved_all fun i => ⟨rfl, rfl, rfl, rfl, rfl, fun hr => hr⟩
  | touch h => exact hd.alike (h.mono fun _ _ => alike_of_touched)
  | mark h => exact hd.alike (h.mono fun _ _ => alike_of_marked)
  | unschedule h => exact hd.alike (h.mono fun _ _ => alike_of_unscheduled)
  | @evict _ retained g hr hkeep hg =>
    refine ⟨hd.history, fun id => ?_⟩
    -- a job that is not over stays in the table
    have hactive : ∀ {j : ActionJob}, d.jobs.get? id = some j → j.state.isActive = true →
        id ∈ d.retained → id ∈ retained := by
      intro j hj ha hret
      by_contra hnot
      obtain ⟨j', hj', ha'⟩ := hkeep id hret hnot
      obtain rfl := some_inj.mp (hj'.symm.trans hj)
      exact Bool.noConfusion (ha.symm.trans ha')
    cases hd.stage id with
    | unknown hj hw => exact .unknown hj hw
    | waiting hj hw hc hs hstate hf ht hret =>
      exact .waiting hj hw hc hs hstate hf ht (hactive hj (by rw [hstate]; rfl) hret)
    | @running j₀ j p hj hw hc hs hstate hf ht hret hh =>
      refine .running hj hw hc hs hstate hf ht (hactive hj ?_ hret) hh
      rw [hstate]
      split <;> rfl
    | ended hj hw hc hs hstate hf => exact .ended hj hw hc hs hstate hf
  | @submitted _ j L e hframed hlease hnew hu hL he hev =>
    obtain ⟨hother, hevents, hcreated, hhanded⟩ := hd.submitted hnew he hev
    obtain ⟨hj, hw⟩ := hd.no_job hnew
    refine hd.of_unmoved _ hother ?_ (.unknown hj hw)
    rw [hevents, hcreated, hhanded]
    exact .submitted ⟨rfl, hframed, hlease, he⟩
  | @created _ j L e hframed hreal hstate hlease hnew hu hL he hev =>
    obtain ⟨hother, hevents, hcreated, hhanded⟩ := hd.submitted hnew he hev
    obtain ⟨-, hw⟩ := hd.no_job hnew
    have hhist : History j.action.actionId
        (({ d with ledger := L }.happen (.created j)).events j.action.actionId)
        (({ d with ledger := L }.happen (.created j)).created j.action.actionId)
        (({ d with ledger := L }.happen (.created j)).handed j.action.actionId) := by
      rw [hevents, hcreated, hhanded]
      exact .submitted ⟨rfl, hframed, hlease, he⟩
    have htypes : ({ d with ledger := L }.happen (.created j)).eventTypes j.action.actionId
        = ["ACTION_SUBMITTED"] := by
      rw [eventTypes, hevents, map_singleton, he.1]
      rfl
    refine hd.of_unmoved j.action.actionId (fun i hi => ?_) hhist ?_
    · have h := hother i hi
      exact ⟨(Dict.get?_set_of_ne _ _ hi.symm).trans h.job, h.worker, h.events, h.created, h.handed,
        fun hr => mem_append_left _ hr⟩
    · exact .waiting (Dict.get?_set_self ..) hw hcreated (.refl j) hstate.1 (by simp [hstate.2.1])
        htypes (mem_append_right _ (mem_singleton.mpr rfl))
  | @scheduled _ id j hj hstate =>
    obtain ⟨j₀, hw, hc, hs, ht, hr⟩ := (hd.stage id).of_queued hj hstate.1 (by simp [hstate.2])
    refine hd.of_unmoved id (fun i hi => unmoved_setJob hi _) (hd.history id) ?_
    exact .waiting (Dict.get?_set_self ..) hw hc ⟨hs.action, hs.peer, hs.submittedAt⟩ hstate.1
      (by simp [Daemon.scheduled]) ht hr
  | @finish _ j hj hstate hfuture final state hfinal code message n =>
    have hover : state.isActive = false := by
      rcases hfinal with ⟨-, rfl⟩ | ⟨-, rfl⟩ | ⟨-, rfl⟩ <;> rfl
    have hrejected : (d.reject j.action code message final (env.readings.after n)).1.Tracked :=
      hd.of_unmoved_all fun i => unmoved_reject d _ _ _ _ _ i
    exact hrejected.finishJob hj hstate hfuture hover _ _
  | returned hj howner heq =>
    exact hd.of_unmoved_all fun i => unmoved_happen d i (fun _ h => nomatch h) (fun _ h => nomatch h)
  | @recovery _ L h p owed =>
    exact hd.of_unmoved_all fun i => .trans (unmoved_ledger h (fun hk => nomatch hk) i)
      ⟨rfl, rfl, rfl, rfl, rfl, fun hr => hr⟩
  | settle => exact hd.of_unmoved_all fun i => ⟨rfl, rfl, rfl, rfl, rfl, fun hr => hr⟩
  | direct p h => exact hd.of_unmoved_all (unmoved_submitAction h)

theorem Moves.tracked {ks : List MoveKind} (h : Moves C env ks d d') (hd : d.Tracked) :
    d'.Tracked := h.invariant (fun _ _ _ _ hd hm => hm.tracked hd) hd

/-! ### The threads of the pool -/

/-- **The daemon's authorization takes the place of the caller's**, and the rest of
the action is as it was. -/
theorem authorizedAction_eq (C : DaemonConfig) (a : ActionEnvelope) (decision : PermitDecision)
    (r : Readings) : authorizedAction C a decision r
      = .ok ⟨{ a.toActionFields with authorization := decision.authorization }, a.valid⟩ := by
  obtain ⟨kvs, hdict⟩ : ∃ kvs, a.toDict = .dict kvs := ⟨_, rfl⟩
  have hset : PyVal.dict (PyVal.setEntry "authorization" decision.authorization.toDict kvs)
      = ActionEnvelope.toDict
          ⟨{ a.toActionFields with authorization := decision.authorization }, a.valid⟩ := by
    simp only [ActionEnvelope.toDict, PyVal.dict.injEq] at hdict
    subst hdict
    simp [ActionEnvelope.toDict, PyVal.setEntry]
  rw [authorizedAction, hdict]
  dsimp only
  rw [hset, ActionEnvelope.fromDict_toDict]

theorem Stage.of_worker (h : d.Stage id) (hw : d.workers.get? id = some p) :
    ∃ j₀ j, d.jobs.get? id = some j ∧ d.created id = [j₀] ∧ SameJob j₀ j ∧
      (j.state = if p.isBegin then .queued else .running) ∧ j.future = some .running ∧
      (d.eventTypes id
        = if p.isBegin then ["ACTION_SUBMITTED"] else ["ACTION_SUBMITTED", "ACTION_STARTED"]) ∧
      id ∈ d.retained ∧ (p.early = true → d.handed id = []) := by
  cases h with
  | unknown _ hw' => exact nomatch hw'.symm.trans hw
  | waiting _ hw' => exact nomatch hw'.symm.trans hw
  | running hj hw' hc hs hstate hf ht hr hh =>
    obtain rfl := some_inj.mp (hw'.symm.trans hw)
    exact ⟨_, _, hj, hc, hs, hstate, hf, ht, hr, hh⟩
  | ended _ hw' => exact nomatch hw'.symm.trans hw

theorem Tracked.actionId (hd : d.Tracked) (hj : d.jobs.get? id = some j) :
    j.action.actionId = id := by
  have hhist := hd.history id
  have hcreated : ∃ j₀, d.created id = [j₀] ∧ SameJob j₀ j := by
    cases hd.stage id with
    | unknown hj' => exact nomatch hj'.symm.trans hj
    | waiting hj' _ hc hs =>
      obtain rfl := some_inj.mp (hj'.symm.trans hj)
      exact ⟨_, hc, hs⟩
    | running hj' _ hc hs =>
      obtain rfl := some_inj.mp (hj'.symm.trans hj)
      exact ⟨_, hc, hs⟩
    | ended hj' _ hc hs =>
      obtain rfl := some_inj.mp (hj'.symm.trans hj)
      exact ⟨_, hc, hs⟩
  obtain ⟨j₀, hc, hs⟩ := hcreated
  rw [hc] at hhist
  obtain ⟨j₁, e, es, hjs, -, hsub⟩ := hhist.created_of_ne_nil hhist.created_ne_nil
  obtain rfl := List.cons.inj hjs |>.1
  rw [hs.action]
  exact hsub.actionId

theorem Tracked.filedJobs (hd : d.Tracked) : d.FiledJobs := fun _ _ hj => hd.actionId hj

theorem Tracked.goto (hd : d.Tracked) (hw : d.workers.get? id = some p) (hp : p.isBegin = false)
    (hq : q.isBegin = false) (he : q.early = true → p.early = true) (h : ∀ i, Unmoved i d d') :
    (d'.goto id q).Tracked := by
  obtain ⟨j₀, j, hj, hc, hs, hstate, hf, ht, hr, hh⟩ := (hd.stage id).of_worker hw
  rw [hp] at hstate ht
  have htypes : d'.eventTypes id = d.eventTypes id := by rw [eventTypes, (h id).events, eventTypes]
  refine hd.of_unmoved id (fun i hi => (h i).trans (unmoved_goto hi q)) ((h id).history (hd.history id)) ?_
  refine .running ((h id).job.trans hj) (Dict.get?_set_self ..) ((h id).created.trans hc) hs
    (hq ▸ hstate) hf (hq ▸ htypes.trans ht) ((h id).retained hr) fun hq' => ?_
  exact (h id).handed.trans (hh (he hq'))

theorem Tracked.hand {a : ActionEnvelope} (hd : d.Tracked) (hw : d.workers.get? id = some p)
    (hp : p.isBegin = false) (he : p.early = true) (hq : q.isBegin = false) (hq' : q.early = false)
    (ha : a.actionId = id) : ((d.happen (.handed a)).goto id q).Tracked := by
  obtain ⟨j₀, j, hj, hc, hs, hstate, hf, ht, hr, hh⟩ := (hd.stage id).of_worker hw
  rw [hp] at hstate ht
  have hcreated : (d.happen (.handed a)).created id = d.created id := by
    rw [created_happen]
    simp
  have hhanded : (d.happen (.handed a)).handed id = [a] := by
    rw [handed_happen, hh he]
    simp [ha]
  have hhist : History id (d.events id) ((d.happen (.handed a)).created id)
      ((d.happen (.handed a)).handed id) := by
    have := hd.history id
    rw [hh he] at this
    rw [hcreated, hhanded]
    exact this.hand ht a
  refine hd.of_unmoved id (fun i hi => ?_) hhist ?_
  · refine (unmoved_happen (h := .handed a) d i (fun _ h => nomatch h) fun a' h => ?_).trans
      (unmoved_goto hi q)
    obtain rfl := Happening.handed.inj h
    exact ha ▸ hi.symm
  · refine .running hj (Dict.get?_set_self ..) (hcreated.trans hc) hs (hq ▸ hstate) hf (hq ▸ ht) hr
      fun h => ?_
    exact Bool.noConfusion (hq'.symm.trans h)

theorem Tracked.retire {j j₁ : ActionJob} (hd : d.Tracked) (hw : d.workers.get? id = some p)
    (hj : d.jobs.get? id = some j) (hother : ∀ i, i ≠ id → Unmoved i d d₁)
    (hj₁ : d₁.jobs.get? id = some j₁) (hs₁ : SameJob j j₁) (hover : j₁.state.isActive = false)
    (hf₁ : j₁.future = j.future) (hc₁ : d₁.created id = d.created id)
    (hhist : History id (d₁.events id) (d₁.created id) (d₁.handed id)) :
    (d₁.retire id).Tracked := by
  obtain ⟨j₀, j', hj', hc, hs, -, hf, -⟩ := (hd.stage id).of_worker hw
  obtain rfl := some_inj.mp (hj'.symm.trans hj)
  have hworker : (d₁.retire id).workers.get? id = none := by
    show (d₁.workers.erase id).get? id = none
    rw [Dict.get?_erase, if_pos rfl]
  refine hd.of_unmoved id (fun i hi => (hother i hi).trans (unmoved_retire hi)) hhist ?_
  refine .ended hj₁ hworker (hc₁.trans hc) (hs.trans hs₁) hover ?_
  rw [hf₁, hf]
  simp

theorem Tracked.finish_retire (hd : d.Tracked) (j₁ : ActionJob) (state : JobState)
    (receipt : List (PyStr × PyVal)) (t : DateTime) (hw : d.workers.get? id = some p)
    (hj : d.jobs.get? id = some j) (h₁ : ∀ i, i ≠ id → Unmoved i d d₁)
    (he₁ : d₁.events id = d.events id) (hc₁ : d₁.created id = d.created id)
    (hh₁ : d₁.handed id = d.handed id) (hs₁ : SameJob j j₁) (hf₁ : j₁.future = j.future)
    (hover : state.isActive = false)
    (h₂ : ∀ i, Unmoved i (d₁.finishJob C j₁ state receipt t).1 d₂) : (d₂.retire id).Tracked := by
  have hid : j₁.action.actionId = id := by rw [hs₁.action, hd.actionId hj]
  obtain ⟨hother, hjob, -, hcreated, hhanded, -, hev⟩ :=
    finishJob_spec (C := C) d₁ hid hover receipt t
  obtain ⟨j₀, j', hj', hc, hs, hstate, hf, ht, -⟩ := (hd.stage id).of_worker hw
  obtain rfl := some_inj.mp (hj'.symm.trans hj)
  refine hd.retire hw hj (fun i hi => ((h₁ i hi).trans (hother i hi)).trans (h₂ i))
    ((h₂ id).job.trans hjob) ⟨hs₁.action, hs₁.peer, hs₁.submittedAt⟩ hover hf₁
    ((h₂ id).created.trans (hcreated.trans hc₁)) ?_
  rw [(h₂ id).events, (h₂ id).created, (h₂ id).handed, hcreated, hhanded, hc₁, hh₁]
  have hhist := hd.history id
  have htypes : d.eventTypes id = ["ACTION_SUBMITTED"] ∨
      d.eventTypes id = ["ACTION_SUBMITTED", "ACTION_STARTED"] := by
    rw [ht]
    split
    · exact .inl rfl
    · exact .inr rfl
  rcases hev with hev | ⟨e, hterm, hev⟩ <;> rw [hev, he₁]
  · exact hhist
  · exact hhist.finish htypes hterm

theorem unmoved_markOn (d : Daemon) (f : Option LedgerFault) (i : PyStr) :
    Unmoved i d (d.markOn f) := by
  cases f with
  | none => exact .refl i d
  | some fault => exact ⟨rfl, rfl, rfl, rfl, rfl, fun hr => hr⟩

theorem tracked_beginAction (hd : d.Tracked) (hw : d.workers.get? id = some .begin)
    (hj : d.jobs.get? id = some j) : (d.beginAction C id j env).Tracked := by
  obtain ⟨j₀, j', hj', hc, hs, -, hf, ht, hr, hh⟩ := (hd.stage id).of_worker hw
  obtain rfl := some_inj.mp (hj'.symm.trans hj)
  unfold beginAction
  dsimp only
  split
  · next o ho =>
    -- the job is refused before its start
    set j₁ : ActionJob := { j' with terminalOverride := some o } with hj₁
    refine hd.finish_retire (C := C) j₁ .finished _ _ hw hj
      (fun i hi => (unmoved_setJob hi j₁).trans (unmoved_reject _ _ _ _ _ _ i)) rfl rfl rfl
      ⟨rfl, rfl, rfl⟩ rfl rfl fun i => unmoved_markOn _ _ i
  · set j₁ : ActionJob := { j' with state := .running, startedAt := some (env.readings.clock 1) }
      with hj₁
    obtain ⟨hother, hself⟩ := append_action (C := C) (d.setJob id j₁)
      (e := startedEvent id (env.readings.clock 1)) rfl
    have hjob : ((d.setJob id j₁).append C (startedEvent id (env.readings.clock 1))).1.jobs.get? id
        = some j₁ := Dict.get?_set_self ..
    have hstart : ∀ {e : LedgerEvent}, Ledger.Stored (startedEvent id (env.readings.clock 1)) e →
        History id (d.events id ++ [e]) (d.created id) (d.handed id) :=
      fun hst => (hd.history id).start ht ⟨_, hst⟩
    rcases happ : (d.setJob id j₁).append C (startedEvent id (env.readings.clock 1)) with
      ⟨d₁, _ | fault⟩ <;> rw [happ] at hother hself hjob <;> dsimp only at hother hself hjob ⊢
    · rcases hself with ⟨-, h⟩ | ⟨e, hst, hev⟩
      · exact nomatch h
      have hev' : d₁.events id = d.events id ++ [e] := hev
      have hlog : d₁.log = d.log := congrArg (fun r => r.1.log) happ.symm
      have hret : d₁.retained = d.retained := congrArg (fun r => r.1.retained) happ.symm
      have hcreated : d₁.created id = d.created id := by rw [created, hlog, created]
      have hhanded : d₁.handed id = d.handed id := by rw [handed, hlog, handed]
      have htypes : d₁.eventTypes id = ["ACTION_SUBMITTED", "ACTION_STARTED"] := by
        rw [eventTypes, hev', map_append, show (d.events id).map _ = _ from ht,
          map_singleton, hst.1]
        rfl
      refine hd.of_unmoved id
        (fun i hi => ((unmoved_setJob hi j₁).trans (hother i hi)).trans (unmoved_goto hi _)) ?_ ?_
      · show History id (d₁.events id) (d₁.created id) (d₁.handed id)
        rw [hev', hcreated, hhanded]
        exact hstart hst
      · refine .running hjob (Dict.get?_set_self ..) (hcreated.trans hc)
          ⟨hs.action, hs.peer, hs.submittedAt⟩ rfl hf htypes (hret ▸ hr) fun _ => ?_
        exact hhanded.trans (hh rfl)
    · have hlog : d₁.log = d.log := congrArg (fun r => r.1.log) happ.symm
      have hcreated : d₁.created id = d.created id := by rw [created, hlog, created]
      have hhanded : d₁.handed id = d.handed id := by rw [handed, hlog, handed]
      have hid : j₁.action.actionId = id := show j'.action.actionId = id from hd.actionId hj
      obtain ⟨j₂, hj₂, hs₂, hover, hf₂⟩ : ∃ j₂,
          (d₁.abandon j₁ (env.readings.after 2)).jobs.get? id = some j₂ ∧ SameJob j' j₂ ∧
            j₂.state.isActive = false ∧ j₂.future = j'.future := by
        rw [← hid]
        exact ⟨_, Dict.get?_set_self .., ⟨rfl, rfl, rfl⟩, rfl, rfl⟩
      refine hd.retire hw hj (fun i hi => ?_) hj₂ hs₂ hover hf₂ hcreated ?_
      · refine ((unmoved_setJob hi j₁).trans (hother i hi)).trans ?_
        refine .trans (unmoved_markOn d₁ (some fault) i) (.trans (unmoved_reject _ _ _ _ _ _ i)
          (unmoved_setJob (by rw [hid]; exact hi) _))
      · show History id (d₁.events id) (d₁.created id) (d₁.handed id)
        rw [hcreated, hhanded]
        rcases hself with ⟨hev, -⟩ | ⟨e, hst, hev⟩
        · have hev' : d₁.events id = d.events id := hev
          rw [hev']
          exact hd.history id
        · have hev' : d₁.events id = d.events id ++ [e] := hev
          rw [hev']
          exact hstart hst

theorem tracked_dispatchAction (hd : d.Tracked) (hw : d.workers.get? id = some .dispatch)
    (hj : d.jobs.get? id = some j) : (d.dispatchAction C id j env).Tracked := by
  have hauth : ∀ {L : Ledger} {A : PermitAuthority} {res : Except LedgerFault PermitDecision},
      d.authority.authorize C.py (env.readings.clock 0) d.ledger j.action j.peer = (L, A, res) →
      ∀ i, Unmoved i d { d with ledger := L, authority := A } := by
    intro L A res h i
    have hwrites := PermitAuthority.authorize_writes C.py (env.readings.clock 0) d.ledger d.authority
      j.action j.peer
    rw [h] at hwrites
    exact .trans (unmoved_ledger hwrites (fun hk => nomatch hk) i)
      ⟨rfl, rfl, rfl, rfl, rfl, fun hr => hr⟩
  unfold dispatchAction
  dsimp only
  split
  · split
    · next L A fault h => exact hd.goto hw rfl rfl (fun h => nomatch h) (hauth h)
    · next L A decision h =>
      split
      · refine hd.goto hw rfl rfl (fun _ => rfl) fun i => ?_
        exact (hauth h i).trans (unmoved_happen _ i (fun _ h => nomatch h) (fun _ h => nomatch h))
      · exact hd.goto hw rfl rfl (fun h => nomatch h) (hauth h)
  · exact hd.hand hw rfl rfl rfl rfl (hd.actionId hj)

/-- The receipt that `_run_action` writes. -/
def finalReceipt (j : ActionJob) (receipt : List (PyStr × PyVal)) (r : Readings) :
    List (PyStr × PyVal) :=
  match j.terminalOverride with
  | some o => applyTerminalOverride o j.stopReceipt receipt r
  | none => receipt

/-- The daemon after a terminal receipt that could not be written: `d` before, `d'`
after the attempt. -/
def unwritten (d d' : Daemon) (id : PyStr) (j : ActionJob) : Daemon :=
  let d' := d'.markFailure
  let d' := if j.action.executionMode = .real then
      { d'.setRecovery (d'.recovery.merge [id] [id]) with
        latched := true
        owed := if d.ledger.events.length < d'.ledger.events.length then d'.owed
          else d'.owed ++ [id] }
    else d'
  { d' with gateway := d'.gateway.discardReceipt id }

def distrust (d : Daemon) (id : PyStr) (j : ActionJob) (env : Answers) : Daemon :=
  let r := env.readings
  let rejected := d.reject j.action "DAEMON_LEDGER_TERMINAL_WRITE_FAILED"
    ("The executor returned, but rosclawd could not durably record the terminal receipt. " ++
      "The physical outcome is not trusted.") .failed (r.after 3)
  rejected.1.setJob id { j with
    state := .finished
    finishedAt := some (r.clock 2)
    receipt := some rejected.2.toDict }

theorem finalizeAction_eq (d : Daemon) (id : PyStr) (j : ActionJob)
    (receipt : List (PyStr × PyVal)) : d.finalizeAction C id j env receipt
      = match d.finishJob C j .finished (finalReceipt j receipt env.readings)
          (env.readings.clock 2) with
        | (d', none) => d'
        | (d', some _) => (unwritten d d' id j).distrust id j env := rfl

theorem unmoved_unwritten (d d' : Daemon) (id : PyStr) (j : ActionJob) (i : PyStr) :
    Unmoved i d' (unwritten d d' id j) := by
  unfold unwritten
  dsimp only
  split <;> exact ⟨rfl, rfl, rfl, rfl, rfl, fun hr => hr⟩

theorem tracked_finalizeAction {receipt : List (PyStr × PyVal)} (hd : d.Tracked)
    (hw : d.workers.get? id = some p) (hj : d.jobs.get? id = some j) :
    ((d.finalizeAction C id j env receipt).retire id).Tracked := by
  rw [finalizeAction_eq]
  generalize finalReceipt j receipt env.readings = receipt
  rcases hfin : d.finishJob C j .finished receipt (env.readings.clock 2) with ⟨d₁, _ | fault⟩
  · have h := hd.finish_retire (C := C) j .finished receipt (env.readings.clock 2) hw hj
      (fun i _ => .refl i d) rfl rfl rfl (.refl j) rfl rfl fun i => .refl i _
    rw [hfin] at h
    exact h
  · obtain ⟨hother, hjob, -, hcreated, hhanded, -, hev⟩ := finishJob_spec (C := C) d
      (hd.actionId hj) (show JobState.finished.isActive = false from rfl) receipt
      (env.readings.clock 2)
    rw [hfin] at hother hjob hcreated hhanded hev
    have htypes : d.eventTypes id = ["ACTION_SUBMITTED"] ∨
        d.eventTypes id = ["ACTION_SUBMITTED", "ACTION_STARTED"] := by
      obtain ⟨j₀, j', -, -, -, -, -, ht, -⟩ := (hd.stage id).of_worker hw
      rw [ht]
      split
      · exact .inl rfl
      · exact .inr rfl
    have hhist : History id (d₁.events id) (d₁.created id) (d₁.handed id) := by
      rw [show d₁.created id = d.created id from hcreated, show d₁.handed id = d.handed id from hhanded]
      rcases hev with hev | ⟨e, hterm, hev⟩
      · rw [show d₁.events id = d.events id from hev]
        exact hd.history id
      · rw [show d₁.events id = d.events id ++ [e] from hev]
        exact (hd.history id).finish htypes hterm
    have hun := unmoved_unwritten d d₁ id j
    show (((unwritten d d₁ id j).distrust id j env).retire id).Tracked
    refine hd.retire hw hj (fun i hi => ((hother i hi).trans (hun i)).trans
      ((unmoved_reject _ _ _ _ _ _ i).trans (unmoved_setJob hi _))) (Dict.get?_set_self ..) ⟨rfl, rfl, rfl⟩ rfl rfl ((hun id).created.trans hcreated) ?_
    exact (hun id).history hhist

/-- **A step of a thread of the pool keeps every action on its way.** -/
theorem tracked_work (hd : d.Tracked) (h : d.work C id env = some d') : d'.Tracked := by
  unfold work at h
  cases hw : d.workers.get? id with
  | none => simp [hw] at h
  | some p =>
  cases hj : d.jobs.get? id with
  | none => simp [hw, hj] at h
  | some j =>
  rw [hw, hj] at h
  dsimp only at h
  cases p with
  | begin =>
    cases h
    exact tracked_beginAction hd hw hj
  | dispatch =>
    cases h
    exact tracked_dispatchAction hd hw hj
  | refuse code message =>
    cases h
    exact hd.goto hw rfl rfl (fun h => by cases h) fun i => unmoved_reject _ _ _ _ _ _ i
  | armed decision =>
    simp only [runAction, Option.some.injEq] at h
    subst h
    split
    · exact hd.goto hw rfl rfl (fun _ => rfl) fun i => .refl i d
    · exact hd.goto hw rfl rfl (fun h => by cases h) fun i => .refl i d
  | hand decision =>
    simp only [runAction, authorizedAction_eq, Option.some.injEq] at h
    subst h
    exact hd.hand hw rfl rfl rfl rfl (hd.actionId hj)
  | gateway p =>
    simp only [runAction] at h
    rcases hs : d.submitAction C (some id) env p with _ | ⟨d₁, next | receipt⟩ <;> rw [hs] at h
    · contradiction
    · cases h
      exact hd.goto hw rfl rfl (fun h => by cases h) (unmoved_submitAction hs)
    · cases h
      exact hd.goto hw rfl rfl (fun h => by cases h) (unmoved_submitAction hs)
  | failed marks =>
    cases h
    refine hd.goto hw rfl rfl (fun h => by cases h) fun i => ?_
    cases marks
    · exact unmoved_reject _ _ _ _ _ _ i
    · exact (unmoved_markOn d (some .ledgerError) i).trans (unmoved_reject _ _ _ _ _ _ i)
  | result receipt =>
    cases h
    split
    · exact hd.goto hw rfl rfl (fun h => by cases h) fun i => .refl i d
    · exact hd.goto hw rfl rfl (fun h => by cases h) fun i => .refl i d
  | stopping p receipt =>
    simp only [runAction] at h
    rcases hs : d.stopOverriddenAction id j env p with _ | ⟨d₁, next⟩ <;> rw [hs] at h
    · contradiction
    have hmoves : Moves C env [.supervise, .touch, .latch] d d₁ :=
      moves_stopOverriddenAction (by simp) hj hs
    have hd₁ : d₁.Tracked := hmoves.tracked hd
    have hw₁ : d₁.workers.get? id = some (.stopping p receipt) := by
      cases p with
      | ask =>
        simp only [stopOverriddenAction] at hs
        split at hs <;> cases hs <;> exact hw
      | wait =>
        simp only [stopOverriddenAction] at hs
        split at hs
        · cases hs
          exact hw
        · contradiction
      | estop | latch | record => cases hs; exact hw
    cases next with
    | none =>
      cases h
      exact hd₁.goto hw₁ rfl rfl (fun h => by cases h) fun i => .refl i d₁
    | some p' =>
      cases h
      exact hd₁.goto hw₁ rfl rfl (fun h => by cases h) fun i => .refl i d₁
  | finalize receipt =>
    cases h
    exact tracked_finalizeAction hd hw hj

theorem tracked_pick (hd : d.Tracked) (h : d.pick id = some d') : d'.Tracked := by
  unfold pick at h
  cases hj : d.jobs.get? id with
  | none => simp [hj] at h
  | some j =>
    simp only [hj, ite_none_right_eq_some, Option.some.injEq] at h
    obtain ⟨hpending, rfl⟩ := h
    cases hd.stage id with
    | unknown hj' => cases hj'.symm.trans hj
    | waiting hj' hw hc hs hstate hf ht hr =>
      obtain rfl := some_inj.mp (hj'.symm.trans hj)
      have hhanded : d.handed id = [] := by
        obtain ⟨-, -, -, -, h, -⟩ := (hd.history id).of_submitted ht
        exact h
      refine hd.of_unmoved id (fun i hi => (unmoved_setJob hi _).trans (unmoved_goto hi _))
        (hd.history id) ?_
      exact .running (Dict.get?_set_self ..) (Dict.get?_set_self ..) hc
        ⟨hs.action, hs.peer, hs.submittedAt⟩ hstate rfl ht hr fun _ => hhanded
    | running hj' _ _ _ _ hf =>
      obtain rfl := some_inj.mp (hj'.symm.trans hj)
      cases hf.symm.trans hpending
    | ended hj' _ _ _ _ hf =>
      obtain rfl := some_inj.mp (hj'.symm.trans hj)
      exact absurd hpending hf

end Daemon

end Rosclaw
