/-
What `_run_action` hands to the runtime, and what `request_action` answers.

A REAL action reaches the runtime only after `authorize` allowed it.  What made it
allowed is kept in the ledger and in the log, both of which only grow, so it is still
there when the action is handed over.

* `Permitted` — the tables, the ledger and the threads agree about the permits;
* `Granted` — why an action was allowed;
* `handed_real` — a REAL action that is handed over was granted;
* `submitted_once` — an action is handed over once, whoever asks for it again.
-/
import Rosclaw.Daemon.Runs

namespace Rosclaw

open List Option PermitAuthority

def WorkerPoint.decision : WorkerPoint → Option PermitDecision
  | .armed decision | .hand decision => some decision
  | _ => none

def Happening.isGrant : Happening → Bool
  | .authorized .. | .handed _ => true
  | _ => false

namespace Daemon

variable {C : DaemonConfig} {env : Answers}

/-! ### Steps that have nothing to do with permits -/

/-- No action was handed over on the way. -/
def Unhanded (d d' : Daemon) : Prop := ∃ hs, d'.log = d.log ++ hs ∧ ∀ a, .handed a ∉ hs

theorem Unhanded.of_eq {d d' : Daemon} (h : d'.log = d.log) : Unhanded d d' :=
  ⟨[], by rw [h, append_nil], fun _ => not_mem_nil⟩

theorem Unhanded.trans {d d' d'' : Daemon} (h : Unhanded d d') (h' : Unhanded d' d'') :
    Unhanded d d'' := by
  obtain ⟨hs, hlog, hno⟩ := h
  obtain ⟨hs', hlog', hno'⟩ := h'
  refine ⟨hs ++ hs', by rw [hlog', hlog, append_assoc], fun a ha => ?_⟩
  rcases mem_append.mp ha with ha | ha
  · exact hno a ha
  · exact hno' a ha

variable {A : PermitAuthority} {L L' : Ledger} {decision : PermitDecision}
  {es es' : List LedgerEvent} {h : Happening} {ks : List MoveKind} {now : DateTime}
  {p : ExecutionPermit} {q : WorkerPoint}

theorem Unhanded.happen (d : Daemon) (hh : ∀ a, h ≠ .handed a) : Unhanded d (d.happen h) :=
  ⟨[h], rfl, fun a ha => hh a (mem_singleton.mp ha).symm⟩

theorem Unhanded.not_handed {d d' : Daemon} (h : Unhanded d d') {a : ActionEnvelope}
    (hlog : d'.log = d.log ++ [.handed a]) : False := by
  obtain ⟨hs, hlog', hno⟩ := h
  have heq := append_cancel_left (hlog'.symm.trans hlog)
  exact hno a (heq ▸ mem_singleton_self _)

/-- No permit was granted on the way. -/
def Ungranted (d d' : Daemon) : Prop := ∃ hs, d'.log = d.log ++ hs ∧ ∀ h ∈ hs, h.isGrant = false

theorem Ungranted.of_eq {d d' : Daemon} (h : d'.log = d.log) : Ungranted d d' :=
  ⟨[], by rw [h, append_nil], fun _ hh => by simp at hh⟩

theorem Ungranted.trans {d d' d'' : Daemon} (h : Ungranted d d') (h' : Ungranted d' d'') :
    Ungranted d d'' := by
  obtain ⟨hs, hlog, hno⟩ := h
  obtain ⟨hs', hlog', hno'⟩ := h'
  refine ⟨hs ++ hs', by rw [hlog', hlog, append_assoc], fun x hx => ?_⟩
  rcases mem_append.mp hx with hx | hx
  · exact hno x hx
  · exact hno' x hx

theorem Ungranted.happen (d : Daemon) (hh : h.isGrant = false) : Ungranted d (d.happen h) :=
  ⟨[h], rfl, fun x hx => by rw [mem_singleton.mp hx]; exact hh⟩

theorem Ungranted.unhanded {d d' : Daemon} (h : Ungranted d d') : Unhanded d d' := by
  obtain ⟨hs, hlog, hno⟩ := h
  refine ⟨hs, hlog, fun a ha => ?_⟩
  have := hno _ ha
  cases this

/-- The tables are what they were, and what the ledger got is not about permits. -/
structure Aside (d d' : Daemon) : Prop where
  writes : Writes (· ≠ "PERMIT") d.ledger d'.ledger
  authority : d'.authority = d.authority
  opened : d'.opened = d.opened
  workers : d'.workers = d.workers
  log : Ungranted d d'

namespace Aside

variable {d d' d'' : Daemon}

theorem of_eq (hl : d'.ledger = d.ledger) (ha : d'.authority = d.authority)
    (ho : d'.opened = d.opened) (hw : d'.workers = d.workers) (hlog : d'.log = d.log) :
    Aside d d' := ⟨hl ▸ .refl _ _, ha, ho, hw, .of_eq hlog⟩

theorem refl (d : Daemon) : Aside d d := of_eq rfl rfl rfl rfl rfl

theorem trans (h : Aside d d') (h' : Aside d' d'') : Aside d d'' :=
  ⟨h.writes.trans h'.writes, h'.authority.trans h.authority, h'.opened.trans h.opened,
    h'.workers.trans h.workers, h.log.trans h'.log⟩

theorem append (d : Daemon) {e : LedgerEvent} (he : e.entityKind ≠ "PERMIT") :
    Aside d (d.append C e).1 := ⟨.append C.py d.ledger he, rfl, rfl, rfl, .of_eq rfl⟩

theorem happen (d : Daemon) {h : Happening} (hh : h.isGrant = false) : Aside d (d.happen h) :=
  ⟨.refl _ _, rfl, rfl, rfl, .happen d hh⟩

theorem setJob (d : Daemon) (id : PyStr) (j : ActionJob) : Aside d (d.setJob id j) :=
  of_eq rfl rfl rfl rfl rfl

theorem markOn (d : Daemon) (f : Option LedgerFault) : Aside d (d.markOn f) := by
  cases f <;> exact of_eq rfl rfl rfl rfl rfl

theorem reject (d : Daemon) (a : ActionEnvelope) (code : String) (message : PyStr)
    (state : ActionState) (r : Readings) : Aside d (d.reject a code message state r).1 :=
  of_eq rfl rfl rfl rfl rfl

theorem finishJob (d : Daemon) (j : ActionJob) (state : JobState) (receipt : List (PyStr × PyVal))
    (t : DateTime) : Aside d (d.finishJob C j state receipt t).1 := by
  have h : Aside d ((d.setJob j.action.actionId (ended j state receipt t)).append C
      (terminalEvent j.action.actionId state t (.dict receipt))).1 :=
    (setJob ..).trans (append _ (show "ACTION" ≠ "PERMIT" by decide))
  unfold Daemon.finishJob
  dsimp only
  split
  · exact h.trans (happen _ rfl)
  · exact h

theorem finishOverridden (d : Daemon) (j : ActionJob) (o : TerminalOverride) (r : Readings) :
    Aside d (d.finishOverridden C j o r) := by
  unfold Daemon.finishOverridden
  exact ((reject ..).trans (finishJob ..)).trans (markOn ..)

theorem submitAction {caller : Option PyStr} {p : GatewayPoint}
    {next : GatewayPoint ⊕ ExecutionReceipt} (h : d.submitAction C caller env p = some (d', next)) :
    Aside d d' := by
  obtain ⟨g, l, hs, rfl, hhs⟩ := submitAction_eq h
  refine ⟨.refl _ _, rfl, rfl, rfl, hs, rfl, fun h hh => ?_⟩
  rcases hhs with rfl | ⟨b, rfl⟩
  · simp at hh
  · rw [mem_singleton.mp hh]
    rfl

theorem stopOverriddenAction {id : PyStr} {j : ActionJob} {p : StopPoint}
    {next : Option StopPoint} (h : d.stopOverriddenAction id j env p = some (d', next)) :
    Aside d d' := by
  cases p with
  | ask =>
    simp only [Daemon.stopOverriddenAction] at h
    split at h <;> cases h <;> exact of_eq rfl rfl rfl rfl rfl
  | wait =>
    simp only [Daemon.stopOverriddenAction] at h
    split at h
    · cases h
      exact .refl d
    · contradiction
  | estop | latch | record =>
    cases h
    exact of_eq rfl rfl rfl rfl rfl

theorem of_move {k : MoveKind} (h : Move C env k d d') (hk : k ≠ .authority) : Aside d d' := by
  have hcreate : ∀ {j : ActionJob} {L : Ledger} {e : LedgerEvent}, d.ledger.Usable →
      Ledger.Stored (submittedEvent j) e → L.events = d.ledger.events ++ [e] →
        Writes (· ≠ "PERMIT") d.ledger L := by
    intro j L e hu he hev
    refine ⟨fun _ => hu, [e], hev, fun e' he' => ?_⟩
    obtain rfl := mem_singleton.mp he'
    rw [he.2.1]
    exact show "ACTION" ≠ "PERMIT" by decide
  cases h with
  | authority => exact absurd rfl hk
  | note h => exact ⟨h.mono fun _ h => h.2.2, rfl, rfl, rfl, .of_eq rfl⟩
  | recovery h => exact ⟨h.mono fun k h => h ▸ by decide, rfl, rfl, rfl, .of_eq rfl⟩
  | submitted _ _ _ hu _ he hev =>
    exact ⟨hcreate hu he hev, rfl, rfl, rfl, Ungranted.happen _ rfl⟩
  | created _ _ _ _ _ hu _ he hev =>
    exact ⟨hcreate hu he hev, rfl, rfl, rfl, Ungranted.happen d (h := .created _) rfl⟩
  | finish _ _ _ _ code message n => exact (reject ..).trans (finishJob ..)
  | returned => exact happen d rfl
  | direct p h => exact submitAction h
  | _ => exact of_eq rfl rfl rfl rfl rfl

theorem finalizeAction (d : Daemon) (id : PyStr) (j : ActionJob) (receipt : List (PyStr × PyVal)) :
    Aside d (d.finalizeAction C id j env receipt) := by
  have hfinish := finishJob (C := C) d j .finished (finalReceipt j receipt env.readings)
    (env.readings.clock 2)
  rw [finalizeAction_eq]
  rcases hf : d.finishJob C j .finished (finalReceipt j receipt env.readings)
    (env.readings.clock 2) with ⟨d', _ | fault⟩ <;> rw [hf] at hfinish
  · exact hfinish
  · refine hfinish.trans (.trans ?_ (setJob ..))
    unfold unwritten
    dsimp only
    split <;> exact of_eq rfl rfl rfl rfl rfl

/-- Every step of a thread of the pool that neither authorizes nor hands over: the thread
is done with the job, or at another point.  It comes to authorize only from the start,
and with no other decision than it has. -/
theorem of_work {id : PyStr} {p : WorkerPoint} (hp : d.workers.get? id = some p)
    (hne : p ≠ .dispatch ∧ ∀ decision, p ≠ .hand decision) (h : d.work C id env = some d') :
    ∃ d₁, Aside d d₁ ∧ (d' = d₁.retire id ∨ ∃ q, d' = d₁.goto id q ∧
      (q = .dispatch → p = .begin) ∧ (q.decision = none ∨ q.decision = p.decision)) := by
  unfold work at h
  rw [hp] at h
  split at h
  · next q j hq hj =>
    cases hq
    cases p with
    | dispatch => exact absurd rfl hne.1
    | hand decision => exact absurd rfl (hne.2 decision)
    | begin =>
      cases h
      unfold beginAction
      dsimp only
      split
      · exact ⟨_, (setJob ..).trans (finishOverridden ..), .inl rfl⟩
      · have happend : ∀ j', Aside d ((d.setJob id j').append C (startedEvent id
            (env.readings.clock 1))).1 := fun j' =>
          (setJob ..).trans (append _ (show "ACTION" ≠ "PERMIT" by decide))
        specialize happend { j with state := .running, startedAt := some (env.readings.clock 1) }
        split
        · next d₁ h =>
          rw [h] at happend
          exact ⟨d₁, happend, .inr ⟨_, rfl, fun _ => rfl, .inl rfl⟩⟩
        · next d₁ fault h =>
          rw [h] at happend
          refine ⟨_, happend.trans ?_, .inl rfl⟩
          exact of_eq rfl rfl rfl rfl rfl
    | armed decision =>
      cases h
      split
      · exact ⟨d, refl d, .inr ⟨_, rfl, by simp, .inr rfl⟩⟩
      · exact ⟨d, refl d, .inr ⟨_, rfl, by simp, .inl rfl⟩⟩
    | gateway p =>
      simp only [runAction] at h
      split at h
      · contradiction
      all_goals
        next hs =>
        cases h
        exact ⟨_, submitAction hs, .inr ⟨_, rfl, by simp, .inl rfl⟩⟩
    | failed marks =>
      cases h
      refine ⟨_, ?_, .inr ⟨_, rfl, by simp, .inl rfl⟩⟩
      cases marks <;> exact of_eq rfl rfl rfl rfl rfl
    | stopping p receipt =>
      simp only [runAction] at h
      split at h
      · contradiction
      all_goals
        next hs =>
        cases h
        exact ⟨_, stopOverriddenAction hs, .inr ⟨_, rfl, by simp, .inl rfl⟩⟩
    | finalize receipt =>
      cases h
      exact ⟨_, finalizeAction .., .inl rfl⟩
    | refuse code message =>
      cases h
      exact ⟨_, reject .., .inr ⟨_, rfl, by simp, .inl rfl⟩⟩
    | result receipt =>
      cases h
      refine ⟨d, refl d, .inr ⟨_, rfl, fun h => ?_, .inl ?_⟩⟩
      · split at h <;> contradiction
      · split <;> rfl
  · contradiction

theorem invalidateProposals (d : Daemon) (es : List (PyStr × List (PyStr × PyVal))) :
    Aside d (d.invalidateProposals C es).1 := by
  obtain ⟨L, heq, hw⟩ := invalidateProposals_writes (C := C) d es
  rw [heq]
  exact ⟨hw.mono fun _ h => h.2.2, rfl, rfl, rfl, .of_eq rfl⟩

theorem requireRecovery (d : Daemon) (t : DateTime) : Aside d (d.requireRecovery C t).1 := by
  have hw := fun m : Recovery => append (C := C) d (e := requiredEvent m.actionIds m.realActionIds t)
    (show "RECOVERY" ≠ "PERMIT" by decide)
  unfold Daemon.requireRecovery
  split
  · exact .refl d
  dsimp only
  split
  · exact .refl d
  · have hw := hw (d.recovery.merge d.unknownReal d.unknownReal)
    split <;>
    · next h =>
      rw [h] at hw
      exact hw.trans (of_eq rfl rfl rfl rfl rfl)

theorem terminateJobs (r : Readings) (d : Daemon) (ids : List PyStr) :
    Aside d (d.terminateJobs C r ids).1 := by
  induction ids generalizing d r with
  | nil => exact .refl d
  | cons id ids ih =>
    rw [Daemon.terminateJobs]
    cases hj : d.jobs.get? id with
    | none => exact ih _ d
    | some j =>
      dsimp only
      have hstep := (reject d j.action (restartOutcome j).1 (restartOutcome j).2.1
        (restartOutcome j).2.2.1 r).trans (finishJob (C := C) _ j (restartOutcome j).2.2.2
          (d.reject j.action (restartOutcome j).1 (restartOutcome j).2.1
            (restartOutcome j).2.2.1 r).2.entries (r.clock 4))
      split
      · next d₁ fault h =>
        rw [h] at hstep
        exact hstep
      · next d₁ h =>
        rw [h] at hstep
        exact hstep.trans (ih _ d₁)

theorem start (d : Daemon) (r : Readings) : Aside d (d.start C r).1 := by
  have hreq := requireRecovery (C := C) d (r.clock 0)
  unfold Daemon.start recoverIncomplete
  rcases hr : d.requireRecovery C (r.clock 0) with ⟨d₁, _ | _⟩ <;> rw [hr] at hreq <;> dsimp only
  · exact hreq
  have hterminate := terminateJobs (C := C) (r.after 1)
    { d₁ with latched := d₁.latched || d₁.recoveryRequired } d.incomplete
  rcases ht : ({ d₁ with latched := d₁.latched || d₁.recoveryRequired } : Daemon).terminateJobs C
    (r.after 1) d.incomplete with ⟨d₂, _ | _⟩ <;> rw [ht] at hterminate <;> dsimp only
  all_goals
    have hlatch : Aside d₁ { d₁ with latched := d₁.latched || d₁.recoveryRequired } :=
      of_eq rfl rfl rfl rfl rfl
    have h : Aside d d₂ := hreq.trans (hlatch.trans hterminate)
  · exact h
  · obtain ⟨retained, g, heq, -⟩ := evictJobs_spec (C.maxRetained - 0) d₂ d₂.retained
    refine h.trans ?_
    rw [evict, heq]
    exact of_eq rfl rfl rfl rfl rfl

end Aside

/-! ### What the permits and the ledger say about each action -/

theorem consumptions_of_writes (h : Writes (· ≠ "PERMIT") L L') (id : PyStr) :
    consumptions L'.events id = consumptions L.events id := by
  obtain ⟨-, es, hes, hk⟩ := h
  have hnil : es.filter (isConsumption id) = [] := by
    rw [filter_eq_nil_iff]
    exact fun e he hc => hk e he (isConsumption_iff.mp hc).1
  rw [consumptions, hes, filter_append, hnil, append_nil, consumptions]

theorem prefix_eventTypes {d d' : Daemon} (h : d.ledger.events <+: d'.ledger.events) (id : PyStr) :
    d.eventTypes id <+: d'.eventTypes id := (h.filter _).map _

variable {id : PyStr} {j : ActionJob}

theorem mem_created_of_log {d d' : Daemon} (h : d.log <+: d'.log)
    (hj : j ∈ d.created id) : j ∈ d'.created id := (h.filterMap _).subset hj

theorem Ungranted.isPrefix {d d' : Daemon} (h : Ungranted d d') : d.log <+: d'.log := by
  obtain ⟨hs, hlog, -⟩ := h
  exact ⟨hs, hlog.symm⟩

/-- The consumptions that the ledger holds; they stay whatever becomes of a process. -/
structure Consumed (d : Daemon) : Prop where
  once : OnceConsumed d.ledger.events
  /-- no permit is consumed for an action that was not started -/
  unstarted (id : PyStr) : "ACTION_STARTED" ∉ d.eventTypes id → consumptions d.ledger.events id = []

/-- What a permit that lets an action through owes to the log and the ledger. -/
structure Granted (C : DaemonConfig) (d : Daemon) (id : PyStr) (j : ActionJob)
    (decision : PermitDecision) (p : ExecutionPermit) : Prop where
  decision : decision = PermitAuthority.allow p
  /-- the permit agreed with the action when `authorize` ran -/
  authorized : ∃ now tables, .authorized j.action j.peer now tables ∈ d.log ∧
    PermitAuthority.Matches C.py now tables j.action j.peer p
  /-- it was registered by this process -/
  registered : Registered (d.ledger.events.drop d.opened) p.permitId
  /-- the action was submitted, started, and then a use of the permit was consumed -/
  events : ∃ e₁ e₂ e₃, [e₁, e₂, e₃].Sublist d.ledger.events ∧
    (e₁.eventType = "ACTION_SUBMITTED" ∧ e₁.entityKind = "ACTION" ∧ e₁.entityId = id) ∧
    (e₂.eventType = "ACTION_STARTED" ∧ e₂.entityKind = "ACTION" ∧ e₂.entityId = id) ∧
    consumptions d.ledger.events id = [e₃] ∧ e₃.entityId = p.permitId

theorem registered_drop {n : Nat} {p : PyStr} (h : es <+: es') (hr : Registered (es.drop n) p) :
    Registered (es'.drop n) p := by
  obtain ⟨t, rfl⟩ := h
  rw [drop_append]
  exact hr.mono (subset_append_left _ _)

theorem Granted.mono {d d' : Daemon} (h : Granted C d id j decision p) (hlog : d.log <+: d'.log)
    (hev : d.ledger.events <+: d'.ledger.events) (ho : d'.opened = d.opened)
    (hc : consumptions d'.ledger.events id = consumptions d.ledger.events id) :
    Granted C d' id j decision p := by
  obtain ⟨now, tables, hin, hm⟩ := h.authorized
  obtain ⟨e₁, e₂, e₃, hsub, h₁, h₂, h₃, h₄⟩ := h.events
  refine ⟨h.decision, ⟨now, tables, hlog.subset hin, hm⟩, ?_, e₁, e₂, e₃,
    hsub.trans hev.sublist, h₁, h₂, hc.trans h₃, h₄⟩
  rw [ho]
  exact registered_drop hev h.registered

/-- The tables, the ledger and the threads agree about the permits. -/
structure Permitted (C : DaemonConfig) (d : Daemon) : Prop extends Consumed d where
  live : Live d.ledger d.authority
  opened : d.opened ≤ d.ledger.events.length
  /-- a permit of an earlier process is revoked -/
  generation (p : PyStr) : d.authority.permits.contains p = true →
    d.authority.revoked.contains p = false → Registered (d.ledger.events.drop d.opened) p
  waiting (id : PyStr) : d.workers.get? id = some .dispatch → consumptions d.ledger.events id = []
  granted (id : PyStr) (decision : PermitDecision) :
    (d.workers.get? id).bind WorkerPoint.decision = some decision →
      ∃ j ∈ d.created id, ∃ p, Granted C d id j decision p

variable {d d' : Daemon}

theorem Consumed.of_writes (h : Consumed d) (hw : Writes (· ≠ "PERMIT") d.ledger d'.ledger) :
    Consumed d' := by
  have hc := consumptions_of_writes hw
  refine ⟨fun id => by rw [hc]; exact h.once id, fun id ht => ?_⟩
  rw [hc]
  exact h.unstarted id fun h => ht ((prefix_eventTypes hw.isPrefix id).subset h)

/-- A step that has nothing to do with permits: a thread comes to authorize only right
after the start of its action, and gets no decision. -/
theorem Permitted.apart (h : Permitted C d) (hwrites : Writes (· ≠ "PERMIT") d.ledger d'.ledger)
    (ha : d'.authority = d.authority) (ho : d'.opened = d.opened) (hlog : d.log <+: d'.log)
    (hw : ∀ id, d'.workers.get? id = some .dispatch →
      d.workers.get? id = some .dispatch ∨ "ACTION_STARTED" ∉ d.eventTypes id)
    (hg : ∀ id decision, (d'.workers.get? id).bind WorkerPoint.decision = some decision →
      (d.workers.get? id).bind WorkerPoint.decision = some decision) : Permitted C d' := by
  have hc := consumptions_of_writes hwrites
  have hev := hwrites.isPrefix
  refine ⟨h.toConsumed.of_writes hwrites, ⟨?_, fun hu => ?_⟩, ?_, fun p hp hr => ?_, fun id hid => ?_,
    fun id decision hdec => ?_⟩
  · exact ha ▸ h.live.backed.mono hev.subset
  · rw [ha]
    obtain ⟨husable, es, hes, hk⟩ := hwrites
    have hcomplete := h.live.complete (husable hu)
    refine ⟨fun p ⟨e, he, hr⟩ => ?_, fun a p ⟨e, he, hcon, hid⟩ => ?_⟩ <;> rw [hes] at he
    · rcases mem_append.mp he with he | he
      · exact hcomplete.registered p ⟨e, he, hr⟩
      · exact absurd (isRegistration_iff.mp hr).1 (hk e he)
    · rcases mem_append.mp he with he | he
      · exact hcomplete.consumed a p ⟨e, he, hcon, hid⟩
      · exact absurd (isConsumption_iff.mp hcon).1 (hk e he)
  · rw [ho]
    exact h.opened.trans hev.length_le
  · rw [ha] at hp hr
    rw [ho]
    exact registered_drop hev (h.generation p hp hr)
  · rw [hc]
    exact (hw id hid).elim (h.waiting id) (h.unstarted id)
  · obtain ⟨j, hj, p, hp⟩ := h.granted id decision (hg id decision hdec)
    exact ⟨j, mem_created_of_log hlog hj, p, hp.mono hlog hev ho (hc id)⟩

theorem Permitted.aside (h : Permitted C d) (hs : Aside d d') : Permitted C d' :=
  h.apart hs.writes hs.authority hs.opened hs.log.isPrefix (fun _ hid => .inl (hs.workers ▸ hid))
    fun _ _ hdec => hs.workers ▸ hdec

theorem Permitted.goto (h : Permitted C d) (hs : Aside d d')
    (hq : q = .dispatch → "ACTION_STARTED" ∉ d.eventTypes id)
    (hdec : q.decision = none ∨ (d.workers.get? id).bind WorkerPoint.decision = q.decision) :
    Permitted C (d'.goto id q) := by
  have hself := Dict.get?_set_self d'.workers id q
  have hother : ∀ i, i ≠ id → (d'.workers.set id q).get? i = d.workers.get? i := fun i hi =>
    (Dict.get?_set_of_ne _ _ hi.symm).trans (congrArg (·.get? i) hs.workers)
  refine h.apart hs.writes hs.authority hs.opened hs.log.isPrefix (fun i hi => ?_)
    fun i decision hi => ?_
  · by_cases hne : i = id
    · subst hne
      exact .inr (hq (some_inj.mp (hself.symm.trans hi)))
    · exact .inl ((hother i hne).symm.trans hi)
  · by_cases hne : i = id
    · subst hne
      have hi' : q.decision = some decision :=
        (congrArg (·.bind WorkerPoint.decision) hself).symm.trans hi
      rcases hdec with hnone | hsame
      · exact nomatch hnone.symm.trans hi'
      · exact hsame.trans hi'
    · rw [← hother i hne]
      exact hi

theorem Permitted.happen (h : Permitted C d) (x : Happening) : Permitted C (d.happen x) :=
  h.apart (.refl _ _) rfl rfl (prefix_append ..) (fun _ hi => .inl hi) fun _ _ hdec => hdec

theorem Permitted.retire (h : Permitted C d) (id : PyStr) : Permitted C (d.retire id) := by
  have herase : ∀ i p, (d.workers.erase id).get? i = some p → d.workers.get? i = some p := by
    intro i p hi
    rw [Dict.get?_erase] at hi
    split at hi
    · contradiction
    · exact hi
  refine h.apart (.refl _ _) rfl rfl (prefix_refl _) (fun i hi => .inl (herase i _ hi))
    fun i decision hi => ?_
  obtain ⟨p, hp, hdec⟩ := bind_eq_some_iff.mp hi
  exact bind_eq_some_iff.mpr ⟨p, herase i p hp, hdec⟩

theorem Permitted.tables (h : Permitted C d) (hk : Rosclaw.Kept d.ledger d.authority L A)
    (hp : ∀ p, A.permits.contains p = true →
      d.authority.permits.contains p = true ∨ d.ledger.Usable) :
    d.opened ≤ L.events.length ∧ ∀ p, A.permits.contains p = true →
      A.revoked.contains p = false → Registered (L.events.drop d.opened) p := by
  refine ⟨h.opened.trans hk.events.length_le, fun p hpA hr => ?_⟩
  by_cases hold : d.authority.permits.contains p = true
  · refine registered_drop hk.events (h.generation p hold ?_)
    rw [Bool.eq_false_iff]
    exact fun hrev => Bool.noConfusion (hr.symm.trans (hk.grows.revoked p hrev))
  · -- the registration is one of the events that the operation appended
    have hcomplete := h.live.complete ((hp p hpA).resolve_left hold)
    obtain ⟨P, hP⟩ := Dict.contains_iff.mp hpA
    obtain ⟨-, e, he, hreg⟩ := hk.live.backed.permit p P hP
    obtain ⟨es, hes⟩ := hk.events
    rw [← hes, drop_append_of_le_length h.opened]
    rw [← hes] at he
    rcases mem_append.mp he with he | he
    · exact absurd (hcomplete.registered p ⟨e, he, hreg⟩) hold
    · exact ⟨e, mem_append_right _ he, hreg⟩

theorem Permitted.authority (h : Permitted C d) (hk : Rosclaw.Kept d.ledger d.authority L A)
    (hw : Writes (· = "PERMIT") d.ledger L)
    (hc : ∀ a, consumptions L.events a = consumptions d.ledger.events a)
    (hp : ∀ p, A.permits.contains p = true →
      d.authority.permits.contains p = true ∨ d.ledger.Usable) :
    Permitted C { d with ledger := L, authority := A } := by
  obtain ⟨hopened, hgeneration⟩ := h.tables hk hp
  have htypes : ∀ id, ({ d with ledger := L, authority := A } : Daemon).eventTypes id
      = d.eventTypes id := by
    intro id
    exact congrArg (List.map LedgerEvent.eventType)
      (hw.select (show ¬ "ACTION" = "PERMIT" by decide) (some id))
  refine ⟨⟨hk.once, fun id ht => ?_⟩, hk.live, hopened, hgeneration, fun id hid => ?_,
    fun id decision hdec => ?_⟩
  · exact (hc id).trans (h.unstarted id (htypes id ▸ ht))
  · exact (hc id).trans (h.waiting id hid)
  · obtain ⟨j, hj, p, hp⟩ := h.granted id decision hdec
    exact ⟨j, hj, p, hp.mono (prefix_refl _) hk.events rfl (hc id)⟩

theorem Permitted.move {k : MoveKind} (h : Permitted C d) (hm : Move C env k d d') :
    Permitted C d' := by
  by_cases hk : k = .authority
  · subst hk
    cases hm with
    | authority hw hkept hc hp => exact h.authority (hkept h.live h.once) hw hc hp
  · exact h.aside (.of_move hm hk)

theorem ungranted_moves (hm : Moves C env ks d d') : Ungranted d d' := by
  induction hm with
  | refl => exact .of_eq rfl
  | tail _ hstep ih =>
    obtain ⟨k, -, hm⟩ := hstep
    refine ih.trans ?_
    by_cases hk : k = .authority
    · subst hk
      cases hm
      exact .of_eq rfl
    · exact (Aside.of_move hm hk).log

theorem Permitted.moves (h : Permitted C d) (hm : Moves C env ks d d') : Permitted C d' :=
  hm.invariant (fun _ _ _ _ hd hm => hd.move hm) h

/-! ### The threads of the pool -/

/-- A thread that authorizes finds its action submitted and started, and no permit
consumed for it. -/
theorem events_of_dispatch (hd : d.Tracked) (hw : d.workers.get? id = some .dispatch) :
    ∃ e₁ e₂, d.events id = [e₁, e₂] ∧ e₁.eventType = "ACTION_SUBMITTED" ∧
      e₂.eventType = "ACTION_STARTED" := by
  obtain ⟨-, -, -, -, -, -, -, ht, -⟩ := (hd.stage id).of_worker hw
  obtain ⟨e₁, es, hev, h₁, ht⟩ := map_eq_cons_iff.mp ht
  obtain ⟨e₂, es, rfl, h₂, ht⟩ := map_eq_cons_iff.mp ht
  obtain rfl := map_eq_nil_iff.mp ht
  exact ⟨e₁, e₂, hev, h₁, h₂⟩

theorem Permitted.granted_of_consumed (h : Permitted C d) (hd : d.Tracked) {e : LedgerEvent}
    {d' : Daemon} (hw : d.workers.get? id = some .dispatch)
    (hm : PermitAuthority.Matches C.py now d.authority j.action j.peer p)
    (hcon : isConsumption id e = true)
    (he : e.entityId = PermitAuthority.approvalIdOf C.py j.action)
    (hev : d'.ledger.events = d.ledger.events ++ [e]) (ho : d'.opened = d.opened)
    (hlog : .authorized j.action j.peer now d.authority ∈ d'.log) :
    Granted C d' id j (PermitAuthority.allow p) p := by
  obtain ⟨e₁, e₂, hes, h₁, h₂⟩ := events_of_dispatch hd hw
  have hpid := (h.live.backed.permit _ _ hm.registered).1
  have hmem : ∀ e' ∈ [e₁, e₂], e'.entityKind = "ACTION" ∧ e'.entityId = id := by
    intro e' he'
    have hsel := (Ledger.mem_select.mp (hes ▸ he' : e' ∈ d.events id)).2
    exact ⟨hsel.1, hsel.2 id rfl⟩
  refine ⟨rfl, ⟨now, d.authority, hlog, hm⟩, ?_, e₁, e₂, e, ?_, ?_, ?_, ?_, he.trans hpid.symm⟩
  · rw [ho]
    refine registered_drop (hev ▸ prefix_append ..) (h.generation p.permitId ?_ ?_)
    · exact hpid ▸ Dict.contains_iff.mpr ⟨p, hm.registered⟩
    · rw [hpid, Dict.contains, hm.unrevoked]
      rfl
  · rw [hev]
    have hsub : [e₁, e₂].Sublist d.ledger.events := hes ▸ filter_sublist
    exact hsub.append (List.Sublist.refl [e])
  · exact ⟨h₁, hmem e₁ (by simp)⟩
  · exact ⟨h₂, hmem e₂ (by simp)⟩
  · rw [hev, consumptions, filter_append, ← consumptions, h.waiting id hw]
    simp [hcon]

theorem Granted.of_same {j₀ j : ActionJob} (hs : SameJob j₀ j) (h : Granted C d id j decision p) :
    Granted C d id j₀ decision p := by
  obtain ⟨now, tables, hin, hm⟩ := h.authorized
  rw [hs.action, hs.peer] at hin hm
  exact ⟨h.decision, ⟨now, tables, hin, hm⟩, h.registered, h.events⟩

theorem Permitted.authorize (h : Permitted C d) (hd : d.Tracked) {log : List Happening}
    {res : Except LedgerFault PermitDecision} (hw : d.workers.get? id = some .dispatch)
    (hj : d.jobs.get? id = some j)
    (hr : d.authority.authorize C.py now d.ledger j.action j.peer = (L, A, res))
    (hlog : d.log <+: log) (hq : q ≠ .dispatch)
    (hgrant : ∀ decision, q.decision = some decision → ∃ p,
      Granted C { d with ledger := L, authority := A, log := log } id j decision p) :
    Permitted C (({ d with ledger := L, authority := A, log := log } : Daemon).goto id q) := by
  obtain ⟨j₀, j', hj', hcreated, hs, -⟩ := (hd.stage id).of_worker hw
  obtain rfl := some_inj.mp (hj'.symm.trans hj)
  have hid : j'.action.actionId = id := hd.actionId hj
  have hk := kept_authorize C.py now h.live h.once j'.action j'.peer
  have hwrites := authorize_writes C.py now d.ledger d.authority j'.action j'.peer
  have hpermits := authorize_permits C.py now d.ledger d.authority j'.action j'.peer
  have hc : ∀ i, i ≠ id → consumptions L.events i = consumptions d.ledger.events i := by
    intro i hi
    have := authorize_consumptions C.py now d.ledger d.authority j'.action j'.peer
      (i := i) (hid ▸ hi)
    rwa [hr] at this
  rw [hr] at hk hwrites hpermits
  obtain ⟨hopened, hgeneration⟩ := h.tables hk fun p hp => .inl (hpermits ▸ hp)
  have htypes : ∀ i, (L.select "ACTION" (some i)).map LedgerEvent.eventType = d.eventTypes i :=
    fun i => congrArg (List.map LedgerEvent.eventType)
      (hwrites.select (show ¬ "ACTION" = "PERMIT" by decide) (some i))
  have hstarted : "ACTION_STARTED" ∈ d.eventTypes id := by
    obtain ⟨e₁, e₂, hes, -, h₂⟩ := events_of_dispatch hd hw
    simp [eventTypes, hes, h₂]
  have hworker : ∀ i, i ≠ id → (d.workers.set id q).get? i = d.workers.get? i := fun i hi =>
    Dict.get?_set_of_ne _ _ hi.symm
  refine ⟨⟨hk.once, fun i ht => ?_⟩, hk.live, hopened, hgeneration, fun i hi => ?_,
    fun i decision hdec => ?_⟩
  · by_cases hi : i = id
    · subst hi
      exact absurd hstarted (htypes i ▸ ht)
    · exact (hc i hi).trans (h.unstarted i (htypes i ▸ ht))
  · by_cases hne : i = id
    · subst hne
      have hself := Dict.get?_set_self d.workers i q
      exact absurd (some_inj.mp (hself.symm.trans hi)) hq
    · exact (hc i hne).trans (h.waiting i ((hworker i hne).symm.trans hi))
  · by_cases hne : i = id
    · subst hne
      have hself := congrArg (·.bind WorkerPoint.decision) (Dict.get?_set_self d.workers i q)
      obtain ⟨p, hp⟩ := hgrant decision (hself.symm.trans hdec)
      have hmem : j₀ ∈ d.created i := by simp [hcreated]
      exact ⟨j₀, mem_created_of_log (d := d) hlog hmem, p,
        (hp.of_same hs).mono (prefix_refl _) (prefix_refl _) rfl rfl⟩
    · obtain ⟨j, hj, p, hp⟩ := h.granted i decision (by rw [← hworker i hne]; exact hdec)
      exact ⟨j, mem_created_of_log (d := d) hlog hj, p, hp.mono hlog hk.events rfl (hc i hne)⟩

theorem Permitted.dispatch (h : Permitted C d) (hd : d.Tracked)
    (hw : d.workers.get? id = some .dispatch) (hj : d.jobs.get? id = some j) :
    Permitted C (d.dispatchAction C id j env) := by
  unfold dispatchAction
  dsimp only
  split
  · rcases hr : d.authority.authorize C.py (env.readings.clock 0) d.ledger j.action j.peer with
      ⟨L, A, fault | decision⟩ <;> dsimp only
    · exact h.authorize hd hw hj hr (prefix_refl _) (fun h => nomatch h) fun _ h => nomatch h
    split
    · next hallowed =>
      refine h.authorize hd hw hj hr (prefix_append ..) (fun h => nomatch h) fun decision' hdec => ?_
      obtain rfl : decision = decision' := some_inj.mp hdec
      have hcases := authorize_cases C.py (env.readings.clock 0) d.ledger d.authority
        j.action j.peer
      have hk := kept_authorize C.py (env.readings.clock 0) h.live h.once j.action j.peer
      have hid := hd.actionId hj
      rw [hr] at hcases
      cases hcases with
      | denied hdenied => exact Bool.noConfusion (hdenied.symm.trans hallowed)
      | @replayed p hm hc =>
        -- no use was stored for the action before
        obtain ⟨e, he, hcon, -⟩ := h.live.backed.consumed _ _ hc
        have hmem : e ∈ consumptions d.ledger.events id := mem_filter.mpr ⟨he, hid ▸ hcon⟩
        rw [h.waiting id hw] at hmem
        exact nomatch hmem
      | @consumed p e _ hm _ _ he hL =>
        subst he
        obtain ⟨-, -, e, hstored, hev⟩ := Ledger.append_returned (congrArg Prod.snd hL)
        rw [hL] at hev
        obtain ⟨hcon, hent⟩ := isConsumption_stored hstored
        exact ⟨p, h.granted_of_consumed hd hw hm (hid ▸ hcon) hent hev rfl (by simp)⟩
    · exact h.authorize hd hw hj hr (prefix_refl _) (fun h => nomatch h) fun _ h => nomatch h
  · exact (h.happen _).goto (.refl _) (fun h => nomatch h) (.inl rfl)

/-- **A step of a thread of the pool** keeps the tables, the ledger and the threads in
agreement. -/
theorem Permitted.work (h : Permitted C d) (hd : d.Tracked)
    (hwork : d.work C id env = some d') : Permitted C d' := by
  have hwork' := hwork
  unfold Daemon.work at hwork
  split at hwork
  · next p j hw hj =>
    by_cases hdispatch : p = .dispatch
    · subst hdispatch
      exact some_inj.mp hwork ▸ h.dispatch hd hw hj
    by_cases hhand : ∃ decision, p = .hand decision
    · obtain ⟨decision, rfl⟩ := hhand
      simp only [runAction] at hwork
      split at hwork <;> cases hwork
      · exact h.goto (.refl _) (fun h => by cases h) (.inl rfl)
      · exact (h.happen _).goto (.refl _) (fun h => by cases h) (.inl rfl)
    obtain ⟨d₁, hs, rfl | ⟨q, rfl, hq, hdec⟩⟩ := Aside.of_work hw
      ⟨hdispatch, fun decision heq => hhand ⟨decision, heq⟩⟩ hwork'
    · exact (h.aside hs).retire id
    · refine h.goto hs (fun hq' => ?_) (hdec.imp_right fun hdec => ?_)
      · obtain ⟨-, -, -, -, -, -, -, ht, -⟩ := (hd.stage id).of_worker hw
        rw [hq hq'] at ht
        simp [ht, WorkerPoint.isBegin]
      · rw [hw, bind_some, hdec]
  · contradiction

/-! ### The restart -/

theorem open_consumptions (py : Builtins) (L : Ledger) (a : PyStr) :
    consumptions (PermitAuthority.open py L).1.events a = consumptions L.events a := by
  have hread := Ledger.read_events L "PERMIT" none
  unfold PermitAuthority.open
  rcases h : L.read "PERMIT" none with ⟨L₁, fault | es⟩ <;> rw [h] at hread <;> dsimp only at hread ⊢
  · rw [hread]
  cases PermitAuthority.restoreEvents {} es with
  | none =>
    dsimp only
    rw [hread]
  | some A =>
    have hrevoke := revokeEach_consumptions py "daemon_restart_generation_changed" L₁ A
      A.allTargets a
    rw [hread] at hrevoke
    simp only [PermitAuthority.revokeAll]
    rcases hr : PermitAuthority.revokeEach py "daemon_restart_generation_changed" L₁ A A.allTargets
      with ⟨L₂, A₂, _ | fault⟩ <;>
    · rw [hr] at hrevoke
      exact hrevoke

/-- **A restart** keeps what the ledger says of consumptions; the daemon that it starts
has no permit that is not revoked. -/
theorem permitted_restart (C : DaemonConfig) (env : Answers) (h : Consumed d) :
    Consumed (d.restart C env).1 ∧ ((d.restart C env).2 = true → Permitted C (d.restart C env).1) := by
  have hopen := open_writes C.py (d.fresh C env).ledger
  have hcon := open_consumptions C.py (d.fresh C env).ledger
  have honce := open_events C.py (L := (d.fresh C env).ledger) h.once
  have hL : ∀ d' : Daemon, d'.ledger = (PermitAuthority.open C.py (d.fresh C env).ledger).1 →
      Consumed d' := by
    intro d' hd'
    refine ⟨hd' ▸ honce.1, fun id ht => ?_⟩
    rw [hd', hcon]
    refine h.unstarted id fun hs => ht ?_
    rw [eventTypes, events, hd', hopen.select (show ¬ "ACTION" = "PERMIT" by decide)]
    exact hs
  rcases restart_cases C d env with ⟨L, rfl, heq⟩ | ⟨L, A, jobs, pending, d₁, ho, -, hi, heq⟩ <;>
    rw [heq]
  · exact ⟨hL _ rfl, by simp⟩
  obtain ⟨hlive, -, -, hrevoked⟩ := kept_open (L := (d.fresh C env).ledger) h.once ho
  have hreloaded : Permitted C (reloaded C d env L A jobs pending) := by
    refine ⟨hL _ (by rw [ho]; rfl), hlive, ?_, fun p hp hr => ?_, fun id hid => (by cases hid),
      fun id decision hid => by cases hid⟩
    · have hle := honce.2.length_le
      rw [ho] at hle
      exact hle
    · exact Bool.noConfusion (hr.symm.trans (hrevoked p hp))
  have hd₁ : Permitted C d₁.1 := hi ▸ hreloaded.aside (Aside.invalidateProposals (C := C) _ _)
  split
  · have hstart := hd₁.aside (Aside.start (C := C) d₁.1 env.readings)
    exact ⟨hstart.toConsumed, fun _ => hstart⟩
  · exact ⟨hd₁.toConsumed, by simp⟩

theorem unhanded_restart (d : Daemon) : Unhanded d (d.restart C env).1 := by
  rcases restart_cases C d env with ⟨L, rfl, heq⟩ | ⟨L, A, jobs, pending, d₁, ho, -, hi, heq⟩ <;>
    rw [heq]
  · exact .of_eq rfl
  have hd₁ : Unhanded d d₁.1 := .trans (.of_eq rfl)
    (hi ▸ (Aside.invalidateProposals (C := C) (reloaded C d env L A jobs pending) _).log.unhanded)
  split
  · exact hd₁.trans (Aside.start (C := C) d₁.1 env.readings).log.unhanded
  · exact hd₁

theorem runAction_hand (d : Daemon) (id : PyStr) (j : ActionJob) (env : Answers)
    (decision : PermitDecision) :
    d.runAction C id j env (.hand decision) = some ((d.happen (.handed
      ⟨{ j.action.toActionFields with authorization := decision.authorization }, j.action.valid⟩)).goto
        id (.gateway (.submit
          ⟨{ j.action.toActionFields with authorization := decision.authorization },
            j.action.valid⟩))) := by
  rw [runAction, authorizedAction_eq]


theorem dispatch_log (C : DaemonConfig) (env : Answers) (d : Daemon) (id : PyStr) (j : ActionJob) :
    (j.action.executionMode ≠ .real ∧
      (d.dispatchAction C id j env).log = d.log ++ [.handed j.action]) ∨
      Unhanded d (d.dispatchAction C id j env) := by
  unfold dispatchAction
  dsimp only
  split
  · right
    split
    · exact .of_eq rfl
    · split
      · exact .trans (.of_eq rfl) (.happen _ fun _ h => nomatch h)
      · exact .of_eq rfl
  · next hmode => exact .inl ⟨hmode, rfl⟩

theorem pick_eq (h : d.pick id = some d') : ∃ j, d' = (d.setJob id j).goto id .begin := by
  unfold pick at h
  split at h
  · exact nomatch h
  split at h
  · exact ⟨_, (some_inj.mp h).symm⟩
  · exact nomatch h

end Daemon

namespace System

variable {C : DaemonConfig} {s s' : System}

/-- The permits, between any two stretches of code. -/
structure Licensed (C : DaemonConfig) (s : System) : Prop where
  consumed : s.daemon.Consumed
  permitted : s.alive = true → s.daemon.Permitted C

variable {d d' : Daemon} {j j₀ : ActionJob}

theorem permitted_answered (h : d.Permitted C) (env : Answers) : (d.answered env).Permitted C :=
  h.aside ⟨⟨fun hu => hu, [], by simp [Daemon.answered, Ledger.withOutcomes], by simp⟩, rfl, rfl, rfl,
    .of_eq rfl⟩

theorem licensed_step (hsound : s.Sound) (hs : s.Licensed C) {l : Label}
    (h : s.step C l = some s') : s'.Licensed C := by
  cases l with
  | call c =>
    simp only [step, ite_none_right_eq_some, Option.some.injEq] at h
    obtain ⟨-, rfl⟩ := h
    exact ⟨hs.consumed, hs.permitted⟩
  | run i env =>
    simp only [step] at h
    split at h
    · contradiction
    next halive =>
    split at h
    · next t ts hi =>
      obtain ⟨r, hr, rfl⟩ := map_eq_some_iff.mp h
      have halive : s.alive = true := by simpa using halive
      have hmoves := Daemon.exec_moves (hsound.framed _ (mem_of_getElem? hi) t mem_cons_self)
        (tracked_answered (hsound.tracked halive) env).filedJobs hr
      have hd := (permitted_answered (hs.permitted halive) env).moves hmoves
      exact ⟨hd.toConsumed, fun _ => hd⟩
    · contradiction
  | work id env =>
    simp only [step] at h
    split at h
    · contradiction
    next halive =>
    obtain ⟨d, hd, rfl⟩ := map_eq_some_iff.mp h
    have halive : s.alive = true := by simpa using halive
    have hd := (permitted_answered (hs.permitted halive) env).work
      (tracked_answered (hsound.tracked halive) env) hd
    exact ⟨hd.toConsumed, fun _ => hd⟩
  | pick id =>
    simp only [step] at h
    split at h
    · contradiction
    next halive =>
    obtain ⟨d, hd, rfl⟩ := map_eq_some_iff.mp h
    have halive : s.alive = true := by simpa using halive
    obtain ⟨j, rfl⟩ := Daemon.pick_eq hd
    have hd : ((s.daemon.setJob id j).goto id .begin).Permitted C :=
      (hs.permitted halive).goto (.setJob ..) (fun h => by cases h) (.inl rfl)
    exact ⟨hd.toConsumed, fun _ => hd⟩
  | crash =>
    simp only [step, ite_none_right_eq_some, Option.some.injEq] at h
    obtain ⟨-, rfl⟩ := h
    exact ⟨hs.consumed, by simp⟩
  | restart env =>
    simp only [step] at h
    split at h
    · contradiction
    cases h
    obtain ⟨hcon, hpermitted⟩ := Daemon.permitted_restart C env hs.consumed
    exact ⟨hcon, fun h => hpermitted (Bool.and_eq_true_iff.mp h).1⟩

theorem licensed_of_reachable (h : (controlPlane C).Reachable s) : s.Licensed C := by
  refine h.invariant_of (P := Licensed C) (fun _ => sound_of_reachable) (fun s hinit => ?_)
    (fun _ _ _ hsound hs _ hstep => licensed_step hsound hs hstep)
  obtain ⟨halive, -, hevents, -, -⟩ := hinit
  refine ⟨⟨fun a => ?_, fun id _ => ?_⟩, fun h => Bool.noConfusion (halive.symm.trans h)⟩
  · simp [consumptions, hevents]
  · simp [consumptions, hevents]

/-- **A REAL action reaches the runtime only with a permit.**  Whenever a step hands one
over, it is a step of the thread of its job, the authorization that the action carries is
the daemon's, and the ledger holds its submission, its start and then the only use of a
permit for it, which this process had registered and which agreed with the action when it
was authorized. -/
theorem handed_real {l : Label} {a : ActionEnvelope} (hs : (controlPlane C).Reachable s)
    (hstep : (controlPlane C).step s l = some s')
    (hhand : s'.daemon.log = s.daemon.log ++ [.handed a]) (hreal : a.executionMode = .real) :
    ∃ id env j p, l = .work id env ∧ s.daemon.jobs.get? id = some j ∧ j.action.actionId = id ∧
      a = ⟨{ j.action.toActionFields with authorization := (PermitAuthority.allow p).authorization },
        j.action.valid⟩ ∧
      s.daemon.Granted C id j (PermitAuthority.allow p) p := by
  have hsound := sound_of_reachable hs
  have hlicensed := licensed_of_reachable hs
  have hstep : s.step C l = some s' := hstep
  cases l with
  | work id env =>
    simp only [step] at hstep
    split at hstep
    · contradiction
    next halive =>
    obtain ⟨d, hd, rfl⟩ := Option.map_eq_some_iff.mp hstep
    have halive : s.alive = true := by simpa using halive
    have htracked := tracked_answered (hsound.tracked halive) env
    have hd' := hd
    unfold Daemon.work at hd'
    split at hd'
    · next p j hw hj =>
      by_cases hdispatch : p = .dispatch
      · subst hdispatch
        obtain rfl := Option.some_inj.mp hd'
        rcases Daemon.dispatch_log C env (s.daemon.answered env) id j with
          ⟨hmode, hlog⟩ | hun
        · have heq := List.append_cancel_left (hlog.symm.trans hhand)
          obtain rfl : j.action = a := Happening.handed.inj (List.cons.inj heq).1
          exact absurd hreal hmode
        · exact (hun.not_handed hhand).elim
      by_cases hdecision : ∃ decision, p = .hand decision
      · obtain ⟨decision, rfl⟩ := hdecision
        obtain ⟨j₀, hj₀, P, hP⟩ := (hlicensed.permitted halive).granted id decision
          ((congrArg (·.bind WorkerPoint.decision) hw).trans rfl)
        obtain ⟨j₁, j', hj', hc, hsame, -⟩ := (htracked.stage id).of_worker hw
        obtain rfl := Option.some_inj.mp (hj'.symm.trans hj)
        obtain rfl : j₀ = j₁ := by
          have hc : s.daemon.created id = [j₁] := hc
          rw [hc] at hj₀
          exact List.mem_singleton.mp hj₀
        simp only [Daemon.runAction_hand, Option.some.injEq] at hd'
        subst hd'
        have heq := List.append_cancel_left (hhand : s.daemon.log ++ [_] = s.daemon.log ++ [_])
        have ha := Happening.handed.inj (List.cons.inj heq).1
        obtain rfl := hP.decision
        exact ⟨id, env, j', P, rfl, hj, htracked.actionId hj, ha.symm, hP.of_same hsame.symm⟩
      · obtain ⟨d₁, haside, hgone⟩ := Daemon.Aside.of_work hw
          ⟨hdispatch, fun decision heq => hdecision ⟨decision, heq⟩⟩ hd
        have hlog : d.log = d₁.log := by
          rcases hgone with rfl | ⟨q, rfl, -⟩ <;> rfl
        exact (haside.log.unhanded.not_handed (hlog.symm.trans hhand)).elim
    · contradiction
  | call c =>
    simp only [step, Option.ite_none_right_eq_some, Option.some.injEq] at hstep
    obtain ⟨-, rfl⟩ := hstep
    exact ((Daemon.Unhanded.of_eq rfl).not_handed hhand).elim
  | run i env =>
    simp only [step] at hstep
    split at hstep
    · contradiction
    next halive =>
    split at hstep
    · next t ts hi =>
      obtain ⟨r, hr, rfl⟩ := Option.map_eq_some_iff.mp hstep
      have hmoves := Daemon.exec_moves (hsound.framed _ (List.mem_of_getElem? hi) t List.mem_cons_self)
        (tracked_answered (hsound.tracked (by simpa using halive)) env).filedJobs hr
      exact ((Daemon.ungranted_moves hmoves).unhanded.not_handed hhand).elim
    · contradiction
  | pick id =>
    simp only [step] at hstep
    split at hstep
    · contradiction
    obtain ⟨d, hd, rfl⟩ := Option.map_eq_some_iff.mp hstep
    obtain ⟨j, rfl⟩ := Daemon.pick_eq hd
    exact ((Daemon.Unhanded.of_eq rfl).not_handed hhand).elim
  | crash =>
    simp only [step, Option.ite_none_right_eq_some, Option.some.injEq] at hstep
    obtain ⟨-, rfl⟩ := hstep
    exact ((Daemon.Unhanded.of_eq rfl).not_handed hhand).elim
  | restart env =>
    simp only [step] at hstep
    split at hstep
    · contradiction
    obtain rfl := Option.some_inj.mp hstep
    exact ((Daemon.unhanded_restart s.daemon).not_handed hhand).elim

theorem step_hand {id : PyStr} {decision : PermitDecision} (env : Answers) (halive : s.alive = true)
    (hw : s.daemon.workers.get? id = some (.hand decision)) (hj : s.daemon.jobs.get? id = some j) :
    ∃ s', (controlPlane C).step s (.work id env) = some s' ∧ s'.daemon.log = s.daemon.log ++ [.handed
      ⟨{ j.action.toActionFields with authorization := decision.authorization }, j.action.valid⟩] := by
  have hwork : (s.daemon.answered env).work C id env = (s.daemon.answered env).runAction C id j env
      (.hand decision) := by
    unfold Daemon.work
    rw [show (s.daemon.answered env).workers.get? id = some (.hand decision) from hw,
      show (s.daemon.answered env).jobs.get? id = some j from hj]
  rw [Daemon.runAction_hand] at hwork
  have hstep : (controlPlane C).step s (.work id env)
      = ((s.daemon.answered env).work C id env).map fun d => s.after d s.threads env :=
    if_neg (by simp [halive])
  rw [hwork] at hstep
  exact ⟨_, hstep, rfl⟩

/-- A REAL action that names the permit `permit_p`. -/
def permittedAction : ActionEnvelope :=
  .sample "a1" ActionEnvelope.isBlank_a1 .real (.str "permit_p") .second

/-- A session is created, the daemon armed, the permit issued, and the action requested,
started and authorized. -/
def grantedRun : List Label :=
  [.restart {}, .call (.createSession ⟨"s", "a", "f", ["b"], ["c"], 60000⟩ ⟨1, 7, 0⟩), .run 0 {},
    .run 0 {}, .run 0 {}, .call (.armRuntime "ready" ⟨1, 0, 0⟩), .run 1 {}, .run 1 {},
    .call (.issueExecutionPermit ⟨permittedAction, "op", 7, 60, "ok", .ofEntries []⟩ ⟨1, 0, 0⟩), .run 2 {},
    .run 2 {}, .run 2 { readings := ⟨fun _ => default, fun _ => "p", id⟩ },
    .call (.requestAction permittedAction ⟨1, 7, 0⟩), .run 3 {}, .run 3 {}, .run 3 {}, .pick "a1",
    .work "a1" {}, .work "a1" {}, .work "a1" {}]

def modeInHand (s : System) (id : PyStr) : Option ExecutionMode :=
  match s.daemon.workers.get? id, s.daemon.jobs.get? id with
  | some (.hand _), some j => some j.action.executionMode
  | _, _ => none

theorem handed_real_grantedRun :
    ∃ s s' a, (controlPlane (.small [("c", .real)])).run .blank grantedRun = some s ∧
      (controlPlane (.small [("c", .real)])).step s (.work "a1" {}) = some s' ∧
      s'.daemon.log = s.daemon.log ++ [.handed a] ∧ ∃ id j p,
        s.daemon.Granted (.small [("c", .real)]) id j (PermitAuthority.allow p) p := by
  have hrun : ((controlPlane (.small [("c", .real)])).run .blank grantedRun).map (fun s =>
      (s.alive, s.modeInHand "a1")) = some (true, some .real) := by
    decide +kernel
  obtain ⟨s, hs, hout⟩ := Option.map_eq_some_iff.mp hrun
  obtain ⟨halive, hout⟩ := Prod.mk.inj hout
  unfold modeInHand at hout
  split at hout
  · next decision j hw hj =>
    have hreal := Option.some_inj.mp hout
    obtain ⟨s', hstep, hlog⟩ := step_hand {} halive hw hj
    obtain ⟨id, env, j', p, -, -, -, -, hgranted⟩ :=
      handed_real (.of_run (init_blank _) hs) hstep hlog hreal
    exact ⟨s, s', _, hs, hstep, hlog, id, j', p, hgranted⟩
  · cases hout

/-! ### Requests for an action that is known -/

theorem findJob_same (d : Daemon) (id : PyStr) (r : Readings) :
    (d.findJob C id r).1.jobs = d.jobs ∧ (d.findJob C id r).1.log = d.log := by
  unfold Daemon.findJob
  split
  · exact ⟨rfl, rfl⟩
  · unfold Daemon.loadPersistedJob
    split <;> exact ⟨rfl, rfl⟩

theorem sameJob_of_found (hd : d.Tracked) {id : PyStr} {r : Readings}
    (h : d.findJob C id r = (d', some (some j))) (hj₀ : j₀ ∈ d.created id) : SameJob j₀ j := by
  obtain ⟨hcreated, -⟩ := (hd.history id).created_le.2 j₀ hj₀
  obtain ⟨-, hjob | ⟨-, hdecode⟩⟩ := Daemon.findJob_some h
  · have hjob := (Daemon.job?_eq_some.mp hjob).2
    cases hd.stage id with
    | unknown hj => exact nomatch hj.symm.trans hjob
    | waiting hj _ hc hs | running hj _ hc hs | ended hj _ hc hs =>
      obtain rfl := some_inj.mp (hj.symm.trans hjob)
      obtain rfl := (List.cons.inj (hcreated.symm.trans hc)).1
      exact hs
  · obtain ⟨j₁, hc, hs, -⟩ := decode_history (hd.history id) hdecode
    obtain rfl := (List.cons.inj (hcreated.symm.trans hc)).1
    exact hs

theorem submit_known (hd : d.Tracked) {a : ActionEnvelope} (hj₀ : j₀ ∈ d.created a.actionId)
    (peer : PeerCredentials) (env : Answers) :
    (d.submit C a peer env).jobs = d.jobs ∧ ((d.submit C a peer env).log = d.log ∨
      ∃ j, (d.submit C a peer env).log = d.log ++ [.returned a peer j] ∧ SameJob j₀ j ∧
        Daemon.ownsJob C j (some peer) = true ∧ j.action.toDict.pyEq a.toDict = true) := by
  have hsame := findJob_same (C := C) d a.actionId env.readings
  unfold Daemon.submit
  split
  · exact ⟨rfl, .inl rfl⟩
  rcases hf : d.findJob C a.actionId env.readings with ⟨d', _ | _ | j⟩ <;> rw [hf] at hsame <;>
    dsimp only
  · exact ⟨hsame.1, .inl hsame.2⟩
  · obtain ⟨-, -, hnew⟩ := Daemon.findJob_none hf
    exact absurd hnew ((hd.history a.actionId).created_le.2 j₀ hj₀).2
  · split
    · next howner =>
      rw [Bool.and_eq_true] at howner
      exact ⟨hsame.1, .inr ⟨j, congrArg (· ++ _) hsame.2, sameJob_of_found hd hf hj₀, howner⟩⟩
    · exact ⟨hsame.1, .inl hsame.2⟩

theorem step_of_framed {l : Label} (hl : l.framed = true) (h : (openPlane C).step s l = some s') :
    (controlPlane C).step s l = some s' := by
  cases l with
  | call c =>
    show (if s.alive && c.framed then _ else none) = some s'
    rw [show c.framed = true from hl, Bool.and_true]
    exact h
  | _ => exact h

theorem reachable_of_framed (h : (openPlane C).ReachableUnder (fun _ l => l.framed = true) s) :
    (controlPlane C).Reachable s := by
  induction h with
  | init hinit => exact .init hinit
  | step _ hl hstep ih => exact .step ih trivial (step_of_framed hl hstep)

/-- **An action is handed to the runtime once, and gets one job**, over any number of
processes, when the keys of the arguments are texts.  A request for an action that has a job
returns that job, to its owner and for the same action only, or it returns nothing; it makes
no job. -/
theorem submitted_once (hs : (openPlane C).ReachableUnder (fun _ l => l.framed = true) s)
    (id : PyStr) :
    (s.daemon.handed id).length ≤ 1 ∧ (s.daemon.created id).length ≤ 1 ∧
      ∀ (i : Nat) (env : Answers) (a : ActionEnvelope) (peer : PeerCredentials) (ts : List Task)
        (s' : System) (j₀ : ActionJob), s.threads[i]? = some (.submit a peer :: ts) →
        (openPlane C).step s (.run i env) = some s' → a.actionId = id →
        j₀ ∈ s.daemon.created id →
          s'.daemon.jobs = s.daemon.jobs ∧ (s'.daemon.log = s.daemon.log ∨
            ∃ j, s'.daemon.log = s.daemon.log ++ [.returned a peer j] ∧ SameJob j₀ j ∧
              Daemon.ownsJob C j (some peer) = true ∧ j.action.toDict.pyEq a.toDict = true) := by
  have hsound := sound_of_reachable (reachable_of_framed hs)
  refine ⟨(hsound.history id).handed_le, (hsound.history id).created_le.1, ?_⟩
  intro i env a peer ts s' j₀ hi hstep hid hj₀
  have hstep : s.step C (.run i env) = some s' := hstep
  subst hid
  simp only [step] at hstep
  split at hstep
  · contradiction
  next halive =>
  rw [hi] at hstep
  obtain ⟨r, hr, rfl⟩ := Option.map_eq_some_iff.mp hstep
  obtain rfl := Option.some_inj.mp hr
  have htracked := tracked_answered (hsound.tracked (by simpa using halive)) env
  exact submit_known htracked hj₀ peer env

def requestedAgain : List Label :=
  grantedRun ++ [.work "a1" {}, .call (.requestAction permittedAction ⟨1, 7, 0⟩), .run 4 {}, .run 4 {}]

def toSubmit (s : System) (i : Nat) : Option ActionEnvelope :=
  match s.threads[i]? with
  | some (Task.submit a _ :: _) => some a
  | _ => none

theorem submitted_once_requestedAgain :
    ∃ s s' a peer, (openPlane (.small [("c", .real)])).runUnder (fun _ l => l.framed = true) .blank
        requestedAgain = some s ∧
      (openPlane (.small [("c", .real)])).step s (.run 4 {}) = some s' ∧
      (s.daemon.handed "a1").length = 1 ∧ s'.daemon.jobs = s.daemon.jobs ∧
      ∃ j, s'.daemon.log = s.daemon.log ++ [.returned a peer j] := by
  have hrun : ((openPlane (.small [("c", .real)])).runUnder (fun _ l => l.framed = true) .blank
      requestedAgain).bind (fun s =>
        ((openPlane (.small [("c", .real)])).step s (.run 4 {})).map fun s' =>
          ((s.toSubmit 4).map (·.actionId), (s.daemon.handed "a1").length,
            (s.daemon.created "a1").length,
            decide (s'.daemon.log.length = s.daemon.log.length + 1)))
      = some (some ("a1" : PyStr), 1, 1, true) := by
    decide +kernel
  obtain ⟨s, hs, hout⟩ := Option.bind_eq_some_iff.mp hrun
  obtain ⟨s', hstep, hout⟩ := Option.map_eq_some_iff.mp hout
  simp only [Prod.mk.injEq, decide_eq_true_eq] at hout
  obtain ⟨hid, hhanded, hcreated, hlog⟩ := hout
  unfold toSubmit at hid
  split at hid
  · next a peer ts hi =>
    have hid := Option.some_inj.mp hid
    obtain ⟨j₀, hj₀⟩ := List.length_eq_one_iff.mp hcreated
    obtain ⟨-, -, honce⟩ := submitted_once
      (.of_runUnder (init_blank (.small [("c", .real)])) hs) "a1"
    obtain ⟨hjobs, hsame | ⟨j, hreturned, -⟩⟩ :=
      honce 4 {} a peer ts s' j₀ hi hstep hid (hj₀ ▸ List.mem_singleton_self j₀)
    · rw [hsame] at hlog
      omega
    · exact ⟨s, s', a, peer, hs, hstep, hhanded, hjobs, j, hreturned⟩
  · cases hid

/-- A simulated action with these arguments. -/
def argued (d : PyVal.Dictionary) : ActionEnvelope :=
  ⟨{ (ActionEnvelope.sample "a1" ActionEnvelope.isBlank_a1 .simulation .none .second).toActionFields
    with arguments := d }, ActionEnvelope.valid _⟩

/-- The action of `[[1, "x"]]` is being executed when the process ends; after a restart the one
of `{"1": "x"}` is requested under its id. -/
def requestedOther : List Label :=
  let session : Label := .call (.createSession ⟨"s", "a", "f", ["b"], ["c"], 60000⟩ ⟨1, 7, 0⟩)
  [.restart {}, session, .run 0 {}, .run 0 {}, .run 0 {},
    .call (.requestAction (argued (.ofItems [(.int 1, .str "x")])) ⟨1, 7, 0⟩), .run 1 {},
    .run 1 {}, .run 1 {}, .pick "a1", .work "a1" {}, .work "a1" {}, .crash, .restart {}, session,
    .run 0 {}, .run 0 {}, .run 0 {},
    .call (.requestAction (argued (.ofEntries [("1", .str "x")])) ⟨1, 7, 0⟩), .run 1 {}, .run 1 {}]

def lastReturned (s : System) : Option ActionJob :=
  match s.daemon.log.getLast? with
  | some (.returned _ _ j) => some j
  | _ => none

/-- The list of pairs `[[1, "x"]]` becomes a dictionary with the key `1`, and that a text in the
ledger: after a restart the job is returned for another action than the one that it was made
for. -/
theorem other_request_answered :
    ∃ s s' j₀ j, (openPlane (.small [("c", .simulation)])).run .blank requestedOther = some s ∧
      (openPlane (.small [("c", .simulation)])).step s (.run 1 {}) = some s' ∧
      s.daemon.created "a1" = [j₀] ∧ s'.lastReturned = some j ∧ ¬ SameJob j₀ j := by
  have hrun : ((openPlane (.small [("c", .simulation)])).run .blank requestedOther).bind (fun s =>
      ((openPlane (.small [("c", .simulation)])).step s (.run 1 {})).map fun s' =>
        ((s.daemon.created "a1").map fun j => j.action.toDict.tupleFree,
          s'.lastReturned.map fun j => j.action.toDict.tupleFree)) = some ([false], some true) := by
    decide +kernel
  obtain ⟨s, hs, hout⟩ := Option.bind_eq_some_iff.mp hrun
  obtain ⟨s', hstep, hout⟩ := Option.map_eq_some_iff.mp hout
  obtain ⟨hcreated, hreturned⟩ := Prod.mk.inj hout
  obtain ⟨j₀, hj₀, hkeyed⟩ := List.map_eq_singleton_iff.mp hcreated
  obtain ⟨j, hj, htexts⟩ := Option.map_eq_some_iff.mp hreturned
  refine ⟨s, s', j₀, j, hs, hstep, hj₀, hj, fun hsame => ?_⟩
  rw [hsame.action, hkeyed] at htexts
  cases htexts

end System

end Rosclaw
