/-
What the ledger holds about an action is what a restart makes of it.

* `decode_history` — the events of an action read back as its job;
* `tracked_restart` — a restart keeps every history, and leaves no job unfinished;
* `follows_exec` — which stretches of code can come after which;
* `sound_of_reachable` — in every reachable state the events of each action are those
  it should have, and its job and its thread stand where they say.
-/
import Rosclaw.Daemon.Lifecycle

namespace Rosclaw

open List Option

/-! ### Reading the events back -/

variable {e : LedgerEvent} {id : PyStr} {j j' j₀ : ActionJob} {py : Builtins} {r : Readings}
  {t t' : Task}

theorem eq_of_decode_submission (h : Submission id j₀ e) (hd : decodeEvent py r none e = some j) :
    j = j₀.unscheduled := by
  by_cases hpeer : 0 ≤ j₀.peer.pid ∧ 0 ≤ j₀.peer.uid ∧ 0 ≤ j₀.peer.gid
  · rw [decode_submitted h.stored h.framed hpeer h.lease] at hd
    exact (some_inj.mp hd).symm
  · -- a negative id does not read back at all
    exfalso
    have hfree : (submittedEvent j₀).payload.tupleFree = true := by
      simp [submittedEvent, actionEvent, PyVal.tupleFree, PyVal.tupleFreeEntries, h.framed,
        PeerCredentials.toDict, ActionJob.actionLease]
    have hpayload := stored_payload h.stored hfree
    have hrawPeer : e.payload.get "peer" = j₀.peer.toDict := by
      simp [hpayload, submittedEvent, actionEvent, PyVal.get]
    have htype : e.eventType = "ACTION_SUBMITTED" := h.stored.1
    have hneg : ∀ {n m : Int}, persistedInt (.int n) = some m → 0 ≤ n := by
      intro n m hn
      by_contra hlt
      simp [persistedInt, Int.not_le.mp hlt] at hn
    rw [decodeEvent, if_pos htype] at hd
    simp only [decodeSubmitted] at hd
    split at hd
    · contradiction
    split at hd
    · contradiction
    · simp only [bind_eq_bind, bind_eq_some_iff] at hd
      obtain ⟨pid, hpid, uid, huid, gid, hgid, -⟩ := hd
      rw [hrawPeer] at hpid huid hgid
      exact hpeer ⟨hneg (by simpa [PeerCredentials.toDict, PyVal.get] using hpid),
        hneg (by simpa [PeerCredentials.toDict, PyVal.get] using huid),
        hneg (by simpa [PeerCredentials.toDict, PyVal.get] using hgid)⟩

theorem decodeEvent_some (h : decodeEvent py r (some j) e = some j') :
    SameJob j j' ∧ (e.eventType = "ACTION_STARTED" → j'.state = .running) ∧
      (e.eventType = "ACTION_TERMINAL" → j'.state.isActive = false) := by
  unfold decodeEvent at h
  split at h
  · exact nomatch h
  dsimp only at h
  split at h
  · next htype =>
    split at h
    · exact nomatch h
    · obtain ⟨t, -, rfl⟩ := map_eq_some_iff.mp h
      exact ⟨⟨rfl, rfl, rfl⟩, fun _ => rfl, fun h => by simp [htype] at h⟩
  split at h
  · next htype =>
    split at h
    · exact nomatch h
    next state hstate =>
    split at h
    · exact nomatch h
    split at h
    · exact nomatch h
    obtain ⟨t, -, rfl⟩ := map_eq_some_iff.mp h
    refine ⟨⟨rfl, rfl, rfl⟩, fun h => by simp [htype] at h, fun _ => ?_⟩
    unfold terminalStateOf at hstate
    split at hstate
    · exact some_inj.mp hstate ▸ rfl
    split at hstate
    · exact some_inj.mp hstate ▸ rfl
    · exact nomatch hstate
  · exact nomatch h

/-- **What reads back from the events of an action is its job**, as far as the events
say. -/
theorem decode_history {es : List LedgerEvent} {js : List ActionJob} {handed : List ActionEnvelope}
    (h : History id es js handed) (hd : decodePersistedJob py r es = some j) :
    ∃ j₀, js = [j₀] ∧ SameJob j₀ j ∧ j.future = none ∧
      (j.state.isActive = true → es.map LedgerEvent.eventType = ["ACTION_SUBMITTED"] ∨
        es.map LedgerEvent.eventType = ["ACTION_SUBMITTED", "ACTION_STARTED"]) := by
  have hfuture := future_decodePersistedJob hd
  unfold decodePersistedJob at hd
  -- one event after the submission
  have hnext : ∀ {j₁ : ActionJob} {e : LedgerEvent} {es : List LedgerEvent},
      decodeEvents py r (some j₁) (e :: es) = some j → ∃ j₂, decodeEvent py r (some j₁) e = some j₂ ∧
        decodeEvents py r (some j₂) es = some j := by
    intro j₁ e es h
    rw [decodeEvents] at h
    cases he : decodeEvent py r (some j₁) e with
    | none => simp [he] at h
    | some j₂ => exact ⟨j₂, rfl, by simpa [he] using h⟩
  have hfirst : ∀ {j₀ : ActionJob} {e : LedgerEvent} {es : List LedgerEvent}, Submission id j₀ e →
      decodeEvents py r none (e :: es) = some j →
        decodeEvents py r (some j₀.unscheduled) es = some j := by
    intro j₀ e es hsub h
    rw [decodeEvents] at h
    cases he : decodeEvent py r none e with
    | none => simp [he] at h
    | some j₂ =>
      rw [he] at h
      exact eq_of_decode_submission hsub he ▸ h
  have hsame : ∀ j₀ : ActionJob, SameJob j₀ j₀.unscheduled := fun j₀ => ⟨rfl, rfl, rfl⟩
  cases h with
  | unknown => contradiction
  | @submitted j₀ e hsub =>
    obtain rfl := some_inj.mp (hfirst hsub hd)
    exact ⟨j₀, rfl, hsame j₀, hfuture, fun _ => .inl (by simp [hsub.stored.1]; rfl)⟩
  | @refused j₀ e e' hsub h' =>
    obtain ⟨j₂, hj₂, hd⟩ := hnext (hfirst hsub hd)
    cases hd
    obtain ⟨hs, -, hover⟩ := decodeEvent_some hj₂
    exact ⟨j₀, rfl, (hsame j₀).trans hs, hfuture,
      fun ha => absurd ha (by simp [hover (eventType_of_isTerminal h')])⟩
  | @started j₀ e e' handed hsub h' hle =>
    obtain ⟨j₂, hj₂, hd⟩ := hnext (hfirst hsub hd)
    cases hd
    obtain ⟨hs, -, -⟩ := decodeEvent_some hj₂
    refine ⟨j₀, rfl, (hsame j₀).trans hs, hfuture, fun _ => .inr ?_⟩
    simp [hsub.stored.1, eventType_of_isStart h']
    rfl
  | @ended j₀ e e' e'' handed hsub h' h'' hle =>
    obtain ⟨j₂, hj₂, hd⟩ := hnext (hfirst hsub hd)
    obtain ⟨j₃, hj₃, hd⟩ := hnext hd
    cases hd
    obtain ⟨hs, -, -⟩ := decodeEvent_some hj₂
    obtain ⟨hs', -, hover⟩ := decodeEvent_some hj₃
    refine ⟨j₀, rfl, ((hsame j₀).trans hs).trans hs', hfuture,
      fun ha => absurd ha (by simp [hover (eventType_of_isTerminal h'')])⟩

namespace Daemon

variable {C : DaemonConfig} {env : Answers}

variable {id : PyStr} {ids : List PyStr} {jobs : Dict PyStr ActionJob} {r : Readings}

/-- **The jobs that a restart finds** are what the events of each action read back as. -/
theorem get?_restoreJobs {es : List LedgerEvent} (h : restoreJobs C r es = some jobs) (id : PyStr) :
    jobs.get? id = if id ∈ entityIds es then
      decodePersistedJob C.py r (es.filter (·.entityId = id)) else none := by
  have hfold : ∀ (ids : List PyStr) (jobs₀ jobs : Dict PyStr ActionJob), ids.foldlM (fun jobs id =>
        (decodePersistedJob C.py r (es.filter (·.entityId = id))).map (jobs.set id)) jobs₀
        = some jobs →
      jobs.get? id = if id ∈ ids then decodePersistedJob C.py r (es.filter (·.entityId = id))
        else jobs₀.get? id := by
    intro ids
    induction ids with
    | nil =>
      intro jobs₀ jobs h
      cases h
      simp
    | cons i ids ih =>
      intro jobs₀ jobs h
      rw [foldlM_cons, bind_eq_bind, bind_eq_some_iff] at h
      obtain ⟨jobs₁, h₁, h⟩ := h
      obtain ⟨j, hj, rfl⟩ := map_eq_some_iff.mp h₁
      rw [ih _ _ h, Dict.get?_set]
      by_cases hi : i = id
      · subst hi
        simp [hj]
      · simp [hi, Ne.symm hi]
  exact hfold (entityIds es) Dict.empty jobs h

/-! ### The restart -/

/-- The job of an action in a daemon that has just read its ledger. -/
inductive Found (d : Daemon) (id : PyStr) : Prop
  | unknown (hj : d.jobs.get? id = none)
  | unfinished {j₀ j : ActionJob} (hj : d.jobs.get? id = some j) (hc : d.created id = [j₀])
      (hs : SameJob j₀ j) (hstate : j.state.isActive = true) (hf : j.future = none)
      (ht : d.eventTypes id = ["ACTION_SUBMITTED"] ∨
        d.eventTypes id = ["ACTION_SUBMITTED", "ACTION_STARTED"])
  | ended {j₀ j : ActionJob} (hj : d.jobs.get? id = some j) (hc : d.created id = [j₀])
      (hs : SameJob j₀ j) (hstate : j.state.isActive = false) (hf : j.future = none)

/-- A daemon that has just read its ledger; the listed jobs are not over. -/
structure Restored (d : Daemon) (unfinished : List PyStr) : Prop where
  history (id : PyStr) : History id (d.events id) (d.created id) (d.handed id)
  found (id : PyStr) : d.Found id
  workers (id : PyStr) : d.workers.get? id = none
  unfinished (id : PyStr) :
    id ∈ unfinished ↔ ∃ j, d.jobs.get? id = some j ∧ j.state.isActive = true

theorem Unmoved.found {d d' : Daemon} (h : Unmoved id d d') (hd : d.Found id) : d'.Found id := by
  have htypes : d'.eventTypes id = d.eventTypes id := by rw [eventTypes, h.events, eventTypes]
  cases hd with
  | unknown hj => exact .unknown (h.job.trans hj)
  | unfinished hj hc hs hstate hf ht =>
    exact .unfinished (h.job.trans hj) (h.created.trans hc) hs hstate hf (htypes ▸ ht)
  | ended hj hc hs hstate hf => exact .ended (h.job.trans hj) (h.created.trans hc) hs hstate hf

theorem Restored.of_unmoved {d d' : Daemon} (hd : d.Restored ids) (h : ∀ i, Unmoved i d d') :
    d'.Restored ids :=
  ⟨fun i => (h i).history (hd.history i), fun i => (h i).found (hd.found i),
    fun i => (h i).worker.trans (hd.workers i), fun i => by rw [hd.unfinished i, (h i).job]⟩

variable {d : Daemon}

theorem Restored.tracked (hd : d.Restored []) : d.Tracked := by
  refine ⟨hd.history, fun id => ?_⟩
  cases hd.found id with
  | unknown hj => exact .unknown hj (hd.workers id)
  | unfinished hj _ _ hstate => exact nomatch (hd.unfinished id).mpr ⟨_, hj, hstate⟩
  | ended hj hc hs hstate hf => exact .ended hj (hd.workers id) hc hs hstate (by simp [hf])

theorem Restored.finishJob {j : ActionJob} (hd : d.Restored (id :: ids)) (hn : id ∉ ids)
    (hj : d.jobs.get? id = some j) {state : JobState} (hover : state.isActive = false)
    (receipt : List (PyStr × PyVal)) (t : DateTime) :
    (d.finishJob C j state receipt t).1.Restored ids := by
  obtain ⟨j', hj', hactive⟩ := (hd.unfinished id).mp mem_cons_self
  obtain rfl := some_inj.mp (hj'.symm.trans hj)
  cases hd.found id with
  | unknown hj'' => exact nomatch hj''.symm.trans hj
  | ended hj'' _ _ hstate =>
    obtain rfl := some_inj.mp (hj''.symm.trans hj)
    exact Bool.noConfusion (hactive.symm.trans hstate)
  | @unfinished j₀ j'' hj'' hc hs hstate hf ht =>
    obtain rfl := some_inj.mp (hj''.symm.trans hj)
    have hid : j''.action.actionId = id := by
      have hhist := hd.history id
      rw [hc] at hhist
      obtain ⟨j₁, e, es, hjs, -, hsub⟩ := hhist.created_of_ne_nil hhist.created_ne_nil
      obtain rfl := (List.cons.inj hjs).1
      rw [hs.action]
      exact hsub.actionId
    obtain ⟨hother, hjob, hworkers, hcreated, hhanded, -, hev⟩ :=
      finishJob_spec (C := C) d hid hover receipt t
    refine ⟨fun i => ?_, fun i => ?_, fun i => ?_, fun i => ?_⟩
    · by_cases hi : i = id
      · subst hi
        rw [hcreated, hhanded]
        rcases hev with hev | ⟨e, hterm, hev⟩ <;> rw [hev]
        · exact hd.history i
        · exact (hd.history i).finish ht hterm
      · exact (hother i hi).history (hd.history i)
    · by_cases hi : i = id
      · subst hi
        exact .ended hjob (hcreated.trans hc) ⟨hs.action, hs.peer, hs.submittedAt⟩ hover hf
      · exact (hother i hi).found (hd.found i)
    · rw [hworkers]
      exact hd.workers i
    · by_cases hi : i = id
      · subst hi
        refine ⟨fun h => absurd h hn, fun ⟨k, hk, ha⟩ => ?_⟩
        obtain rfl := some_inj.mp (hk.symm.trans hjob)
        exact Bool.noConfusion (ha.symm.trans hover)
      · rw [(hother i hi).job, ← hd.unfinished i]
        simp [hi]

theorem isActive_restartOutcome (j : ActionJob) : (restartOutcome j).2.2.2.isActive = false := by
  unfold restartOutcome
  split
  · rfl
  split <;> rfl

theorem Restored.terminateJobs (hd : d.Restored ids) (hn : ids.Nodup) (r : Readings) :
    (∀ i, History i ((d.terminateJobs C r ids).1.events i) ((d.terminateJobs C r ids).1.created i)
      ((d.terminateJobs C r ids).1.handed i)) ∧
      ((d.terminateJobs C r ids).2 = true → (d.terminateJobs C r ids).1.Restored []) := by
  induction ids generalizing d r with
  | nil => exact ⟨hd.history, fun _ => hd⟩
  | cons id ids ih =>
    rw [nodup_cons] at hn
    obtain ⟨j, hj, -⟩ := (hd.unfinished id).mp mem_cons_self
    rw [Daemon.terminateJobs, hj]
    dsimp only
    have hstep := (hd.of_unmoved fun i => unmoved_reject d j.action (restartOutcome j).1
      (restartOutcome j).2.1 (restartOutcome j).2.2.1 r i).finishJob (C := C) hn.1 hj
      (isActive_restartOutcome j) (d.reject j.action (restartOutcome j).1 (restartOutcome j).2.1
        (restartOutcome j).2.2.1 r).2.entries (r.clock 4)
    split
    · next d₁ fault h =>
      rw [h] at hstep
      exact ⟨hstep.history, fun h => nomatch h⟩
    · next d₁ h =>
      rw [h] at hstep
      exact ih hstep hn.2 _

theorem open_writes (py : Builtins) (L : Ledger) :
    Writes (· = "PERMIT") L (PermitAuthority.open py L).1 := by
  have hread := Writes.read (· = "PERMIT") L "PERMIT" none
  unfold PermitAuthority.open
  rcases h : L.read "PERMIT" none with ⟨L₁, fault | es⟩ <;> rw [h] at hread
  · exact hread
  dsimp only
  cases PermitAuthority.restoreEvents {} es with
  | none => exact hread
  | some A =>
    have hrevoke := PermitAuthority.revokeEach_writes py "daemon_restart_generation_changed" L₁ A
      A.allTargets
    simp only [PermitAuthority.revokeAll]
    rcases hr : PermitAuthority.revokeEach py "daemon_restart_generation_changed" L₁ A A.allTargets
      with ⟨L₂, A₂, _ | fault⟩ <;>
    · rw [hr] at hrevoke
      exact hread.trans hrevoke

theorem append_eq (d : Daemon) (e : LedgerEvent) :
    (d.append C e).1 = { d with ledger := (d.append C e).1.ledger } := rfl

theorem invalidateProposals_writes (d : Daemon) (es : List (PyStr × List (PyStr × PyVal))) :
    ∃ L, (d.invalidateProposals C es).1 = { d with ledger := L } ∧ Writes Unread d.ledger L := by
  induction es generalizing d with
  | nil => exact ⟨d.ledger, rfl, .refl _ _⟩
  | cons e es ih =>
    have hw : Writes Unread d.ledger (d.append C
        ⟨"OPERATOR_PROPOSAL_INVALIDATED", "OPERATOR_PROPOSAL", e.1, .dict e.2⟩).1.ledger :=
      .append C.py d.ledger (show Unread "OPERATOR_PROPOSAL" by decide)
    have heq := append_eq (C := C) d
      ⟨"OPERATOR_PROPOSAL_INVALIDATED", "OPERATOR_PROPOSAL", e.1, .dict e.2⟩
    rw [invalidateProposals]
    rcases h : d.append C ⟨"OPERATOR_PROPOSAL_INVALIDATED", "OPERATOR_PROPOSAL", e.1, .dict e.2⟩ with
      ⟨d₁, _ | fault⟩ <;> rw [h] at hw heq <;> dsimp only at hw heq ⊢
    · obtain ⟨L, hL, hw'⟩ := ih d₁
      refine ⟨L, ?_, hw.trans hw'⟩
      rw [hL, heq]
    · exact ⟨d₁.ledger, heq, hw⟩

theorem unmoved_setRecovery (d : Daemon) (p : Recovery) (i : PyStr) :
    Unmoved i d (d.setRecovery p) := ⟨rfl, rfl, rfl, rfl, rfl, fun hr => hr⟩

theorem unmoved_requireRecovery (d : Daemon) (t : DateTime) (i : PyStr) :
    Unmoved i d (d.requireRecovery C t).1 := by
  have hw : ∀ m : Recovery, Unmoved i d (d.append C (requiredEvent m.actionIds m.realActionIds t)).1 :=
    fun m => unmoved_ledger (K := (· = "RECOVERY")) (.append C.py d.ledger rfl) (fun h => nomatch h) i
  unfold requireRecovery
  split
  · exact .refl i d
  dsimp only
  split
  · exact .refl i d
  · have hw := hw (d.recovery.merge d.unknownReal d.unknownReal)
    split
    · next d₁ fault h =>
      rw [h] at hw
      exact hw
    · next d₁ h =>
      rw [h] at hw
      exact hw.trans (unmoved_setRecovery _ _ i)

theorem Restored.start (hd : d.Restored d.incomplete) (hn : d.retained.Nodup) (r : Readings) :
    (∀ i, History i ((d.start C r).1.events i) ((d.start C r).1.created i)
      ((d.start C r).1.handed i)) ∧ ((d.start C r).2 = true → (d.start C r).1.Tracked) := by
  have hreq := unmoved_requireRecovery (C := C) d (r.clock 0)
  unfold Daemon.start recoverIncomplete
  rcases hr : d.requireRecovery C (r.clock 0) with ⟨d₁, _ | _⟩ <;> rw [hr] at hreq <;> dsimp only
  · exact ⟨(hd.of_unmoved hreq).history, fun h => nomatch h⟩
  have hd₁ : ({ d₁ with latched := d₁.latched || d₁.recoveryRequired } : Daemon).Restored
      d.incomplete :=
    (hd.of_unmoved hreq).of_unmoved fun i => ⟨rfl, rfl, rfl, rfl, rfl, fun hr => hr⟩
  obtain ⟨hhist, htracked⟩ := hd₁.terminateJobs (C := C) (hn.filter _) (r.after 1)
  rcases ht : ({ d₁ with latched := d₁.latched || d₁.recoveryRequired } : Daemon).terminateJobs C
    (r.after 1) d.incomplete with ⟨d₂, _ | _⟩ <;> rw [ht] at hhist htracked <;> dsimp only
  · exact ⟨hhist, fun h => nomatch h⟩
  · have hmoves : Moves C {} [.evict] d₂ (d₂.evict C 0) := moves_evict (by simp) d₂ 0
    have hevict : (d₂.evict C 0).Tracked := hmoves.tracked (htracked rfl).tracked
    have hstarted : ({ d₂.evict C 0 with running := true, supervision := .disarmed } :
        Daemon).Tracked := hevict.of_unmoved_all fun i => ⟨rfl, rfl, rfl, rfl, rfl, fun hr => hr⟩
    exact ⟨hstarted.history, fun _ => hstarted⟩

theorem restored_of_restoreJobs (hhist : ∀ i, History i (d.events i) (d.created i) (d.handed i))
    (hw : ∀ i, d.workers.get? i = none) (hret : d.retained = d.jobs.keys)
    (hjobs : restoreJobs C r (d.ledger.select "ACTION" none) = some d.jobs) :
    d.Restored d.incomplete := by
  have hevents : ∀ i, (d.ledger.select "ACTION" none).filter (·.entityId = i) = d.events i := by
    intro i
    simp only [events, Ledger.select, List.filter_filter]
    refine List.filter_congr fun e _ => ?_
    simp [Bool.and_comm]
  refine ⟨hhist, fun i => ?_, hw, fun i => ?_⟩
  · have hget := get?_restoreJobs hjobs i
    rw [hevents] at hget
    cases hj : d.jobs.get? i with
    | none => exact .unknown hj
    | some j =>
      rw [hj] at hget
      split at hget
      · obtain ⟨j₀, hc, hs, hf, ht⟩ := decode_history (hhist i) hget.symm
        cases ha : j.state.isActive with
        | true => exact .unfinished hj hc hs ha hf (ht ha)
        | false => exact .ended hj hc hs ha hf
      · contradiction
  · simp only [incomplete, List.mem_filter, hret, Dict.mem_keys_iff]
    constructor
    · rintro ⟨-, ha⟩
      cases hj : d.jobs.get? i with
      | none => simp [hj] at ha
      | some j => exact ⟨j, rfl, by simpa [hj] using ha⟩
    · rintro ⟨j, hj, ha⟩
      simp [hj, ha]

def reloaded (C : DaemonConfig) (d : Daemon) (env : Answers) (L : Ledger) (A : PermitAuthority)
    (jobs : Dict PyStr ActionJob) (pending : Recovery) : Daemon :=
  let d := ({ d.fresh C env with
    ledger := L
    authority := A
    jobs := jobs
    retained := jobs.keys } : Daemon).setRecovery pending
  { d with owed := d.owed ++ d.unknownReal }

/-- **Everything a restart can do**: raise before the daemon has its tables, raise while
it closes the proposals of the earlier generation, or start. -/
theorem restart_cases (C : DaemonConfig) (d : Daemon) (env : Answers) :
    (∃ L, L = (PermitAuthority.open C.py (d.fresh C env).ledger).1 ∧
      d.restart C env = ({ d.fresh C env with ledger := L }, false)) ∨
    ∃ L A jobs pending d₁, PermitAuthority.open C.py (d.fresh C env).ledger = (L, some A) ∧
      restoreTables C L env.readings = some (jobs, pending) ∧
      (reloaded C d env L A jobs pending).invalidateProposals C env.proposalEvents = d₁ ∧
      d.restart C env = if d₁.2 then d₁.1.start C env.readings else (d₁.1, false) := by
  unfold restart
  dsimp only
  rcases ho : PermitAuthority.open C.py (d.fresh C env).ledger with ⟨L, _ | A⟩ <;> dsimp only
  · exact .inl ⟨L, rfl, rfl⟩
  rcases ht : restoreTables C L env.readings with _ | ⟨jobs, pending⟩ <;> dsimp only
  · exact .inl ⟨L, rfl, rfl⟩
  refine .inr ⟨L, A, jobs, pending, _, rfl, ht, rfl, ?_⟩
  rcases hi : (reloaded C d env L A jobs pending).invalidateProposals C env.proposalEvents with
    ⟨d₁, _ | _⟩ <;> unfold reloaded at hi <;> dsimp only at hi <;> rw [hi] <;> rfl

theorem restored_reloaded {L : Ledger} {A : PermitAuthority} {pending : Recovery}
    (hhist : ∀ i, History i (({ d with ledger := L } : Daemon).events i) (d.created i) (d.handed i))
    (ht : restoreTables C L env.readings = some (jobs, pending)) :
    (reloaded C d env L A jobs pending).Restored (reloaded C d env L A jobs pending).incomplete := by
  refine restored_of_restoreJobs (C := C) (r := env.readings) hhist (fun _ => rfl) rfl ?_
  show restoreJobs C env.readings (L.select "ACTION" none) = some jobs
  unfold restoreTables at ht
  split at ht
  · next L₁ actions L₂ recoveries h₁ h₂ =>
    simp only [bind_eq_bind, bind_eq_some_iff, Option.some.injEq, Prod.mk.injEq] at ht
    obtain ⟨jobs', hjobs', pending', -, rfl, rfl⟩ := ht
    obtain ⟨-, -, rfl⟩ := Ledger.read_ok h₁
    exact hjobs'
  · exact nomatch ht

/-- **A restart** keeps the history of every action, and a daemon that it starts has
no job that is not over. -/
theorem tracked_restart (C : DaemonConfig) (env : Answers)
    (hhist : ∀ i, History i (d.events i) (d.created i) (d.handed i)) :
    (∀ i, History i ((d.restart C env).1.events i) ((d.restart C env).1.created i)
      ((d.restart C env).1.handed i)) ∧
      ((d.restart C env).2 = true → (d.restart C env).1.Tracked) := by
  have hopen := open_writes C.py (d.fresh C env).ledger
  have hL : ∀ i, History i (({ d.fresh C env with
      ledger := (PermitAuthority.open C.py (d.fresh C env).ledger).1 } : Daemon).events i)
      ((d.fresh C env).created i) ((d.fresh C env).handed i) := fun i =>
    (unmoved_ledger (d := d.fresh C env) hopen (fun h => nomatch h) i).history (hhist i)
  rcases restart_cases C d env with ⟨L, rfl, heq⟩ | ⟨L, A, jobs, pending, d₁, ho, ht, hi, heq⟩ <;>
    rw [heq]
  · exact ⟨hL, fun h => nomatch h⟩
  rw [ho] at hL
  have hrest := restored_reloaded (d := d) (L := L) (A := A) hL ht
  obtain ⟨L₁, hL₁, hw⟩ := invalidateProposals_writes (C := C) (reloaded C d env L A jobs pending)
    env.proposalEvents
  have hrest₁ := hrest.of_unmoved (unmoved_ledger hw fun h => h.1 rfl)
  rw [hi] at hL₁
  rw [← hL₁] at hrest₁
  split
  · refine Restored.start (C := C) ?_ ?_ env.readings
    · rw [hL₁] at hrest₁ ⊢
      exact hrest₁
    · rw [hL₁]
      exact jobs.nodup
  · exact ⟨hrest₁.history, fun h => nomatch h⟩

end Daemon

/-! ### The machine -/

theorem framed_tasks (C : DaemonConfig) {c : Call} (h : c.framed = true) :
    ∀ t ∈ c.tasks C, t.framed = true := by
  cases c with
  | requestAction a peer =>
    intro t ht
    obtain rfl := mem_singleton.mp ht
    exact h
  | issueExecutionPermit q peer =>
    rw [Call.framed, Bool.and_eq_true] at h
    intro t ht
    simp only [Call.tasks] at ht
    split at ht
    · obtain rfl := mem_singleton.mp ht
      exact h.1
    · exact nomatch ht
  | armRuntime reason peer | disarmRuntime reason peer =>
    intro t ht
    simp only [Call.tasks] at ht
    split at ht
    · simp only [mem_cons, not_mem_nil, or_false] at ht
      rcases ht with rfl | rfl | rfl <;> rfl
    · exact nomatch ht
  | _ =>
    intro t ht
    simp only [Call.tasks, mem_cons, not_mem_nil, or_false] at ht
    rcases ht with rfl | rfl | rfl <;> rfl

/-- The task can put the other one in front of the rest of its thread. -/
inductive Follows : Task → Task → Prop
  | whenRunning (t : Task) : Follows (.whenRunning t) t
  | created (q : SessionRequest) (peer : PeerCredentials) (s : AgentSession) :
      Follows (.createSession q peer) (.sessionEvent "SESSION_CREATED" s [])
  | heartbeat (id : PyStr) (peer : PeerCredentials) :
      Follows (.heartbeat id peer) (.heartbeatLost id peer)
  | heartbeatLost (id : PyStr) (peer : PeerCredentials) (s : AgentSession) :
      Follows (.heartbeatLost id peer) (.lostRevoke s)
  | closed (id : PyStr) (peer : PeerCredentials) (reason : PyStr) (s : AgentSession) :
      Follows (.closeSession id peer reason) (.lostRevoke s)
  | proposalClosed (id : PyStr) (peer : PeerCredentials) (s : AgentSession) :
      Follows (.closeProposalSession id peer) (.sessionEvent "SESSION_CLOSED" s [])
  | lostRevoke (s : AgentSession) (revoked : Int) : Follows (.lostRevoke s) (.lostMark s revoked)
  | lostTerminalize (s : AgentSession) (revoked : Int) (id : PyStr) :
      Follows (.lostMark s revoked) (.terminalize id)
  | lostStop (s : AgentSession) (revoked : Int) (id : PyStr) :
      Follows (.lostMark s revoked) (.stop id .ask)
  | lostEvent (s : AgentSession) (revoked : Int) (eventType : String)
      (extra : List (PyStr × PyVal)) :
      Follows (.lostMark s revoked) (.sessionEvent eventType s extra)
  | stop (id : PyStr) (p p' : StopPoint) : Follows (.stop id p) (.stop id p')
  | required (a : ActionEnvelope) (peer : PeerCredentials) :
      Follows (.requireAction a peer) (.requireAgain a peer)
  | notFound (a : ActionEnvelope) (peer : PeerCredentials) :
      Follows (.requireAction a peer) (.adoptAction a peer)
  | adopted (a : ActionEnvelope) (peer : PeerCredentials) :
      Follows (.adoptAction a peer) (.requireAgain a peer)
  | submit (a : ActionEnvelope) (peer : PeerCredentials) :
      Follows (.requireAgain a peer) (.submit a peer)
  | renewed (id sessionId : PyStr) (peer : PeerCredentials) (id' sessionId' : PyStr)
      (eventType : String) (lease : PyVal) :
      Follows (.renew id sessionId peer) (.leaseEvent id' sessionId' eventType lease)
  | issue (q : PermitRequest) (operator : PeerCredentials) :
      Follows (.issueRequire q operator) (.issue q operator)
  | armed (reason reason' : PyStr) (peer : PeerCredentials) (eventType : String) :
      Follows (.arm reason peer) (.supervisionEvent eventType reason' peer)
  | disarmed (reason reason' : PyStr) (peer : PeerCredentials) (eventType : String) :
      Follows (.disarmed reason peer) (.supervisionEvent eventType reason' peer)
  | expired (s : AgentSession) : Follows .tickExpire (.lostRevoke s)
  | tickMark : Follows .tickExpire .tickMark
  | tickEnd (ids : List PyStr) : Follows .tickExpire (.tickEnd ids)
  | markTerminalize (id : PyStr) : Follows .tickMark (.terminalize id)
  | markStop (id : PyStr) : Follows .tickMark (.stop id .ask)
  | direct (p p' : GatewayPoint) : Follows (.direct p) (.direct p')
  | closeCancel (id : PyStr) : Follows .close (.cancel id none)
  | closeLatch : Follows .close .latch
  | closeShutdown : Follows .close .shutdown

namespace Daemon

variable {d : Daemon} {t t' : Task}

theorem mem_onSession {r : SessionManager × Except String AgentSession}
    {next : AgentSession → List Task} {failed : String → List Task}
    (h : t ∈ (d.onSession r next failed).2) : (∃ s, t ∈ next s) ∨ ∃ code, t ∈ failed code := by
  unfold onSession at h
  dsimp only at h
  split at h
  · exact .inl ⟨_, h⟩
  · exact .inr ⟨_, h⟩

theorem mem_followUp {marked : ActionJob → Bool} (h : t ∈ d.followUp marked) :
    (∃ id, t = .terminalize id) ∨ ∃ id, t = .stop id .ask := by
  rcases mem_append.mp h with h | h <;> obtain ⟨id, -, rfl⟩ := mem_map.mp h
  · exact .inl ⟨id, rfl⟩
  · exact .inr ⟨id, rfl⟩

/-- **What a task puts in front of the rest.** -/
theorem follows_exec {C : DaemonConfig} {env : Answers} {r : Daemon × List Task}
    (h : d.exec C env t = some r) (ht' : t' ∈ r.2) : Follows t t' := by
  cases t with
  | whenRunning t =>
    cases h
    dsimp only at ht'
    split at ht'
    · exact mem_singleton.mp ht' ▸ .whenRunning t
    · contradiction
  | createSession q peer =>
    cases h
    rcases mem_onSession ht' with ⟨s, ht'⟩ | ⟨code, ht'⟩
    · exact mem_singleton.mp ht' ▸ .created q peer s
    · contradiction
  | closeSession sessionId peer reason =>
    cases h
    rcases mem_onSession ht' with ⟨s, ht'⟩ | ⟨code, ht'⟩
    · exact mem_singleton.mp ht' ▸ .closed sessionId peer reason s
    · contradiction
  | closeProposalSession sessionId peer =>
    cases h
    rcases mem_onSession ht' with ⟨s, ht'⟩ | ⟨code, ht'⟩
    · exact mem_singleton.mp ht' ▸ .proposalClosed sessionId peer s
    · contradiction
  | heartbeat sessionId peer =>
    cases h
    rcases mem_onSession ht' with ⟨s, ht'⟩ | ⟨code, ht'⟩
    · contradiction
    split at ht'
    · exact mem_singleton.mp ht' ▸ .heartbeat sessionId peer
    · contradiction
  | heartbeatLost sessionId peer =>
    cases h
    dsimp only at ht'
    split at ht'
    · exact mem_singleton.mp ht' ▸ .heartbeatLost sessionId peer _
    · contradiction
  | lostRevoke s =>
    cases h
    exact mem_singleton.mp ht' ▸ .lostRevoke s _
  | lostMark s revoked =>
    cases h
    rcases mem_append.mp ht' with ht' | ht'
    · rcases mem_followUp ht' with ⟨id, rfl⟩ | ⟨id, rfl⟩
      · exact .lostTerminalize s revoked id
      · exact .lostStop s revoked id
    · exact mem_singleton.mp ht' ▸ .lostEvent s revoked _ _
  | stop id p =>
    simp only [exec] at h
    split at h
    · cases h
      contradiction
    split at h
    · contradiction
    · cases h
      exact mem_singleton.mp ht' ▸ .stop id p _
    · cases h
      contradiction
  | requireAction a peer =>
    cases h
    split at ht'
    · contradiction
    rcases mem_onSession ht' with ⟨s, ht'⟩ | ⟨code, ht'⟩
    · exact mem_singleton.mp ht' ▸ .required a peer
    split at ht'
    · exact mem_singleton.mp ht' ▸ .notFound a peer
    · contradiction
  | adoptAction a peer =>
    cases h
    rcases mem_onSession ht' with ⟨s, ht'⟩ | ⟨code, ht'⟩
    · exact mem_singleton.mp ht' ▸ .adopted a peer
    · contradiction
  | requireAgain a peer =>
    cases h
    rcases mem_onSession ht' with ⟨s, ht'⟩ | ⟨code, ht'⟩
    · exact mem_singleton.mp ht' ▸ .submit a peer
    · contradiction
  | renew id sessionId peer =>
    cases h
    unfold renew at ht'
    split at ht'
    · split at ht'
      · contradiction
      split at ht'
      · contradiction
      unfold renewLease at ht'
      dsimp only at ht'
      split at ht'
      · contradiction
      · exact mem_singleton.mp ht' ▸ .renewed id sessionId peer _ _ _ _
    · contradiction
  | ledgerStatus =>
    simp only [exec] at h
    split at h <;> obtain rfl := some_inj.mp h <;> contradiction
  | proposalRequire a peer =>
    cases h
    rcases mem_onSession ht' with ⟨s, ht'⟩ | ⟨code, ht'⟩ <;> contradiction
  | issueRequire q operator =>
    cases h
    split at ht'
    · contradiction
    rcases mem_onSession ht' with ⟨s, ht'⟩ | ⟨code, ht'⟩
    · exact mem_singleton.mp ht' ▸ .issue q operator
    · contradiction
  | arm reason peer =>
    cases h
    unfold arm at ht'
    split at ht'
    · contradiction
    · exact mem_singleton.mp ht' ▸ .armed reason _ peer _
  | disarmed reason peer =>
    cases h
    exact mem_singleton.mp ht' ▸ .disarmed reason _ peer _
  | tickExpire =>
    cases h
    rcases mem_append.mp ht' with ht' | ht'
    · obtain ⟨s, -, rfl⟩ := mem_map.mp ht'
      exact .expired s
    · simp only [mem_cons, not_mem_nil, or_false] at ht'
      rcases ht' with rfl | rfl
      · exact .tickMark
      · exact .tickEnd _
  | tickMark =>
    cases h
    split at ht'
    · contradiction
    rcases mem_followUp ht' with ⟨id, rfl⟩ | ⟨id, rfl⟩
    · exact .markTerminalize id
    · exact .markStop id
  | direct p =>
    simp only [exec] at h
    split at h
    · contradiction
    · cases h
      exact mem_singleton.mp ht' ▸ .direct p _
    · cases h
      contradiction
  | close =>
    cases h
    split at ht'
    · contradiction
    rcases mem_append.mp ht' with ht' | ht'
    · obtain ⟨id, -, rfl⟩ := mem_map.mp ht'
      exact .closeCancel id
    · simp only [mem_cons, not_mem_nil, or_false] at ht'
      rcases ht' with rfl | rfl
      · exact .closeLatch
      · exact .closeShutdown
  | _ =>
    cases h
    contradiction

end Daemon

theorem Follows.framed (h : Follows t t') (ht : t.framed = true) : t'.framed = true := by
  cases h with
  | whenRunning | required | notFound | adopted | submit | issue => exact ht
  | _ => rfl

namespace System

/-- What holds of the whole system between any two stretches of code. -/
structure Sound (s : System) : Prop where
  framed : ∀ ts ∈ s.threads, ∀ t ∈ ts, t.framed = true
  history (id : PyStr) : History id (s.daemon.events id) (s.daemon.created id) (s.daemon.handed id)
  tracked : s.alive = true → s.daemon.Tracked

variable {C : DaemonConfig} {s s' : System} {env : Answers}

variable {d : Daemon}

theorem tracked_answered (hd : d.Tracked) (env : Answers) : (d.answered env).Tracked :=
  hd.of_unmoved_all fun _ => ⟨rfl, rfl, rfl, rfl, rfl, fun hr => hr⟩

theorem sound_after (s : System) (hd : d.Tracked) {threads : List (List Task)}
    (hf : ∀ ts ∈ threads, ∀ t ∈ ts, t.framed = true) (env : Answers) :
    (s.after d threads env).Sound := by
  refine ⟨?_, hd.history, fun _ => hd⟩
  show ∀ ts ∈ (if d.ledger.dead then [] else threads), _
  split
  · exact fun _ h => nomatch h
  · exact hf

theorem sound_step (hs : s.Sound) {l : Label} (h : s.step C l = some s') : s'.Sound := by
  cases l with
  | call c =>
    simp only [step, ite_none_right_eq_some, Bool.and_eq_true, Option.some.injEq] at h
    obtain ⟨⟨halive, hc⟩, rfl⟩ := h
    refine ⟨fun ts hts => ?_, hs.history, hs.tracked⟩
    rcases mem_append.mp hts with hts | hts
    · exact hs.framed ts hts
    · exact mem_singleton.mp hts ▸ framed_tasks C hc
  | run i env =>
    simp only [step] at h
    split at h
    · exact nomatch h
    next halive =>
    split at h
    · next t ts hi =>
      obtain ⟨r, hr, rfl⟩ := map_eq_some_iff.mp h
      have hmem := mem_of_getElem? hi
      have ht := hs.framed _ hmem t mem_cons_self
      have hd := tracked_answered (hs.tracked (by simpa using halive)) env
      refine sound_after s ((Daemon.exec_moves ht hd.filedJobs hr).tracked hd) (fun ts' hts' => ?_) env
      rcases mem_or_eq_of_mem_set hts' with hts' | rfl
      · exact hs.framed ts' hts'
      · intro t' ht'
        rcases mem_append.mp ht' with ht' | ht'
        · exact (Daemon.follows_exec hr ht').framed ht
        · exact hs.framed _ hmem t' (mem_cons_of_mem _ ht')
    · exact nomatch h
  | work id env =>
    simp only [step] at h
    split at h
    · exact nomatch h
    next halive =>
    obtain ⟨d, hd, rfl⟩ := map_eq_some_iff.mp h
    exact sound_after s (Daemon.tracked_work (tracked_answered (hs.tracked (by simpa using halive)) env)
      hd) hs.framed env
  | pick id =>
    simp only [step] at h
    split at h
    · exact nomatch h
    next halive =>
    obtain ⟨d, hd, rfl⟩ := map_eq_some_iff.mp h
    have htracked := Daemon.tracked_pick (hs.tracked (by simpa using halive)) hd
    exact ⟨hs.framed, htracked.history, fun _ => htracked⟩
  | crash =>
    simp only [step, ite_none_right_eq_some, Option.some.injEq] at h
    obtain ⟨-, rfl⟩ := h
    exact ⟨fun _ h => (nomatch h), hs.history, fun h => (nomatch h)⟩
  | restart env =>
    simp only [step] at h
    split at h
    · exact nomatch h
    cases h
    obtain ⟨hhist, htracked⟩ := Daemon.tracked_restart C env hs.history
    have hthreads : (s.after (s.daemon.restart C env).1 [] env).threads = [] := ite_self _
    refine ⟨fun ts hts => ?_, hhist, fun h => htracked (Bool.and_eq_true_iff.mp h).1⟩
    exact nomatch hthreads ▸ hts

theorem sound_init (h : (controlPlane C).Init s) : s.Sound := by
  obtain ⟨halive, hthreads, hevents, hlog, -⟩ := h
  refine ⟨fun ts hts => ?_, fun i => ?_, fun h => ?_⟩
  · rw [hthreads] at hts
    exact nomatch hts
  · have h₁ : s.daemon.events i = [] := by simp [Daemon.events, Ledger.select, hevents]
    have h₂ : s.daemon.created i = [] := by simp [Daemon.created, hlog]
    have h₃ : s.daemon.handed i = [] := by simp [Daemon.handed, hlog]
    rw [h₁, h₂, h₃]
    exact .unknown
  · exact Bool.noConfusion (h.symm.trans halive)

/-- **Every reachable state** holds the events that each action should have, and its
job and thread where they say. -/
theorem sound_of_reachable (h : (controlPlane C).Reachable s) : s.Sound :=
  h.invariant (fun _ => sound_init) fun _ _ _ hs _ hstep => sound_step hs hstep

end System

end Rosclaw
