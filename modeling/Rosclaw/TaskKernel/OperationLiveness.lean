/-
What a sweep reports about the liveness of an operation.

`sweep_liveness` reads the column `heartbeat_at`; lines of output and progress reports write it, and so
does every transition of the row, also the one that marks it `DEGRADED`.

* `Manager.stamp` — the last of them of an operation;
* `Stamped` — the heartbeat of a degraded row is the time of that event, `stamped_of_reachable`;
* `get?_sweep` — what a sweep makes of a row;
* `sweep_reports` — when a sweep reports running and resumed only what has shown a heartbeat;
* `resumed_by_mark` — an operation that is resumed because it was degraded.
-/
import Rosclaw.TaskKernel.OperationRecovery

namespace Rosclaw.Operations

open List

variable {s s' : Manager} {op op' : PyStr} {now : Int} {r : Operation}

namespace EventType

def beats : EventType → Bool
  | queued | output | progress => true
  | _ => false

/-- The events of the transitions to `DEGRADED`. -/
def marks : EventType → Bool
  | degraded | reattached => true
  | _ => false

end EventType

namespace Manager

def stamps (s : Manager) (op : PyStr) : List TaskEvent :=
  s.events.filter fun e => e.operationId = op ∧ (e.eventType.beats ∨ e.eventType.marks)

def stamp (s : Manager) (op : PyStr) : Option TaskEvent := (s.stamps op).getLast?

end Manager

/-- The heartbeat of a degraded row is the time of the last heartbeat or degradation. -/
def Stamped (op : PyStr) (s : Manager) : Prop :=
  ∀ r, s.operations.get? op = some r → r.state = .degraded →
    ∃ e, s.stamp op = some e ∧ e.createdAt = r.heartbeatAt

/-! ### Events and rows -/

theorem stamp_congr (h : s'.events = s.events) (op : PyStr) : s'.stamp op = s.stamp op := by
  rw [Manager.stamp, Manager.stamps, h]
  rfl

theorem stamp_emit (s : Manager) (taskId : PyStr) (ev : EventType) (payload : List (PyStr × PyVal))
    (op' attemptId : PyStr) (now : Int) (op : PyStr) :
    (s.emit taskId ev payload op' attemptId now).stamp op
      = if op' = op ∧ (ev.beats ∨ ev.marks) then some ⟨taskId, attemptId, op', ev, .dict payload, now⟩
        else s.stamp op := by
  rw [Manager.stamp, Manager.stamps, Manager.emit, filter_append]
  by_cases h : op' = op ∧ (ev.beats ∨ ev.marks)
  · rw [if_pos h, filter_cons_of_pos (by simpa using h), filter_nil, List.getLast?_concat]
  · rw [if_neg h, filter_cons_of_neg (by simpa using h), filter_nil, append_nil]
    rfl

theorem Stamped.of_tables (h : Stamped op s) (hops : s'.operations = s.operations)
    (hevents : s'.events = s.events) : Stamped op s' := by
  intro r hrow hst
  rw [hops] at hrow
  rw [stamp_congr hevents]
  exact h r hrow hst

theorem stamped_of_not_degraded
    (h : ∀ r, s.operations.get? op = some r → r.state ≠ .degraded) : Stamped op s :=
  fun r hrow hst => absurd hst (h r hrow)

variable {ev : EventType} {f : Operation → Operation} {st : OperationState}
  {staleAfter status : Int}

theorem Stamped.emit (h : Stamped op s) (taskId : PyStr) (hev : op' = op → ¬ (ev.beats ∨ ev.marks))
    (payload : List (PyStr × PyVal)) (attemptId : PyStr) (now : Int) :
    Stamped op (s.emit taskId ev payload op' attemptId now) := by
  intro r hrow hst
  rw [stamp_emit, if_neg fun hand => hev hand.1 hand.2]
  exact h r hrow hst

theorem Stamped.update (h : Stamped op s)
    (hf : op' = op → ∀ r, (f r).state = r.state ∧ (f r).heartbeatAt = r.heartbeatAt) :
    Stamped op (s.update op' f) := by
  intro r hrow hst
  rw [get?_update] at hrow
  obtain ⟨r₀, hrow₀, rfl⟩ := Option.map_eq_some_iff.mp hrow
  show ∃ e, s.stamp op = some e ∧ _
  by_cases hop : op = op'
  · obtain ⟨hstate, hbeat⟩ := hf hop.symm r₀
    rw [if_pos hop] at hst ⊢
    rw [hstate] at hst
    rw [hbeat]
    exact h r₀ hrow₀ hst
  · rw [if_neg hop] at hst ⊢
    exact h r₀ hrow₀ hst

theorem stamped_move (h : Stamped op s) (hf : ∀ r, (f r).state ≠ .degraded) :
    Stamped op (s.update op' f) := by
  by_cases hop : op' = op
  · subst hop
    refine stamped_of_not_degraded ?_
    intro r hrow
    rw [get?_update] at hrow
    obtain ⟨r₀, -, rfl⟩ := Option.map_eq_some_iff.mp hrow
    rw [if_pos rfl]
    exact hf r₀
  · exact h.update fun heq => absurd heq hop

theorem stamped_beat (h : op' ≠ op → Stamped op s)
    (hrow : ∀ r, s.operations.get? op' = some r → r.heartbeatAt = now) (taskId : PyStr)
    (hev : ev.beats ∨ ev.marks) (payload : List (PyStr × PyVal)) (attemptId : PyStr) :
    Stamped op (s.emit taskId ev payload op' attemptId now) := by
  by_cases hop : op' = op
  · subst hop
    intro r hr hst
    exact ⟨_, by rw [stamp_emit, if_pos ⟨rfl, hev⟩], (hrow r hr).symm⟩
  · exact (h hop).emit _ (fun heq => absurd heq hop) _ _ _

theorem heartbeat_update (hf : ∀ r, (f r).heartbeatAt = now) :
    ∀ r, (s.update op f).operations.get? op = some r → r.heartbeatAt = now := by
  intro r hr
  rw [get?_update] at hr
  obtain ⟨r₀, -, rfl⟩ := Option.map_eq_some_iff.mp hr
  rw [if_pos rfl, hf]

/-! ### The segments -/

/-- A transition to `DEGRADED` has its event; any other leaves the row not degraded. -/
theorem Stamped.transition (h : Stamped op s) (op' : PyStr) {ev : Option EventType}
    (hst : st = .degraded → ∃ e, ev = some e ∧ e.marks = true)
    (hev : ∀ e, ev = some e → st ≠ .degraded → ¬ (e.beats ∨ e.marks))
    (payload : List (PyStr × PyVal)) (now : Int) :
    Stamped op (s.transition op' st ev payload now) := by
  unfold Manager.transition
  split
  · exact h
  · next r hrow =>
    split
    · exact h
    · by_cases hdegraded : st = .degraded
      · obtain ⟨e, rfl, he⟩ := hst hdegraded
        refine stamped_beat (fun hne => h.update fun heq => absurd heq hne) ?_ _ (.inr he) _ _
        exact heartbeat_update fun r' => rfl
      · have hmove : Stamped op (s.update op' fun r' => { r' with state := st, heartbeatAt := now }) :=
          stamped_move h fun r' => hdegraded
        split
        · exact hmove
        · next e => exact hmove.emit _ (fun _ => hev e rfl hdegraded) _ _ _

theorem Stamped.writeTerminal (h : Stamped op s) (op' : PyStr) (o : Outcome) (code ref : PyStr)
    (now : Int) : Stamped op (s.writeTerminal op' o code ref now) := by
  unfold Manager.writeTerminal
  split
  · exact h
  · split
    · exact h
    · split
      · exact h
      · refine (stamped_move h ?_).emit _ ?_ _ _ _
        · intro r'
          show o.state ≠ .degraded
          cases o
          all_goals decide
        · intro _
          cases o
          all_goals decide

theorem Stamped.outputLine (h : Stamped op s) (d : Driver) (text : PyStr) (now : Int) :
    Stamped op (s.outputLine d text now) := by
  unfold Manager.outputLine Manager.touch
  split
  · next hnone =>
    by_cases hop : d.operationId = op
    · subst hop
      refine stamped_of_not_degraded ?_
      intro r hrow
      have hrow' : s.operations.get? d.operationId = some r := hrow
      rw [hnone] at hrow'
      cases hrow'
    · exact h.emit _ (fun heq => absurd heq hop) _ _ _
  · next r hrow =>
    split
    · next hterminal =>
      by_cases hop : d.operationId = op
      · subst hop
        refine stamped_of_not_degraded ?_
        intro r' hrow' hst
        have hrow'' : s.operations.get? d.operationId = some r' := hrow'
        rw [hrow] at hrow''
        cases hrow''
        rw [hst] at hterminal
        cases hterminal
      · exact h.emit _ (fun heq => absurd heq hop) _ _ _
    · refine stamped_beat (fun hne => h.update fun heq => absurd heq hne) ?_ _ (.inl rfl) _ _
      exact heartbeat_update fun r' => rfl

theorem Stamped.reportProgress (h : Stamped op s) (op' : PyStr) (progress : PyVal) (now : Int) :
    Stamped op (s.reportProgress op' progress now) := by
  unfold Manager.reportProgress
  split
  · exact h
  · next r hrow =>
    split
    · exact h
    · next hterminal =>
      have htouch : s.touch op' now = s.update op' fun r' => { r' with heartbeatAt := now } := by
        unfold Manager.touch
        rw [hrow]
        simp only [hterminal]
        rfl
      rw [htouch]
      refine stamped_beat ?_ ?_ _ (.inl rfl) _ _
      · intro hne
        exact (h.update fun heq => absurd heq hne).update fun heq => absurd heq hne
      · intro r' hr'
        rw [get?_update] at hr'
        obtain ⟨r₀, hr₀, rfl⟩ := Option.map_eq_some_iff.mp hr'
        have hbeat : ∀ r₁ : Operation, { r₁ with heartbeatAt := now }.heartbeatAt = now := fun _ => rfl
        rw [if_pos rfl]
        exact heartbeat_update hbeat r₀ hr₀

theorem Stamped.enqueue (h : Stamped op s) {row : Operation} (hrow : row.state = .queued)
    (payload : List (PyStr × PyVal)) (now : Int) : Stamped op (s.enqueue op' row payload now) := by
  by_cases hop : op' = op
  · subst hop
    refine stamped_of_not_degraded ?_
    intro r hr
    have hr' : (s.operations.set op' row).get? op' = some r := hr
    rw [Dict.get?_set_self] at hr'
    cases hr'
    rw [hrow]
    decide
  · refine Stamped.emit ?_ _ (fun heq => absurd heq hop) _ _ _
    intro r hr
    have hr' : (s.operations.set op' row).get? op = some r := hr
    rw [Dict.get?_set_of_ne _ _ hop] at hr'
    exact h r hr'

theorem Stamped.start {a : Manager.StartArgs} (h : Stamped op s) (hrun : s.start op' a now = some s') :
    Stamped op s' := by
  unfold Manager.start at hrun
  split at hrun
  · cases hrun
  · rw [← Option.some.inj hrun]
    exact (h.enqueue rfl _ _).of_tables rfl rfl

/-- A transition to another state than `DEGRADED`, with its event or without one. -/
theorem Stamped.move (h : Stamped op s) (op' : PyStr) (hst : st ≠ .degraded) {ev : Option EventType}
    (hev : ∀ e, ev = some e → e.beats = false ∧ e.marks = false) (payload : List (PyStr × PyVal))
    (now : Int) : Stamped op (s.transition op' st ev payload now) := by
  refine h.transition op' (fun heq => absurd heq hst) ?_ payload now
  intro e he _
  rw [(hev e he).1, (hev e he).2]
  decide

theorem Stamped.admitted (h : Stamped op s) (op' : PyStr) (argv : List PyStr) (pid : Nat) (now : Int) :
    Stamped op (s.admitted op' argv pid now) := by
  have hspawned : Stamped op (s.processSpawned op' pid) := h.of_tables rfl rfl
  refine Stamped.update (hspawned.move op' (by decide) ?_ _ now) fun _ r => ⟨rfl, rfl⟩
  intro e he
  cases he
  exact ⟨rfl, rfl⟩

theorem Stamped.startAction {a : Manager.ActionArgs} {sent : Bool} (h : Stamped op s)
    (hrun : s.startAction op' a sent now = some s') : Stamped op s' := by
  have hqueued : Stamped op (s.actionQueued op' a now) := h.enqueue rfl _ _
  unfold Manager.startAction at hrun
  split at hrun
  · cases hrun
  · split at hrun
    · rw [← Option.some.inj hrun]
      have hsent : Stamped op ((s.actionQueued op' a now).goalSent op' a.goalId) :=
        hqueued.of_tables rfl rfl
      refine (hsent.move op' (by decide) ?_ _ now).move op' (by decide) ?_ _ now
      · intro e he
        cases he
        exact ⟨rfl, rfl⟩
      · intro e he
        cases he
    · rw [← Option.some.inj hrun]
      exact hqueued

theorem Stamped.driverExit (h : Stamped op s) (op' : PyStr) (rc now : Int) :
    Stamped op (s.driverExit op' rc now) := by
  have hpopped : Stamped op (s.popHandle op') := h.of_tables rfl rfl
  unfold Manager.driverExit
  split
  · exact hpopped
  · split
    · exact hpopped
    · exact hpopped.writeTerminal _ _ _ _ _

theorem Stamped.cancel (h : Stamped op s) (op' reason : PyStr) (now : Int) :
    Stamped op (s.cancel op' reason now) := by
  unfold Manager.cancel
  split
  · exact h
  · next r hrow =>
    split
    · exact h
    · have hmarked : Stamped op (s.markCanceling op' r reason now) := by
        refine (stamped_move h ?_).emit _ ?_ _ _ _
        · intro r' heq
          cases heq
        · intro _
          decide
      unfold Manager.cancelMarked
      split
      · exact hmarked.of_tables rfl rfl
      · split
        · exact hmarked.of_tables rfl rfl
        · have hpopped : Stamped op ((s.markCanceling op' r reason now).popHandle op') :=
            hmarked.of_tables rfl rfl
          exact hpopped.writeTerminal _ _ _ _ _

theorem Stamped.onResult {ref : PyStr} (h : Stamped op s)
    (hrun : s.onResult op' status ref now = some s') : Stamped op s' := by
  unfold Manager.onResult at hrun
  split at hrun
  · rw [← Option.some.inj hrun]
    have hforgotten : Stamped op (s.forgetGoal op') := h.of_tables rfl rfl
    exact hforgotten.writeTerminal _ _ _ _ _
  · cases hrun

theorem Stamped.watchEnd (h : Stamped op s) (op' path : PyStr) (now : Int) :
    Stamped op (s.watchEnd op' path now) := by
  unfold Manager.watchEnd
  split
  · exact h
  · split
    · exact h
    · split
      · exact h.writeTerminal _ _ _ _ _
      · exact h.writeTerminal _ _ _ _ _

/-- A transition to `DEGRADED` with its event. -/
theorem Stamped.degrade (h : Stamped op s) (op' : PyStr) (hev : ev.marks = true)
    (payload : List (PyStr × PyVal)) (now : Int) :
    Stamped op (s.transition op' .degraded (some ev) payload now) :=
  h.transition op' (fun _ => ⟨ev, rfl, hev⟩) (fun _ _ hne => absurd rfl hne) payload now

theorem Stamped.sweepRow (h : Stamped op s) (staleAfter now : Int) (e : PyStr × Operation) :
    Stamped op (s.sweepRow staleAfter now e) := by
  unfold Manager.sweepRow
  split
  · split
    · exact h.degrade _ rfl _ _
    · exact h
  · split
    · refine h.move _ (by decide) ?_ _ _
      intro ev hev
      cases hev
      exact ⟨rfl, rfl⟩
    · exact h

theorem Stamped.recoverRow (h : Stamped op s) (alive : Nat → Bool) (now : Int) (e : PyStr × Operation) :
    Stamped op (s.recoverRow alive now e) := by
  unfold Manager.recoverRow
  split
  · exact h.writeTerminal _ _ _ _ _
  · split
    · exact (h.degrade e.1 rfl _ _).of_tables rfl rfl
    · exact h.writeTerminal _ _ _ _ _

theorem Stamped.foldl {f : Manager → PyStr × Operation → Manager}
    (hf : ∀ s e, Stamped op s → Stamped op (f s e)) (es : List (PyStr × Operation)) (h : Stamped op s) :
    Stamped op (es.foldl f s) := by
  induction es generalizing s with
  | nil => exact h
  | cons e es ih => exact ih (hf s e h)

theorem Stamped.resume {t : Thread} {a : Answer} {r : List Thread × Manager} (h : Stamped op s)
    (hrun : s.resume now t a = some r) : Stamped op r.2 := by
  unfold Manager.resume at hrun
  split at hrun
  · rw [← Option.some.inj hrun]
    exact h.admitted _ _ _ _
  · rw [← Option.some.inj hrun]
    exact h
  · rw [← Option.some.inj hrun]
    refine h.move _ (by decide) ?_ _ _
    intro ev hev
    cases hev
  · rw [← Option.some.inj hrun]
    exact h.outputLine _ _ _
  · rw [← Option.some.inj hrun]
    exact h
  · rw [← Option.some.inj hrun]
    exact h.emit _ (fun _ => by decide) _ _ _
  · obtain ⟨rc, -, hr⟩ := Option.map_eq_some_iff.mp hrun
    rw [← hr]
    exact h.driverExit _ _ _
  · obtain ⟨rc, -, hr⟩ := Option.map_eq_some_iff.mp hrun
    rw [← hr]
    exact h.writeTerminal _ _ _ _ _
  · next op' reason =>
    rw [← Option.some.inj hrun]
    have hsignalled : Stamped op (s.signal op') := h.of_tables rfl rfl
    exact hsignalled.writeTerminal _ _ _ _ _
  · rw [← Option.some.inj hrun]
    exact h.writeTerminal _ _ _ _ _
  · split at hrun
    · rw [← Option.some.inj hrun]
      exact h
    · rw [← Option.some.inj hrun]
      exact h.watchEnd _ _ _
  · cases hrun

theorem stamped_step {l : Label} (h : Stamped op s) (hrun : s.step l = some s') : Stamped op s' := by
  cases l with
  | start op' a now => exact h.start hrun
  | startAction op' a sent now => exact h.startAction hrun
  | cancel op' reason now =>
    rw [← Option.some.inj hrun]
    exact h.cancel _ _ _
  | feedback op' progress now =>
    rw [feedback_eq hrun]
    exact h.reportProgress _ _ _
  | result op' status ref now => exact h.onResult hrun
  | sweep staleAfter now =>
    rw [← Option.some.inj hrun]
    exact Stamped.foldl (fun s e hs => hs.sweepRow staleAfter now e) _ h
  | recover alive now =>
    rw [← Option.some.inj hrun]
    exact Stamped.foldl (fun s e hs => hs.recoverRow alive now e) _ h
  | turn i a now =>
    obtain ⟨t, r, -, hresume, rfl⟩ := turn_eq hrun
    exact (h.resume hresume).of_tables rfl rfl
  | restart =>
    rw [← Option.some.inj hrun]
    exact h.of_tables rfl rfl
  | exits op' =>
    obtain ⟨p, -, rfl⟩ := exits_eq hrun
    exact h.of_tables rfl rfl
  | reaped op' rc =>
    obtain ⟨p, -, -, rfl⟩ := reaped_eq hrun
    exact h.of_tables rfl rfl
  | command op' =>
    obtain ⟨p, c, -, -, rfl⟩ := command_eq hrun
    exact h.of_tables rfl rfl
  | exitFile path code =>
    rw [exitFile_eq hrun]
    exact h.of_tables rfl rfl

/-- **The heartbeat of a degraded operation** is the time of its last heartbeat or degradation, after
any interleaving. -/
theorem stamped_of_reachable (h : operationManager.Reachable s) (op : PyStr) : Stamped op s := by
  refine h.invariant (P := Stamped op) ?_ ?_
  · rintro s ⟨directory, rfl⟩ r hr
    cases hr
  · intro s l s' hs _ hrun
    exact stamped_step hs hrun

/-! ### A sweep -/

def sweptRow (staleAfter now : Int) (r : Operation) : Operation :=
  if r.state.swept then
    if now - r.heartbeatAt > staleAfter then
      if r.state ≠ .degraded then { r with state := .degraded, heartbeatAt := now } else r
    else if r.state = .degraded then { r with state := .running, heartbeatAt := now } else r
  else r

theorem beside_sweepRow (staleAfter now : Int) (s : Manager) {e : PyStr × Operation} (h : op ≠ e.1) :
    Beside op s (s.sweepRow staleAfter now e) := by
  have hmoved : ∀ st ev payload, Beside op s (s.transition e.1 st ev payload now) := by
    intro st ev payload
    have hsame := exitcodes_transition s e.1 st ev payload now
    refine ⟨get?_transition_of_ne _ _ _ _ h, hsame.1, ?_⟩
    intro t ht
    rwa [hsame.2]
  unfold Manager.sweepRow
  split
  · split
    · exact hmoved _ _ _
    · exact .refl op s
  · split
    · exact hmoved _ _ _
    · exact .refl op s

theorem row_sweepRow (staleAfter now : Int) (hrow : s.operations.get? op = some r)
    (hst : r.state.swept = true) :
    (s.sweepRow staleAfter now (op, r)).operations.get? op = some (sweptRow staleAfter now r) := by
  rw [sweptRow, if_pos hst]
  unfold Manager.sweepRow
  split
  · split
    · exact get?_transition _ hrow hst _ _ _
    · exact hrow
  · split
    · exact get?_transition _ hrow hst _ _ _
    · exact hrow

/-- **A sweep looks at every row once.** -/
theorem get?_sweep (s : Manager) (op : PyStr) (staleAfter now : Int) :
    (s.sweepLiveness staleAfter now).operations.get? op
      = (s.operations.get? op).map (sweptRow staleAfter now) := by
  have hnodup : ((s.operations.entries.filter fun e => e.2.state.swept).map Prod.fst).Nodup :=
    s.operations.nodup.sublist (filter_sublist.map _)
  have hmem : ∀ r, (op, r) ∈ (s.operations.entries.filter fun e => e.2.state.swept) ↔
      s.operations.get? op = some r ∧ r.state.swept = true := by
    intro r
    rw [mem_filter, Dict.mem_entries_iff]
  unfold Manager.sweepLiveness
  by_cases hselected : ∃ r, s.operations.get? op = some r ∧ r.state.swept = true
  · obtain ⟨r, hrow, hst⟩ := hselected
    obtain ⟨t, hbefore, hafter⟩ := foldl_turn (fun s e => beside_sweepRow staleAfter now s) hnodup
      ((hmem r).mpr ⟨hrow, hst⟩) s
    rw [hrow]
    exact hafter.row.trans (row_sweepRow staleAfter now (hbefore.row.trans hrow) hst)
  · have hnot : op ∉ (s.operations.entries.filter fun e => e.2.state.swept).map Prod.fst := by
      intro hin
      obtain ⟨⟨op', r⟩, he, rfl⟩ := mem_map.mp hin
      exact hselected ⟨r, (hmem r).mp he⟩
    rw [(foldl_beside (fun s e => beside_sweepRow staleAfter now s) hnot s).row]
    rcases hrow : s.operations.get? op with _ | r
    · rfl
    · have hst : ¬ r.state.swept = true := fun hst => hselected ⟨r, hrow, hst⟩
      rw [Option.map_some, sweptRow, if_neg hst]

/-- A row that is running after a sweep was running or degraded, with a heartbeat that is not
stale. -/
theorem sweptRow_running (h : (sweptRow staleAfter now r).state = .running) :
    (r.state = .running ∨ r.state = .degraded) ∧ now - r.heartbeatAt ≤ staleAfter := by
  rw [sweptRow] at h
  split at h
  · split at h
    · split at h
      · cases h
      · next hdegraded =>
        rw [not_not] at hdegraded
        rw [hdegraded] at h
        cases h
    · next hfresh =>
      split at h
      · next hdegraded => exact ⟨.inr hdegraded, not_lt.mp hfresh⟩
      · exact ⟨.inl h, not_lt.mp hfresh⟩
  · next hst =>
    rw [h] at hst
    exact absurd rfl hst

theorem sweptRow_of_fresh (h : r.state = .running ∨ r.state = .degraded)
    (hfresh : now - r.heartbeatAt ≤ staleAfter) : (sweptRow staleAfter now r).state = .running := by
  have hnot : ¬ now - r.heartbeatAt > staleAfter := not_lt.mpr hfresh
  rcases h with hst | hst
  · simp [sweptRow, hst, hnot, OperationState.swept]
  · simp [sweptRow, hst, hnot, OperationState.swept]

namespace Manager

def Alive (s : Manager) (op : PyStr) (staleAfter now : Int) : Prop :=
  ∃ e ∈ s.events, e.operationId = op ∧ e.eventType.beats = true ∧ now - e.createdAt ≤ staleAfter

/-- A sweep leaves running only what has shown a heartbeat within the bound, and resumes only what
has shown one since it was degraded. -/
def SweepReports (s : Manager) (staleAfter now : Int) : Prop :=
  ∀ op r', (s.sweepLiveness staleAfter now).operations.get? op = some r' → r'.state = .running →
    s.Alive op staleAfter now ∧
      (s.stateOf op = some .degraded → ∃ e, s.stamp op = some e ∧ e.eventType.beats = true)

/-- No heartbeat column was refreshed by a transition within the bound: where that of a running
operation is not the time of a heartbeat, one is within the bound all the same, and an operation
that was degraded without a heartbeat since was degraded longer ago than the bound. -/
def Unrefreshed (s : Manager) (staleAfter now : Int) : Prop :=
  ∀ op r, s.operations.get? op = some r →
    (r.state = .running → now - r.heartbeatAt ≤ staleAfter →
      (∀ e ∈ s.events, e.operationId = op → e.eventType.beats = true →
        e.createdAt ≠ r.heartbeatAt) → s.Alive op staleAfter now) ∧
    (r.state = .degraded → ∀ e, s.stamp op = some e → e.eventType.beats = false →
      staleAfter < now - e.createdAt)

end Manager

theorem mem_of_stamp {e : TaskEvent} (h : s.stamp op = some e) : e ∈ s.events ∧ e.operationId = op := by
  obtain ⟨hmem, hkind⟩ := mem_filter.mp (mem_of_getLast? h)
  rw [decide_eq_true_eq] at hkind
  exact ⟨hmem, hkind.1⟩

/-- **When a sweep reports liveness.**  In every state that any interleaving reaches, a sweep at any
time and with any bound reports it exactly when no column was refreshed by a transition. -/
theorem sweep_reports (h : operationManager.Reachable s) (staleAfter now : Int) :
    s.SweepReports staleAfter now ↔ s.Unrefreshed staleAfter now := by
  constructor
  · intro hreports op r hrow
    have hafter := get?_sweep s op staleAfter now
    rw [hrow] at hafter
    refine ⟨?_, ?_⟩
    · intro hst hfresh _
      exact (hreports op _ hafter (sweptRow_of_fresh (.inl hst) hfresh)).1
    · intro hst e hstamp hbeat
      by_contra hlate
      obtain ⟨e', hstamp', htime⟩ := stamped_of_reachable h op r hrow hst
      obtain rfl : e = e' := Option.some.inj (hstamp.symm.trans hstamp')
      rw [htime] at hlate
      have hrunning := sweptRow_of_fresh (.inr hst) (not_lt.mp hlate)
      have hdegraded : s.stateOf op = some .degraded := by rw [Manager.stateOf, hrow, Option.map_some, hst]
      obtain ⟨e', hlast, hbeats⟩ := (hreports op _ hafter hrunning).2 hdegraded
      rw [hstamp] at hlast
      obtain rfl := Option.some.inj hlast
      rw [hbeat] at hbeats
      cases hbeats
  · intro hcond op r' hafter hrunning
    rw [get?_sweep] at hafter
    obtain ⟨r, hrow, rfl⟩ := Option.map_eq_some_iff.mp hafter
    obtain ⟨hst, hfresh⟩ := sweptRow_running hrunning
    obtain ⟨hcolumn, hmark⟩ := hcond op r hrow
    rcases hst with hst | hst
    · refine ⟨?_, ?_⟩
      · by_cases hstems : ∃ e ∈ s.events, e.operationId = op ∧ e.eventType.beats = true ∧
            e.createdAt = r.heartbeatAt
        · obtain ⟨e, hmem, hop, hbeat, htime⟩ := hstems
          exact ⟨e, hmem, hop, hbeat, by rwa [htime]⟩
        · refine hcolumn hst hfresh ?_
          intro e hmem hop hbeat htime
          exact hstems ⟨e, hmem, hop, hbeat, htime⟩
      · intro hdegraded
        rw [Manager.stateOf, hrow, Option.map_some, hst] at hdegraded
        cases hdegraded
    · obtain ⟨e, hstamp, htime⟩ := stamped_of_reachable h op r hrow hst
      have hbeat : e.eventType.beats = true := by
        by_contra hnot
        have hlate := hmark hst e hstamp (by simpa using hnot)
        rw [htime] at hlate
        exact absurd hfresh (not_le.mpr hlate)
      obtain ⟨hmem, hop⟩ := mem_of_stamp hstamp
      exact ⟨⟨e, hmem, hop, hbeat, by rwa [htime]⟩, fun _ => ⟨e, hstamp, hbeat⟩⟩

/-- A process whose driver has set its operation running at the time 2. -/
def enteredRun (ls : List Label) : List Label := spawnedRun (.turn 0 .go 2 :: ls)

/-- A sweep within the bound after the start. -/
theorem sweep_reports_entered :
    ((Manager.fresh "operations").after (enteredRun [])).SweepReports 30 20 := by
  have hrun : operationManager.run (Manager.fresh "operations") (enteredRun [])
      = some ((Manager.fresh "operations").after (enteredRun [])) := rfl
  have hreach : operationManager.Reachable ((Manager.fresh "operations").after (enteredRun [])) :=
    .of_run ⟨"operations", rfl⟩ hrun
  refine (sweep_reports hreach 30 20).mpr ?_
  intro op r hrow
  have hmem := List.mem_singleton.mp (Dict.mem_entries_iff.mpr hrow)
  rw [show op = _ from congrArg Prod.fst hmem, show r = _ from congrArg Prod.snd hmem]
  refine ⟨?_, ?_⟩
  · intro _ _ _
    refine ⟨_, List.mem_cons_self, ?_⟩
    decide
  · intro hst
    cases hst

/-- Nothing is heard of an operation from its start on: a sweep degrades it, and the next one
resumes it. -/
theorem resumed_by_mark : ∃ s, operationManager.Reachable s ∧ s.stateOf "op" = some .degraded ∧
    (s.sweepLiveness 30 110).stateOf "op" = some .running ∧ ¬ s.Alive "op" 30 110 ∧
    ¬ s.SweepReports 30 110 := by
  have hrun : ∃ s, operationManager.run (Manager.fresh "operations") (enteredRun [.sweep 30 100]) = some s ∧
      s.stateOf "op" = some .degraded ∧ (s.sweepLiveness 30 110).stateOf "op" = some .running ∧
      s.events.map (fun e => (e.eventType.beats, e.createdAt))
        = [(true, 0), (false, 1), (false, 100)] := ⟨_, rfl, rfl, rfl, rfl⟩
  obtain ⟨s, hs, hbefore, hafter, hevents⟩ := hrun
  have hdead : ¬ s.Alive "op" 30 110 := by
    rintro ⟨e, hmem, -, hbeat, hfresh⟩
    have hin : (e.eventType.beats, e.createdAt) ∈ [(true, (0 : Int)), (false, 1), (false, 100)] :=
      hevents ▸ List.mem_map.mpr ⟨e, hmem, rfl⟩
    rw [hbeat] at hin
    simp only [List.mem_cons, Prod.mk.injEq, true_and, Bool.true_eq_false, false_and, or_false,
      List.not_mem_nil] at hin
    omega
  refine ⟨s, .of_run ⟨"operations", rfl⟩ hs, hbefore, hafter, hdead, ?_⟩
  intro hreports
  obtain ⟨r, hrow, hst⟩ := Option.map_eq_some_iff.mp hafter
  exact hdead (hreports "op" r hrow hst).1

end Rosclaw.Operations
