/-
A cancelled operation and its process.

`start` writes the row, awaits the spawn, and only then keeps the handle of the process;
`cancel` looks for the handle once.

* `Exposed` — its process is still to come, or something of it runs on without a signal;
* `Safe` — never both, and a process that was not signalled is within reach of `cancel`;
* `safe_step` — so it stays as long as no operation is cancelled while it is being spawned or
  while its command runs;
* `cancelled_signalled` — the process of a cancelled operation was signalled;
* `cancelled_while_spawning` — what runs on under a cancelled operation.
-/
import Rosclaw.TaskKernel.OperationRecovery

namespace Rosclaw.Operations

open List

variable {s s' s'' : Manager} {op op' : PyStr} {now : Int} {r : Operation}

def Thread.spawns (op : PyStr) : Thread → Bool
  | .spawning d _ => d.operationId = op
  | _ => false

def Thread.asks (op : PyStr) : Thread → Bool
  | .cancelling op' _ | .grace op' _ => op' = op
  | _ => false

def OperationState.marked : OperationState → Bool
  | .canceling | .cancelled => true
  | _ => false

variable {f : Manager → PyStr × Operation → Manager} {i : Nat} {o : Outcome} {p q : Process}
  {st : OperationState} {t : Thread} {ts : List Thread}

theorem swept_not_marked (h : st.swept = true) : st.marked = false := by
  cases st <;> first | rfl | cases h

theorem outcome_not_marked (h : o ≠ .cancelled) : o.state.marked = false := by
  cases o <;> first | rfl | exact absurd rfl h

/-- The shell was not signalled, or its command, which never is, runs. -/
def Process.Loose (p : Process) : Prop := p.signalled = false ∨ p.command = .running

/-- The process of the operation is still to come, or is there and loose. -/
def Exposed (op : PyStr) (s : Manager) : Prop :=
  (∃ t ∈ s.threads, t.spawns op = true) ∨ ∃ p, s.processes.get? op = some p ∧ p.Loose

/-- The operation is or was being cancelled, or something is there that may write so. -/
def Claimed (op : PyStr) (s : Manager) : Prop :=
  (∃ st, s.stateOf op = some st ∧ st.marked = true) ∨ (∃ t ∈ s.threads, t.asks op = true) ∨
    op ∈ s.listeners ∨ s.actions.contains op = true

/-- The invariant of one operation. -/
structure Safe (op : PyStr) (s : Manager) : Prop where
  exclusive : Exposed op s → ¬ Claimed op s
  present : Exposed op s ∨ Claimed op s → ∃ st, s.stateOf op = some st
  handled : ∀ p, s.processes.get? op = some p → p.signalled = false →
    ((∃ st, s.stateOf op = some st ∧ st.terminal = true) ∨ s.procs.contains op = true) ∧
      (p.running = true → p.returncode = none)

/-! ### Steps that expose nothing -/

/-- No spawn and no loose process came up. -/
structure Still (op : PyStr) (s s' : Manager) : Prop where
  onward : Onward op s s'
  spawns : ∀ t ∈ s'.threads, t.spawns op = true → t ∈ s.threads
  process : ∀ p', s'.processes.get? op = some p' → p'.signalled = false →
    ∃ p, s.processes.get? op = some p ∧ p.signalled = false ∧
      (p'.running = true → p.running = true ∧ p'.returncode = p.returncode)
  command : ∀ p', s'.processes.get? op = some p' → p'.command = .running →
    ∃ p, s.processes.get? op = some p ∧ p.Loose

/-- And no cancellation either; a handle goes only with the end of the operation. -/
structure Calm (op : PyStr) (s s' : Manager) : Prop extends Still op s s' where
  marked : ∀ st', s'.stateOf op = some st' → st'.marked = true →
    ∃ st, s.stateOf op = some st ∧ st.marked = true
  asks : ∀ t ∈ s'.threads, t.asks op = true → t ∈ s.threads
  listeners : op ∈ s'.listeners → op ∈ s.listeners
  actions : s'.actions.contains op = true → s.actions.contains op = true
  procs : s.procs.contains op = true → (∃ st, s.stateOf op = some st) →
    s'.procs.contains op = true ∨
      ∃ st, s'.stateOf op = some st ∧ (st.terminal = true ∨ st = .canceling)

theorem Still.loose (h : Still op s s') (hp : s'.processes.get? op = some p) (hloose : p.Loose) :
    ∃ p, s.processes.get? op = some p ∧ p.Loose := by
  rcases hloose with hsig | hcommand
  · obtain ⟨p', hp', hsig', -⟩ := h.process p hp hsig
    exact ⟨p', hp', .inl hsig'⟩
  · exact h.command p hp hcommand

theorem Still.exposed (h : Still op s s') (he : Exposed op s') : Exposed op s := by
  rcases he with ⟨t, ht, hspawns⟩ | ⟨p', hp', hloose⟩
  · exact .inl ⟨t, h.spawns t ht hspawns, hspawns⟩
  · exact .inr (h.loose hp' hloose)

/-- A step that leaves the processes and spawns nothing. -/
theorem Still.of_processes (honward : Onward op s s')
    (hspawns : ∀ t ∈ s'.threads, t.spawns op = true → t ∈ s.threads)
    (h : s'.processes.get? op = s.processes.get? op) : Still op s s' := by
  refine ⟨honward, hspawns, ?_, ?_⟩
  · intro p hp hsig
    exact ⟨p, h ▸ hp, hsig, fun hrun => ⟨hrun, rfl⟩⟩
  · intro p hp hcommand
    exact ⟨p, h ▸ hp, .inr hcommand⟩

theorem Calm.claimed (h : Calm op s s') (hc : Claimed op s') : Claimed op s := by
  rcases hc with ⟨st, hst, hmarked⟩ | ⟨t, ht, hasks⟩ | hlistener | haction
  · exact .inl (h.marked st hst hmarked)
  · exact .inr (.inl ⟨t, h.asks t ht hasks, hasks⟩)
  · exact .inr (.inr (.inl (h.listeners hlistener)))
  · exact .inr (.inr (.inr (h.actions haction)))

theorem present_onward (h : Onward op s s') (hs : ∃ st, s.stateOf op = some st) :
    ∃ st, s'.stateOf op = some st := by
  obtain ⟨st, hst⟩ := hs
  obtain ⟨st', hst', -⟩ := h st hst
  exact ⟨st', hst'⟩

theorem Safe.calm (hs : Safe op s) (h : Calm op s s') : Safe op s' := by
  refine ⟨?_, ?_, ?_⟩
  · intro he hc
    exact hs.exclusive (h.exposed he) (h.claimed hc)
  · intro hboth
    refine present_onward h.onward (hs.present ?_)
    exact hboth.imp h.exposed h.claimed
  · intro p' hp' hsig
    obtain ⟨p, hp, hsig', hrun⟩ := h.process p' hp' hsig
    have hexposed : Exposed op s := .inr ⟨p, hp, .inl hsig'⟩
    obtain ⟨hreach, hcode⟩ := hs.handled p hp hsig'
    refine ⟨?_, ?_⟩
    · rcases hreach with ⟨st, hst, hterminal⟩ | hproc
      · obtain ⟨st', hst', hsame, -⟩ := h.onward st hst
        obtain rfl := hsame hterminal
        exact .inl ⟨st', hst', hterminal⟩
      · rcases h.procs hproc (hs.present (.inl hexposed)) with hproc' | ⟨st, hst, hterminal | rfl⟩
        · exact .inr hproc'
        · exact .inl ⟨st, hst, hterminal⟩
        · exact absurd (h.claimed (.inl ⟨_, hst, rfl⟩)) (hs.exclusive hexposed)
    · intro hrunning
      obtain ⟨hrunning', hsame⟩ := hrun hrunning
      rw [hsame]
      exact hcode hrunning'

theorem Safe.still (hs : Safe op s) (hc : Claimed op s) (h : Still op s s') : Safe op s' := by
  have hnot : ¬ Exposed op s' := fun he => hs.exclusive (h.exposed he) hc
  refine ⟨fun he => absurd he hnot, ?_, ?_⟩
  · intro _
    exact present_onward h.onward (hs.present (.inr hc))
  · intro p' hp' hsig
    exact absurd (.inr ⟨p', hp', .inl hsig⟩) hnot

/-! ### Writes into the tables -/

/-- Only the tables changed, and the operation was not marked. -/
structure Quiet (op : PyStr) (s s' : Manager) : Prop where
  onward : Onward op s s'
  marked : ∀ st', s'.stateOf op = some st' → st'.marked = true →
    ∃ st, s.stateOf op = some st ∧ st.marked = true
  threads : s'.threads = s.threads
  processes : s'.processes = s.processes
  listeners : s'.listeners = s.listeners
  actions : s'.actions = s.actions
  procs : s'.procs = s.procs

theorem Quiet.refl (op : PyStr) (s : Manager) : Quiet op s s :=
  ⟨Onward.refl op s, fun st hst hm => ⟨st, hst, hm⟩, rfl, rfl, rfl, rfl, rfl⟩

theorem Quiet.trans (h : Quiet op s s') (h' : Quiet op s' s'') : Quiet op s s'' := by
  refine ⟨h.onward.trans h'.onward, ?_, h'.threads.trans h.threads, h'.processes.trans h.processes,
    h'.listeners.trans h.listeners, h'.actions.trans h.actions, h'.procs.trans h.procs⟩
  intro st' hst' hm
  obtain ⟨st, hst, hm'⟩ := h'.marked st' hst' hm
  exact h.marked st hst hm'

theorem Quiet.still (h : Quiet op s s') : Still op s s' := by
  refine .of_processes h.onward ?_ (by rw [h.processes])
  intro t ht _
  rwa [h.threads] at ht

theorem Quiet.calm (h : Quiet op s s') : Calm op s s' := by
  refine ⟨h.still, h.marked, ?_, ?_, ?_, ?_⟩
  · intro t ht _
    rwa [h.threads] at ht
  · intro hl
    rwa [h.listeners] at hl
  · intro ha
    rwa [h.actions] at ha
  · intro hp _
    rw [h.procs]
    exact .inl hp

/-- What a write to the table leaves as it is. -/
structure SameMemory (s s' : Manager) : Prop where
  threads : s'.threads = s.threads
  processes : s'.processes = s.processes
  listeners : s'.listeners = s.listeners
  actions : s'.actions = s.actions
  procs : s'.procs = s.procs

theorem SameMemory.refl (s : Manager) : SameMemory s s := ⟨rfl, rfl, rfl, rfl, rfl⟩

theorem sameMemory_transition (s : Manager) (op : PyStr) (st : OperationState)
    (ev : Option EventType) (payload : List (PyStr × PyVal)) (now : Int) :
    SameMemory s (s.transition op st ev payload now) := by
  unfold Manager.transition
  split
  · exact SameMemory.refl s
  · split
    · exact SameMemory.refl s
    · split <;> exact ⟨rfl, rfl, rfl, rfl, rfl⟩

theorem sameMemory_writeTerminal (s : Manager) (op : PyStr) (o : Outcome) (code ref : PyStr) (now : Int) :
    SameMemory s (s.writeTerminal op o code ref now) := by
  unfold Manager.writeTerminal
  split
  · exact SameMemory.refl s
  · split
    · exact SameMemory.refl s
    · split
      · exact SameMemory.refl s
      · exact ⟨rfl, rfl, rfl, rfl, rfl⟩

theorem Quiet.of_states (hm : SameMemory s s') (honward : Onward op s s')
    (hmarked : ∀ st', s'.stateOf op = some st' → st'.marked = true →
      ∃ st, s.stateOf op = some st ∧ st.marked = true) : Quiet op s s' :=
  ⟨honward, hmarked, hm.threads, hm.processes, hm.listeners, hm.actions, hm.procs⟩

theorem Quiet.of_same (hm : SameMemory s s') (h : s'.stateOf op = s.stateOf op) : Quiet op s s' := by
  refine .of_states hm ?_ ?_
  · intro st hst
    exact ⟨st, h.trans hst, fun _ => rfl, fun hc => .inl hc⟩
  · intro st' hst' hmarked
    exact ⟨st', h.symm.trans hst', hmarked⟩

theorem quiet_emit (s : Manager) (taskId : PyStr) (ev : EventType) (payload : List (PyStr × PyVal))
    (op' attemptId : PyStr) (now : Int) : Quiet op s (s.emit taskId ev payload op' attemptId now) :=
  .of_same ⟨rfl, rfl, rfl, rfl, rfl⟩ rfl

theorem quiet_update (s : Manager) (op' : PyStr) {f : Operation → Operation}
    (hf : ∀ r, (f r).state = r.state) : Quiet op s (s.update op' f) := by
  refine .of_same ⟨rfl, rfl, rfl, rfl, rfl⟩ ?_
  rw [stateOf_update, Manager.stateOf]
  refine Option.map_congr ?_
  intro r _
  split
  · exact hf r
  · rfl

theorem quiet_touch (s : Manager) (op' : PyStr) (now : Int) : Quiet op s (s.touch op' now) := by
  unfold Manager.touch
  split
  · exact .refl op s
  · split
    · exact .refl op s
    · exact quiet_update s op' (by intro r; rfl)

theorem stateOf_congr (h : s'.operations.get? op = s.operations.get? op) :
    s'.stateOf op = s.stateOf op := by
  rw [Manager.stateOf, Manager.stateOf, h]

theorem quiet_transition (s : Manager) (op' : PyStr) (hst : st.swept = true) {ev : Option EventType}
    (hev : ∀ e, ev = some e → e.terminal = false) (payload : List (PyStr × PyVal)) (now : Int) :
    Quiet op s (s.transition op' st ev payload now) := by
  have hterminal := (swept_not_terminal hst).1
  refine .of_states (sameMemory_transition _ _ _ _ _ _)
    ((progress_transition s op' hterminal hev payload now).onward op) ?_
  intro st' hst' hmarked
  by_cases hop : op = op'
  · subst hop
    rcases hrow : s.operations.get? op with _ | r
    · have hsame : s.transition op st ev payload now = s := by
        unfold Manager.transition
        rw [hrow]
      rw [hsame] at hst'
      exact ⟨st', hst', hmarked⟩
    · by_cases hswept : r.state.swept = true
      · obtain ⟨r', hr', hstate, -⟩ := transition_written st hrow hswept ev payload now
        rw [Manager.stateOf, hr'] at hst'
        have heq : r'.state = st' := Option.some.inj hst'
        rw [← heq, hstate, swept_not_marked hst] at hmarked
        cases hmarked
      · have hne : st ≠ .cancelled := by
          rintro rfl
          cases hst
        rw [transition_refused hrow (by simpa using hswept) hne] at hst'
        exact ⟨st', hst', hmarked⟩
  · rw [stateOf_congr (get?_transition_of_ne st ev payload now hop)] at hst'
    exact ⟨st', hst', hmarked⟩

theorem quiet_writeTerminal (s : Manager) (op' : PyStr) (ho : op = op' → o ≠ .cancelled)
    (code ref : PyStr) (now : Int) : Quiet op s (s.writeTerminal op' o code ref now) := by
  refine .of_states (sameMemory_writeTerminal _ _ _ _ _ _)
    ((progress_writeTerminal s op' o code ref now).onward op) ?_
  intro st' hst' hmarked
  by_cases hop : op = op'
  · have hne := ho hop
    subst hop
    rcases hrow : s.operations.get? op with _ | r
    · have hsame : s.writeTerminal op o code ref now = s := by
        unfold Manager.writeTerminal
        rw [hrow]
      rw [hsame] at hst'
      exact ⟨st', hst', hmarked⟩
    · by_cases hswept : r.state.swept = true
      · obtain ⟨r', hr', hstate, -⟩ := writeTerminal_written (o := o) hrow hswept code ref now
        rw [Manager.stateOf, hr'] at hst'
        have heq : r'.state = st' := Option.some.inj hst'
        rw [← heq, hstate, outcome_not_marked hne] at hmarked
        cases hmarked
      · rw [writeTerminal_refused hrow (by simpa using hswept) hne] at hst'
        exact ⟨st', hst', hmarked⟩
  · rw [stateOf_congr (get?_writeTerminal_of_ne o code ref now hop)] at hst'
    exact ⟨st', hst', hmarked⟩

theorem quiet_foldl (hf : ∀ s e, Quiet op s (f s e)) (es : List (PyStr × Operation)) (s : Manager) :
    Quiet op s (es.foldl f s) := by
  induction es generalizing s with
  | nil => exact .refl op s
  | cons e es ih => exact (hf s e).trans (ih (f s e))

theorem quiet_sweepRow (staleAfter now : Int) (s : Manager) (e : PyStr × Operation) :
    Quiet op s (s.sweepRow staleAfter now e) := by
  unfold Manager.sweepRow
  split
  · split
    · refine quiet_transition _ _ rfl ?_ _ _
      intro ev hev
      rw [← Option.some.inj hev]
      rfl
    · exact .refl op s
  · split
    · refine quiet_transition _ _ rfl ?_ _ _
      intro ev hev
      rw [← Option.some.inj hev]
      rfl
    · exact .refl op s

theorem quiet_reportProgress (s : Manager) (op' : PyStr) (progress : PyVal) (now : Int) :
    Quiet op s (s.reportProgress op' progress now) := by
  unfold Manager.reportProgress
  split
  · exact .refl op s
  · split
    · exact .refl op s
    · exact (quiet_touch _ _ _).trans ((quiet_update _ _ (by intro r; rfl)).trans (quiet_emit _ _ _ _ _ _ _))

theorem quiet_watchEnd (s : Manager) (op' path : PyStr) (now : Int) :
    Quiet op s (s.watchEnd op' path now) := by
  rcases hrow : s.operations.get? op' with _ | r
  · unfold Manager.watchEnd
    rw [hrow]
    exact .refl op s
  · rcases watchEnd_eq path hrow now with ⟨-, hsame⟩ | ⟨-, code, hwrite⟩
    · rw [hsame]
      exact .refl op s
    · rw [hwrite]
      exact quiet_writeTerminal _ _ (fun _ => verdict_ne_cancelled s path) _ _ _

/-! ### Calm segments -/

theorem Still.trans (h : Still op s s') (h' : Still op s' s'') : Still op s s'' := by
  refine ⟨h.onward.trans h'.onward, ?_, ?_, ?_⟩
  · intro t ht hspawns
    exact h.spawns t (h'.spawns t ht hspawns) hspawns
  · intro p'' hp'' hsig
    obtain ⟨p', hp', hsig', hrun'⟩ := h'.process p'' hp'' hsig
    obtain ⟨p, hp, hsig₀, hrun⟩ := h.process p' hp' hsig'
    refine ⟨p, hp, hsig₀, ?_⟩
    intro hrunning
    obtain ⟨hrunning', hsame'⟩ := hrun' hrunning
    obtain ⟨hrunning₀, hsame⟩ := hrun hrunning'
    exact ⟨hrunning₀, hsame'.trans hsame⟩
  · intro p'' hp'' hcommand
    obtain ⟨p', hp', hloose⟩ := h'.command p'' hp'' hcommand
    exact h.loose hp' hloose

theorem Calm.trans (h : Calm op s s') (h' : Calm op s' s'') : Calm op s s'' := by
  refine ⟨h.toStill.trans h'.toStill, ?_, ?_, ?_, ?_, ?_⟩
  · intro st'' hst'' hm
    obtain ⟨st', hst', hm'⟩ := h'.marked st'' hst'' hm
    exact h.marked st' hst' hm'
  · intro t ht hasks
    exact h.asks t (h'.asks t ht hasks) hasks
  · intro hl
    exact h.listeners (h'.listeners hl)
  · intro ha
    exact h.actions (h'.actions ha)
  · intro hp hpresent
    rcases h.procs hp hpresent with hp' | ⟨st, hst, hend⟩
    · exact h'.procs hp' (present_onward h.onward hpresent)
    · right
      obtain ⟨st', hst', hterminal, hcanceling⟩ := h'.onward st hst
      refine ⟨st', hst', ?_⟩
      rcases hend with ht | hc
      · rw [hterminal ht]
        exact .inl ht
      · rcases hcanceling hc with rfl | rfl
        · exact .inr rfl
        · exact .inl rfl

theorem Still.placed (h : Still op s s') (hts : ∀ t ∈ ts, t ∈ s.threads ∨ t.spawns op = false) :
    Still op s { s' with threads := ts } := by
  refine ⟨h.onward, ?_, h.process, h.command⟩
  intro t ht hspawns
  refine (hts t ht).resolve_right ?_
  rw [hspawns]
  simp

theorem Calm.placed (h : Calm op s s')
    (hts : ∀ t ∈ ts, t ∈ s.threads ∨ t.spawns op = false ∧ t.asks op = false) :
    Calm op s { s' with threads := ts } := by
  refine ⟨h.toStill.placed fun t ht => (hts t ht).imp_right And.left, h.marked, ?_, h.listeners,
    h.actions, h.procs⟩
  intro t ht hasks
  refine (hts t ht).resolve_right ?_
  rw [hasks]
  simp

theorem calm_spawnThread (s : Manager) (hspawns : t.spawns op = false) (hasks : t.asks op = false) :
    Calm op s (s.spawnThread t) := by
  refine (Quiet.refl op s).calm.placed ?_
  intro t' ht'
  rcases mem_append.mp ht' with ht' | ht'
  · exact .inl ht'
  · rw [mem_singleton.mp ht']
    exact .inr ⟨hspawns, hasks⟩

theorem still_signal (s : Manager) (op' : PyStr) : Still op s (s.signal op') := by
  have hget : (s.signal op').processes.get? op = (s.processes.get? op).map fun p =>
      if op = op' ∧ p.running then { p with signalled := true } else p := Dict.get?_mapVals _ _ _
  refine ⟨(progress_signal s op').onward op, fun t ht _ => ht, ?_, ?_⟩
  · intro p' hp' hsig
    rw [hget] at hp'
    obtain ⟨p, hp, rfl⟩ := Option.map_eq_some_iff.mp hp'
    refine ⟨p, hp, ?_⟩
    split at hsig
    · cases hsig
    · next hno =>
      rw [if_neg hno]
      exact ⟨hsig, fun hrun => ⟨hrun, rfl⟩⟩
  · intro p' hp' hcommand
    rw [hget] at hp'
    obtain ⟨p, hp, rfl⟩ := Option.map_eq_some_iff.mp hp'
    refine ⟨p, hp, .inr ?_⟩
    split at hcommand <;> exact hcommand

theorem calm_signal (s : Manager) (op' : PyStr) : Calm op s (s.signal op') :=
  ⟨still_signal s op', fun st hst hm => ⟨st, hst, hm⟩, fun _ ht _ => ht, id, id, fun hp _ => .inl hp⟩

theorem contains_erase_of_ne {d : Dict PyStr Nat} (h : op ≠ op') :
    (d.erase op').contains op = d.contains op := by
  rw [Dict.contains, Dict.contains, Dict.get?_erase, if_neg (Ne.symm h)]

theorem calm_popHandle (s : Manager) (h : op ≠ op') : Calm op s (s.popHandle op') := by
  refine ⟨.of_processes ((progress_popHandle s op').onward op) (fun _ ht _ => ht) rfl,
    fun st hst hm => ⟨st, hst, hm⟩, fun _ ht _ => ht, id, id, ?_⟩
  intro hp _
  left
  show (s.procs.erase op').contains op = true
  rw [contains_erase_of_ne h]
  exact hp

theorem calm_of_popHandle (h : Quiet op (s.popHandle op) s')
    (hend : (∃ st, s.stateOf op = some st) →
      ∃ st, s'.stateOf op = some st ∧ (st.terminal = true ∨ st = .canceling)) : Calm op s s' := by
  have hcalm := h.calm
  exact ⟨⟨h.onward, hcalm.spawns, hcalm.process, hcalm.command⟩, h.marked, hcalm.asks, hcalm.listeners,
    hcalm.actions, fun _ hpresent => .inr (hend hpresent)⟩

theorem ofCode_ne_cancelled (code : Int) : Outcome.ofCode code ≠ .cancelled := by
  unfold Outcome.ofCode
  split <;> simp

theorem stateOf_of_row (hrow : s.operations.get? op = some r) : s.stateOf op = some r.state := by
  rw [Manager.stateOf, hrow]
  rfl

/-- The end of a driver takes the handle, and ends the operation unless that is being
cancelled. -/
theorem calm_driverExit (s : Manager) (op' : PyStr) (rc now : Int) :
    Calm op s (s.driverExit op' rc now) := by
  by_cases hop : op = op'
  · subst hop
    rcases hrow : s.operations.get? op with _ | r
    · have heq : s.driverExit op rc now = s.popHandle op := by
        unfold Manager.driverExit
        rw [hrow]
      rw [heq]
      refine calm_of_popHandle (.refl op _) ?_
      rintro ⟨st, hst⟩
      rw [Manager.stateOf, hrow] at hst
      cases hst
    · have hrow' : (s.popHandle op).operations.get? op = some r := hrow
      by_cases hmarked : r.state = .canceling ∨ r.state = .cancelled
      · have heq : s.driverExit op rc now = s.popHandle op := by
          unfold Manager.driverExit
          rw [hrow]
          simp only [hmarked, if_true]
        rw [heq]
        refine calm_of_popHandle (.refl op _) fun _ => ⟨r.state, stateOf_of_row hrow', ?_⟩
        rcases hmarked with hc | hc
        · exact .inr hc
        · rw [hc]
          exact .inl rfl
      · let code := (s.readExitcode r.exitcodePath).getD rc
        have heq : s.driverExit op rc now
            = (s.popHandle op).writeTerminal op (.ofCode code) (exitFailure code) "" now := by
          unfold Manager.driverExit
          rw [hrow]
          simp only [hmarked, if_false]
          rfl
        rw [heq]
        refine calm_of_popHandle (quiet_writeTerminal _ _ (fun _ => ofCode_ne_cancelled code) _ _ _) ?_
        intro _
        by_cases hswept : r.state.swept = true
        · obtain ⟨r', hr', hstate, -⟩ :=
            writeTerminal_written (o := .ofCode code) hrow' hswept (exitFailure code) "" now
          refine ⟨r'.state, stateOf_of_row hr', .inl ?_⟩
          rw [hstate, Outcome.state_terminal]
        · have hnot : r.state.swept = false := by simpa using hswept
          rw [writeTerminal_refused hrow' hnot (ofCode_ne_cancelled code)]
          exact ⟨r.state, stateOf_of_row hrow', not_swept hnot⟩
  · unfold Manager.driverExit
    split
    · exact calm_popHandle s hop
    · split
      · exact calm_popHandle s hop
      · exact (calm_popHandle s hop).trans
          (quiet_writeTerminal _ _ (fun _ => ofCode_ne_cancelled _) _ _ _).calm

theorem calm_recoverRow (alive : Nat → Bool) (now : Int) (s : Manager) (e : PyStr × Operation) :
    Calm op s (s.recoverRow alive now e) := by
  unfold Manager.recoverRow
  split
  · exact (quiet_writeTerminal _ _ (fun _ => ofCode_ne_cancelled _) _ _ _).calm
  · split
    · have hquiet : Quiet op s
          (s.transition e.1 .degraded (some .reattached) [("pid", .int e.2.pid)] now) := by
        refine quiet_transition _ _ rfl ?_ _ _
        intro ev hev
        rw [← Option.some.inj hev]
        rfl
      exact hquiet.calm.trans (calm_spawnThread _ rfl rfl)
    · exact (quiet_writeTerminal _ _ (by simp) _ _ _).calm

theorem calm_foldl (hf : ∀ s e, Calm op s (f s e)) (es : List (PyStr × Operation)) (s : Manager) :
    Calm op s (es.foldl f s) := by
  induction es generalizing s with
  | nil => exact (Quiet.refl op s).calm
  | cons e es ih => exact (hf s e).trans (ih (f s e))

/-! ### The turns of the coroutines -/

theorem Calm.turned (h : Calm op s s') (i : Nat)
    (hts : ∀ t ∈ ts, t.spawns op = false ∧ t.asks op = false) :
    Calm op s { s' with threads := replaceAt s.threads i ts } :=
  h.placed fun t ht => (mem_replaceAt ht).symm.imp_right (hts t)

theorem calm_admitted (s : Manager) (h : op ≠ op') (argv : List PyStr) (pid : Nat) (now : Int) :
    Calm op s (s.admitted op' argv pid now) := by
  have hspawned : Calm op s (s.processSpawned op' pid) := by
    refine ⟨.of_processes ((progress_processSpawned s op' pid).onward op) (fun _ ht _ => ht)
      (Dict.get?_set_of_ne _ _ (Ne.symm h)), fun st hst hm => ⟨st, hst, hm⟩, fun _ ht _ => ht, id,
      id, ?_⟩
    intro hp _
    left
    show ((s.procs.set op' pid).get? op).isSome = true
    rw [Dict.get?_set_of_ne _ _ (Ne.symm h)]
    exact hp
  refine hspawned.trans ((quiet_transition _ _ rfl ?_ _ _).trans
    (quiet_update _ _ (by intro r; rfl))).calm
  intro ev hev
  rw [← Option.some.inj hev]
  rfl

theorem safe_admitted (hs : Safe op s) {d : Driver} {argv : List PyStr}
    (hi : s.threads[i]? = some (.spawning d argv)) (hop : d.operationId = op) (pid : Nat)
    (now : Int) :
    Safe op { s.admitted op argv pid now with threads := replaceAt s.threads i [.entering d] } := by
  have hexposed : Exposed op s := by
    refine .inl ⟨_, mem_of_getElem? hi, ?_⟩
    simp [Thread.spawns, hop]
  have hquiet : Quiet op (s.processSpawned op pid) (s.admitted op argv pid now) := by
    refine (quiet_transition _ _ rfl ?_ _ _).trans (quiet_update _ _ (by intro r; rfl))
    intro ev hev
    rw [← Option.some.inj hev]
    rfl
  have hnot : ¬ Claimed op { s.admitted op argv pid now with
      threads := replaceAt s.threads i [.entering d] } := by
    intro hc
    refine hs.exclusive hexposed ?_
    rcases hc with ⟨st, hst, hm⟩ | ⟨t, ht, hasks⟩ | hlistener | haction
    · exact .inl (hquiet.marked st hst hm)
    · refine .inr (.inl ⟨t, (mem_replaceAt ht).resolve_left ?_, hasks⟩)
      intro hmem
      rw [mem_singleton.mp hmem] at hasks
      cases hasks
    · refine .inr (.inr (.inl ?_))
      rw [show _ = s.listeners from hquiet.listeners] at hlistener
      exact hlistener
    · refine .inr (.inr (.inr ?_))
      rw [show _ = s.actions from hquiet.actions] at haction
      exact haction
  refine ⟨fun _ => hnot, ?_, ?_⟩
  · intro _
    exact present_onward hquiet.onward (hs.present (.inl hexposed))
  · intro p hp hsig
    have hget : (s.processes.set op ⟨pid, true, none, false, .pending⟩).get? op = some p := by
      rw [← hp]
      exact congrArg (fun d => d.get? op) hquiet.processes.symm
    rw [Dict.get?_set_self] at hget
    refine ⟨.inr ?_, ?_⟩
    · show (s.admitted op argv pid now).procs.contains op = true
      rw [hquiet.procs]
      show ((s.procs.set op pid).get? op).isSome = true
      rw [Dict.get?_set_self]
      rfl
    · intro _
      rw [← Option.some.inj hget]

theorem safe_turn (hs : Safe op s) {a : Answer} (h : s.turn i a now = some s') : Safe op s' := by
  obtain ⟨t, x, hi, hresume, rfl⟩ := turn_eq h
  -- a coroutine that will write `CANCELLED` for this operation claims it
  have hclaimed : t.asks op = true → Claimed op s :=
    fun hasks => .inr (.inl ⟨t, mem_of_getElem? hi, hasks⟩)
  have hcancelled : ∀ (op' reason : PyStr) (s₁ : Manager), Calm op s s₁ →
      (op = op' → t.asks op = true) →
      Safe op { s₁.writeTerminal op' .cancelled reason "" now with
        threads := replaceAt s.threads i [] } := by
    intro op' reason s₁ hcalm hasks
    by_cases hop : op = op'
    · have hprogress := (progress_writeTerminal s₁ op' .cancelled reason "" now).onward op
      have hmemory := sameMemory_writeTerminal s₁ op' .cancelled reason "" now
      have hstill : Still op s₁ (s₁.writeTerminal op' .cancelled reason "" now) := by
        refine .of_processes hprogress ?_ (by rw [hmemory.processes])
        intro t' ht' _
        rwa [hmemory.threads] at ht'
      refine hs.still (hclaimed (hasks hop)) ((hcalm.toStill.trans hstill).placed ?_)
      intro t' ht'
      exact .inl ((mem_replaceAt ht').resolve_left (by simp))
    · exact hs.calm ((hcalm.trans (quiet_writeTerminal _ _ (fun heq => absurd heq hop) _ _ _).calm).turned
        i (by simp))
  unfold Manager.resume at hresume
  split at hresume
  · next d argv pid =>
    cases hresume
    by_cases hop : op = d.operationId
    · subst hop
      exact safe_admitted hs hi rfl pid now
    · refine hs.calm ((calm_admitted s hop argv pid now).turned i ?_)
      simp [Thread.spawns, Thread.asks]
  · cases hresume
    exact hs.calm ((Quiet.refl op s).calm.turned i (by simp))
  · next d =>
    cases hresume
    have hquiet : Quiet op s (s.transition d.operationId .running none [] now) := by
      refine quiet_transition _ _ rfl ?_ _ _
      intro ev hev
      cases hev
    exact hs.calm (hquiet.calm.turned i (by simp [Thread.spawns, Thread.asks]))
  · cases hresume
    exact hs.calm (((quiet_touch _ _ _).trans (quiet_emit _ _ _ _ _ _ _)).calm.turned i
      (by simp [Thread.spawns, Thread.asks]))
  · cases hresume
    exact hs.calm ((Quiet.refl op s).calm.turned i (by simp [Thread.spawns, Thread.asks]))
  · cases hresume
    exact hs.calm ((quiet_emit _ _ _ _ _ _ _).calm.turned i (by simp [Thread.spawns, Thread.asks]))
  · next d =>
    obtain ⟨rc, -, rfl⟩ := Option.map_eq_some_iff.mp hresume
    exact hs.calm ((calm_driverExit s d.operationId rc now).turned i (by simp))
  · next op' reason =>
    obtain ⟨rc, -, rfl⟩ := Option.map_eq_some_iff.mp hresume
    refine hcancelled op' reason s (Quiet.refl op s).calm ?_
    rintro rfl
    simp [Thread.asks]
  · next op' reason =>
    cases hresume
    refine hcancelled op' reason (s.signal op') (calm_signal s op') ?_
    rintro rfl
    simp [Thread.asks]
  · next op' reason =>
    cases hresume
    refine hcancelled op' reason s (Quiet.refl op s).calm ?_
    rintro rfl
    simp [Thread.asks]
  · split at hresume
    · cases hresume
      exact hs.calm ((Quiet.refl op s).calm.turned i (by simp [Thread.spawns, Thread.asks]))
    · cases hresume
      exact hs.calm ((quiet_watchEnd _ _ _ _).calm.turned i (by simp))
  · cases hresume

/-! ### Starting -/

theorem stateOf_enqueue (s : Manager) (op op' : PyStr) (row : Operation)
    (payload : List (PyStr × PyVal)) (now : Int) :
    (s.enqueue op row payload now).stateOf op' = if op = op' then some row.state else s.stateOf op' := by
  show ((s.operations.set op row).get? op').map Operation.state = _
  rw [Dict.get?_set]
  split <;> rfl

theorem quiet_enqueue (s : Manager) (h : op ≠ op') (row : Operation)
    (payload : List (PyStr × PyVal)) (now : Int) : Quiet op s (s.enqueue op' row payload now) := by
  refine .of_same ⟨rfl, rfl, rfl, rfl, rfl⟩ ?_
  rw [stateOf_enqueue, if_neg (Ne.symm h)]

theorem absent_of_new (h : ¬ s.operations.contains op = true) : s.stateOf op = none := by
  rw [Manager.stateOf, not_contains h]
  rfl

theorem Safe.absent (hs : Safe op s) (h : s.stateOf op = none) : ¬ Exposed op s ∧ ¬ Claimed op s := by
  refine ⟨?_, ?_⟩
  · intro he
    obtain ⟨st, hst⟩ := hs.present (.inl he)
    rw [h] at hst
    cases hst
  · intro hc
    obtain ⟨st, hst⟩ := hs.present (.inr hc)
    rw [h] at hst
    cases hst

theorem safe_start (hs : Safe op s) {a : Manager.StartArgs} (h : s.start op' a now = some s') :
    Safe op s' := by
  unfold Manager.start at h
  split at h
  · cases h
  · next hnew =>
    cases h
    by_cases hop : op = op'
    · subst hop
      obtain ⟨hexposed, hclaimed⟩ := hs.absent (absent_of_new hnew)
      have hqueued : (s.enqueue op (a.row s.directory op now) [] now).stateOf op = some .queued :=
        (stateOf_enqueue s op op _ [] now).trans (if_pos rfl)
      refine ⟨fun _ => ?_, ?_, ?_⟩
      · rintro (⟨st, hst, hm⟩ | ⟨t, ht, hasks⟩ | hlistener | haction)
        · have heq : OperationState.queued = st := Option.some.inj (hqueued.symm.trans hst)
          rw [← heq] at hm
          cases hm
        · rcases mem_append.mp ht with ht | ht
          · exact hclaimed (.inr (.inl ⟨t, ht, hasks⟩))
          · rw [mem_singleton.mp ht] at hasks
            cases hasks
        · exact hclaimed (.inr (.inr (.inl hlistener)))
        · exact hclaimed (.inr (.inr (.inr haction)))
      · intro _
        exact ⟨.queued, hqueued⟩
      · intro p hp hsig
        exact absurd (.inr ⟨p, hp, .inl hsig⟩) hexposed
    · have hne : ¬ op' = op := fun heq => hop heq.symm
      exact hs.calm ((quiet_enqueue s hop _ _ now).calm.trans
        (calm_spawnThread _ (by simp [Thread.spawns, hne]) rfl))

theorem calm_goalSent (s : Manager) (h : op ≠ op') (goalId : PyStr) :
    Calm op s (s.goalSent op' goalId) := by
  refine ⟨.of_processes ((progress_goalSent s op' goalId).onward op) (fun _ ht _ => ht) rfl,
    fun st hst hm => ⟨st, hst, hm⟩, fun _ ht _ => ht, ?_, ?_, fun hp _ => .inl hp⟩
  · intro hl
    exact (mem_cons.mp hl).resolve_left h
  · intro ha
    have hget : ((s.actions.set op' goalId).get? op).isSome = true := ha
    rwa [Dict.get?_set_of_ne _ _ (Ne.symm h)] at hget

theorem quiet_actionAdmitted (s : Manager) (op' : PyStr) (a : Manager.ActionArgs) (now : Int) :
    Quiet op (s.goalSent op' a.goalId) (s.actionAdmitted op' a now) := by
  refine (quiet_transition _ _ rfl ?_ _ _).trans (quiet_transition _ _ rfl ?_ _ _)
  · intro ev hev
    rw [← Option.some.inj hev]
    rfl
  · intro ev hev
    cases hev

theorem safe_startAction (hs : Safe op s) {a : Manager.ActionArgs} {sent : Bool}
    (h : s.startAction op' a sent now = some s') : Safe op s' := by
  unfold Manager.startAction at h
  split at h
  · cases h
  · next hnew =>
    by_cases hop : op = op'
    · subst hop
      obtain ⟨hexposed, -⟩ := hs.absent (absent_of_new hnew)
      -- an action has no process
      have hsafe : ∀ t : Manager, t.threads = s.threads → t.processes = s.processes →
          (∃ st, t.stateOf op = some st) → Safe op t := by
        intro t hthreads hprocesses hpresent
        have hnot : ¬ Exposed op t := by
          intro he
          refine hexposed ?_
          rcases he with ⟨t', ht', hspawns⟩ | ⟨p, hp, hloose⟩
          · exact .inl ⟨t', hthreads ▸ ht', hspawns⟩
          · exact .inr ⟨p, hprocesses ▸ hp, hloose⟩
        refine ⟨fun he => absurd he hnot, fun _ => hpresent, ?_⟩
        intro p hp hsig
        exact absurd (.inr ⟨p, hp, .inl hsig⟩) hnot
      have hqueued : (s.actionQueued op a now).stateOf op = some .queued :=
        (stateOf_enqueue s op op (a.row now) [] now).trans (if_pos rfl)
      split at h
      · cases h
        have hquiet : Quiet op ((s.actionQueued op a now).goalSent op a.goalId) _ :=
          quiet_actionAdmitted (s.actionQueued op a now) op a now
        exact hsafe _ hquiet.threads hquiet.processes (present_onward hquiet.onward ⟨.queued, hqueued⟩)
      · cases h
        exact hsafe _ rfl rfl ⟨.queued, hqueued⟩
    · have hqueued : Calm op s (s.actionQueued op' a now) := (quiet_enqueue s hop _ _ now).calm
      split at h
      · cases h
        exact hs.calm (hqueued.trans
          ((calm_goalSent _ hop a.goalId).trans (quiet_actionAdmitted _ _ _ _).calm))
      · cases h
        exact hs.calm hqueued

/-! ### Cancelling -/

theorem still_of_memory (h : SameMemory s s') (honward : Onward op s s') : Still op s s' := by
  refine .of_processes honward ?_ (by rw [h.processes])
  intro t ht _
  rwa [h.threads] at ht

theorem still_writeTerminal (s : Manager) (op' : PyStr) (o : Outcome) (code ref : PyStr) (now : Int) :
    Still op s (s.writeTerminal op' o code ref now) :=
  still_of_memory (sameMemory_writeTerminal _ _ _ _ _ _)
    ((progress_writeTerminal _ _ _ _ _ _).onward op)

theorem still_popHandle (s : Manager) (op' : PyStr) : Still op s (s.popHandle op') :=
  .of_processes ((progress_popHandle s op').onward op) (fun _ ht _ => ht) rfl

theorem still_spawnThread (s : Manager) (h : t.spawns op = false) :
    Still op s (s.spawnThread t) := by
  refine (Quiet.refl op s).still.placed ?_
  intro t' ht'
  rcases mem_append.mp ht' with ht' | ht'
  · exact .inl ht'
  · rw [mem_singleton.mp ht']
    exact .inr h

theorem still_cancelMarked (s : Manager) (op' reason : PyStr) (now : Int) :
    Still op s (s.cancelMarked op' reason now) := by
  unfold Manager.cancelMarked
  split
  · exact still_spawnThread _ rfl
  · split
    · exact (still_popHandle _ _).trans ((still_signal _ _).trans (still_spawnThread _ rfl))
    · exact (still_popHandle _ _).trans (still_writeTerminal _ _ _ _ _ _)

theorem calm_cancelMarked (s : Manager) (h : op ≠ op') (reason : PyStr) (now : Int) :
    Calm op s (s.cancelMarked op' reason now) := by
  have hne : ¬ op' = op := fun heq => h heq.symm
  unfold Manager.cancelMarked
  split
  · exact calm_spawnThread _ rfl (by simp [Thread.asks, hne])
  · split
    · exact (calm_popHandle _ h).trans ((calm_signal _ _).trans
        (calm_spawnThread _ rfl (by simp [Thread.asks, hne])))
    · exact (calm_popHandle _ h).trans (quiet_writeTerminal _ _ (fun heq => absurd heq h) _ _ _).calm

theorem sameMemory_markCanceling (s : Manager) (op : PyStr) (r : Operation) (reason : PyStr) (now : Int) :
    SameMemory s (s.markCanceling op r reason now) := ⟨rfl, rfl, rfl, rfl, rfl⟩

/-- The operation is not being spawned when it is cancelled; its process, if there is one,
still runs or was signalled before, and its command was not started yet or is over. -/
def Label.InTime (s : Manager) (l : Label) : Prop :=
  l ≠ .restart ∧ ∀ op reason now r, l = .cancel op reason now → s.operations.get? op = some r →
    r.state.terminal = false →
    (∀ t ∈ s.threads, t.spawns op = false) ∧
      ∀ p, s.processes.get? op = some p →
        (p.running = true ∨ p.signalled = true) ∧ p.command ≠ .running

theorem signalled_cancelMarked (hactions : s.actions.contains op = false)
    (hprocs : s.procs.contains op = true) (hp : s.processes.get? op = some p)
    (hrun : p.running = true) (hcode : p.returncode = none) (reason : PyStr) (now : Int) :
    (s.cancelMarked op reason now).processes.get? op = some { p with signalled := true } := by
  have hrc : s.returncode op = none := by
    rw [Manager.returncode, hp]
    exact hcode
  unfold Manager.cancelMarked
  rw [if_neg (by simp [hactions]), if_pos ⟨hprocs, hrc⟩]
  have hget : (s.signal op).processes.get? op = (s.processes.get? op).map fun p =>
      if op = op ∧ p.running then { p with signalled := true } else p := Dict.get?_mapVals _ _ _
  refine Eq.trans hget ?_
  rw [hp]
  simp [hrun]

theorem safe_cancel (hs : Safe op s) (op' reason : PyStr) (now : Int)
    (hl : Label.InTime s (.cancel op' reason now)) : Safe op (s.cancel op' reason now) := by
  rcases hrow : s.operations.get? op' with _ | r
  · have hsame : s.cancel op' reason now = s := by
      unfold Manager.cancel
      rw [hrow]
    rwa [hsame]
  · by_cases hterminal : r.state.terminal = true
    · have hsame : s.cancel op' reason now = s := by
        unfold Manager.cancel
        rw [hrow]
        simp [hterminal]
      rwa [hsame]
    · have hlive : r.state.terminal = false := by simpa using hterminal
      have heq : s.cancel op' reason now
          = (s.markCanceling op' r reason now).cancelMarked op' reason now := by
        unfold Manager.cancel
        rw [hrow]
        simp [hlive]
      have honward := (progress_cancel s op' reason now).onward op
      rw [heq] at honward ⊢
      by_cases hop : op = op'
      · subst hop
        obtain ⟨hspawns, hrunning⟩ := hl.2 op reason now r rfl hrow hlive
        have hstill : Still op s (s.markCanceling op r reason now) :=
          still_of_memory (sameMemory_markCanceling s op r reason now)
            (((progress_move hrow hlive (by intro r'; rfl) rfl fun _ => rfl).trans
              (progress_emit _ _ rfl _ _ _ _)).onward op)
        have hnot : ¬ Exposed op ((s.markCanceling op r reason now).cancelMarked op reason now) := by
          intro he
          have he' : Exposed op s := (hstill.trans (still_cancelMarked _ op reason now)).exposed he
          have hunclaimed := hs.exclusive he'
          rcases he with ⟨t, ht, ht'⟩ | ⟨p', hp', hloose⟩
          · have hold := (hstill.trans (still_cancelMarked _ op reason now)).spawns t ht ht'
            rw [hspawns t hold] at ht'
            cases ht'
          · obtain ⟨p, hp, hloose₀⟩ :=
              (hstill.trans (still_cancelMarked _ op reason now)).loose hp' hloose
            obtain ⟨hthere, hcommand⟩ := hrunning p hp
            have hsig₀ : p.signalled = false := hloose₀.resolve_right hcommand
            have hrun : p.running = true := by
              rcases hthere with hrun | hsig₁
              · exact hrun
              · rw [hsig₀] at hsig₁
                cases hsig₁
            obtain ⟨hreach, hcode⟩ := hs.handled p hp hsig₀
            have hprocs : s.procs.contains op = true := by
              rcases hreach with ⟨st, hst, ht⟩ | hprocs
              · rw [stateOf_of_row hrow] at hst
                rw [← Option.some.inj hst, hlive] at ht
                cases ht
              · exact hprocs
            have hactions : s.actions.contains op = false := by
              by_contra hthere
              exact hunclaimed (.inr (.inr (.inr (by simpa using hthere))))
            have hdone := signalled_cancelMarked (s := s.markCanceling op r reason now)
              hactions hprocs hp hrun (hcode hrun) reason now
            rw [hdone] at hp'
            rw [← Option.some.inj hp'] at hloose
            rcases hloose with hsig | hrunning
            · cases hsig
            · exact hcommand hrunning
        refine ⟨fun he => absurd he hnot, ?_, ?_⟩
        · intro _
          exact present_onward honward ⟨_, stateOf_of_row hrow⟩
        · intro p hp hsig
          exact absurd (.inr ⟨p, hp, .inl hsig⟩) hnot
      · have hmark : Quiet op s (s.markCanceling op' r reason now) :=
          .of_same (sameMemory_markCanceling s op' r reason now) (stateOf_update_of_ne _ hop)
        exact hs.calm (hmark.calm.trans (calm_cancelMarked _ hop reason now))

/-! ### The step and the run -/

theorem safe_onResult (hs : Safe op s) {status : Int} {ref : PyStr}
    (h : s.onResult op' status ref now = some s') : Safe op s' := by
  unfold Manager.onResult at h
  split at h
  · next hmem =>
    cases h
    have hforget : Still op s (s.forgetGoal op') :=
      .of_processes ((progress_forgetGoal s op').onward op) (fun _ ht _ => ht) rfl
    by_cases hop : op = op'
    · subst hop
      exact hs.still (.inr (.inr (.inl hmem))) (hforget.trans (still_writeTerminal _ _ _ _ _ _))
    · have hcalm : Calm op s (s.forgetGoal op') := by
        refine ⟨hforget, fun st hst hm => ⟨st, hst, hm⟩, fun _ ht _ => ht, mem_of_mem_erase, ?_,
          fun hp _ => .inl hp⟩
        intro ha
        have hget : ((s.actions.erase op').get? op).isSome = true := ha
        rwa [Dict.get?_erase, if_neg (Ne.symm hop)] at hget
      exact hs.calm (hcalm.trans (quiet_writeTerminal _ _ (fun heq => absurd heq hop) _ _ _).calm)
  · cases h

theorem calm_process (hp : s.processes.get? op' = some p) (hsig : q.signalled = p.signalled)
    (hrun : q.running = true → p.running = true ∧ q.returncode = p.returncode)
    (hcommand : q.command = .running → p.Loose) :
    Calm op s { s with processes := s.processes.set op' q } := by
  refine ⟨⟨Onward.refl op s, fun _ ht _ => ht, ?_, ?_⟩, fun st hst hm => ⟨st, hst, hm⟩,
    fun _ ht _ => ht, id, id, fun hp _ => .inl hp⟩
  · intro p' hp' hsig'
    have hget : (s.processes.set op' q).get? op = some p' := hp'
    rw [Dict.get?_set] at hget
    split at hget
    · next heq =>
      subst heq
      cases hget
      exact ⟨p, hp, hsig.symm.trans hsig', hrun⟩
    · exact ⟨p', hget, hsig', fun hrun => ⟨hrun, rfl⟩⟩
  · intro p' hp' hrunning
    have hget : (s.processes.set op' q).get? op = some p' := hp'
    rw [Dict.get?_set] at hget
    split at hget
    · next heq =>
      subst heq
      cases hget
      exact ⟨p, hp, hcommand hrunning⟩
    · exact ⟨p', hget, .inr hrunning⟩

theorem safe_step {l : Label} (hs : Safe op s) (hl : l.InTime s) (h : s.step l = some s') :
    Safe op s' := by
  cases l with
  | start op' a now => exact safe_start hs h
  | startAction op' a sent now => exact safe_startAction hs h
  | cancel op' reason now =>
    rw [← Option.some.inj h]
    exact safe_cancel hs op' reason now hl
  | feedback op' progress now =>
    rw [feedback_eq h]
    exact hs.calm (quiet_reportProgress _ _ _ _).calm
  | result op' status ref now => exact safe_onResult hs h
  | sweep staleAfter now =>
    rw [← Option.some.inj h]
    exact hs.calm (quiet_foldl (quiet_sweepRow staleAfter now) _ _).calm
  | recover alive now =>
    rw [← Option.some.inj h]
    exact hs.calm (calm_foldl (calm_recoverRow alive now) _ _)
  | turn i a now => exact safe_turn hs h
  | restart => exact absurd rfl hl.1
  | exits op' =>
    obtain ⟨p, hp, rfl⟩ := exits_eq h
    refine hs.calm (calm_process hp rfl ?_ .inr)
    intro hrunning
    cases hrunning
  | reaped op' rc =>
    obtain ⟨p, hp, hover, rfl⟩ := reaped_eq h
    refine hs.calm (calm_process hp rfl ?_ .inr)
    intro hrunning
    exact absurd hrunning hover
  | command op' =>
    obtain ⟨p, c, hp, hstarted, rfl⟩ := command_eq h
    exact hs.calm (calm_process hp rfl (fun hrunning => ⟨hrunning, rfl⟩) fun hc => .inl (hstarted hc))
  | exitFile path code =>
    rw [exitFile_eq h]
    have hquiet : Quiet op s { s with exitcodes := s.exitcodes.set path code } :=
      .of_same ⟨rfl, rfl, rfl, rfl, rfl⟩ rfl
    exact hs.calm hquiet.calm

/-- **The process of a cancelled operation** was never spawned, or was sent a termination
signal and leaves no command that runs on, in every run in which no operation is cancelled
while it is being spawned or while its command runs. -/
theorem cancelled_signalled (h : operationManager.ReachableUnder (fun s l => l.InTime s) s)
    (hstate : s.stateOf op = some .cancelled) :
    s.processes.get? op = none ∨
      ∃ p, s.processes.get? op = some p ∧ p.signalled = true ∧ p.command ≠ .running := by
  have hsafe : Safe op s := by
    refine h.invariant ?_ ?_
    · rintro s ⟨directory, rfl⟩
      refine ⟨?_, ?_, ?_⟩
      · rintro (⟨t, ht, -⟩ | ⟨p, hp, -⟩)
        · cases ht
        · cases hp
      · rintro ((⟨t, ht, -⟩ | ⟨p, hp, -⟩) | (⟨st, hst, -⟩ | ⟨t, ht, -⟩ | hl | ha))
        · cases ht
        · cases hp
        · cases hst
        · cases ht
        · cases hl
        · cases ha
      · intro p hp
        cases hp
    · intro s l s' hs hl hstep
      exact safe_step hs hl hstep
  rcases hp : s.processes.get? op with _ | p
  · exact .inl rfl
  · have htight : ¬ p.Loose :=
      fun hloose => hsafe.exclusive (.inr ⟨p, hp, hloose⟩) (.inl ⟨_, hstate, rfl⟩)
    refine .inr ⟨p, rfl, ?_, fun hrunning => htight (.inr hrunning)⟩
    by_contra hsig
    exact htight (.inl (by simpa using hsig))

/-- A cancellation when the command is over and its shell still there, and the time it is
given runs out. -/
theorem cancelled_signalled_running :
    (((Manager.fresh "operations").after (spawnedRun [.command "op", .command "op",
      .cancel "op" "user" 2, .turn 1 .timeout 7])).processes.get? "op").map
        Process.signalled = some true := by
  have hreach : operationManager.ReachableUnder (fun s l => l.InTime s)
      ((Manager.fresh "operations").after (spawnedRun [.command "op", .command "op",
        .cancel "op" "user" 2, .turn 1 .timeout 7])) := by
    refine .step (.step (.step (.step (.step (.step (.init ⟨"operations", rfl⟩) ?_
      (l := .start "op" ⟨"task", "attempt", "render", ["render"], false, "goal", "process", none⟩ 0) rfl)
      ?_ (l := .turn 0 (.spawned 7) 1) rfl) ?_ (l := .command "op") rfl) ?_ (l := .command "op") rfl)
      ?_ (l := .cancel "op" "user" 2) rfl) ?_ (l := .turn 1 .timeout 7) rfl
    case refine_5 =>
      refine ⟨by simp, ?_⟩
      intro op reason now r heq _ _
      cases heq
      refine ⟨?_, ?_⟩
      · intro t ht
        rw [List.mem_singleton.mp ht]
        rfl
      · intro p hp
        rw [← Option.some.inj hp]
        exact ⟨.inl rfl, by simp⟩
    all_goals
      refine ⟨by simp, ?_⟩
      intro op reason now r heq
      cases heq
  have hstate : ((Manager.fresh "operations").after (spawnedRun [.command "op", .command "op",
      .cancel "op" "user" 2, .turn 1 .timeout 7])).stateOf "op" = some .cancelled := rfl
  rcases cancelled_signalled hreach hstate with hnone | ⟨p, hp, hsig, -⟩
  · cases hnone
  · rw [hp, Option.map_some, hsig]

/-- A cancellation while the process is being spawned: both calls are over, the operation is
cancelled, and the shell and its command run without a signal.  A cancellation while the command
runs: the shell was signalled and is gone, and the command runs on. -/
theorem cancelled_while_spawning :
    (∃ s, operationManager.Reachable s ∧
      s.threads = [.entering ⟨"op", "task", "attempt"⟩] ∧ s.stateOf "op" = some .cancelled ∧
      s.processes.get? "op" = some ⟨7, true, none, false, .running⟩) ∧
    ∃ s, operationManager.Reachable s ∧
      s.threads = [.entering ⟨"op", "task", "attempt"⟩] ∧ s.stateOf "op" = some .cancelled ∧
      s.processes.get? "op" = some ⟨7, false, some (-15), true, .running⟩ := by
  have hspawning : ∃ s, operationManager.run (Manager.fresh "operations")
      [.start "op" ⟨"task", "attempt", "render", ["render"], false, "goal", "process", none⟩ 0,
        .cancel "op" "user" 1, .turn 0 (.spawned 7) 2, .command "op"] = some s ∧
      s.threads = [.entering ⟨"op", "task", "attempt"⟩] ∧ s.stateOf "op" = some .cancelled ∧
      s.processes.get? "op" = some ⟨7, true, none, false, .running⟩ := ⟨_, rfl, rfl, rfl, rfl⟩
  have hcommand : ∃ s, operationManager.run (Manager.fresh "operations")
      [.start "op" ⟨"task", "attempt", "render", ["render"], false, "goal", "process", none⟩ 0,
        .turn 0 (.spawned 7) 1, .command "op", .cancel "op" "user" 2, .exits "op",
        .reaped "op" (-15), .turn 1 .exited 3] = some s ∧
      s.threads = [.entering ⟨"op", "task", "attempt"⟩] ∧ s.stateOf "op" = some .cancelled ∧
      s.processes.get? "op" = some ⟨7, false, some (-15), true, .running⟩ := ⟨_, rfl, rfl, rfl, rfl⟩
  obtain ⟨s₁, hs₁, hrest₁⟩ := hspawning
  obtain ⟨s₂, hs₂, hrest₂⟩ := hcommand
  exact ⟨⟨s₁, .of_run ⟨"operations", rfl⟩ hs₁, hrest₁⟩, s₂, .of_run ⟨"operations", rfl⟩ hs₂, hrest₂⟩

end Rosclaw.Operations
