/-
What becomes of the operations of an earlier run.

`recover_on_boot` looks at every row that is not terminal; a row whose process still runs
gets a watcher.  All of it goes through the guards that keep late completions away from a
cancellation, and so nothing is written over `CANCELING`.

* `Recovered` — a row that was not being cancelled is watched, or ended by its verdict;
* `recovered_recoverOnBoot`, `recovered_step` — so it is after the recovery, and so it stays
  while the watchers run;
* `recovery_ends` — when they have finished, every row is terminal exactly if none was
  being cancelled, and an exit code decides between success and failure;
* `canceling_stays` — a cancellation that a restart interrupts.
-/
import Rosclaw.TaskKernel.OperationEvents

namespace Rosclaw.Operations

open List

variable {s s' s'' : Manager} {op op' path : PyStr} {now : Int} {r : Operation}

/-! ### Rows -/

theorem get?_update (s : Manager) (op op' : PyStr) (f : Operation → Operation) :
    (s.update op f).operations.get? op'
      = (s.operations.get? op').map fun r => if op' = op then f r else r := Dict.get?_mapVals _ _ _

theorem get?_update_of_ne (f : Operation → Operation) (h : op' ≠ op) :
    (s.update op f).operations.get? op' = s.operations.get? op' := by
  rw [get?_update]
  simp [h]

theorem get?_writeTerminal_of_ne (o : Outcome) (code ref : PyStr) (now : Int) (h : op' ≠ op) :
    (s.writeTerminal op o code ref now).operations.get? op' = s.operations.get? op' := by
  unfold Manager.writeTerminal
  split
  · rfl
  · split
    · rfl
    · split
      · rfl
      · exact get?_update_of_ne _ h

theorem get?_transition_of_ne (st : OperationState) (ev : Option EventType)
    (payload : List (PyStr × PyVal)) (now : Int) (h : op' ≠ op) :
    (s.transition op st ev payload now).operations.get? op' = s.operations.get? op' := by
  unfold Manager.transition
  split
  · rfl
  · split
    · rfl
    · split <;> exact get?_update_of_ne _ h

theorem path_writeTerminal (hrow : s.operations.get? op = some r) (op' : PyStr) (o : Outcome)
    (code ref : PyStr) (now : Int) :
    ∃ r', (s.writeTerminal op' o code ref now).operations.get? op = some r' ∧
      r'.exitcodePath = r.exitcodePath := by
  unfold Manager.writeTerminal
  split
  · exact ⟨r, hrow, rfl⟩
  · split
    · exact ⟨r, hrow, rfl⟩
    · split
      · exact ⟨r, hrow, rfl⟩
      · refine ⟨_, (get?_update s op' op _).trans (by rw [hrow]; rfl), ?_⟩
        split <;> rfl

theorem path_transition (hrow : s.operations.get? op = some r) (op' : PyStr) (st : OperationState)
    (ev : Option EventType) (payload : List (PyStr × PyVal)) (now : Int) :
    ∃ r', (s.transition op' st ev payload now).operations.get? op = some r' ∧
      r'.exitcodePath = r.exitcodePath := by
  unfold Manager.transition
  split
  · exact ⟨r, hrow, rfl⟩
  · split
    · exact ⟨r, hrow, rfl⟩
    · split
      · refine ⟨_, (get?_update s op' op _).trans (by rw [hrow]; rfl), ?_⟩
        split <;> rfl
      · refine ⟨_, (get?_update s op' op _).trans (by rw [hrow]; rfl), ?_⟩
        split <;> rfl

theorem exitcodes_writeTerminal (s : Manager) (op : PyStr) (o : Outcome) (code ref : PyStr) (now : Int) :
    (s.writeTerminal op o code ref now).exitcodes = s.exitcodes ∧
      (s.writeTerminal op o code ref now).threads = s.threads := by
  unfold Manager.writeTerminal
  split
  · exact ⟨rfl, rfl⟩
  · split
    · exact ⟨rfl, rfl⟩
    · split <;> exact ⟨rfl, rfl⟩

theorem exitcodes_transition (s : Manager) (op : PyStr) (st : OperationState) (ev : Option EventType)
    (payload : List (PyStr × PyVal)) (now : Int) :
    (s.transition op st ev payload now).exitcodes = s.exitcodes ∧
      (s.transition op st ev payload now).threads = s.threads := by
  unfold Manager.transition
  split
  · exact ⟨rfl, rfl⟩
  · split
    · exact ⟨rfl, rfl⟩
    · split <;> exact ⟨rfl, rfl⟩

variable {st : OperationState}

/-- A state that is not swept is terminal, or `CANCELING`. -/
theorem not_swept (h : st.swept = false) : st.terminal = true ∨ st = .canceling := by
  cases st <;> simp_all [OperationState.swept, OperationState.terminal]

theorem swept_not_terminal (h : st.swept = true) : st.terminal = false ∧ st ≠ .canceling := by
  cases st <;> simp_all [OperationState.swept, OperationState.terminal]

variable {e : PyStr × Operation} {es : List (PyStr × Operation)}
  {f : Manager → PyStr × Operation → Manager} {l : Label} {o : Outcome} (alive : Nat → Bool)

theorem writeTerminal_refused (hrow : s.operations.get? op = some r) (hst : r.state.swept = false)
    (ho : o ≠ .cancelled) (code ref : PyStr) (now : Int) :
    s.writeTerminal op o code ref now = s := by
  unfold Manager.writeTerminal
  rw [hrow]
  rcases not_swept hst with hterminal | hcanceling
  · simp [hterminal]
  · simp [hcanceling, ho, OperationState.terminal]

theorem writeTerminal_written (hrow : s.operations.get? op = some r) (hst : r.state.swept = true)
    (code ref : PyStr) (now : Int) :
    ∃ r', (s.writeTerminal op o code ref now).operations.get? op = some r' ∧
      r'.state = o.state ∧ r'.exitcodePath = r.exitcodePath := by
  obtain ⟨hterminal, hcanceling⟩ := swept_not_terminal hst
  unfold Manager.writeTerminal
  rw [hrow]
  simp only [hterminal, hcanceling, Bool.false_eq_true, if_false, false_and]
  let row : Operation :=
    { r with
      state := o.state, endedAt := some now, heartbeatAt := now, failureCode := some code
      resultRef := if ref.isEmpty then r.resultRef else ref }
  refine ⟨row, ?_, rfl, rfl⟩
  refine (get?_update s op op _).trans ?_
  rw [hrow]
  simp only [Option.map_some, if_true]
  rfl

theorem transition_refused (hrow : s.operations.get? op = some r)
    (hst : r.state.swept = false) (hto : st ≠ .cancelled) (ev : Option EventType)
    (payload : List (PyStr × PyVal)) (now : Int) : s.transition op st ev payload now = s := by
  unfold Manager.transition
  rw [hrow]
  rcases not_swept hst with hterminal | hcanceling
  · simp [hterminal]
  · simp [hcanceling, hto]

theorem get?_transition (st : OperationState) (hrow : s.operations.get? op = some r)
    (hst : r.state.swept = true) (ev : Option EventType) (payload : List (PyStr × PyVal)) (now : Int) :
    (s.transition op st ev payload now).operations.get? op
      = some { r with state := st, heartbeatAt := now } := by
  obtain ⟨hterminal, hcanceling⟩ := swept_not_terminal hst
  unfold Manager.transition
  rw [hrow]
  simp only [hterminal, hcanceling, Bool.false_eq_true, if_false, false_and, or_self]
  have hget : (s.update op fun r' => { r' with state := st, heartbeatAt := now }).operations.get? op
      = some { r with state := st, heartbeatAt := now } := by
    rw [get?_update, hrow]
    simp only [Option.map_some, if_true]
  split
  · exact hget
  · exact hget

theorem transition_written (st : OperationState) (hrow : s.operations.get? op = some r)
    (hst : r.state.swept = true) (ev : Option EventType) (payload : List (PyStr × PyVal)) (now : Int) :
    ∃ r', (s.transition op st ev payload now).operations.get? op = some r' ∧
      r'.state = st ∧ r'.exitcodePath = r.exitcodePath :=
  ⟨_, get?_transition st hrow hst ev payload now, rfl, rfl⟩

/-! ### The recovery -/

namespace Manager

/-- What the exit-code file at the path says; without one the operation is lost. -/
def verdict (s : Manager) (path : PyStr) : Outcome :=
  match s.readExitcode path with
  | some code => .ofCode code
  | none => .lost

end Manager

theorem verdict_ne_cancelled (s : Manager) (path : PyStr) : s.verdict path ≠ .cancelled := by
  unfold Manager.verdict
  split
  · unfold Outcome.ofCode
    split <;> simp
  · simp

/-- Nothing happened to the operation, and no watcher went away. -/
structure Beside (op : PyStr) (s s' : Manager) : Prop where
  row : s'.operations.get? op = s.operations.get? op
  exitcodes : s'.exitcodes = s.exitcodes
  threads : ∀ t ∈ s.threads, t ∈ s'.threads

theorem Beside.refl (op : PyStr) (s : Manager) : Beside op s s := ⟨rfl, rfl, fun _ h => h⟩

theorem Beside.trans (h : Beside op s s') (h' : Beside op s' s'') : Beside op s s'' :=
  ⟨h'.row.trans h.row, h'.exitcodes.trans h.exitcodes, fun t ht => h'.threads t (h.threads t ht)⟩

theorem beside_recoverRow (now : Int) (s : Manager) (h : op ≠ e.1) :
    Beside op s (s.recoverRow alive now e) := by
  unfold Manager.recoverRow
  split
  · have hsame := exitcodes_writeTerminal s e.1
    exact ⟨get?_writeTerminal_of_ne _ _ _ _ h, (hsame _ _ _ _).1, fun t ht => (hsame _ _ _ _).2 ▸ ht⟩
  · split
    · have hsame := exitcodes_transition s e.1 .degraded (some .reattached) [("pid", .int e.2.pid)] now
      refine ⟨get?_transition_of_ne _ _ _ _ h, hsame.1, fun t ht => ?_⟩
      refine mem_append_left _ ?_
      rw [hsame.2]
      exact ht
    · have hsame := exitcodes_writeTerminal s e.1
      exact ⟨get?_writeTerminal_of_ne _ _ _ _ h, (hsame _ _ _ _).1, fun t ht => (hsame _ _ _ _).2 ▸ ht⟩

theorem foldl_beside (hf : ∀ s e, op ≠ e.1 → Beside op s (f s e)) (hnot : op ∉ es.map Prod.fst)
    (s : Manager) : Beside op s (es.foldl f s) := by
  induction es generalizing s with
  | nil => exact Beside.refl op s
  | cons e es ih =>
    rw [map_cons, mem_cons, not_or] at hnot
    exact (hf s e hnot.1).trans (ih hnot.2 (f s e))

theorem foldl_turn (hf : ∀ s e, op ≠ e.1 → Beside op s (f s e)) (hnodup : (es.map Prod.fst).Nodup)
    (hmem : (op, r) ∈ es) (s : Manager) :
    ∃ t, Beside op s t ∧ Beside op (f t (op, r)) (es.foldl f s) := by
  induction es generalizing s with
  | nil => cases hmem
  | cons e es ih =>
    rw [map_cons, nodup_cons] at hnodup
    rcases mem_cons.mp hmem with rfl | hrest
    · exact ⟨s, Beside.refl op s, foldl_beside hf hnodup.1 _⟩
    · have hne : op ≠ e.1 := by
        rintro rfl
        exact hnodup.1 (mem_map.mpr ⟨_, hrest, rfl⟩)
      obtain ⟨t, hbefore, hafter⟩ := ih hnodup.2 hrest (f s e)
      exact ⟨t, (hf s e hne).trans hbefore, hafter⟩

/-- A row that was not being cancelled is watched, or it ended with its verdict. -/
def Recovered (op path : PyStr) (s : Manager) : Prop :=
  ∃ r, s.operations.get? op = some r ∧ r.exitcodePath = path ∧
    (r.state.swept = true ∧ (∃ pid, .watching op pid path ∈ s.threads) ∨
      r.state = (s.verdict path).state)

theorem verdict_congr (h : s'.exitcodes = s.exitcodes) (path : PyStr) : s'.verdict path = s.verdict path := by
  rw [Manager.verdict, Manager.verdict, Manager.readExitcode, Manager.readExitcode, h]

theorem Recovered.beside (h : Recovered op path s) (hb : Beside op s s') : Recovered op path s' := by
  obtain ⟨r, hrow, hpath, hst⟩ := h
  refine ⟨r, hb.row.trans hrow, hpath, ?_⟩
  rw [verdict_congr hb.exitcodes]
  rcases hst with ⟨hswept, pid, hwatch⟩ | hverdict
  · exact .inl ⟨hswept, pid, hb.threads _ hwatch⟩
  · exact .inr hverdict

theorem recovered_writeTerminal (hrow : s.operations.get? op = some r) (hst : r.state.swept = true)
    (ho : o = s.verdict r.exitcodePath) (code ref : PyStr) (now : Int) :
    Recovered op r.exitcodePath (s.writeTerminal op o code ref now) := by
  obtain ⟨r', hrow', hstate, hpath⟩ := writeTerminal_written (o := o) hrow hst code ref now
  refine ⟨r', hrow', hpath, .inr ?_⟩
  rw [hstate, verdict_congr (exitcodes_writeTerminal s op o code ref now).1, ← ho]

theorem exitcodes_recoverRow (now : Int) (s : Manager) (e : PyStr × Operation) :
    (s.recoverRow alive now e).exitcodes = s.exitcodes := by
  unfold Manager.recoverRow
  split
  · exact (exitcodes_writeTerminal _ _ _ _ _ _).1
  · split
    · exact (exitcodes_transition _ _ _ _ _ _).1
    · exact (exitcodes_writeTerminal _ _ _ _ _ _).1

theorem exitcodes_recoverOnBoot (s : Manager) (alive : Nat → Bool) (now : Int) :
    (s.recoverOnBoot alive now).exitcodes = s.exitcodes := by
  unfold Manager.recoverOnBoot
  generalize s.operations.entries.filter (fun e => !e.2.state.terminal) = es
  induction es generalizing s with
  | nil => rfl
  | cons e es ih => exact (ih _).trans (exitcodes_recoverRow alive now s e)

theorem recovered_recoverRow (now : Int) (hrow : s.operations.get? op = some r)
    (hst : r.state.swept = true) :
    Recovered op r.exitcodePath (s.recoverRow alive now (op, r)) := by
  unfold Manager.recoverRow
  split
  · next code hcode =>
    refine recovered_writeTerminal hrow hst ?_ _ _ _
    rw [Manager.verdict, hcode]
  · next hnone =>
    split
    · obtain ⟨r', hrow', hstate, hpath⟩ := transition_written .degraded hrow hst
        (some .reattached) [("pid", .int r.pid)] now
      refine ⟨r', hrow', hpath, .inl ⟨?_, r.pid, ?_⟩⟩
      · rw [hstate]
        rfl
      · exact mem_append_right _ mem_cons_self
    · refine recovered_writeTerminal hrow hst ?_ _ _ _
      rw [Manager.verdict, hnone]

theorem row_recoverRow (now : Int) (hrow : s.operations.get? op = some r)
    (hst : r.state.swept = false) :
    (s.recoverRow alive now (op, r)).operations.get? op = some r := by
  unfold Manager.recoverRow
  split
  · next code hcode =>
    have hne := verdict_ne_cancelled s r.exitcodePath
    rw [Manager.verdict, hcode] at hne
    rw [writeTerminal_refused hrow hst hne, hrow]
  · split
    · refine Eq.trans ?_ hrow
      show ((s.transition op .degraded _ _ now).operations.get? op) = _
      rw [transition_refused hrow hst (by simp)]
    · rw [writeTerminal_refused hrow hst (by simp), hrow]

theorem selected_nodup (s : Manager) :
    ((s.operations.entries.filter fun e => !e.2.state.terminal).map Prod.fst).Nodup :=
  s.operations.nodup.sublist (filter_sublist.map _)

/-- **After the recovery** a row that was not being cancelled is watched or has ended. -/
theorem recovered_recoverOnBoot (s : Manager) (alive : Nat → Bool) (now : Int)
    (hrow : s.operations.get? op = some r) (hst : r.state.swept = true) :
    Recovered op r.exitcodePath (s.recoverOnBoot alive now) := by
  have hmem : (op, r) ∈ s.operations.entries.filter fun e => !e.2.state.terminal := by
    rw [mem_filter, Dict.mem_entries_iff]
    exact ⟨hrow, by simp [(swept_not_terminal hst).1]⟩
  obtain ⟨t, hbefore, hafter⟩ :=
    foldl_turn (fun s e => beside_recoverRow alive now s) (selected_nodup s) hmem s
  exact (recovered_recoverRow alive now (hbefore.row.trans hrow) hst).beside hafter

theorem row_recoverOnBoot (s : Manager) (alive : Nat → Bool) (now : Int)
    (hrow : s.operations.get? op = some r) (hst : r.state.swept = false) :
    (s.recoverOnBoot alive now).operations.get? op = some r := by
  by_cases hterminal : r.state.terminal = true
  · have hnot : op ∉ (s.operations.entries.filter fun e => !e.2.state.terminal).map Prod.fst := by
      intro hmem
      obtain ⟨⟨op', r'⟩, he, rfl⟩ := mem_map.mp hmem
      rw [mem_filter, Dict.mem_entries_iff, hrow] at he
      obtain rfl := Option.some.inj he.1
      simp [hterminal] at he
    exact (foldl_beside (fun s e => beside_recoverRow alive now s) hnot s).row.trans hrow
  · have hmem : (op, r) ∈ s.operations.entries.filter fun e => !e.2.state.terminal := by
      rw [mem_filter, Dict.mem_entries_iff]
      exact ⟨hrow, by simpa using hterminal⟩
    obtain ⟨t, hbefore, hafter⟩ :=
      foldl_turn (fun s e => beside_recoverRow alive now s) (selected_nodup s) hmem s
    exact hafter.row.trans (row_recoverRow alive now (hbefore.row.trans hrow) hst)

/-! ### While the watchers run -/

/-- The coroutines, the sweeps and the outside; the wrapper of an operation that has ended
writes no exit code any more. -/
def Label.Waits (s : Manager) : Label → Prop
  | .turn _ _ _ | .sweep _ _ | .exits _ | .reaped _ _ | .command _ => True
  | .exitFile path _ =>
      ∀ op r, s.operations.get? op = some r → r.exitcodePath = path → r.state.terminal = false
  | _ => False

/-- Every coroutine is a watcher with the exit-code file of its row. -/
def Watchful (s : Manager) : Prop :=
  ∀ t ∈ s.threads, ∃ op pid r, s.operations.get? op = some r ∧ t = .watching op pid r.exitcodePath

structure SweptKept (op : PyStr) (s s' : Manager) : Prop where
  row : ∀ r, s.operations.get? op = some r → ∃ r', s'.operations.get? op = some r' ∧
    r'.exitcodePath = r.exitcodePath ∧ (r.state.swept = false → r' = r) ∧
    (r.state.swept = true → r'.state.swept = true)
  exitcodes : s'.exitcodes = s.exitcodes
  threads : s'.threads = s.threads

theorem SweptKept.refl (op : PyStr) (s : Manager) : SweptKept op s s :=
  ⟨fun r hr => ⟨r, hr, rfl, fun _ => rfl, fun h => h⟩, rfl, rfl⟩

theorem SweptKept.trans (h : SweptKept op s s') (h' : SweptKept op s' s'') : SweptKept op s s'' := by
  refine ⟨?_, h'.exitcodes.trans h.exitcodes, h'.threads.trans h.threads⟩
  intro r hr
  obtain ⟨r', hr', hpath, hfix, hswept⟩ := h.row r hr
  obtain ⟨r'', hr'', hpath', hfix', hswept'⟩ := h'.row r' hr'
  refine ⟨r'', hr'', hpath'.trans hpath, ?_, fun h => hswept' (hswept h)⟩
  intro hst
  obtain rfl := hfix hst
  exact hfix' hst

theorem sweptKept_transition (s : Manager) (op' : PyStr) (hst : st.swept = true)
    (ev : Option EventType) (payload : List (PyStr × PyVal)) (now : Int) :
    SweptKept op s (s.transition op' st ev payload now) := by
  have hsame := exitcodes_transition s op' st ev payload now
  refine ⟨?_, hsame.1, hsame.2⟩
  intro r hr
  by_cases h : op = op'
  · subst h
    by_cases hswept : r.state.swept = true
    · obtain ⟨r', hr', hstate, hpath⟩ := transition_written st hr hswept ev payload now
      refine ⟨r', hr', hpath, ?_, ?_⟩
      · intro hnot
        rw [hswept] at hnot
        cases hnot
      · intro _
        rw [hstate, hst]
    · have hne : st ≠ .cancelled := by
        rintro rfl
        cases hst
      rw [transition_refused hr (by simpa using hswept) hne]
      exact ⟨r, hr, rfl, fun _ => rfl, fun h => h⟩
  · exact ⟨r, (get?_transition_of_ne st ev payload now h).trans hr, rfl, fun _ => rfl, fun h => h⟩

theorem sweptKept_sweepRow (staleAfter now : Int) (s : Manager) (e : PyStr × Operation) :
    SweptKept op s (s.sweepRow staleAfter now e) := by
  unfold Manager.sweepRow
  split
  · split
    · exact sweptKept_transition _ _ rfl _ _ _
    · exact SweptKept.refl op s
  · split
    · exact sweptKept_transition _ _ rfl _ _ _
    · exact SweptKept.refl op s

theorem sweptKept_sweep (op : PyStr) (s : Manager) (staleAfter now : Int) :
    SweptKept op s (s.sweepLiveness staleAfter now) := by
  unfold Manager.sweepLiveness
  generalize s.operations.entries.filter (fun e => e.2.state.swept) = es
  induction es generalizing s with
  | nil => exact SweptKept.refl op s
  | cons e es ih => exact (sweptKept_sweepRow staleAfter now s e).trans (ih _)

theorem Recovered.sweptKept (h : Recovered op path s) (hk : SweptKept op s s') : Recovered op path s' := by
  obtain ⟨r, hrow, hpath, hst⟩ := h
  obtain ⟨r', hr', hpath', hfix, hswept⟩ := hk.row r hrow
  refine ⟨r', hr', hpath'.trans hpath, ?_⟩
  rw [verdict_congr hk.exitcodes, hk.threads]
  rcases hst with ⟨hs, hwatch⟩ | hverdict
  · exact .inl ⟨hswept hs, hwatch⟩
  · refine .inr ?_
    have hnot : r.state.swept = false := by
      rw [hverdict]
      cases s.verdict path <;> rfl
    rw [hfix hnot, hverdict]

theorem watchEnd_eq (path : PyStr) (hrow : s.operations.get? op = some r) (now : Int) :
    (r.state.swept = false ∧ s.watchEnd op path now = s) ∨ r.state.swept = true ∧ ∃ code,
        s.watchEnd op path now = s.writeTerminal op (s.verdict path) code "" now := by
  unfold Manager.watchEnd
  rw [hrow]
  by_cases hswept : r.state.swept = true
  · refine .inr ⟨hswept, ?_⟩
    obtain ⟨hterminal, hcanceling⟩ := swept_not_terminal hswept
    simp only [hterminal, hcanceling, Bool.false_eq_true, or_self, if_false]
    split
    · next code hcode =>
      refine ⟨exitFailure code, ?_⟩
      rw [Manager.verdict, hcode]
    · next hnone =>
      refine ⟨"exit_unverifiable", ?_⟩
      rw [Manager.verdict, hnone]
  · have hnot : r.state.swept = false := by simpa using hswept
    refine .inl ⟨hnot, ?_⟩
    have hguard : r.state.terminal = true ∨ r.state = .canceling := not_swept hnot
    simp only [hguard, if_true]

theorem get?_watchEnd_of_ne (path : PyStr) (now : Int) (h : op' ≠ op) :
    (s.watchEnd op path now).operations.get? op' = s.operations.get? op' := by
  rcases hrow : s.operations.get? op with _ | r
  · unfold Manager.watchEnd
    rw [hrow]
  · rcases watchEnd_eq path hrow now with ⟨-, hsame⟩ | ⟨-, code, hwrite⟩
    · rw [hsame]
    · rw [hwrite]
      exact get?_writeTerminal_of_ne _ _ _ _ h

theorem exitcodes_watchEnd (s : Manager) (op path : PyStr) (now : Int) :
    (s.watchEnd op path now).exitcodes = s.exitcodes ∧
      (s.watchEnd op path now).threads = s.threads := by
  rcases hrow : s.operations.get? op with _ | r
  · unfold Manager.watchEnd
    rw [hrow]
    exact ⟨rfl, rfl⟩
  · rcases watchEnd_eq path hrow now with ⟨-, hsame⟩ | ⟨-, code, hwrite⟩
    · rw [hsame]
      exact ⟨rfl, rfl⟩
    · rw [hwrite]
      exact exitcodes_writeTerminal _ _ _ _ _ _

theorem turn_watcher (hw : Watchful s) {i : Nat} {a : Answer} (h : s.turn i a now = some s') :
    s' = s ∨ ∃ op pid r, s.operations.get? op = some r ∧
      s.threads[i]? = some (.watching op pid r.exitcodePath) ∧
      s' = { s.watchEnd op r.exitcodePath now with threads := replaceAt s.threads i [] } := by
  obtain ⟨t, x, ht, hresume, rfl⟩ := turn_eq h
  obtain ⟨op, pid, r, hrow, rfl⟩ := hw t (mem_of_getElem? ht)
  cases a with
  | alive b =>
    have hcase : (if b ∧ s.readExitcode r.exitcodePath = none then
        some ([Thread.watching op pid r.exitcodePath], s)
        else some ([], s.watchEnd op r.exitcodePath now)) = some x := hresume
    split at hcase
    · left
      cases hcase
      obtain ⟨l₁, l₂, hl, hrep⟩ := replaceAt_split ht
      have hsame : replaceAt s.threads i [Thread.watching op pid r.exitcodePath] = s.threads := by
        rw [hrep, hl]
        simp
      show { s with threads := replaceAt s.threads i _ } = s
      rw [hsame]
    · right
      cases hcase
      exact ⟨op, pid, r, hrow, ht, rfl⟩
  | go => cases hresume
  | spawned pid => cases hresume
  | spawnFailed => cases hresume
  | line text => cases hresume
  | eof => cases hresume
  | readerError message => cases hresume
  | exited => cases hresume
  | timeout => cases hresume

theorem tables_outside (hl : l.Waits s) (h : s.step l = some s')
    (hturn : ∀ i a now, l ≠ .turn i a now) (hsweep : ∀ d now, l ≠ .sweep d now) :
    s'.operations = s.operations ∧ s'.threads = s.threads ∧
      (s'.exitcodes = s.exitcodes ∨ ∃ path code, l = .exitFile path code ∧
        s'.exitcodes = s.exitcodes.set path code) := by
  cases l with
  | turn i a now => exact absurd rfl (hturn i a now)
  | sweep d now => exact absurd rfl (hsweep d now)
  | exits op =>
    obtain ⟨p, -, rfl⟩ := exits_eq h
    exact ⟨rfl, rfl, .inl rfl⟩
  | reaped op rc =>
    obtain ⟨p, -, -, rfl⟩ := reaped_eq h
    exact ⟨rfl, rfl, .inl rfl⟩
  | command op =>
    obtain ⟨p, c, -, -, rfl⟩ := command_eq h
    exact ⟨rfl, rfl, .inl rfl⟩
  | exitFile path code =>
    rw [exitFile_eq h]
    exact ⟨rfl, rfl, .inr ⟨path, code, rfl, rfl⟩⟩
  | start op a now => cases hl
  | startAction op a sent now => cases hl
  | cancel op reason now => cases hl
  | feedback op progress now => cases hl
  | result op status ref now => cases hl
  | recover alive now => cases hl
  | restart => cases hl

theorem row_step (hw : Watchful s) (hl : l.Waits s) (h : s.step l = some s')
    (hrow : s.operations.get? op = some r) (hst : r.state.swept = false) :
    s'.operations.get? op = some r := by
  by_cases hturn : ∃ i a now, l = .turn i a now
  · obtain ⟨i, a, now, rfl⟩ := hturn
    rcases turn_watcher hw h with rfl | ⟨op₁, pid, r₁, hrow₁, hi, rfl⟩
    · exact hrow
    · show (s.watchEnd op₁ r₁.exitcodePath now).operations.get? op = some r
      by_cases hop : op = op₁
      · subst hop
        rcases watchEnd_eq r₁.exitcodePath hrow now with ⟨-, hsame⟩ | ⟨hswept, -⟩
        · rw [hsame, hrow]
        · rw [hst] at hswept
          cases hswept
      · exact (get?_watchEnd_of_ne _ _ hop).trans hrow
  · by_cases hsweep : ∃ d now, l = .sweep d now
    · obtain ⟨d, now, rfl⟩ := hsweep
      rw [← Option.some.inj h]
      obtain ⟨r', hr', -, hfix, -⟩ := (sweptKept_sweep _ s d now).row r hrow
      rw [hr', hfix hst]
    · push Not at hturn hsweep
      rw [(tables_outside hl h hturn hsweep).1, hrow]

/-- **The step lemma**: a row is watched or has ended with its verdict. -/
theorem recovered_step (hw : Watchful s) (hl : l.Waits s) (h : s.step l = some s')
    (hs : Recovered op path s) : Recovered op path s' := by
  by_cases hturn : ∃ i a now, l = .turn i a now
  · obtain ⟨i, a, now, rfl⟩ := hturn
    rcases turn_watcher hw h with rfl | ⟨op₁, pid, r₁, hrow₁, hi, rfl⟩
    · exact hs
    · obtain ⟨r, hrow, hpath, hst⟩ := hs
      have hsame := exitcodes_watchEnd s op₁ r₁.exitcodePath now
      by_cases hop : op = op₁
      · subst hop
        rw [hrow] at hrow₁
        obtain rfl := Option.some.inj hrow₁
        subst hpath
        have hend : Recovered op r.exitcodePath (s.watchEnd op r.exitcodePath now) ∧
            ∀ r', (s.watchEnd op r.exitcodePath now).operations.get? op = some r' →
              r'.state.swept = false := by
          rcases watchEnd_eq r.exitcodePath hrow now with ⟨hnot, heq⟩ | ⟨hswept, code, heq⟩
          · rw [heq]
            refine ⟨⟨r, hrow, rfl, hst⟩, ?_⟩
            intro r' hr'
            rw [hrow] at hr'
            rw [← Option.some.inj hr', hnot]
          · rw [heq]
            refine ⟨recovered_writeTerminal hrow hswept rfl code "" now, ?_⟩
            intro r' hr'
            obtain ⟨r'', hr'', hstate, -⟩ :=
              writeTerminal_written (o := s.verdict r.exitcodePath) hrow hswept code "" now
            rw [hr''] at hr'
            rw [← Option.some.inj hr', hstate]
            cases s.verdict r.exitcodePath <;> rfl
        obtain ⟨⟨r', hr', hpath', hst'⟩, hended⟩ := hend
        refine ⟨r', hr', hpath', ?_⟩
        rcases hst' with ⟨hswept, -⟩ | hverdict
        · rw [hended r' hr'] at hswept
          cases hswept
        · exact .inr hverdict
      · refine ⟨r, (get?_watchEnd_of_ne _ _ hop).trans hrow, hpath, ?_⟩
        rcases hst with ⟨hswept, pid', hwatch⟩ | hverdict
        · refine .inl ⟨hswept, pid', mem_replaceAt_of_ne hi hwatch ?_ []⟩
          intro heq
          exact hop (Thread.watching.inj heq).1
        · refine .inr ?_
          rw [hverdict]
          exact congrArg Outcome.state (verdict_congr hsame.1 path).symm
  · by_cases hsweep : ∃ d now, l = .sweep d now
    · obtain ⟨d, now, rfl⟩ := hsweep
      rw [← Option.some.inj h]
      exact hs.sweptKept (sweptKept_sweep _ s d now)
    · push Not at hturn hsweep
      obtain ⟨hops, hthreads, hcodes⟩ := tables_outside hl h hturn hsweep
      obtain ⟨r, hrow, hpath, hst⟩ := hs
      refine ⟨r, by rw [hops, hrow], hpath, ?_⟩
      rw [hthreads]
      rcases hst with hwatch | hverdict
      · exact .inl hwatch
      · refine .inr ?_
        rw [hverdict]
        rcases hcodes with hsame | ⟨path', code, rfl, hset⟩
        · rw [verdict_congr hsame]
        · have hne : path' ≠ path := by
            rintro rfl
            have hnot := hl op r hrow hpath
            rw [hverdict, Outcome.state_terminal] at hnot
            cases hnot
          congr 1
          rw [Manager.verdict, Manager.verdict, Manager.readExitcode, Manager.readExitcode, hset,
            Dict.get?_set_of_ne _ _ hne]

theorem watchful_step (hw : Watchful s) (hl : l.Waits s) (h : s.step l = some s') :
    Watchful s' := by
  by_cases hturn : ∃ i a now, l = .turn i a now
  · obtain ⟨i, a, now, rfl⟩ := hturn
    rcases turn_watcher hw h with rfl | ⟨op₁, pid, r₁, hrow₁, hi, rfl⟩
    · exact hw
    · intro t ht
      obtain ⟨op, pid', r, hrow, rfl⟩ := hw t ((mem_replaceAt ht).resolve_left (by simp))
      show ∃ op' pid'' r', (s.watchEnd op₁ r₁.exitcodePath now).operations.get? op' = some r' ∧ _
      by_cases hop : op = op₁
      · subst hop
        rcases watchEnd_eq r₁.exitcodePath hrow now with ⟨-, heq⟩ | ⟨hswept, code, heq⟩
        · exact ⟨op, pid', r, by rw [heq, hrow], rfl⟩
        · obtain ⟨r', hr', -, hpath⟩ := writeTerminal_written
            (o := s.verdict r₁.exitcodePath) hrow hswept code "" now
          exact ⟨op, pid', r', by rw [heq, hr'], by rw [hpath]⟩
      · exact ⟨op, pid', r, (get?_watchEnd_of_ne _ _ hop).trans hrow, rfl⟩
  · by_cases hsweep : ∃ d now, l = .sweep d now
    · obtain ⟨d, now, rfl⟩ := hsweep
      rw [← Option.some.inj h]
      intro t ht
      rw [(sweptKept_sweep "" s d now).threads] at ht
      obtain ⟨op', pid', r, hrow, rfl⟩ := hw t ht
      obtain ⟨r', hr', hpath, -⟩ := (sweptKept_sweep _ s d now).row r hrow
      exact ⟨op', pid', r', hr', by rw [hpath]⟩
    · push Not at hturn hsweep
      obtain ⟨hops, hthreads, -⟩ := tables_outside hl h hturn hsweep
      intro t ht
      rw [hthreads] at ht
      rw [hops]
      exact hw t ht

/-! ### The whole recovery -/

theorem watchful_recoverRow (now : Int)
    (hrow : ∃ r, s.operations.get? e.1 = some r ∧ r.exitcodePath = e.2.exitcodePath)
    (hw : Watchful s) : Watchful (s.recoverRow alive now e) := by
  -- a guarded write keeps every row and its path, and adds no coroutine
  have hwrite : ∀ (o : Outcome) (code : PyStr), Watchful (s.writeTerminal e.1 o code "" now) := by
    intro o code t ht
    rw [(exitcodes_writeTerminal s e.1 o code "" now).2] at ht
    obtain ⟨op, pid, r, hr, rfl⟩ := hw t ht
    obtain ⟨r', hr', hpath⟩ := path_writeTerminal hr e.1 o code "" now
    exact ⟨op, pid, r', hr', by rw [hpath]⟩
  unfold Manager.recoverRow
  split
  · exact hwrite _ _
  · split
    · intro t ht
      rcases mem_append.mp ht with ht | ht
      · rw [(exitcodes_transition s e.1 _ _ _ now).2] at ht
        obtain ⟨op, pid, r, hr, rfl⟩ := hw t ht
        obtain ⟨r', hr', hpath⟩ := path_transition hr e.1 .degraded (some .reattached)
          [("pid", .int e.2.pid)] now
        exact ⟨op, pid, r', hr', by rw [hpath]⟩
      · obtain ⟨r, hr, hsame⟩ := hrow
        obtain ⟨r', hr', hpath⟩ := path_transition hr e.1 .degraded (some .reattached)
          [("pid", .int e.2.pid)] now
        refine ⟨e.1, e.2.pid, r', hr', ?_⟩
        rw [hpath, hsame]
        exact mem_singleton.mp ht
    · exact hwrite _ _

/-- The rows of the first manager are there in the second, with their paths. -/
def PathsKept (s s' : Manager) : Prop :=
  ∀ op r, s.operations.get? op = some r →
    ∃ r', s'.operations.get? op = some r' ∧ r'.exitcodePath = r.exitcodePath

theorem PathsKept.trans (h : PathsKept s s') (h' : PathsKept s' s'') : PathsKept s s'' := by
  intro op r hr
  obtain ⟨r', hr', hpath⟩ := h op r hr
  obtain ⟨r'', hr'', hpath'⟩ := h' op r' hr'
  exact ⟨r'', hr'', hpath'.trans hpath⟩

theorem pathsKept_recoverRow (now : Int) (s : Manager) (e : PyStr × Operation) :
    PathsKept s (s.recoverRow alive now e) := by
  intro op r hr
  unfold Manager.recoverRow
  split
  · exact path_writeTerminal hr _ _ _ _ _
  · split
    · exact path_transition hr _ _ _ _ _
    · exact path_writeTerminal hr _ _ _ _ _

theorem watchful_foldl (now : Int) {s₀ : Manager}
    (hes : ∀ e ∈ es, s₀.operations.get? e.1 = some e.2) (hkept : PathsKept s₀ s) (hw : Watchful s) :
    Watchful (es.foldl (Manager.recoverRow alive now) s) := by
  induction es generalizing s with
  | nil => exact hw
  | cons e es ih =>
    have hrow := hkept e.1 e.2 (hes e mem_cons_self)
    exact ih (fun e' he' => hes e' (mem_cons_of_mem _ he'))
      (hkept.trans (pathsKept_recoverRow alive now s e)) (watchful_recoverRow alive now hrow hw)

theorem watchful_recoverOnBoot (s : Manager) (alive : Nat → Bool) (now : Int) :
    Watchful (s.restart.recoverOnBoot alive now) := by
  have hkept : PathsKept s s.restart := fun op r hr => ⟨r, hr, rfl⟩
  refine watchful_foldl alive now ?_ hkept ?_
  · intro e he
    exact Dict.mem_entries_iff.mp (mem_of_mem_filter he)
  · intro t ht
    cases ht

theorem exitcode_step {code : Int} (hw : Watchful s) (hl : l.Waits s) (h : s.step l = some s')
    (hcode : s.readExitcode path = some code) : s'.readExitcode path = some code := by
  have hread : ∀ t : Manager, t.exitcodes = s.exitcodes → t.readExitcode path = some code := by
    intro t ht
    rw [Manager.readExitcode, ht]
    exact hcode
  by_cases hturn : ∃ i a now, l = .turn i a now
  · obtain ⟨i, a, now, rfl⟩ := hturn
    rcases turn_watcher hw h with rfl | ⟨op₁, pid, r₁, hrow₁, hi, rfl⟩
    · exact hcode
    · exact hread _ (exitcodes_watchEnd s op₁ r₁.exitcodePath now).1
  · by_cases hsweep : ∃ d now, l = .sweep d now
    · obtain ⟨d, now, rfl⟩ := hsweep
      rw [← Option.some.inj h]
      exact hread _ (sweptKept_sweep "" s d now).exitcodes
    · push Not at hturn hsweep
      rcases (tables_outside hl h hturn hsweep).2.2 with hsame | ⟨path', code', rfl, hset⟩
      · exact hread _ hsame
      · have hnew : ¬ s.exitcodes.contains path' = true := by
          intro hthere
          have hrun : s.exitFile path' code' = some s' := h
          rw [Manager.exitFile, if_pos hthere] at hrun
          cases hrun
        rw [Manager.readExitcode] at hcode ⊢
        split at hcode
        · cases hcode
        · next hpath =>
          have hne : path' ≠ path := by
            rintro rfl
            exact hnew (Dict.contains_iff.mpr ⟨code, hcode⟩)
          rw [if_neg hpath, hset, Dict.get?_set_of_ne _ _ hne]
          exact hcode

/-- **Once the watchers have finished**, every row of the earlier run is terminal exactly if
none was being cancelled; and of those that were not, one whose exit-code file holds a code,
at the restart or since, has succeeded exactly if the code is zero. -/
theorem recovery_ends (s : Manager) (alive : Nat → Bool) (now : Int)
    (hpath : operationManager.PathUnder (fun s l => l.Waits s) (s.restart.recoverOnBoot alive now) s')
    (hdone : s'.threads = []) :
    ((∀ op r, s.operations.get? op = some r →
        ∃ r', s'.operations.get? op = some r' ∧ r'.state.terminal = true) ↔
      ∀ op r, s.operations.get? op = some r → r.state ≠ .canceling) ∧
    ∀ op r code, s.operations.get? op = some r → r.state.swept = true →
      s.readExitcode r.exitcodePath = some code ∨ s'.readExitcode r.exitcodePath = some code →
      ((∃ r', s'.operations.get? op = some r' ∧ r'.state = .succeeded) ↔ code = 0) := by
  have hboot : ∀ path, (s.restart.recoverOnBoot alive now).readExitcode path = s.readExitcode path := by
    intro path
    rw [Manager.readExitcode, exitcodes_recoverOnBoot]
    rfl
  have hrun : Watchful s' ∧
      (∀ op r, s.operations.get? op = some r → r.state.swept = false →
        s'.operations.get? op = some r) ∧
      (∀ op r, s.operations.get? op = some r → r.state.swept = true →
        Recovered op r.exitcodePath s') ∧
      ∀ path code, s.readExitcode path = some code → s'.readExitcode path = some code := by
    clear hdone
    induction hpath with
    | refl =>
      refine ⟨watchful_recoverOnBoot s alive now, ?_, ?_, ?_⟩
      · intro op r hr hst
        exact row_recoverOnBoot s.restart alive now hr hst
      · intro op r hr hst
        exact recovered_recoverOnBoot s.restart alive now hr hst
      · intro path code hcode
        rw [hboot, hcode]
    | step _ hl hstep ih =>
      obtain ⟨hw, hfix, hrec, hcodes⟩ := ih
      refine ⟨watchful_step hw hl hstep, ?_, ?_, ?_⟩
      · intro op r hr hst
        exact row_step hw hl hstep (hfix op r hr hst) hst
      · intro op r hr hst
        exact recovered_step hw hl hstep (hrec op r hr hst)
      · intro path code hcode
        exact exitcode_step hw hl hstep (hcodes path code hcode)
  obtain ⟨-, hfix, hrec, hcodes⟩ := hrun
  -- no watcher is left, so a row that was not being cancelled has its verdict
  have hverdict : ∀ op r, s.operations.get? op = some r → r.state.swept = true →
      ∃ r', s'.operations.get? op = some r' ∧ r'.state = (s'.verdict r.exitcodePath).state := by
    intro op r hr hst
    obtain ⟨r', hr', hp, hend⟩ := hrec op r hr hst
    refine ⟨r', hr', ?_⟩
    rcases hend with ⟨-, pid, hwatch⟩ | hend
    · rw [hdone] at hwatch
      cases hwatch
    · exact hend
  refine ⟨⟨?_, ?_⟩, ?_⟩
  · intro hall op r hr hcanceling
    obtain ⟨r', hr', hterminal⟩ := hall op r hr
    have hnot : r.state.swept = false := by
      rw [hcanceling]
      rfl
    rw [hfix op r hr hnot] at hr'
    rw [← Option.some.inj hr', hcanceling] at hterminal
    cases hterminal
  · intro hnone op r hr
    by_cases hst : r.state.swept = true
    · obtain ⟨r', hr', hstate⟩ := hverdict op r hr hst
      refine ⟨r', hr', ?_⟩
      rw [hstate, Outcome.state_terminal]
    · have hst' : r.state.swept = false := by simpa using hst
      refine ⟨r, hfix op r hr hst', ?_⟩
      exact (not_swept hst').resolve_right (hnone op r hr)
  · intro op r code hr hst hcode
    have hcode' : s'.readExitcode r.exitcodePath = some code :=
      hcode.elim (hcodes r.exitcodePath code) id
    obtain ⟨r', hr', hstate⟩ := hverdict op r hr hst
    rw [Manager.verdict, hcode'] at hstate
    constructor
    · rintro ⟨r'', hr'', hsucceeded⟩
      rw [hr'] at hr''
      rw [← Option.some.inj hr'', hstate] at hsucceeded
      by_contra hne
      simp [Outcome.ofCode, hne, Outcome.state] at hsucceeded
    · rintro rfl
      exact ⟨r', hr', hstate⟩

def Manager.after (s : Manager) (ls : List Label) : Manager := (operationManager.run s ls).getD s

def spawnedRun (ls : List Label) : List Label :=
  [.start "op" ⟨"task", "attempt", "render", ["render"], false, "goal", "process", none⟩ 0,
    .turn 0 (.spawned 7) 1] ++ ls

/-- A process that outlives the program, and then leaves the exit code zero. -/
theorem recovery_ends_reattached :
    ∃ s', operationManager.PathUnder (fun s l => l.Waits s)
        ((((Manager.fresh "operations").after (spawnedRun [])).restart).recoverOnBoot (fun _ => true) 2) s' ∧
      ∃ r', s'.operations.get? "op" = some r' ∧ r'.state = .succeeded := by
  have hpath : operationManager.PathUnder (fun s l => l.Waits s)
      ((((Manager.fresh "operations").after (spawnedRun [])).restart).recoverOnBoot (fun _ => true) 2)
      (((((Manager.fresh "operations").after (spawnedRun [])).restart).recoverOnBoot (fun _ => true)
        2).after [.exitFile "operations/op.exitcode" 0, .turn 0 (.alive true) 3]) := by
    refine .step (.step .refl ?_ (l := .exitFile "operations/op.exitcode" 0) rfl) trivial
      (l := .turn 0 (.alive true) 3) rfl
    intro op r hr hpath
    have hmem := List.mem_singleton.mp (Dict.mem_entries_iff.mpr hr)
    rw [show r = _ from congrArg Prod.snd hmem]
    rfl
  refine ⟨_, hpath, ?_⟩
  exact ((recovery_ends _ _ _ hpath rfl).2 "op" _ 0 rfl rfl (.inr rfl)).mpr rfl

/-- A restart in the middle of a cancellation: the row stays `CANCELING`. -/
theorem canceling_stays : ∃ s, operationManager.Reachable s ∧
    (s.restart.recoverOnBoot (fun _ => false) 3).threads = [] ∧
    (s.restart.recoverOnBoot (fun _ => false) 3).stateOf "op" = some .canceling := by
  have hrun : ∃ s, operationManager.run (Manager.fresh "operations")
      (spawnedRun [.cancel "op" "user" 2]) = some s ∧
      (s.restart.recoverOnBoot (fun _ => false) 3).threads = [] ∧
      (s.restart.recoverOnBoot (fun _ => false) 3).stateOf "op" = some .canceling :=
    ⟨_, rfl, rfl, rfl⟩
  obtain ⟨s, hs, hthreads, hstate⟩ := hrun
  exact ⟨s, .of_run ⟨"operations", rfl⟩ hs, hthreads, hstate⟩

end Rosclaw.Operations
