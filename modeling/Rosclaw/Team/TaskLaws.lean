/-
Team tasks: award, acceptance, completion and loss.

A task row is written once by its award and then moved by its awardee, or taken back by the
loss of its awardee.  Four things go wrong: the allocator does not ask whether the winner is
READY, a task that is DONE can be accepted again, a task of an older epoch can be completed,
and a repeated announcement finds the row of a task that was taken back and awards nothing.

* `row_step`, `new_row` — what a step does to a row, and where a new row comes from;
* `StepLaws` — what the claims of the coordinator come to at one step;
* `stepLaws_iff` — in a reachable state, a step keeps them exactly when it is fair;
* `RunLaws` — what they come to from one state of a run to a later one;
* `task_laws` — both, for every run;
* `requeued_stuck` — a task that was taken back stays without an awardee.
-/
import Rosclaw.Team.RoleLaws

namespace Rosclaw.Team

open Tables Option

def TaskStatus.rank : TaskStatus → Nat
  | .announced => 0
  | .awarded => 1
  | .accepted => 2
  | .done => 3

def Tables.OnePerKey (db : Tables) : Prop :=
  db.tasks.UniqueBy fun k row => row.idempotencyKey.map fun key => (k.1, key)

section Laws

variable (older : Int → Int → Bool) (ahead : TaskAnnouncement → Bid → Bid → Bool)

def Call.Fair (s : State) : Call → Prop
  | .announceAndAward team a bids newId => s.alive team = true →
      a.teamEpoch = s.tables.currentEpoch team → ∀ winner, allocate ahead a bids = some winner →
        (∀ k row, s.tables.keyed? team a.idempotencyKey = some (k, row) → row.status ≠ .announced) ∧
        (s.tables.keyed? team a.idempotencyKey = none →
          s.tables.tasks.get? (team, a.id newId) = none →
            s.tables.memberReady team winner.memberId = true)
  | .acceptTask team taskId memberId => ∀ row, s.tables.tasks.get? (team, taskId) = some row →
      row.awardee = some memberId → row.teamEpoch = s.tables.currentEpoch team →
        row.status ≠ .done
  | .completeTask team taskId memberId evidence => ∀ row,
      s.tables.tasks.get? (team, taskId) = some row → row.awardee = some memberId →
        evidenced evidence = true → row.teamEpoch = s.tables.currentEpoch team
  | _ => True

/-- The winner of a new award is READY, a DONE task is not accepted, a task of an older epoch
is not completed, and the key of a task that was taken back is not announced. -/
def Fair (s : State) : Label → Prop
  | .call c => c.Fair ahead s
  | _ => True

/-- The step is the loss of the awardee, and it takes the task back. -/
def TakenBack (s : State) (l : Label) (k : PyStr × PyStr) (row row' : TaskRow) : Prop :=
  ∃ memberId, l = .call (.memberLost k.1 memberId) ∧
    s.tables.stateOf k.1 memberId = some .lost ∧ row.requeues memberId = true ∧ row' = row.requeued

structure StepLaws (s : State) (l : Label) (s' : State) : Prop where
  /-- a new awardee was READY -/
  ready : ∀ k row' memberId, s'.tables.tasks.get? k = some row' → row'.awardee = some memberId →
    (∀ row, s.tables.tasks.get? k = some row → row.awardee ≠ some memberId) →
      s.tables.memberReady k.1 memberId = true
  /-- a task stays, moves forward or is taken back -/
  forward : ∀ k row, s.tables.tasks.get? k = some row →
    ∃ row', s'.tables.tasks.get? k = some row' ∧
      (row.status.rank ≤ row'.status.rank ∨ TakenBack s l k row row')
  /-- only the awardee accepts or completes, in the current epoch -/
  caller : ∀ team taskId memberId c,
    c = .acceptTask team taskId memberId ∨ (∃ evidence, c = .completeTask team taskId memberId evidence) →
    l = .call c → c.Accepted older ahead s →
      ∃ row, s.tables.tasks.get? (team, taskId) = some row ∧ row.awardee = some memberId ∧
        row.teamEpoch = s.tables.currentEpoch team
  /-- a task with side effects keeps its awardee -/
  once : ∀ k row, s.tables.tasks.get? k = some row → row.sideEffectFree = false →
    ∃ row', s'.tables.tasks.get? k = some row' ∧ row'.awardee = row.awardee
  /-- a task that was taken back is awarded again to its key -/
  again : ∀ team a bids newId, l = .call (.announceAndAward team a bids newId) →
    s.alive team = true → a.teamEpoch = s.tables.currentEpoch team →
    (∃ bid ∈ bids, feasible a bid = true) → ∀ k row, s.tables.tasks.get? k = some row →
      k.1 = team → row.idempotencyKey = a.idempotencyKey → a.idempotencyKey ≠ none →
      row.status = .announced →
        ∃ row' memberId, s'.tables.tasks.get? k = some row' ∧ row'.status = .awarded ∧
          row'.awardee = some memberId
  /-- a key has one task -/
  keys : s'.tables.OnePerKey

variable {older ahead} {s s' : State} {l : Label} {k : PyStr × PyStr} {row row' : TaskRow}

variable {a : TaskAnnouncement} {bids : List Bid} {c : Call} {db' : Tables} {key : Option PyStr}
  {memberId newId team : PyStr} {status : TaskStatus} {s₁ s₂ : State}

theorem exists_winner :
    (∃ winner, allocate ahead a bids = some winner) ↔ ∃ bid ∈ bids, feasible a bid = true := by
  rw [← isSome_iff_exists, allocate, List.isSome_head?]
  constructor
  · intro hne
    obtain ⟨bid, hmem⟩ := List.exists_mem_of_ne_nil _ hne
    rw [List.mem_insertionSort] at hmem
    exact ⟨bid, List.mem_filter.mp hmem⟩
  · rintro ⟨bid, hmem⟩
    exact List.ne_nil_of_mem ((List.mem_insertionSort _).mpr (List.mem_filter.mpr hmem))

/-! ### What a step does to a task -/

/-- The step that accepts the task, or completes it. -/
inductive Advanced (s : State) (l : Label) (k : PyStr × PyStr) (row row' : TaskRow) : Prop
  | accepted (memberId : PyStr) (label : l = .call (.acceptTask k.1 k.2 memberId))
      (awardee : row.awardee = some memberId)
      (epoch : row.teamEpoch = s.tables.currentEpoch k.1)
      (eq : row' = { row with status := .accepted })
  | completed (memberId : PyStr) (evidence : PyVal)
      (label : l = .call (.completeTask k.1 k.2 memberId evidence))
      (awardee : row.awardee = some memberId)
      (eq : row' = { row with status := .done })

theorem awardee_of_advanced (hadvanced : Advanced s l k row row') : row'.awardee = row.awardee := by
  cases hadvanced with
  | accepted _ _ _ _ heq => rw [heq]
  | completed _ _ _ _ heq => rw [heq]

variable (ahead) in
structure Awarded (s : State) (l : Label) (k : PyStr × PyStr) (row' : TaskRow) (a : TaskAnnouncement)
    (bids : List Bid) (newId : PyStr) (winner : Bid) : Prop where
  label : l = .call (.announceAndAward k.1 a bids newId)
  key : k.2 = a.id newId
  alive : s.alive k.1 = true
  epoch : a.teamEpoch = s.tables.currentEpoch k.1
  wins : allocate ahead a bids = some winner
  new : s.tables.tasks.get? k = none
  free : s.tables.keyed? k.1 a.idempotencyKey = none
  eq : row' = a.row winner.memberId

variable (ahead) in
/-- The statement of a call on `team_tasks`. -/
inductive TaskWrite (s : State) (c : Call) (db' : Tables) : Prop
  | none (eq : db'.tasks = s.tables.tasks)
  | row (k : PyStr × PyStr) (old new : TaskRow) (get : s.tables.tasks.get? k = some old)
      (advanced : Advanced s (.call c) k old new) (eq : db'.tasks = s.tables.tasks.set k new)
  | award (k : PyStr × PyStr) (new : TaskRow) (a : TaskAnnouncement) (bids : List Bid)
      (newId : PyStr) (winner : Bid)
      (awarded : Awarded ahead s (.call c) k new a bids newId winner)
      (eq : db'.tasks = s.tables.tasks.set k new)
  | lost (team memberId : PyStr) (call : c = .memberLost team memberId)
      (eq : ∀ k, db'.tasks.get? k = (s.tables.tasks.get? k).map fun row =>
        if s.tables.stateOf team memberId = some .lost ∧ k.1 = team ∧ row.requeues memberId = true
        then row.requeued else row)

theorem taskWrite_run (h : c.run older ahead s = .ok db') : TaskWrite ahead s c db' := by
  cases c with
  | addCandidate team cardTeam memberId cardEpoch => exact .none (addCandidate_ok h).2.2
  | join team memberId => exact .none (join_ok h).2.2
  | leave team memberId => exact .none (leave_ok h).2.2
  | heartbeat team memberId =>
    cases h
    exact .none (heartbeat_frame s.tables team memberId s.clock).2.2
  | sweepTtl team suspectAfterMs lostAfterMs =>
    cases h
    exact .none rfl
  | award team leaseId lease =>
    obtain ⟨-, -, -, -, rfl⟩ := award_ok h
    exact .none rfl
  | awardRole team leaseId lease =>
    obtain ⟨-, -, -, -, rfl⟩ := award_ok (awardRole_ok h)
    exact .none rfl
  | renew team conflictKey holder newExpiresAt =>
    obtain ⟨leaseId, row, -, -, rfl⟩ := renew_ok h
    exact .none rfl
  | revoke team conflictKey =>
    cases h
    exact .none (tasks_endActive s.tables team conflictKey .revoked)
  | contest team conflictKey =>
    cases h
    exact .none (tasks_endActive s.tables team conflictKey .contested)
  | sweepExpired team =>
    cases h
    exact .none rfl
  | announceAndAward team a bids newId =>
    cases hrun : s.tables.announceAndAward ahead (s.alive team) team a bids newId with
    | error e =>
      rw [Call.run, hrun] at h
      cases h
    | ok result =>
      rw [Call.run, hrun] at h
      cases h
      obtain ⟨halive, hepoch, ⟨k, row, -, heq, -⟩ | ⟨winner, -, hwins, hnew, hfree, heq, -⟩⟩ :=
        announce_ok hrun
      · exact .none (by rw [heq])
      · refine .award (team, a.id newId) _ a bids newId winner
          ⟨rfl, rfl, halive, hepoch, hwins, hnew, hfree, rfl⟩ ?_
        rw [heq]
  | acceptTask team taskId memberId =>
    obtain ⟨row, hget, hawardee, hepoch, rfl⟩ := accept_ok h
    exact .row (team, taskId) row _ hget (.accepted memberId rfl hawardee hepoch rfl) rfl
  | completeTask team taskId memberId evidence =>
    obtain ⟨row, hget, hawardee, -, rfl⟩ := complete_ok h
    exact .row (team, taskId) row _ hget (.completed memberId evidence rfl hawardee rfl) rfl
  | memberLost team memberId =>
    cases h
    exact .lost team memberId rfl (tasks_memberLost s.tables team memberId s.clock)

theorem step_tasks (hstep : (Team.team older ahead).step s l = some s') :
    s'.tables.tasks = s.tables.tasks ∨ ∃ c, l = .call c ∧ c.run older ahead s = .ok s'.tables := by
  cases l with
  | tick t =>
    change (if _ then _ else none) = some s' at hstep
    split at hstep
    · cases hstep
      exact .inl rfl
    · cases hstep
  | coordinatorDown team =>
    cases hstep
    exact .inl rfl
  | call c =>
    rw [step_call hstep]
    cases hrun : c.run older ahead s with
    | error e => exact .inl rfl
    | ok db' => exact .inr ⟨c, rfl, hrun⟩

theorem row_step (hstep : (Team.team older ahead).step s l = some s')
    (hget : s.tables.tasks.get? k = some row) :
    ∃ row', s'.tables.tasks.get? k = some row' ∧
      (row' = row ∨ Advanced s l k row row' ∨ TakenBack s l k row row') := by
  rcases step_tasks hstep with heq | ⟨c, rfl, hrun⟩
  · exact ⟨row, by rw [heq, hget], .inl rfl⟩
  · cases taskWrite_run hrun with
    | none heq => exact ⟨row, by rw [heq, hget], .inl rfl⟩
    | row k' old new hold hadvanced heq =>
      rw [heq, Dict.get?_set]
      by_cases hk : k' = k
      · subst hk
        obtain rfl := some_inj.mp (hold.symm.trans hget)
        exact ⟨new, by rw [if_pos rfl], .inr (.inl hadvanced)⟩
      · exact ⟨row, by rw [if_neg hk, hget], .inl rfl⟩
    | award k' new a bids newId winner hawarded heq =>
      rw [heq, Dict.get?_set]
      have hk : k' ≠ k := by
        rintro rfl
        rw [hawarded.new] at hget
        cases hget
      exact ⟨row, by rw [if_neg hk, hget], .inl rfl⟩
    | lost team memberId hc heq =>
      rw [heq, hget, map_some]
      refine ⟨_, rfl, ?_⟩
      split
      · next hlost =>
        obtain ⟨hstate, rfl, hrequeues⟩ := hlost
        exact .inr (.inr ⟨memberId, by rw [hc], hstate, hrequeues, rfl⟩)
      · exact .inl rfl

theorem new_row (hstep : (Team.team older ahead).step s l = some s')
    (hget : s'.tables.tasks.get? k = some row') (hnew : s.tables.tasks.get? k = none) :
    ∃ a bids newId winner, Awarded ahead s l k row' a bids newId winner := by
  rcases step_tasks hstep with heq | ⟨c, rfl, hrun⟩
  · rw [heq, hnew] at hget
    cases hget
  · cases taskWrite_run hrun with
    | none heq =>
      rw [heq, hnew] at hget
      cases hget
    | row k' old new hold hadvanced heq =>
      rw [heq, Dict.get?_set] at hget
      split at hget
      · next hk =>
        rw [hk, hnew] at hold
        cases hold
      · rw [hnew] at hget
        cases hget
    | award k' new a bids newId winner hawarded heq =>
      rw [heq, Dict.get?_set] at hget
      split at hget
      · next hk =>
        subst hk
        cases hget
        exact ⟨a, bids, newId, winner, hawarded⟩
      · rw [hnew] at hget
        cases hget
    | lost team memberId hc heq =>
      rw [heq, hnew] at hget
      cases hget

/-! ### One task for each key -/

theorem row_origin (hstep : (Team.team older ahead).step s l = some s')
    (hget : s'.tables.tasks.get? k = some row') :
    (∃ row, s.tables.tasks.get? k = some row ∧ row.idempotencyKey = row'.idempotencyKey) ∨
      ∃ a bids newId winner, Awarded ahead s l k row' a bids newId winner := by
  cases hold : s.tables.tasks.get? k with
  | none => exact .inr (new_row hstep hget hold)
  | some row =>
    obtain ⟨row₁, hget₁, hrow⟩ := row_step hstep hold
    obtain rfl := some_inj.mp (hget₁.symm.trans hget)
    refine .inl ⟨row, rfl, ?_⟩
    rcases hrow with rfl | hadvanced | ⟨_, -, -, -, rfl⟩
    · rfl
    · cases hadvanced with
      | accepted _ _ _ _ heq => rw [heq]
      | completed _ _ _ _ heq => rw [heq]
    · rfl

theorem not_taken {image : PyStr × PyStr} (hfree : s.tables.keyed? team key = none)
    (hkey : key.map (fun x => (team, x)) = some image) (hget : s.tables.tasks.get? k = some row) :
    row.idempotencyKey.map (fun x => (k.1, x)) ≠ some image := by
  intro himage
  obtain ⟨x, rfl, rfl⟩ := map_eq_some_iff.mp hkey
  obtain ⟨y, hy, heq⟩ := map_eq_some_iff.mp himage
  obtain ⟨hteam, rfl⟩ := Prod.mk.inj heq
  exact keyed?_eq_none hfree hget hteam (by simp) hy

theorem onePerKey_step (h : s.tables.OnePerKey)
    (hstep : (Team.team older ahead).step s l = some s') : s'.tables.OnePerKey := by
  intro k₁ k₂ row₁ row₂ image hget₁ hget₂ himage₁ himage₂
  beta_reduce at himage₁ himage₂
  rcases row_origin hstep hget₁ with ⟨old₁, hold₁, hkey₁⟩ | ⟨a, bids, newId, winner, hnew₁⟩
  · rw [← hkey₁] at himage₁
    rcases row_origin hstep hget₂ with ⟨old₂, hold₂, hkey₂⟩ | ⟨a, bids, newId, winner, hnew₂⟩
    · rw [← hkey₂] at himage₂
      exact h k₁ k₂ old₁ old₂ image hold₁ hold₂ himage₁ himage₂
    · rw [hnew₂.eq] at himage₂
      exact absurd himage₁ (not_taken hnew₂.free himage₂ hold₁)
  · rcases row_origin hstep hget₂ with ⟨old₂, hold₂, hkey₂⟩ | ⟨a', bids', newId', winner', hnew₂⟩
    · rw [← hkey₂] at himage₂
      rw [hnew₁.eq] at himage₁
      exact absurd himage₂ (not_taken hnew₁.free himage₁ hold₂)
    · -- one announcement awards one task
      have hlabel := hnew₁.label.symm.trans hnew₂.label
      rw [Label.call.injEq, Call.announceAndAward.injEq] at hlabel
      obtain ⟨hteam, rfl, -, rfl⟩ := hlabel
      exact Prod.ext hteam (hnew₁.key.trans hnew₂.key.symm)

theorem onePerKey_of_reachable {C : State → Label → Prop}
    (h : (Team.team older ahead).ReachableUnder C s) : s.tables.OnePerKey := by
  refine h.invariant (P := fun s => s.tables.OnePerKey) ?_
    fun s l s' hs _ hstep => onePerKey_step hs hstep
  rintro s ⟨htables, -⟩
  rw [htables]
  exact Dict.uniqueBy_empty _

theorem keyed?_of_get (h : s.tables.OnePerKey) (hget : s.tables.tasks.get? k = some row)
    (hteam : k.1 = team) (hkey : row.idempotencyKey = key) (hne : key ≠ none) :
    s.tables.keyed? team key = some (k, row) := by
  cases hfound : s.tables.keyed? team key with
  | none => exact absurd hkey (keyed?_eq_none hfound hget hteam hne)
  | some e =>
    obtain ⟨hget', hteam', hkey', -⟩ := keyed?_eq_some hfound
    obtain ⟨x, rfl⟩ := ne_none_iff_exists'.mp hne
    have hk : k = e.1 := by
      refine h k e.1 row e.2 (team, x) hget hget' ?_ ?_
      · show row.idempotencyKey.map _ = _
        rw [hkey, map_some, hteam]
      · show e.2.idempotencyKey.map _ = _
        rw [hkey', map_some, hteam']
    rw [← hk] at hget'
    rw [some_inj]
    exact Prod.ext hk.symm (some_inj.mp (hget'.symm.trans hget))

/-! ### A step keeps the laws exactly when it is fair -/

theorem rank_le_accepted (h : status ≠ .done) : status.rank ≤ TaskStatus.accepted.rank := by
  cases status with
  | done => exact absurd rfl h
  | announced => decide
  | awarded => decide
  | accepted => decide

theorem rank_le_done (status : TaskStatus) : status.rank ≤ TaskStatus.done.rank := by
  cases status
  all_goals decide

theorem done_of_rank (h : TaskStatus.done.rank ≤ status.rank) : status = .done := by
  cases status with
  | done => rfl
  | announced => exact absurd h (by decide)
  | awarded => exact absurd h (by decide)
  | accepted => exact absurd h (by decide)

theorem awarded_of_awardee (hstep : (Team.team older ahead).step s l = some s')
    (hget : s'.tables.tasks.get? k = some row') (hawardee : row'.awardee = some memberId)
    (hbefore : ∀ row, s.tables.tasks.get? k = some row → row.awardee ≠ some memberId) :
    ∃ a bids newId winner, Awarded ahead s l k row' a bids newId winner ∧
      winner.memberId = memberId := by
  cases hold : s.tables.tasks.get? k with
  | none =>
    obtain ⟨a, bids, newId, winner, hawarded⟩ := new_row hstep hget hold
    rw [hawarded.eq] at hawardee
    exact ⟨a, bids, newId, winner, hawarded, some_inj.mp hawardee⟩
  | some row =>
    have hnot := hbefore row hold
    obtain ⟨row₁, hget₁, hrow⟩ := row_step hstep hold
    obtain rfl := some_inj.mp (hget₁.symm.trans hget)
    rcases hrow with rfl | hadvanced | ⟨_, -, -, -, rfl⟩
    · exact absurd hawardee hnot
    · exact absurd ((awardee_of_advanced hadvanced).symm.trans hawardee) hnot
    · cases hawardee

theorem ready_of_fair (hfair : Fair ahead s l) {winner : Bid}
    (hawarded : Awarded ahead s l k row' a bids newId winner) :
    s.tables.memberReady k.1 winner.memberId = true := by
  obtain ⟨rfl, hkey, halive, hepoch, hwins, hnew, hfree, -⟩ := hawarded
  exact (hfair halive hepoch winner hwins).2 hfree (hkey ▸ hnew)

theorem forward_of_fair (hfair : Fair ahead s l) (hget : s.tables.tasks.get? k = some row)
    (hadvanced : Advanced s l k row row') : row.status.rank ≤ row'.status.rank := by
  cases hadvanced with
  | accepted memberId hlabel hawardee hepoch heq =>
    subst hlabel
    rw [heq]
    exact rank_le_accepted (hfair row hget hawardee hepoch)
  | completed memberId evidence hlabel hawardee heq =>
    rw [heq]
    exact rank_le_done row.status

theorem sideEffectFree_of_requeues (h : row.requeues memberId = true) :
    row.sideEffectFree = true := by
  rw [TaskRow.requeues, Bool.and_eq_true] at h
  exact h.2

theorem stepLaws_of_fair (hkeys : s.tables.OnePerKey) (hfair : Fair ahead s l)
    (hstep : (Team.team older ahead).step s l = some s') : StepLaws older ahead s l s' where
  ready := by
    intro k row' memberId hget hawardee hbefore
    obtain ⟨a, bids, newId, winner, hawarded, rfl⟩ := awarded_of_awardee hstep hget hawardee hbefore
    exact ready_of_fair hfair hawarded
  forward := by
    intro k row hget
    obtain ⟨row', hget', hrow⟩ := row_step hstep hget
    refine ⟨row', hget', ?_⟩
    rcases hrow with rfl | hadvanced | hback
    · exact .inl le_rfl
    · exact .inl (forward_of_fair hfair hget hadvanced)
    · exact .inr hback
  caller := by
    rintro team taskId memberId c (rfl | ⟨evidence, rfl⟩) rfl ⟨db', hok⟩
    · obtain ⟨row, hget, hawardee, hepoch, -⟩ := accept_ok hok
      exact ⟨row, hget, hawardee, hepoch⟩
    · obtain ⟨row, hget, hawardee, hevidence, -⟩ := complete_ok hok
      exact ⟨row, hget, hawardee, hfair row hget hawardee hevidence⟩
  once := by
    intro k row hget heffects
    obtain ⟨row', hget', hrow⟩ := row_step hstep hget
    refine ⟨row', hget', ?_⟩
    rcases hrow with rfl | hadvanced | ⟨_, -, -, hrequeues, -⟩
    · rfl
    · exact awardee_of_advanced hadvanced
    · rw [sideEffectFree_of_requeues hrequeues] at heffects
      cases heffects
  again := by
    rintro team a bids newId rfl halive hepoch hbids k row hget hteam hkey hne hstatus
    obtain ⟨winner, hwins⟩ := exists_winner.mpr hbids
    have hfound := keyed?_of_get hkeys hget hteam hkey hne
    exact absurd hstatus ((hfair halive hepoch winner hwins).1 k row hfound)
  keys := onePerKey_step hkeys hstep

theorem tables_of_run (hrun : c.run older ahead s = .ok db')
    (hstep : (Team.team older ahead).step s (.call c) = some s') : s'.tables = db' := by
  rw [step_call hstep, hrun]
  rfl

theorem fair_of_stepLaws (hlaws : StepLaws older ahead s l s')
    (hstep : (Team.team older ahead).step s l = some s') : Fair ahead s l := by
  cases l with
  | tick t => trivial
  | coordinatorDown team => trivial
  | call c =>
    cases c with
    | announceAndAward team a bids newId =>
      intro halive hepoch winner hwins
      constructor
      · intro k row hfound hstatus
        obtain ⟨hget, hteam, hkey, hne⟩ := keyed?_eq_some hfound
        obtain ⟨row', memberId, hget', hstatus', -⟩ := hlaws.again team a bids newId rfl halive
          hepoch (exists_winner.mp ⟨winner, hwins⟩) k row hget hteam hkey hne hstatus
        obtain ⟨row₁, hget₁, hrow⟩ := row_step hstep hget
        obtain rfl := some_inj.mp (hget₁.symm.trans hget')
        rcases hrow with rfl | hadvanced | ⟨_, hlabel, -⟩
        · rw [hstatus] at hstatus'
          cases hstatus'
        · cases hadvanced with
          | accepted _ hlabel => cases hlabel
          | completed _ _ hlabel => cases hlabel
        · cases hlabel
      · intro hfree hnew
        have hok := announce_of_free hepoch hfree hwins hnew
        have hrun : (Call.announceAndAward team a bids newId).run older ahead s =
            .ok { s.tables with
              tasks := s.tables.tasks.set (team, a.id newId) (a.row winner.memberId) } := by
          rw [Call.run, halive, hok]
          rfl
        have hget' : s'.tables.tasks.get? (team, a.id newId) = some (a.row winner.memberId) := by
          rw [tables_of_run hrun hstep]
          exact Dict.get?_set_self ..
        refine hlaws.ready (team, a.id newId) _ winner.memberId hget' rfl ?_
        intro row hget
        rw [hnew] at hget
        cases hget
    | acceptTask team taskId memberId =>
      intro row hget hawardee hepoch hdone
      obtain ⟨row', hget', hrank | ⟨_, hlabel, -⟩⟩ := hlaws.forward (team, taskId) row hget
      · have hrun : (Call.acceptTask team taskId memberId).run older ahead s = .ok _ :=
          accept_of hget hawardee hepoch
        rw [tables_of_run hrun hstep] at hget'
        obtain rfl := some_inj.mp ((Dict.get?_set_self ..).symm.trans hget')
        rw [hdone] at hrank
        have hle : 3 ≤ 2 := hrank
        omega
      · cases hlabel
    | completeTask team taskId memberId evidence =>
      intro row hget hawardee hevidence
      obtain ⟨row', hget', -, hepoch⟩ := hlaws.caller team taskId memberId _
        (.inr ⟨evidence, rfl⟩) rfl ⟨_, complete_of hget hawardee hevidence⟩
      rw [some_inj.mp (hget.symm.trans hget'), hepoch]
    | _ => trivial

theorem stepLaws_iff (hkeys : s.tables.OnePerKey)
    (hstep : (Team.team older ahead).step s l = some s') :
    StepLaws older ahead s l s' ↔ Fair ahead s l :=
  ⟨fun hlaws => fair_of_stepLaws hlaws hstep, fun hfair => stepLaws_of_fair hkeys hfair hstep⟩

/-! ### Runs -/

variable (older ahead) in
/-- The laws from one state of a run to a later one. -/
structure RunLaws (s s' : State) : Prop where
  /-- DONE is absorbing -/
  absorbed : ∀ k row, s.tables.tasks.get? k = some row → row.status = .done →
    ∃ row', s'.tables.tasks.get? k = some row' ∧ row'.status = .done ∧ row'.awardee = row.awardee
  /-- a task with side effects keeps its awardee and only moves forward -/
  once : ∀ k row, s.tables.tasks.get? k = some row → row.sideEffectFree = false →
    ∃ row', s'.tables.tasks.get? k = some row' ∧ row'.awardee = row.awardee ∧
      row.status.rank ≤ row'.status.rank ∧ row'.sideEffectFree = false
  /-- a new awardee was READY when the task was awarded to it -/
  ready : ∀ k row' memberId, s'.tables.tasks.get? k = some row' → row'.awardee = some memberId →
    (∀ row, s.tables.tasks.get? k = some row → row.awardee ≠ some memberId) →
      ∃ t l t', (Team.team older ahead).PathUnder (Fair ahead) s t ∧
        (Team.team older ahead).step t l = some t' ∧
        (Team.team older ahead).PathUnder (Fair ahead) t' s' ∧
        (∀ row, t.tables.tasks.get? k = some row → row.awardee ≠ some memberId) ∧
        t.tables.memberReady k.1 memberId = true

theorem sideEffectFree_of_step
    (hrow : row' = row ∨ Advanced s l k row row' ∨ TakenBack s l k row row') :
    row'.sideEffectFree = row.sideEffectFree := by
  rcases hrow with rfl | hadvanced | ⟨_, -, -, -, rfl⟩
  · rfl
  · cases hadvanced with
    | accepted _ _ _ _ heq => rw [heq]; rfl
    | completed _ _ _ _ heq => rw [heq]; rfl
  · rfl

theorem RunLaws.step (h : RunLaws older ahead s s₁)
    (hpath : (Team.team older ahead).PathUnder (Fair ahead) s s₁) (hfair : Fair ahead s₁ l)
    (hstep : (Team.team older ahead).step s₁ l = some s₂) :
    RunLaws older ahead s s₂ where
  absorbed := by
    intro k row hget hdone
    obtain ⟨row₁, hget₁, hdone₁, hawardee₁⟩ := h.absorbed k row hget hdone
    obtain ⟨row₂, hget₂, hrow⟩ := row_step hstep hget₁
    rcases hrow with rfl | hadvanced | ⟨memberId, -, -, hrequeues, -⟩
    · exact ⟨row₂, hget₂, hdone₁, hawardee₁⟩
    · refine ⟨row₂, hget₂, ?_, (awardee_of_advanced hadvanced).trans hawardee₁⟩
      have hrank := forward_of_fair hfair hget₁ hadvanced
      rw [hdone₁] at hrank
      exact done_of_rank hrank
    · rw [TaskRow.requeues, hdone₁] at hrequeues
      simp at hrequeues
  once := by
    intro k row hget heffects
    obtain ⟨row₁, hget₁, hawardee₁, hrank₁, heffects₁⟩ := h.once k row hget heffects
    obtain ⟨row₂, hget₂, hrow⟩ := row_step hstep hget₁
    have hclass := sideEffectFree_of_step hrow
    refine ⟨row₂, hget₂, ?_, ?_, hclass.trans heffects₁⟩
    · rcases hrow with rfl | hadvanced | ⟨_, -, -, hrequeues, -⟩
      · exact hawardee₁
      · exact (awardee_of_advanced hadvanced).trans hawardee₁
      · rw [sideEffectFree_of_requeues hrequeues] at heffects₁
        cases heffects₁
    · rcases hrow with rfl | hadvanced | ⟨_, -, -, hrequeues, -⟩
      · exact hrank₁
      · exact hrank₁.trans (forward_of_fair hfair hget₁ hadvanced)
      · rw [sideEffectFree_of_requeues hrequeues] at heffects₁
        cases heffects₁
  ready := by
    intro k row' memberId hget hawardee hbefore
    by_cases hthen : ∀ row, s₁.tables.tasks.get? k = some row → row.awardee ≠ some memberId
    · obtain ⟨a, bids, newId, winner, hawarded, rfl⟩ := awarded_of_awardee hstep hget hawardee hthen
      exact ⟨s₁, l, s₂, hpath, hstep, .refl, hthen, ready_of_fair hfair hawarded⟩
    · obtain ⟨row₁, hheld⟩ := not_forall.mp hthen
      obtain ⟨hget₁, hawardee₁⟩ := Classical.not_imp.mp hheld
      rw [ne_eq, not_not] at hawardee₁
      obtain ⟨t, l', t', hst, hstep', ht's, hnot, hready⟩ :=
        h.ready k row₁ memberId hget₁ hawardee₁ hbefore
      exact ⟨t, l', t', hst, hstep', .step ht's hfair hstep, hnot, hready⟩

theorem RunLaws.refl (s : State) : RunLaws older ahead s s where
  absorbed := fun _ row hget hdone => ⟨row, hget, hdone, rfl⟩
  once := fun _ row hget heffects => ⟨row, hget, rfl, le_rfl, heffects⟩
  ready := fun _ row' _ hget hawardee hbefore => absurd hawardee (hbefore row' hget)

theorem runLaws_of_path (hpath : (Team.team older ahead).PathUnder (Fair ahead) s s') :
    RunLaws older ahead s s' := by
  induction hpath with
  | refl => exact .refl s
  | step hpath hfair hstep ih => exact ih.step hpath hfair hstep

/-- **The laws hold at the fair steps of every run**, at these alone, and over every part of a
run that takes fair steps. -/
theorem task_laws (h : (Team.team older ahead).Reachable s) :
    (∀ l s', (Team.team older ahead).step s l = some s' →
      (StepLaws older ahead s l s' ↔ Fair ahead s l)) ∧
    ∀ s', (Team.team older ahead).PathUnder (Fair ahead) s s' → RunLaws older ahead s s' :=
  ⟨fun _ _ hstep => stepLaws_iff (onePerKey_of_reachable h) hstep,
    fun _ hpath => runLaws_of_path hpath⟩

end Laws

/-! ### A team of two -/

def joinedRun : List Label :=
  [.call (.addCandidate "blue_team" "blue_team" "r1" 0), .call (.join "blue_team" "r1"),
    .call (.addCandidate "blue_team" "blue_team" "r2" 0), .call (.join "blue_team" "r2")]

def sampleTask : TaskAnnouncement where
  taskId := "task_pass_1"
  teamEpoch := 2
  deadlineMs := some 5000
  idempotencyKey := some "k6-pass-1"
  sideEffectClass := "none"

def sampleBid (memberId : PyStr) : Bid where
  memberId := memberId
  etaMs := .finite 300
  energyCost := .finite 80
  capabilityFit := .finite 1
  reliability := .finite (9 / 10)
  currentLoad := .finite 0
  commsQuality := .finite (9 / 10)
  riskFit := .finite 1

def sampleAnnounce (memberId : PyStr) : Call :=
  .announceAndAward "blue_team" sampleTask [sampleBid memberId] "ttask_1"

def sampleKey : PyStr × PyStr := ("blue_team", "task_pass_1")

/-- The first member is awarded the task, accepts it and completes it. -/
theorem task_laws_done : ∃ s s',
    (team sampleOlder sampleAhead).run sampleState joinedRun = some s ∧
      (s'.tables.tasks.get? sampleKey).map TaskRow.status = some .done ∧
      RunLaws sampleOlder sampleAhead s s' := by
  have hrun : ∃ s s₁ s₂ s₃, (team sampleOlder sampleAhead).run sampleState joinedRun = some s ∧
      (team sampleOlder sampleAhead).step s (.call (sampleAnnounce "r1")) = some s₁ ∧
      (team sampleOlder sampleAhead).step s₁
        (.call (.acceptTask "blue_team" "task_pass_1" "r1")) = some s₂ ∧
      (team sampleOlder sampleAhead).step s₂ (.call (.completeTask "blue_team" "task_pass_1" "r1"
        (.dict [("summary", .str "delivered")]))) = some s₃ ∧
      s.tables.keyed? "blue_team" sampleTask.idempotencyKey = none ∧
      s.tables.memberReady "blue_team" "r1" = true ∧
      s₁.tables.tasks.get? sampleKey = some (sampleTask.row "r1") ∧
      s₂.tables.tasks.get? sampleKey = some { sampleTask.row "r1" with status := .accepted } ∧
      s₂.tables.currentEpoch "blue_team" = 2 ∧
      (s₃.tables.tasks.get? sampleKey).map TaskRow.status = some .done :=
    ⟨_, _, _, _, rfl, rfl, rfl, rfl, rfl, rfl, rfl, rfl, rfl, rfl⟩
  obtain ⟨s, s₁, s₂, s₃, hrun, h₁, h₂, h₃, hfree, hready, hget₁, hget₂, hepoch, hdone⟩ := hrun
  have hreachable : (team sampleOlder sampleAhead).Reachable s :=
    .of_run ⟨rfl, rfl, fun _ => rfl⟩ hrun
  refine ⟨s, s₃, hrun, hdone, (task_laws hreachable).2 s₃ ?_⟩
  refine .step (.step (.step .refl ?_ h₁) ?_ h₂) ?_ h₃
  · intro _ _ winner hwins
    obtain rfl : sampleBid "r1" = winner := Option.some_inj.mp hwins
    refine ⟨fun k row hfound => ?_, fun _ _ => hready⟩
    rw [hfree] at hfound
    cases hfound
  · intro row hget _ _ hstatus
    obtain rfl := Option.some_inj.mp (hget₁.symm.trans hget)
    cases hstatus
  · intro row hget _ _
    obtain rfl := Option.some_inj.mp (hget₂.symm.trans hget)
    show (2 : Int) = s₂.tables.currentEpoch "blue_team"
    rw [hepoch]
    rfl

/-- The awardee is lost and its task is taken back: a second announcement of its key, with a
feasible bid of a member that is READY, gives the task no awardee. -/
theorem requeued_stuck : ∃ s s', (team sampleOlder sampleAhead).Reachable s ∧
    (team sampleOlder sampleAhead).step s (.call (sampleAnnounce "r2")) = some s' ∧
    s.tables.memberReady "blue_team" "r2" = true ∧
    (s'.tables.tasks.get? sampleKey).map TaskRow.awardee = some none ∧
    ¬ StepLaws sampleOlder sampleAhead s (.call (sampleAnnounce "r2")) s' := by
  have hrun : ∃ s s', (team sampleOlder sampleAhead).run sampleState (joinedRun ++
        [.call (sampleAnnounce "r1"), .tick minuteLater, .call (.heartbeat "blue_team" "r2"),
          .call (.sweepTtl "blue_team" 1000 3000), .call (.memberLost "blue_team" "r1")]) = some s ∧
      (team sampleOlder sampleAhead).step s (.call (sampleAnnounce "r2")) = some s' ∧
      s.tables.memberReady "blue_team" "r2" = true ∧ s.alive "blue_team" = true ∧
      s.tables.currentEpoch "blue_team" = 2 ∧
      s.tables.tasks.get? sampleKey = some (sampleTask.row "r1").requeued ∧
      s'.tables.tasks.get? sampleKey = some (sampleTask.row "r1").requeued :=
    ⟨_, _, rfl, rfl, rfl, rfl, rfl, rfl, rfl⟩
  obtain ⟨s, s', hrun, hstep, hready, halive, hepoch, hget, hget'⟩ := hrun
  refine ⟨s, s', .of_run ⟨rfl, rfl, fun _ => rfl⟩ hrun, hstep, hready, by rw [hget']; rfl, ?_⟩
  intro hlaws
  have hcurrent : sampleTask.teamEpoch = s.tables.currentEpoch "blue_team" := by
    rw [hepoch]
    rfl
  obtain ⟨row', memberId, hrow', -, hawardee⟩ := hlaws.again "blue_team" sampleTask _ "ttask_1" rfl
    halive hcurrent ⟨sampleBid "r2", List.mem_singleton_self _, rfl⟩ sampleKey _ hget rfl rfl
    (by simp [sampleTask]) rfl
  obtain rfl := Option.some_inj.mp (hget'.symm.trans hrow')
  cases hawardee

end Rosclaw.Team
