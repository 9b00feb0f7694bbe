/-
The team coordinator: one logical coordinator for each team.

A task is announced, the allocator ranks the feasible bids and the task is awarded to the
first; the awardee accepts and completes it, and the tasks of a lost member that have no side
effects go back to ANNOUNCED.  The calls of all team classes move one database on one clock.

* `announce_ok`, `accept_ok`, `complete_ok`, `tasks_memberLost` — what a call changes, one
  lemma for each.
-/
import Rosclaw.Lib.Machine
import Rosclaw.Team.Roles

namespace Rosclaw.Team

/-- `TaskAnnouncement`, as the coordinator and the allocator read it. -/
structure TaskAnnouncement where
  taskId : PyStr
  teamEpoch : Int
  deadlineMs : Option Int
  idempotencyKey : Option PyStr
  sideEffectClass : PyStr
deriving DecidableEq, Repr

structure Bid where
  memberId : PyStr
  etaMs : PyFloat
  energyCost : PyFloat
  capabilityFit : PyFloat
  reliability : PyFloat
  currentLoad : PyFloat
  commsQuality : PyFloat
  riskFit : PyFloat
deriving DecidableEq, Repr

def Bid.inTime (bid : Bid) (deadlineMs : Option Int) : Bool :=
  deadlineMs.all fun ms => ms = 0 || !(PyFloat.finite ms).lt bid.etaMs

def feasible (a : TaskAnnouncement) (bid : Bid) : Bool :=
  !bid.capabilityFit.lt (.finite 1) && bid.inTime a.deadlineMs && !bid.riskFit.le (.finite 0)

/-- `allocate`: the winner among the feasible bids; `ahead` tells whether the score of a bid
is at least that of another one. -/
def allocate (ahead : TaskAnnouncement → Bid → Bid → Bool) (a : TaskAnnouncement)
    (bids : List Bid) : Option Bid :=
  ((bids.filter (feasible a)).insertionSort fun bid bid' => ahead a bid bid' = true).head?

/-- `side_effect_class IN ('none', 'sandbox_process')`. -/
def TaskRow.sideEffectFree (row : TaskRow) : Bool :=
  row.sideEffectClass = "none" || row.sideEffectClass = "sandbox_process"

def TaskRow.requeues (row : TaskRow) (memberId : PyStr) : Bool :=
  row.awardee = some memberId && (row.status = .awarded || row.status = .accepted) &&
    row.sideEffectFree

/-- The row that `member_lost` writes. -/
def TaskRow.requeued (row : TaskRow) : TaskRow := { row with status := .announced, awardee := none }

def TaskAnnouncement.row (a : TaskAnnouncement) (winner : PyStr) : TaskRow where
  teamEpoch := a.teamEpoch
  status := .awarded
  awardee := some winner
  idempotencyKey := a.idempotencyKey
  sideEffectClass := a.sideEffectClass

/-- `announcement.task_id or new_id("ttask")`. -/
def TaskAnnouncement.id (a : TaskAnnouncement) (newId : PyStr) : PyStr :=
  if a.taskId = "" then newId else a.taskId

/-- `evidence.get("summary") or evidence.get("receipt_ref")`. -/
def evidenced (evidence : PyVal) : Bool :=
  (evidence.get "summary").truthy || (evidence.get "receipt_ref").truthy

namespace Tables

variable (db : Tables)

/-- The row of the team with the idempotency key; a missing key equals no key. -/
def keyed? (team : PyStr) (key : Option PyStr) : Option ((PyStr × PyStr) × TaskRow) :=
  db.tasks.entries.find? fun e => e.1.1 = team ∧ e.2.idempotencyKey = key ∧ key ≠ none

/-- The award that a repeated announcement gets; an empty key is not looked up. -/
def replayed? (team : PyStr) (key : Option PyStr) : Option ((PyStr × PyStr) × TaskRow) :=
  if key = some "" then none else db.keyed? team key

/-- `announce_and_award`: the tables, the task id and the awardee. -/
def announceAndAward (ahead : TaskAnnouncement → Bid → Bid → Bool) (alive : Bool) (team : PyStr)
    (a : TaskAnnouncement) (bids : List Bid) (newId : PyStr) :
    Except Refusal (Tables × PyStr × Option PyStr) :=
  if alive = false then .error .coordinatorUnavailable
  else if a.teamEpoch ≠ db.currentEpoch team then
    .error (.announcementEpoch a.teamEpoch (db.currentEpoch team))
  else
    match db.replayed? team a.idempotencyKey with
    | some (k, row) => .ok (db, k.2, row.awardee)
    | none =>
      match allocate ahead a bids with
      | none => .error (.noFeasibleBidder a.taskId)
      | some winner =>
        if (db.tasks.get? (team, a.id newId)).isSome ∨
            (db.keyed? team a.idempotencyKey).isSome then .error .integrity
        else
          .ok ({ db with tasks := db.tasks.set (team, a.id newId) (a.row winner.memberId) },
            a.id newId, some winner.memberId)

def setTaskStatus (team taskId : PyStr) (row : TaskRow) (status : TaskStatus) : Tables :=
  { db with tasks := db.tasks.set (team, taskId) { row with status := status } }

def acceptTask (team taskId memberId : PyStr) : Except Refusal Tables :=
  match db.tasks.get? (team, taskId) with
  | none => .error (.unknownTask taskId)
  | some row =>
    if row.awardee ≠ some memberId then .error (.awardedTo taskId row.awardee)
    else if row.teamEpoch ≠ db.currentEpoch team then .error .oldEpoch
    else .ok (db.setTaskStatus team taskId row .accepted)

def completeTask (team taskId memberId : PyStr) (evidence : PyVal) : Except Refusal Tables :=
  match db.tasks.get? (team, taskId) with
  | none => .error (.notAwardedTo taskId memberId)
  | some row =>
    if row.awardee ≠ some memberId then .error (.notAwardedTo taskId memberId)
    else if evidenced evidence = false then .error .noEvidence
    else .ok (db.setTaskStatus team taskId row .done)

/-- `member_lost`; it returns what the sweep has freed. -/
def memberLost (team memberId : PyStr) (now : DateTime) : Tables :=
  if db.stateOf team memberId = some .lost then
    { db.sweepExpired team now with tasks := db.tasks.mapVals fun k row =>
        if k.1 = team ∧ row.requeues memberId = true then row.requeued else row }
  else db.sweepExpired team now

/-- `award_role`: the store checks the epoch once more. -/
def awardRole (team leaseId : PyStr) (lease : RoleLease) : Except Refusal Tables :=
  if lease.teamEpoch ≠ db.currentEpoch team then
    .error (.roleLeaseEpoch lease.teamEpoch (db.currentEpoch team))
  else db.award team leaseId lease

end Tables

/-! ### The machine -/

/-- The calls of the team classes, with the team of the object that is called. -/
inductive Call
  | addCandidate (team cardTeam memberId : PyStr) (cardEpoch : Int)
  | join (team memberId : PyStr)
  | leave (team memberId : PyStr)
  | heartbeat (team memberId : PyStr)
  | sweepTtl (team : PyStr) (suspectAfterMs lostAfterMs : Int)
  | award (team leaseId : PyStr) (lease : RoleLease)
  | awardRole (team leaseId : PyStr) (lease : RoleLease)
  | renew (team conflictKey holder newExpiresAt : PyStr)
  | revoke (team conflictKey : PyStr)
  | contest (team conflictKey : PyStr)
  | sweepExpired (team : PyStr)
  | announceAndAward (team : PyStr) (a : TaskAnnouncement) (bids : List Bid) (newId : PyStr)
  | acceptTask (team taskId memberId : PyStr)
  | completeTask (team taskId memberId : PyStr) (evidence : PyVal)
  | memberLost (team memberId : PyStr)

structure State where
  tables : Tables
  /-- `coordinator_alive` of the coordinator of the team -/
  alive : PyStr → Bool
  clock : DateTime

inductive Label
  | tick (t : DateTime)
  | coordinatorDown (team : PyStr)
  | call (c : Call)

section Machine

variable (older : Int → Int → Bool) (ahead : TaskAnnouncement → Bid → Bid → Bool)

def Call.run (s : State) : Call → Except Refusal Tables
  | .addCandidate team cardTeam memberId cardEpoch =>
      s.tables.addCandidate team cardTeam memberId cardEpoch s.clock
  | .join team memberId => s.tables.join team memberId s.clock
  | .leave team memberId => s.tables.leave team memberId
  | .heartbeat team memberId => .ok (s.tables.heartbeat team memberId s.clock)
  | .sweepTtl team suspectAfterMs lostAfterMs =>
      .ok (s.tables.sweepTtl older team suspectAfterMs lostAfterMs s.clock)
  | .award team leaseId lease => s.tables.award team leaseId lease
  | .awardRole team leaseId lease => s.tables.awardRole team leaseId lease
  | .renew team conflictKey holder newExpiresAt =>
      s.tables.renew team conflictKey holder newExpiresAt
  | .revoke team conflictKey => .ok (s.tables.revoke team conflictKey)
  | .contest team conflictKey => .ok (s.tables.contest team conflictKey)
  | .sweepExpired team => .ok (s.tables.sweepExpired team s.clock)
  | .announceAndAward team a bids newId =>
      (s.tables.announceAndAward ahead (s.alive team) team a bids newId).map Prod.fst
  | .acceptTask team taskId memberId => s.tables.acceptTask team taskId memberId
  | .completeTask team taskId memberId evidence =>
      s.tables.completeTask team taskId memberId evidence
  | .memberLost team memberId => .ok (s.tables.memberLost team memberId s.clock)

def kept (db : Tables) : Except Refusal Tables → Tables
  | .ok db' => db'
  | .error _ => db

def State.next (s : State) : Label → Option State
  | .tick t =>
      if s.clock.instant ≤ t.instant ∧ t.offset = 0 then some { s with clock := t } else none
  | .coordinatorDown team => some { s with alive := fun t => if t = team then false else s.alive t }
  | .call c => some { s with tables := kept s.tables (c.run older ahead s) }

def team : Machine State Label where
  Init s := s.tables = ⟨∅, [], ∅, ∅⟩ ∧ s.clock.offset = 0 ∧ ∀ t, s.alive t = true
  step s l := s.next older ahead l

end Machine

/-! ### What the calls change -/

namespace Tables

variable {db db' : Tables} {team taskId memberId : PyStr}

variable {a : TaskAnnouncement} {ahead : TaskAnnouncement → Bid → Bid → Bool} {bids : List Bid}
  {evidence : PyVal} {k : PyStr × PyStr} {key : Option PyStr} {leaseId newId : PyStr}
  {row : TaskRow}

theorem keyed?_eq_some (h : db.keyed? team key = some (k, row)) :
    db.tasks.get? k = some row ∧ k.1 = team ∧ row.idempotencyKey = key ∧ key ≠ none := by
  have hfound := List.find?_some h
  exact ⟨Dict.mem_entries_iff.mp (List.mem_of_find?_eq_some h), of_decide_eq_true hfound⟩

theorem keyed?_eq_none (h : db.keyed? team key = none) (hget : db.tasks.get? k = some row)
    (hteam : k.1 = team) (hkey : key ≠ none) : row.idempotencyKey ≠ key := by
  intro hsame
  have hno := List.find?_eq_none.mp h (k, row) (Dict.mem_entries_iff.mpr hget)
  exact hno (decide_eq_true ⟨hteam, hsame, hkey⟩)

theorem announce_ok {alive : Bool} {result : PyStr × Option PyStr}
    (h : db.announceAndAward ahead alive team a bids newId = .ok (db', result)) :
    alive = true ∧ a.teamEpoch = db.currentEpoch team ∧
      ((∃ k row, db.replayed? team a.idempotencyKey = some (k, row) ∧ db' = db ∧
          result = (k.2, row.awardee)) ∨
        ∃ winner, db.replayed? team a.idempotencyKey = none ∧
          allocate ahead a bids = some winner ∧ db.tasks.get? (team, a.id newId) = none ∧
          db.keyed? team a.idempotencyKey = none ∧
          db' = { db with tasks := db.tasks.set (team, a.id newId) (a.row winner.memberId) } ∧
          result = (a.id newId, some winner.memberId)) := by
  unfold announceAndAward at h
  split at h
  · cases h
  · next halive =>
    split at h
    · cases h
    · next hepoch =>
      refine ⟨Bool.eq_true_of_not_eq_false halive, not_not.mp hepoch, ?_⟩
      split at h
      · next k row hreplayed =>
        obtain ⟨rfl, rfl⟩ := Prod.mk.inj (Except.ok.inj h)
        exact .inl ⟨k, row, hreplayed, rfl, rfl⟩
      · next hreplayed =>
        split at h
        · cases h
        · next winner hwinner =>
          split at h
          · cases h
          · next hfree =>
            obtain ⟨rfl, rfl⟩ := Prod.mk.inj (Except.ok.inj h)
            obtain ⟨hid, hkey⟩ := not_or.mp hfree
            exact .inr ⟨winner, hreplayed, hwinner, by simpa using hid, by simpa using hkey,
              rfl, rfl⟩

theorem accept_ok (h : db.acceptTask team taskId memberId = .ok db') :
    ∃ row, db.tasks.get? (team, taskId) = some row ∧ row.awardee = some memberId ∧
      row.teamEpoch = db.currentEpoch team ∧
      db' = db.setTaskStatus team taskId row .accepted := by
  unfold acceptTask at h
  split at h
  · cases h
  · next row hget =>
    split at h
    · cases h
    · next hawardee =>
      split at h
      · cases h
      · next hepoch =>
        exact ⟨row, hget, not_not.mp hawardee, not_not.mp hepoch, (Except.ok.inj h).symm⟩

theorem complete_ok (h : db.completeTask team taskId memberId evidence = .ok db') :
    ∃ row, db.tasks.get? (team, taskId) = some row ∧ row.awardee = some memberId ∧
      evidenced evidence = true ∧ db' = db.setTaskStatus team taskId row .done := by
  unfold completeTask at h
  split at h
  · cases h
  · next row hget =>
    split at h
    · cases h
    · next hawardee =>
      split at h
      · cases h
      · next hevidence =>
        exact ⟨row, hget, not_not.mp hawardee, Bool.eq_true_of_not_eq_false hevidence,
          (Except.ok.inj h).symm⟩

theorem announce_of_free {winner : Bid} (hepoch : a.teamEpoch = db.currentEpoch team)
    (hfree : db.keyed? team a.idempotencyKey = none) (hwins : allocate ahead a bids = some winner)
    (hnew : db.tasks.get? (team, a.id newId) = none) :
    db.announceAndAward ahead true team a bids newId =
      .ok ({ db with tasks := db.tasks.set (team, a.id newId) (a.row winner.memberId) },
        a.id newId, some winner.memberId) := by
  have hreplayed : db.replayed? team a.idempotencyKey = none := by
    unfold replayed?
    split
    · rfl
    · exact hfree
  simp [announceAndAward, hepoch, hreplayed, hwins, hfree, hnew]

theorem accept_of (hget : db.tasks.get? (team, taskId) = some row)
    (hawardee : row.awardee = some memberId) (hepoch : row.teamEpoch = db.currentEpoch team) :
    db.acceptTask team taskId memberId = .ok (db.setTaskStatus team taskId row .accepted) := by
  simp [acceptTask, hget, hawardee, hepoch]

theorem complete_of (hget : db.tasks.get? (team, taskId) = some row)
    (hawardee : row.awardee = some memberId) (hevidence : evidenced evidence = true) :
    db.completeTask team taskId memberId evidence = .ok (db.setTaskStatus team taskId row .done) := by
  simp [completeTask, hget, hawardee, hevidence]

theorem awardRole_ok {lease : RoleLease} (h : db.awardRole team leaseId lease = .ok db') :
    db.award team leaseId lease = .ok db' := by
  unfold awardRole at h
  split at h
  · cases h
  · exact h

theorem tasks_memberLost (db : Tables) (team memberId : PyStr) (now : DateTime)
    (k : PyStr × PyStr) :
    (db.memberLost team memberId now).tasks.get? k = (db.tasks.get? k).map fun row =>
      if db.stateOf team memberId = some .lost ∧ k.1 = team ∧ row.requeues memberId = true then
        row.requeued
      else row := by
  unfold memberLost
  split
  · next hlost =>
    rw [Dict.get?_mapVals]
    simp only [hlost, true_and]
  · next hlost =>
    simp only [hlost, false_and, if_false, Option.map_id']
    rfl

theorem leases_memberLost (db : Tables) (team memberId : PyStr) (now : DateTime) :
    (db.memberLost team memberId now).leases = (db.sweepExpired team now).leases ∧
      (db.memberLost team memberId now).epochs = db.epochs := by
  unfold memberLost
  split
  all_goals exact ⟨rfl, rfl⟩

end Tables

end Rosclaw.Team
