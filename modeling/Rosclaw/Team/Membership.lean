/-
Team membership: the roster, the epochs and the health states of the members.

A member row is looked up by its team and its id, an epoch row by its team and number, a
role lease by its lease id and a team task by its team and id; one database holds the
rows of all teams.  Every call of the team classes is one step: it raises before its
first statement or runs to its end.

* `join_ok`, `leave_ok` — what a join or a leave that went through has changed;
* `currentEpoch_bumpEpoch` — a bump moves the epoch of its own team, by one.
-/
import Rosclaw.Lib.DateTime
import Rosclaw.Lib.Dict
import Rosclaw.Lib.Text

namespace Rosclaw.Team

inductive MemberState
  | candidate | joining | ready | suspect | lost | left
deriving DecidableEq, Repr

def MemberState.allowed : MemberState → List MemberState
  | candidate => [joining, left]
  | joining => [ready, left]
  | ready => [suspect, left]
  | suspect => [ready, lost, left]
  | lost => [joining, left]
  | left => [candidate]

/-- A row of `team_members`, of the team and the member of its key. -/
structure MemberRow where
  state : MemberState
  teamEpoch : Int
  lastSeenAt : DateTime
deriving DecidableEq, Repr

inductive LeaseState
  | active | expired | revoked | contested
deriving DecidableEq, Repr

structure RoleScope where
  region : Option PyStr
  taskTypes : List PyStr
deriving DecidableEq, Repr

structure RoleLease where
  teamId : PyStr
  teamEpoch : Int
  role : PyStr
  holder : PyStr
  scope : RoleScope
  issuedAt : PyStr
  expiresAt : PyStr
  renewAfterMs : Int
  priority : Int
  conflictKey : PyStr
  policyHash : PyStr
  state : LeaseState
deriving DecidableEq, Repr

/-- A row of `role_leases`, of the lease id of its key. -/
structure LeaseRow where
  teamId : PyStr
  teamEpoch : Int
  conflictKey : PyStr
  holder : PyStr
  /-- `lease_json` -/
  lease : RoleLease
  state : LeaseState
  expiresAt : PyStr
deriving DecidableEq, Repr

inductive TaskStatus
  | announced | awarded | accepted | done
deriving DecidableEq, Repr

/-- A row of `team_tasks`, of the team and the task of its key. -/
structure TaskRow where
  teamEpoch : Int
  status : TaskStatus
  awardee : Option PyStr
  idempotencyKey : Option PyStr
  sideEffectClass : PyStr
deriving DecidableEq, Repr

structure Tables where
  members : Dict (PyStr × PyStr) MemberRow
  /-- the teams and numbers of the epochs -/
  epochs : List (PyStr × Nat)
  leases : Dict PyStr LeaseRow
  tasks : Dict (PyStr × PyStr) TaskRow

inductive Refusal
  | cardOfOtherTeam (cardTeam : PyStr)
  | unknownMember (memberId : PyStr)
  | memberInState (memberId : PyStr) (state : MemberState)
  | illegalTransition (state target : MemberState)
  | leaseEpoch (epoch current : Int)
  | roleLeaseEpoch (epoch current : Int)
  | holderNotReady (holder : PyStr)
  | roleConflict (conflictKey : PyStr) (epoch : Int)
  | noActiveLease (conflictKey holder : PyStr)
  | coordinatorUnavailable
  | announcementEpoch (epoch current : Int)
  | noFeasibleBidder (taskId : PyStr)
  | integrity
  | unknownTask (taskId : PyStr)
  | awardedTo (taskId : PyStr) (awardee : Option PyStr)
  | notAwardedTo (taskId memberId : PyStr)
  | oldEpoch
  | noEvidence
deriving DecidableEq, Repr

namespace Tables

variable (db : Tables)

/-- `SELECT MAX(epoch) FROM team_epochs WHERE team_id = ?`, or zero. -/
def currentEpoch (team : PyStr) : Nat :=
  ((db.epochs.filter fun e => e.1 = team).map Prod.snd).foldl max 0

def bumpEpoch (team : PyStr) : Tables :=
  { db with epochs := db.epochs ++ [(team, db.currentEpoch team + 1)] }

def stateOf (team memberId : PyStr) : Option MemberState :=
  (db.members.get? (team, memberId)).map MemberRow.state

/-- `UPDATE team_members SET … WHERE team_id = ? AND member_id = ?`. -/
def updateMember (team memberId : PyStr) (f : MemberRow → MemberRow) : Tables :=
  { db with members := db.members.mapVals fun k row => if k = (team, memberId) then f row else row }

def setState (team memberId : PyStr) (state : MemberState) : Except Refusal Tables :=
  match db.stateOf team memberId with
  | none => .error (.unknownMember memberId)
  | some current =>
    if state ∈ current.allowed then
      .ok (db.updateMember team memberId fun row => { row with state := state })
    else .error (.illegalTransition current state)

/-- `add_candidate` with a card of the team and the member; on a member who is there already
it only replaces the card. -/
def addCandidate (team cardTeam memberId : PyStr) (cardEpoch : Int) (now : DateTime) :
    Except Refusal Tables :=
  if cardTeam ≠ team then .error (.cardOfOtherTeam cardTeam)
  else if (db.members.get? (team, memberId)).isSome then .ok db
  else .ok { db with members := db.members.set (team, memberId) ⟨.candidate, cardEpoch, now⟩ }

/-- `join`: the member is ready, of the epoch that its join commits. -/
def join (team memberId : PyStr) (now : DateTime) : Except Refusal Tables :=
  match db.stateOf team memberId with
  | none => .error (.unknownMember memberId)
  | some current =>
    if current ∈ [MemberState.candidate, .left, .lost] then
      (db.setState team memberId .joining).map fun db' =>
        let epoch : Int := db'.currentEpoch team + 1
        (db'.bumpEpoch team).updateMember team memberId fun _ => ⟨.ready, epoch, now⟩
    else .error (.memberInState memberId current)

def leave (team memberId : PyStr) : Except Refusal Tables :=
  (db.setState team memberId .left).map fun db' => db'.bumpEpoch team

def heartbeat (team memberId : PyStr) (now : DateTime) : Tables :=
  if db.stateOf team memberId = some .ready ∨ db.stateOf team memberId = some .suspect then
    db.updateMember team memberId fun row => { row with lastSeenAt := now, state := .ready }
  else db

/-- What `sweep_ttl` makes of a row; `older` compares the age of the row, in microseconds,
with a number of milliseconds, as the division and the product of the floats come out. -/
def aged (older : Int → Int → Bool) (suspectAfterMs lostAfterMs : Int) (now : DateTime)
    (row : MemberRow) : MemberRow :=
  let age := now.instant - row.lastSeenAt.instant
  if row.state = .ready ∨ row.state = .suspect then
    if older age lostAfterMs then { row with state := .lost }
    else if row.state = .ready ∧ older age suspectAfterMs then { row with state := .suspect }
    else row
  else row

def sweepTtl (older : Int → Int → Bool) (team : PyStr) (suspectAfterMs lostAfterMs : Int)
    (now : DateTime) : Tables :=
  { db with members := db.members.mapVals fun k row =>
      if k.1 = team then aged older suspectAfterMs lostAfterMs now row else row }

/-! ### What the membership calls leave alone -/

variable {db} {db' : Tables}

variable {cardTeam memberId team : PyStr} {now : DateTime}

theorem setState_ok {state : MemberState} (h : db.setState team memberId state = .ok db') :
    db'.epochs = db.epochs ∧ db'.leases = db.leases ∧ db'.tasks = db.tasks := by
  unfold setState at h
  split at h
  · cases h
  · split at h
    · cases h
      exact ⟨rfl, rfl, rfl⟩
    · cases h

theorem currentEpoch_congr (h : db'.epochs = db.epochs) (team : PyStr) :
    db'.currentEpoch team = db.currentEpoch team := by
  rw [currentEpoch, currentEpoch, h]

theorem currentEpoch_bumpEpoch (db : Tables) (team other : PyStr) :
    (db.bumpEpoch team).currentEpoch other =
      if team = other then db.currentEpoch team + 1 else db.currentEpoch other := by
  show (((db.epochs ++ [(team, db.currentEpoch team + 1)]).filter _).map Prod.snd).foldl max 0 = _
  rw [List.filter_append, List.map_append, List.foldl_append]
  by_cases hteam : team = other
  · subst hteam
    have hlast : ([(team, db.currentEpoch team + 1)].filter fun e => decide (e.1 = team)) =
        [(team, db.currentEpoch team + 1)] := List.filter_cons_of_pos (by simp)
    rw [hlast, if_pos rfl]
    show max (db.currentEpoch team) (db.currentEpoch team + 1) = _
    omega
  · have hlast : ([(team, db.currentEpoch team + 1)].filter fun e => decide (e.1 = other)) = [] :=
      List.filter_cons_of_neg (by simpa using hteam)
    rw [hlast, if_neg hteam]
    rfl

theorem addCandidate_ok {cardEpoch : Int}
    (h : db.addCandidate team cardTeam memberId cardEpoch now = .ok db') :
    db'.epochs = db.epochs ∧ db'.leases = db.leases ∧ db'.tasks = db.tasks := by
  unfold addCandidate at h
  split at h
  · cases h
  · split at h
    all_goals
      cases h
      exact ⟨rfl, rfl, rfl⟩

theorem join_ok (h : db.join team memberId now = .ok db') :
    db'.epochs = (db.bumpEpoch team).epochs ∧ db'.leases = db.leases ∧ db'.tasks = db.tasks := by
  unfold join at h
  split at h
  · cases h
  · split at h
    · cases hset : db.setState team memberId .joining with
      | error e =>
        rw [hset] at h
        cases h
      | ok mid =>
        rw [hset] at h
        cases h
        obtain ⟨hepochs, hleases, htasks⟩ := setState_ok hset
        refine ⟨?_, hleases, htasks⟩
        show mid.epochs ++ [(team, mid.currentEpoch team + 1)] = _
        rw [currentEpoch_congr hepochs, hepochs]
        rfl
    · cases h

theorem leave_ok (h : db.leave team memberId = .ok db') :
    db'.epochs = (db.bumpEpoch team).epochs ∧ db'.leases = db.leases ∧ db'.tasks = db.tasks := by
  unfold leave at h
  cases hset : db.setState team memberId .left with
  | error e =>
    rw [hset] at h
    cases h
  | ok mid =>
    rw [hset] at h
    cases h
    obtain ⟨hepochs, hleases, htasks⟩ := setState_ok hset
    refine ⟨?_, hleases, htasks⟩
    show mid.epochs ++ [(team, mid.currentEpoch team + 1)] = _
    rw [currentEpoch_congr hepochs, hepochs]
    rfl

theorem heartbeat_frame (db : Tables) (team memberId : PyStr) (now : DateTime) :
    (db.heartbeat team memberId now).epochs = db.epochs ∧
      (db.heartbeat team memberId now).leases = db.leases ∧
      (db.heartbeat team memberId now).tasks = db.tasks := by
  unfold heartbeat
  split
  all_goals exact ⟨rfl, rfl, rfl⟩

end Tables

end Rosclaw.Team
