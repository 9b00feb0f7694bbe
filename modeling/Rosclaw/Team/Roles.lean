/-
Role leases with epoch and conflict key.

A role is a lease that a member holds for a conflict key in an epoch of its team.  The
store keeps the leases in one table, whose partial index admits one ACTIVE lease for each
team, epoch and key.

* `award`, `renew`, `revoke`, `contest`, `sweepExpired` — the calls of the store;
* `award_ok`, `renew_ok`, `endActive_cases` — what a call changes, one lemma for each;
* `Exclusive` — the partial index, kept by every call.
-/
import Rosclaw.Team.Membership

namespace Rosclaw.Team

/-- The row that `award` inserts. -/
def RoleLease.row (lease : RoleLease) (team : PyStr) : LeaseRow where
  teamId := team
  teamEpoch := lease.teamEpoch
  conflictKey := lease.conflictKey
  holder := lease.holder
  lease := lease
  state := .active
  expiresAt := lease.expiresAt

/-- The row with the expiry that `renew` writes, in the lease as well. -/
def LeaseRow.renewed (row : LeaseRow) (newExpiresAt : PyStr) : LeaseRow :=
  { row with lease := { row.lease with expiresAt := newExpiresAt }, expiresAt := newExpiresAt }

def LeaseRow.isActive (row : LeaseRow) (team conflictKey : PyStr) : Bool :=
  row.teamId = team && row.conflictKey = conflictKey && row.state = .active

namespace Tables

variable (db : Tables)

/-- `_active`: the first ACTIVE row of the key. -/
def active? (team conflictKey : PyStr) : Option (PyStr × LeaseRow) :=
  db.leases.entries.find? fun e => e.2.isActive team conflictKey

def activeHolder (team conflictKey : PyStr) : Option PyStr :=
  (db.active? team conflictKey).map fun e => e.2.holder

def activeLeases (team : PyStr) : List RoleLease :=
  (db.leases.entries.filter fun e => e.2.teamId = team ∧ e.2.state = .active).map fun e => e.2.lease

def memberReady (team memberId : PyStr) : Bool := db.stateOf team memberId = some .ready

/-- The partial index has a row of the team, the epoch and the key. -/
def indexed (team : PyStr) (epoch : Int) (conflictKey : PyStr) : Bool :=
  db.leases.values.any fun row => row.isActive team conflictKey && row.teamEpoch = epoch

/-- `RoleLeaseStore.award`, with the id that `new_id` gave. -/
def award (team leaseId : PyStr) (lease : RoleLease) : Except Refusal Tables :=
  if lease.teamEpoch ≠ db.currentEpoch team then
    .error (.leaseEpoch lease.teamEpoch (db.currentEpoch team))
  else if lease.holder ≠ "" ∧ db.memberReady team lease.holder = false then
    .error (.holderNotReady lease.holder)
  else if db.indexed team lease.teamEpoch lease.conflictKey ∨ (db.leases.get? leaseId).isSome then
    .error (.roleConflict lease.conflictKey lease.teamEpoch)
  else
    .ok { db with leases := db.leases.set leaseId (lease.row team) }

def renew (team conflictKey holder newExpiresAt : PyStr) : Except Refusal Tables :=
  match db.active? team conflictKey with
  | none => .error (.noActiveLease conflictKey holder)
  | some (leaseId, row) =>
    if row.holder ≠ holder then .error (.noActiveLease conflictKey holder)
    else .ok { db with leases := db.leases.set leaseId (row.renewed newExpiresAt) }

/-- `UPDATE role_leases SET state = ? WHERE lease_id = ?` on the row that `_active` finds, if
it finds one. -/
def endActive (team conflictKey : PyStr) (state : LeaseState) : Tables :=
  match db.active? team conflictKey with
  | none => db
  | some (leaseId, row) => { db with leases := db.leases.set leaseId { row with state := state } }

def revoke (team conflictKey : PyStr) : Tables := db.endActive team conflictKey .revoked

def contest (team conflictKey : PyStr) : Tables := db.endActive team conflictKey .contested

/-- `sweep_expired` expires this row: it compares the texts of the times. -/
def expires (team : PyStr) (now : DateTime) (row : LeaseRow) : Bool :=
  row.teamId = team && row.state = .active &&
    (row.expiresAt.lt now.utcText || row.teamEpoch ≠ db.currentEpoch team)

def sweepExpired (team : PyStr) (now : DateTime) : Tables :=
  { db with leases := db.leases.mapVals fun _ row =>
      if db.expires team now row then { row with state := .expired } else row }

/-- The lease is ACTIVE, of the current epoch and not past its expiry. -/
def Effective (now : DateTime) (row : LeaseRow) : Prop :=
  row.state = .active ∧ row.teamEpoch = db.currentEpoch row.teamId ∧ now.past row.expiresAt = false

instance (now : DateTime) (row : LeaseRow) : Decidable (db.Effective now row) :=
  inferInstanceAs (Decidable (_ ∧ _ ∧ _))

/-- One ACTIVE row for each team, epoch and key: the partial index. -/
def Exclusive : Prop :=
  db.leases.UniqueBy fun _ row =>
    if row.state = .active then some (row.teamId, row.teamEpoch, row.conflictKey) else none

/-! ### The queries -/

variable {db} {db' : Tables}

variable {team conflictKey : PyStr}

variable {lease : RoleLease} {leaseId newExpiresAt : PyStr} {row row' : LeaseRow}

theorem isActive_iff : row.isActive team conflictKey = true ↔
      row.teamId = team ∧ row.conflictKey = conflictKey ∧ row.state = .active := by
  simp [LeaseRow.isActive, and_assoc]

theorem active?_eq_some {team conflictKey : PyStr}
    (h : db.active? team conflictKey = some (leaseId, row)) :
    db.leases.get? leaseId = some row ∧ row.isActive team conflictKey = true := by
  have hfound := List.find?_some h
  exact ⟨Dict.mem_entries_iff.mp (List.mem_of_find?_eq_some h), hfound⟩

theorem active?_eq_none : db.active? team conflictKey = none ↔
      ∀ leaseId row, db.leases.get? leaseId = some row → row.isActive team conflictKey = false := by
  rw [active?, List.find?_eq_none]
  constructor
  · intro h leaseId row hget
    exact Bool.eq_false_iff.mpr (h _ (Dict.mem_entries_iff.mpr hget))
  · intro h e hmem
    exact Bool.eq_false_iff.mp (h e.1 e.2 (Dict.mem_entries_iff.mp hmem))

theorem activeHolder_eq_none : db.activeHolder team conflictKey = none ↔
      ∀ leaseId row, db.leases.get? leaseId = some row → row.isActive team conflictKey = false := by
  rw [activeHolder, Option.map_eq_none_iff, active?_eq_none]

theorem not_indexed {epoch : Int} (h : db.indexed team epoch conflictKey = false)
    (hget : db.leases.get? leaseId = some row) (hactive : row.isActive team conflictKey = true) :
    row.teamEpoch ≠ epoch := by
  intro hepoch
  have hno := List.any_eq_false.mp h row (Dict.mem_values_iff.mpr ⟨leaseId, hget⟩)
  rw [hactive, hepoch] at hno
  simp at hno

/-! ### What a call changes -/

theorem award_ok {team : PyStr} (h : db.award team leaseId lease = .ok db') :
    lease.teamEpoch = db.currentEpoch team ∧
      (lease.holder = "" ∨ db.memberReady team lease.holder = true) ∧
      db.indexed team lease.teamEpoch lease.conflictKey = false ∧
      db.leases.get? leaseId = none ∧
      db' = { db with leases := db.leases.set leaseId (lease.row team) } := by
  unfold award at h
  split at h
  · cases h
  · next hepoch =>
    split at h
    · cases h
    · next hholder =>
      split at h
      · cases h
      · next hfree =>
        obtain ⟨hindexed, hid⟩ := not_or.mp hfree
        refine ⟨not_not.mp hepoch, ?_, Bool.eq_false_iff.mpr hindexed, by simpa using hid,
          (Except.ok.inj h).symm⟩
        by_contra hnot
        obtain ⟨hname, hready⟩ := not_or.mp hnot
        exact hholder ⟨hname, Bool.eq_false_iff.mpr hready⟩

theorem renew_ok {team conflictKey holder : PyStr}
    (h : db.renew team conflictKey holder newExpiresAt = .ok db') :
    ∃ leaseId row, db.active? team conflictKey = some (leaseId, row) ∧ row.holder = holder ∧
      db' = { db with leases := db.leases.set leaseId (row.renewed newExpiresAt) } := by
  unfold renew at h
  split at h
  · cases h
  · next leaseId row hactive =>
    split at h
    · cases h
    · next hholder => exact ⟨leaseId, row, hactive, not_not.mp hholder, (Except.ok.inj h).symm⟩

theorem endActive_cases (db : Tables) (team conflictKey : PyStr) (state : LeaseState) :
    (db.active? team conflictKey = none ∧ db.endActive team conflictKey state = db) ∨
      ∃ leaseId row, db.active? team conflictKey = some (leaseId, row) ∧
        db.endActive team conflictKey state =
          { db with leases := db.leases.set leaseId { row with state := state } } := by
  unfold endActive
  split
  · next h => exact .inl ⟨h, rfl⟩
  · next leaseId row h => exact .inr ⟨leaseId, row, h, rfl⟩

theorem epochs_endActive (db : Tables) (team conflictKey : PyStr) (state : LeaseState) :
    (db.endActive team conflictKey state).epochs = db.epochs := by
  rcases endActive_cases db team conflictKey state with ⟨-, heq⟩ | ⟨_, _, -, heq⟩
  all_goals rw [heq]

theorem tasks_endActive (db : Tables) (team conflictKey : PyStr) (state : LeaseState) :
    (db.endActive team conflictKey state).tasks = db.tasks := by
  rcases endActive_cases db team conflictKey state with ⟨-, heq⟩ | ⟨_, _, -, heq⟩
  all_goals rw [heq]

def FewerActive (db db' : Tables) : Prop :=
  ∀ leaseId row, db'.leases.get? leaseId = some row → row.state = .active →
    db.leases.get? leaseId = some row

theorem FewerActive.of_eq (h : db'.leases = db.leases) : FewerActive db db' := by
  intro leaseId row hget _
  rwa [h] at hget

theorem fewerActive_endActive (db : Tables) (team conflictKey : PyStr) {state : LeaseState}
    (hstate : state ≠ .active) : FewerActive db (db.endActive team conflictKey state) := by
  intro leaseId row hget hactive
  rcases endActive_cases db team conflictKey state with ⟨-, heq⟩ | ⟨id, found, -, heq⟩
  · rwa [heq] at hget
  · rw [heq] at hget
    by_cases hid : id = leaseId
    · subst hid
      rw [Dict.get?_set_self] at hget
      cases hget
      exact absurd hactive hstate
    · rwa [Dict.get?_set_of_ne _ _ hid] at hget

theorem fewerActive_sweepExpired (db : Tables) (team : PyStr) (now : DateTime) :
    FewerActive db (db.sweepExpired team now) := by
  intro leaseId row hget hactive
  obtain ⟨row', hget', heq⟩ := Option.map_eq_some_iff.mp ((Dict.get?_mapVals ..).symm.trans hget)
  split at heq
  · subst heq
    cases hactive
  · exact heq ▸ hget'

/-! ### The partial index -/

theorem exclusive_empty (epochs : List (PyStr × Nat)) : Exclusive ⟨∅, epochs, ∅, ∅⟩ :=
  Dict.uniqueBy_empty _

theorem Exclusive.fewer (h : db.Exclusive) (hfewer : FewerActive db db') : db'.Exclusive := by
  refine Dict.UniqueBy.mono h ?_
  intro leaseId row image hget himage
  have hactive : row.state = .active := by
    by_contra hnot
    rw [if_neg hnot] at himage
    cases himage
  exact ⟨row, hfewer leaseId row hget hactive, himage⟩

theorem Exclusive.award (h : db.Exclusive) {team : PyStr}
    (hok : db.award team leaseId lease = .ok db') : db'.Exclusive := by
  obtain ⟨-, -, hindexed, -, rfl⟩ := award_ok hok
  refine Dict.UniqueBy.set h leaseId ?_
  intro leaseId' row image hget hnew hold
  have himage : some (team, lease.teamEpoch, lease.conflictKey) = some image := hnew
  have hactive : row.state = .active := by
    by_contra hnot
    rw [if_neg hnot] at hold
    cases hold
  rw [if_pos hactive, ← himage, Option.some_inj, Prod.mk.injEq, Prod.mk.injEq] at hold
  obtain ⟨hteam, hepoch, hkey⟩ := hold
  exact not_indexed hindexed hget (isActive_iff.mpr ⟨hteam, hkey, hactive⟩) hepoch

theorem Exclusive.renew (h : db.Exclusive) {team conflictKey holder : PyStr}
    (hok : db.renew team conflictKey holder newExpiresAt = .ok db') : db'.Exclusive := by
  obtain ⟨leaseId, row, hactive, -, rfl⟩ := renew_ok hok
  obtain ⟨hget, -⟩ := active?_eq_some hactive
  refine Dict.UniqueBy.mono h ?_
  intro leaseId' row' image hget' himage
  by_cases hid : leaseId = leaseId'
  · subst hid
    have hrow : some (row.renewed newExpiresAt) = some row' :=
      (Dict.get?_set_self db.leases leaseId _).symm.trans hget'
    cases hrow
    exact ⟨row, hget, himage⟩
  · exact ⟨row', (Dict.get?_set_of_ne db.leases _ hid).symm.trans hget', himage⟩

theorem Exclusive.eq (h : db.Exclusive) {team conflictKey leaseId' : PyStr}
    (hget : db.leases.get? leaseId = some row) (hget' : db.leases.get? leaseId' = some row')
    (hactive : row.isActive team conflictKey = true)
    (hactive' : row'.isActive team conflictKey = true) (hepoch : row.teamEpoch = row'.teamEpoch) :
    leaseId = leaseId' := by
  obtain ⟨hteam, hkey, hstate⟩ := isActive_iff.mp hactive
  obtain ⟨hteam', hkey', hstate'⟩ := isActive_iff.mp hactive'
  refine h leaseId leaseId' row row' (team, row.teamEpoch, conflictKey) hget hget' ?_ ?_
  · show (if row.state = .active then _ else none) = _
    rw [if_pos hstate, hteam, hkey]
  · show (if row'.state = .active then _ else none) = _
    rw [if_pos hstate', hteam', hkey', hepoch]

end Tables

end Rosclaw.Team
