/-
Role leases: what the queries report.

`active_holder`, `active_leases` and `renew` look at the state of a row alone.  A lease stays
ACTIVE when the clock passes its expiry and when a join or a leave ends its epoch, until a
sweep comes by.  So the queries are right exactly as long as every ACTIVE lease is effective,
and a step keeps that exactly when it is timely:

* `roleLaws_iff` — in a table that the index admits, the laws hold exactly when every ACTIVE
  lease is effective;
* `current_step` — a step keeps that exactly when it is timely;
* `role_laws` — the laws in every run of timely steps, and no other step keeps them;
* `held_past_expiry` — a lease whose expiry is past has a holder.
-/
import Rosclaw.Team.Coordinator

namespace Rosclaw.Team

open Tables

section Laws

variable (older : Int → Int → Bool) (ahead : TaskAnnouncement → Bid → Bid → Bool)

def Tables.Current (db : Tables) (now : DateTime) : Prop :=
  ∀ leaseId row, db.leases.get? leaseId = some row → row.state = .active → db.Effective now row

def Call.Accepted (s : State) (c : Call) : Prop := ∃ db', c.run older ahead s = .ok db'

/-- What a call has to meet for the leases it leaves ACTIVE to be effective. -/
def Call.Spares (s : State) : Call → Prop
  | .join team _ | .leave team _ => ∀ leaseId row, s.tables.leases.get? leaseId = some row →
      row.state = .active → row.teamId ≠ team
  | .award _ _ lease | .awardRole _ _ lease => s.clock.past lease.expiresAt = false
  | .renew _ _ _ newExpiresAt => s.clock.past newExpiresAt = false
  | _ => True

def Timely (s : State) : Label → Prop
  | .tick t => ∀ leaseId row, s.tables.leases.get? leaseId = some row → row.state = .active →
      t.past row.expiresAt = false
  | .coordinatorDown _ => True
  | .call c => c.Accepted older ahead s → c.Spares s

def Label.Awards (team conflictKey : PyStr) : Label → Prop
  | .call (.award team' _ lease) | .call (.awardRole team' _ lease) =>
      team' = team ∧ lease.conflictKey = conflictKey
  | _ => False

structure RoleLaws (s : State) : Prop where
  /-- `active_leases` reports the effective leases of the team -/
  leases : ∀ team, s.tables.activeLeases team =
    (s.tables.leases.entries.filter fun e =>
      e.2.teamId = team ∧ s.tables.Effective s.clock e.2).map fun e => e.2.lease
  /-- `active_holder` reports the holder of an effective lease of the key -/
  holder : ∀ team conflictKey holder,
    s.tables.activeHolder team conflictKey = some holder ↔
      ∃ leaseId row, s.tables.leases.get? leaseId = some row ∧ s.tables.Effective s.clock row ∧
        row.teamId = team ∧ row.conflictKey = conflictKey ∧ row.holder = holder
  /-- a key has at most one effective lease -/
  single : ∀ leaseId leaseId' row row', s.tables.leases.get? leaseId = some row →
    s.tables.leases.get? leaseId' = some row' → s.tables.Effective s.clock row →
    s.tables.Effective s.clock row' → row.teamId = row'.teamId →
    row.conflictKey = row'.conflictKey → leaseId = leaseId'
  /-- only an effective lease is renewed -/
  renewed : ∀ team conflictKey holder newExpiresAt db',
    s.tables.renew team conflictKey holder newExpiresAt = .ok db' →
      ∃ leaseId row, s.tables.leases.get? leaseId = some row ∧ s.tables.Effective s.clock row ∧
        row.teamId = team ∧ row.conflictKey = conflictKey ∧ row.holder = holder
  /-- a key that was revoked or contested has no holder until it is awarded again -/
  ended : ∀ team conflictKey c s₁ s₂, c = .revoke team conflictKey ∨ c = .contest team conflictKey →
    (Team.team older ahead).step s (.call c) = some s₁ →
    (Team.team older ahead).PathUnder (fun _ l => ¬ l.Awards team conflictKey) s₁ s₂ →
      s₂.tables.activeHolder team conflictKey = none

variable {older ahead} {s s' : State} {l : Label}

/-! ### What a call does to the leases and the epochs -/

variable {c : Call} {conflictKey team : PyStr} {db db' : Tables}

/-- The calls that only end leases, the calls that bump an epoch, and the calls that write
one ACTIVE row. -/
theorem run_cases (h : c.run older ahead s = .ok db') :
    (FewerActive s.tables db' ∧ db'.epochs = s.tables.epochs ∧ c.Spares s) ∨
      (∃ team memberId, (c = .join team memberId ∨ c = .leave team memberId) ∧
        db'.leases = s.tables.leases ∧ db'.epochs = (s.tables.bumpEpoch team).epochs) ∨
      (∃ team leaseId lease, (c = .award team leaseId lease ∨ c = .awardRole team leaseId lease) ∧
        s.tables.award team leaseId lease = .ok db') ∨
      ∃ team conflictKey holder newExpiresAt, c = .renew team conflictKey holder newExpiresAt ∧
        s.tables.renew team conflictKey holder newExpiresAt = .ok db' := by
  cases c with
  | addCandidate team cardTeam memberId cardEpoch =>
    obtain ⟨hepochs, hleases, -⟩ := addCandidate_ok h
    exact .inl ⟨.of_eq hleases, hepochs, trivial⟩
  | join team memberId =>
    obtain ⟨hepochs, hleases, -⟩ := join_ok h
    exact .inr (.inl ⟨team, memberId, .inl rfl, hleases, hepochs⟩)
  | leave team memberId =>
    obtain ⟨hepochs, hleases, -⟩ := leave_ok h
    exact .inr (.inl ⟨team, memberId, .inr rfl, hleases, hepochs⟩)
  | heartbeat team memberId =>
    cases h
    obtain ⟨hepochs, hleases, -⟩ := heartbeat_frame s.tables team memberId s.clock
    exact .inl ⟨.of_eq hleases, hepochs, trivial⟩
  | sweepTtl team suspectAfterMs lostAfterMs =>
    cases h
    exact .inl ⟨.of_eq rfl, rfl, trivial⟩
  | award team leaseId lease => exact .inr (.inr (.inl ⟨team, leaseId, lease, .inl rfl, h⟩))
  | awardRole team leaseId lease =>
    exact .inr (.inr (.inl ⟨team, leaseId, lease, .inr rfl, awardRole_ok h⟩))
  | renew team conflictKey holder newExpiresAt =>
    exact .inr (.inr (.inr ⟨team, conflictKey, holder, newExpiresAt, rfl, h⟩))
  | revoke team conflictKey =>
    cases h
    refine .inl ⟨fewerActive_endActive _ _ _ (by simp), ?_, trivial⟩
    exact epochs_endActive s.tables team conflictKey .revoked
  | contest team conflictKey =>
    cases h
    refine .inl ⟨fewerActive_endActive _ _ _ (by simp), ?_, trivial⟩
    exact epochs_endActive s.tables team conflictKey .contested
  | sweepExpired team =>
    cases h
    exact .inl ⟨fewerActive_sweepExpired _ _ _, rfl, trivial⟩
  | announceAndAward team a bids newId =>
    cases hrun : s.tables.announceAndAward ahead (s.alive team) team a bids newId with
    | error e =>
      rw [Call.run, hrun] at h
      cases h
    | ok result =>
      rw [Call.run, hrun] at h
      cases h
      obtain ⟨-, -, ⟨k, row, -, heq, -⟩ | ⟨winner, -, -, -, -, heq, -⟩⟩ := announce_ok hrun
      all_goals
        rw [heq]
        exact .inl ⟨.of_eq rfl, rfl, trivial⟩
  | acceptTask team taskId memberId =>
    obtain ⟨row, -, -, -, rfl⟩ := accept_ok h
    exact .inl ⟨.of_eq rfl, rfl, trivial⟩
  | completeTask team taskId memberId evidence =>
    obtain ⟨row, -, -, -, rfl⟩ := complete_ok h
    exact .inl ⟨.of_eq rfl, rfl, trivial⟩
  | memberLost team memberId =>
    cases h
    obtain ⟨hleases, hepochs⟩ := leases_memberLost s.tables team memberId s.clock
    refine .inl ⟨?_, hepochs, trivial⟩
    intro leaseId row hget hactive
    rw [hleases] at hget
    exact fewerActive_sweepExpired _ _ _ leaseId row hget hactive

theorem step_call (h : (Team.team older ahead).step s (.call c) = some s') :
    s' = { s with tables := kept s.tables (c.run older ahead s) } := (Option.some_inj.mp h).symm

/-! ### The partial index over a run -/

theorem exclusive_run (h : s.tables.Exclusive) (hrun : c.run older ahead s = .ok db') :
    db'.Exclusive := by
  rcases run_cases hrun with ⟨hfewer, -⟩ | ⟨_, _, -, hleases, -⟩ | ⟨_, _, _, -, haward⟩ |
    ⟨_, _, _, _, -, hrenew⟩
  · exact h.fewer hfewer
  · exact h.fewer (.of_eq hleases)
  · exact h.award haward
  · exact h.renew hrenew

theorem exclusive_step (h : s.tables.Exclusive) (hstep : (Team.team older ahead).step s l = some s') :
    s'.tables.Exclusive := by
  cases l with
  | tick t =>
    change (if _ then _ else none) = some s' at hstep
    split at hstep
    · cases hstep
      exact h
    · cases hstep
  | coordinatorDown team =>
    cases hstep
    exact h
  | call c =>
    rw [step_call hstep]
    show (kept s.tables (c.run older ahead s)).Exclusive
    cases hrun : c.run older ahead s with
    | error e => exact h
    | ok db' => exact exclusive_run h hrun

theorem exclusive_of_reachable {C : State → Label → Prop}
    (h : (Team.team older ahead).ReachableUnder C s) : s.tables.Exclusive := by
  refine h.invariant (P := fun s => s.tables.Exclusive) ?_
    fun s l s' hs _ hstep => exclusive_step hs hstep
  rintro s ⟨htables, -⟩
  rw [htables]
  exact exclusive_empty []

/-! ### A step keeps the ACTIVE leases effective exactly when it is timely -/

section Current
variable {db db' : Tables} {now : DateTime}

theorem Tables.Current.fewer (h : db.Current now) (hfewer : FewerActive db db')
    (hepochs : db'.epochs = db.epochs) : db'.Current now := by
  intro leaseId row hget hactive
  obtain ⟨hstate, hepoch, hpast⟩ := h leaseId row (hfewer leaseId row hget hactive) hactive
  exact ⟨hstate, by rw [currentEpoch_congr hepochs, hepoch], hpast⟩

theorem Tables.Current.bump_iff (h : db.Current now) {team : PyStr} (hleases : db'.leases = db.leases)
    (hepochs : db'.epochs = (db.bumpEpoch team).epochs) :
    db'.Current now ↔ ∀ leaseId row, db.leases.get? leaseId = some row → row.state = .active →
      row.teamId ≠ team := by
  have hcurrent : ∀ other, db'.currentEpoch other =
      if team = other then db.currentEpoch team + 1 else db.currentEpoch other := fun other =>
    (currentEpoch_congr hepochs other).trans (currentEpoch_bumpEpoch db team other)
  constructor
  · intro h' leaseId row hget hactive hteam
    obtain ⟨-, hepoch, -⟩ := h leaseId row hget hactive
    obtain ⟨-, hepoch', -⟩ := h' leaseId row (hleases ▸ hget) hactive
    rw [hteam] at hepoch hepoch'
    rw [hcurrent, if_pos rfl] at hepoch'
    omega
  · intro hnone leaseId row hget hactive
    rw [hleases] at hget
    obtain ⟨hstate, hepoch, hpast⟩ := h leaseId row hget hactive
    refine ⟨hstate, ?_, hpast⟩
    rw [hcurrent, if_neg fun hteam => hnone leaseId row hget hactive hteam.symm, hepoch]

theorem Tables.Current.set_iff (h : db.Current now) (leaseId : PyStr) (row : LeaseRow)
    (hactive : row.state = .active) (hepoch : row.teamEpoch = db.currentEpoch row.teamId) :
    Tables.Current { db with leases := db.leases.set leaseId row } now ↔
      now.past row.expiresAt = false := by
  constructor
  · intro h'
    exact (h' leaseId row (Dict.get?_set_self ..) hactive).2.2
  · intro hpast leaseId' row' hget hactive'
    by_cases hid : leaseId = leaseId'
    · subst hid
      obtain rfl := Option.some_inj.mp ((Dict.get?_set_self db.leases leaseId row).symm.trans hget)
      exact ⟨hactive, hepoch, hpast⟩
    · exact h leaseId' row' ((Dict.get?_set_of_ne db.leases row hid).symm.trans hget) hactive'

end Current

theorem current_run (h : s.tables.Current s.clock) (hrun : c.run older ahead s = .ok db') :
    db'.Current s.clock ↔ c.Spares s := by
  rcases run_cases hrun with ⟨hfewer, hepochs, hspares⟩ | ⟨team, _, hc, hleases, hepochs⟩ |
    ⟨team, leaseId, lease, hc, haward⟩ | ⟨team, conflictKey, holder, expiry, rfl, hrenew⟩
  · exact ⟨fun _ => hspares, fun _ => h.fewer hfewer hepochs⟩
  · rw [h.bump_iff hleases hepochs]
    rcases hc with rfl | rfl
    all_goals rfl
  · obtain ⟨hepoch, -, -, -, rfl⟩ := award_ok haward
    rw [h.set_iff leaseId (lease.row team) rfl hepoch]
    rcases hc with rfl | rfl
    all_goals rfl
  · obtain ⟨leaseId, row, hactive, -, rfl⟩ := renew_ok hrenew
    obtain ⟨hget, hmatch⟩ := active?_eq_some hactive
    obtain ⟨-, -, hstate⟩ := isActive_iff.mp hmatch
    rw [h.set_iff leaseId (row.renewed expiry) hstate (h leaseId row hget hstate).2.1]
    rfl

theorem current_step (h : s.tables.Current s.clock)
    (hstep : (Team.team older ahead).step s l = some s') :
    s'.tables.Current s'.clock ↔ Timely older ahead s l := by
  cases l with
  | tick t =>
    change (if _ then _ else none) = some s' at hstep
    split at hstep
    · cases hstep
      constructor
      · intro h' leaseId row hget hactive
        exact (h' leaseId row hget hactive).2.2
      · intro htimely leaseId row hget hactive
        obtain ⟨hstate, hepoch, -⟩ := h leaseId row hget hactive
        exact ⟨hstate, hepoch, htimely leaseId row hget hactive⟩
    · cases hstep
  | coordinatorDown team =>
    cases hstep
    exact ⟨fun _ => trivial, fun _ => h⟩
  | call c =>
    rw [step_call hstep]
    show (kept s.tables (c.run older ahead s)).Current s.clock ↔ _
    cases hrun : c.run older ahead s with
    | error e =>
      have hraised : ¬ c.Accepted older ahead s := by
        rintro ⟨db', hok⟩
        rw [hrun] at hok
        cases hok
      exact ⟨fun _ haccepted => absurd haccepted hraised, fun _ => h⟩
    | ok db' =>
      refine (current_run h hrun).trans ⟨fun hspares _ => hspares, fun htimely => ?_⟩
      exact htimely ⟨db', hrun⟩

/-! ### The laws hold exactly when the ACTIVE leases are effective -/

theorem vacant_run (h : ∀ leaseId row, s.tables.leases.get? leaseId = some row →
      row.isActive team conflictKey = false) (hnot : ¬ (Label.call c).Awards team conflictKey)
    (hrun : c.run older ahead s = .ok db') :
    ∀ leaseId row, db'.leases.get? leaseId = some row → row.isActive team conflictKey = false := by
  intro leaseId row hget
  by_contra hactive
  rw [Bool.not_eq_false] at hactive
  obtain ⟨hteam, hkey, hstate⟩ := isActive_iff.mp hactive
  rcases run_cases hrun with ⟨hfewer, -⟩ | ⟨_, _, -, hleases, -⟩ | ⟨team', id, lease, hc, haward⟩ |
    ⟨team', key, holder, expiry, -, hrenew⟩
  · rw [h leaseId row (hfewer leaseId row hget hstate)] at hactive
    cases hactive
  · rw [h leaseId row (hleases ▸ hget)] at hactive
    cases hactive
  · obtain ⟨-, -, -, -, rfl⟩ := award_ok haward
    by_cases hid : id = leaseId
    · subst hid
      obtain rfl := Option.some_inj.mp ((Dict.get?_set_self ..).symm.trans hget)
      rcases hc with rfl | rfl
      all_goals exact hnot ⟨hteam, hkey⟩
    · rw [h leaseId row ((Dict.get?_set_of_ne _ _ hid).symm.trans hget)] at hactive
      cases hactive
  · obtain ⟨id, old, hold, -, rfl⟩ := renew_ok hrenew
    obtain ⟨hget', hmatch⟩ := active?_eq_some hold
    by_cases hid : id = leaseId
    · subst hid
      have hrow : some (old.renewed expiry) = some row := (Dict.get?_set_self ..).symm.trans hget
      cases hrow
      have hno := h id old hget'
      rw [show old.isActive team conflictKey = true from isActive_iff.mpr ⟨hteam, hkey, hstate⟩] at hno
      cases hno
    · rw [h leaseId row ((Dict.get?_set_of_ne _ _ hid).symm.trans hget)] at hactive
      cases hactive

theorem vacant_of_path {s₂ : State} (h : ∀ leaseId row, s.tables.leases.get? leaseId = some row →
      row.isActive team conflictKey = false)
    (hpath : (Team.team older ahead).PathUnder (fun _ l => ¬ l.Awards team conflictKey) s s₂) :
    s₂.tables.activeHolder team conflictKey = none := by
  rw [activeHolder_eq_none]
  induction hpath with
  | refl => exact h
  | @step s₁ s₂ l _ hnot hstep ih =>
    cases l with
    | tick t =>
      change (if _ then _ else none) = some s₂ at hstep
      split at hstep
      · cases hstep
        exact ih
      · cases hstep
    | coordinatorDown team =>
      cases hstep
      exact ih
    | call c =>
      rw [step_call hstep]
      show ∀ leaseId row, (kept s₁.tables (c.run older ahead s₁)).leases.get? leaseId = some row → _
      cases hrun : c.run older ahead s₁ with
      | error e => exact ih
      | ok db' => exact vacant_run ih hnot hrun

theorem vacant_endActive {now : DateTime} (hex : db.Exclusive) (hcurrent : db.Current now)
    (team conflictKey : PyStr) {state : LeaseState} (hstate : state ≠ .active) :
    ∀ leaseId row, (db.endActive team conflictKey state).leases.get? leaseId = some row →
      row.isActive team conflictKey = false := by
  intro leaseId row hget
  rcases endActive_cases db team conflictKey state with ⟨hnone, heq⟩ | ⟨id, found, hfound, heq⟩
  · rw [heq] at hget
    exact active?_eq_none.mp hnone leaseId row hget
  · obtain ⟨hget', hactive'⟩ := active?_eq_some hfound
    rw [heq] at hget
    by_contra hactive
    rw [Bool.not_eq_false] at hactive
    by_cases hid : id = leaseId
    · subst hid
      rw [Dict.get?_set_self] at hget
      cases hget
      exact hstate (isActive_iff.mp hactive).2.2
    · rw [Dict.get?_set_of_ne _ _ hid] at hget
      -- both rows are of the current epoch, so the index admits one of them
      obtain ⟨hteam, -, hrow⟩ := isActive_iff.mp hactive
      obtain ⟨hteam', -, hrow'⟩ := isActive_iff.mp hactive'
      have hepoch : found.teamEpoch = row.teamEpoch := by
        rw [(hcurrent id found hget' hrow').2.1, (hcurrent leaseId row hget hrow).2.1, hteam, hteam']
      exact hid (hex.eq hget' hget hactive' hactive hepoch)

theorem roleLaws_of_current (hex : s.tables.Exclusive) (hcurrent : s.tables.Current s.clock) :
    RoleLaws older ahead s where
  leases := by
    intro team
    rw [activeLeases]
    congr 1
    refine List.filter_congr fun e he => decide_eq_decide.mpr ?_
    have hget := Dict.mem_entries_iff.mp he
    exact ⟨fun h => ⟨h.1, hcurrent e.1 e.2 hget h.2⟩, fun h => ⟨h.1, h.2.1⟩⟩
  holder := by
    intro team conflictKey holder
    rw [activeHolder, Option.map_eq_some_iff]
    constructor
    · rintro ⟨⟨leaseId, row⟩, hactive, hholder⟩
      obtain ⟨hget, hmatch⟩ := active?_eq_some hactive
      obtain ⟨hteam, hkey, hstate⟩ := isActive_iff.mp hmatch
      exact ⟨leaseId, row, hget, hcurrent leaseId row hget hstate, hteam, hkey, hholder⟩
    · rintro ⟨leaseId, row, hget, ⟨hstate, hepoch, -⟩, hteam, hkey, hholder⟩
      have hmatch := isActive_iff.mpr ⟨hteam, hkey, hstate⟩
      cases hactive : s.tables.active? team conflictKey with
      | none =>
        rw [active?_eq_none.mp hactive leaseId row hget] at hmatch
        cases hmatch
      | some e =>
        obtain ⟨hget', hmatch'⟩ := active?_eq_some hactive
        obtain ⟨hteam', -, hstate'⟩ := isActive_iff.mp hmatch'
        have hepoch' := (hcurrent e.1 e.2 hget' hstate').2.1
        have hid : leaseId = e.1 :=
          hex.eq hget hget' hmatch hmatch' (by rw [hepoch, hepoch', hteam, hteam'])
        rw [← hid] at hget'
        obtain hrow := Option.some_inj.mp (hget.symm.trans hget')
        exact ⟨e, rfl, by rw [← hrow, hholder]⟩
  single := by
    intro leaseId leaseId' row row' hget hget' heff heff' hteam hkey
    have hactive : row.isActive row'.teamId row'.conflictKey = true :=
      isActive_iff.mpr ⟨hteam, hkey, heff.1⟩
    refine hex.eq hget hget' hactive (isActive_iff.mpr ⟨rfl, rfl, heff'.1⟩) ?_
    rw [heff.2.1, heff'.2.1, hteam]
  renewed := by
    intro team conflictKey holder newExpiresAt db' hrenew
    obtain ⟨leaseId, row, hactive, hholder, -⟩ := renew_ok hrenew
    obtain ⟨hget, hmatch⟩ := active?_eq_some hactive
    obtain ⟨hteam, hkey, hstate⟩ := isActive_iff.mp hmatch
    exact ⟨leaseId, row, hget, hcurrent leaseId row hget hstate, hteam, hkey, hholder⟩
  ended := by
    intro team conflictKey c s₁ s₂ hc hstep hpath
    refine vacant_of_path ?_ hpath
    rw [step_call hstep]
    rcases hc with rfl | rfl
    all_goals exact vacant_endActive hex hcurrent team conflictKey (by simp)

/-- What `active_leases` reports of the ACTIVE leases, their number included, makes them all
effective. -/
theorem current_of_leases (h : ∀ team, s.tables.activeLeases team =
    (s.tables.leases.entries.filter fun e =>
      e.2.teamId = team ∧ s.tables.Effective s.clock e.2).map fun e => e.2.lease) :
    s.tables.Current s.clock := by
  intro leaseId row hget hactive
  have hlength := congrArg List.length (h row.teamId)
  rw [activeLeases, List.length_map, List.length_map] at hlength
  have hsub : (s.tables.leases.entries.filter fun e =>
        decide (e.2.teamId = row.teamId ∧ s.tables.Effective s.clock e.2)).Sublist
      (s.tables.leases.entries.filter fun e =>
        decide (e.2.teamId = row.teamId ∧ e.2.state = .active)) := by
    refine List.monotone_filter_right _ fun e he => ?_
    obtain ⟨hteam, hstate, -⟩ := of_decide_eq_true he
    exact decide_eq_true ⟨hteam, hstate⟩
  have heq := hsub.eq_of_length hlength.symm
  have hmem : (leaseId, row) ∈ s.tables.leases.entries.filter fun e =>
      decide (e.2.teamId = row.teamId ∧ e.2.state = .active) :=
    List.mem_filter.mpr ⟨Dict.mem_entries_iff.mpr hget, decide_eq_true ⟨rfl, hactive⟩⟩
  rw [← heq] at hmem
  exact (of_decide_eq_true (List.mem_filter.mp hmem).2).2

theorem roleLaws_iff (hex : s.tables.Exclusive) :
    RoleLaws older ahead s ↔ s.tables.Current s.clock :=
  ⟨fun h => current_of_leases h.leases, roleLaws_of_current hex⟩

theorem current_of_reachable (h : (Team.team older ahead).ReachableUnder (Timely older ahead) s) :
    s.tables.Current s.clock := by
  refine h.invariant (P := fun s => s.tables.Current s.clock) ?_
    fun s l s' hs htimely hstep => (current_step hs hstep).mpr htimely
  rintro s ⟨htables, -⟩
  rw [htables]
  intro leaseId row hget
  cases hget

/-- **The laws hold in every state that timely steps reach**, and a step from there that is
not timely breaks them. -/
theorem role_laws (h : (Team.team older ahead).ReachableUnder (Timely older ahead) s) :
    RoleLaws older ahead s ∧
      ∀ l s', (Team.team older ahead).step s l = some s' →
        (RoleLaws older ahead s' ↔ Timely older ahead s l) := by
  have hex := exclusive_of_reachable h
  have hcurrent := current_of_reachable h
  refine ⟨(roleLaws_iff hex).mpr hcurrent, fun l s' hstep => ?_⟩
  rw [roleLaws_iff (exclusive_step hex hstep)]
  exact current_step hcurrent hstep

end Laws

/-! ### A member that holds a role -/

def sampleOlder (age ms : Int) : Bool := ms * 1000 < age

def sampleAhead (_ : TaskAnnouncement) (b b' : Bid) : Bool := b.etaMs.le b'.etaMs

def noon : DateTime := ⟨63947707200000000, 0, by decide, DateTime.second.offset_bounds⟩

def minuteLater : DateTime :=
  ⟨63947707260000000, 0, by decide, DateTime.second.offset_bounds⟩

def sampleState : State := ⟨⟨∅, [], ∅, ∅⟩, fun _ => true, noon⟩

def sampleLease : RoleLease where
  teamId := "blue_team"
  teamEpoch := 1
  role := "defender:left"
  holder := "r1"
  scope := ⟨none, []⟩
  issuedAt := "2026-08-02T12:00:00+00:00"
  expiresAt := "2026-08-02T12:00:30+00:00"
  renewAfterMs := 500
  priority := 50
  conflictKey := "role:defender:left"
  policyHash := "team_pol_1"
  state := .active

def heldRun : List Label :=
  [.call (.addCandidate "blue_team" "blue_team" "r1" 0), .call (.join "blue_team" "r1"),
    .call (.awardRole "blue_team" "rlease_1" sampleLease)]

theorem heldRun_timely : ∃ s, (team sampleOlder sampleAhead).run sampleState heldRun = some s ∧
    (team sampleOlder sampleAhead).ReachableUnder (Timely sampleOlder sampleAhead) s := by
  have hrun : ∃ s₁ s₂ s₃, (team sampleOlder sampleAhead).step sampleState
        (.call (.addCandidate "blue_team" "blue_team" "r1" 0)) = some s₁ ∧
      (team sampleOlder sampleAhead).step s₁ (.call (.join "blue_team" "r1")) = some s₂ ∧
      (team sampleOlder sampleAhead).step s₂
        (.call (.awardRole "blue_team" "rlease_1" sampleLease)) = some s₃ ∧
      (team sampleOlder sampleAhead).run sampleState heldRun = some s₃ ∧
      s₁.tables.leases = ∅ ∧ s₂.clock.past sampleLease.expiresAt = false :=
    ⟨_, _, _, rfl, rfl, rfl, rfl, rfl, rfl⟩
  obtain ⟨s₁, s₂, s₃, h₁, h₂, h₃, hrun, hempty, hpast⟩ := hrun
  refine ⟨s₃, hrun, .step (.step (.step (.init ⟨rfl, rfl, fun _ => rfl⟩) ?_ h₁) ?_ h₂) ?_ h₃⟩
  · exact fun _ => trivial
  · rintro - leaseId row hget
    rw [hempty] at hget
    cases hget
  · exact fun _ => hpast

theorem role_laws_held : ∃ s, (team sampleOlder sampleAhead).run sampleState heldRun = some s ∧
    s.tables.activeHolder "blue_team" "role:defender:left" = some "r1" ∧
    RoleLaws sampleOlder sampleAhead s := by
  have hholder : ∃ s, (team sampleOlder sampleAhead).run sampleState heldRun = some s ∧
      s.tables.activeHolder "blue_team" "role:defender:left" = some "r1" := ⟨_, rfl, rfl⟩
  obtain ⟨s, hrun, hreachable⟩ := heldRun_timely
  obtain ⟨s', hrun', hholder⟩ := hholder
  obtain rfl := Option.some_inj.mp (hrun.symm.trans hrun')
  exact ⟨s, hrun, hholder, (role_laws hreachable).1⟩

/-- The clock passes the expiry, and the member still is the holder and renews its lease. -/
theorem held_past_expiry : ∃ s, (team sampleOlder sampleAhead).Reachable s ∧
    s.clock = minuteLater ∧ s.clock.past sampleLease.expiresAt = true ∧
    s.tables.activeHolder "blue_team" "role:defender:left" = some "r1" ∧
    (∃ db', s.tables.renew "blue_team" "role:defender:left" "r1" "2026-08-02T12:02:00+00:00" = .ok db') ∧
    ¬ RoleLaws sampleOlder sampleAhead s := by
  have hrun : ∃ s, (team sampleOlder sampleAhead).run sampleState (heldRun ++ [.tick minuteLater]) =
      some s ∧ s.clock = minuteLater ∧ s.clock.past sampleLease.expiresAt = true ∧
      s.tables.activeHolder "blue_team" "role:defender:left" = some "r1" ∧
      (∃ db', s.tables.renew "blue_team" "role:defender:left" "r1" "2026-08-02T12:02:00+00:00" = .ok db') ∧
      s.tables.leases.get? "rlease_1" = some (sampleLease.row "blue_team") :=
    ⟨_, rfl, rfl, rfl, rfl, ⟨_, rfl⟩, rfl⟩
  obtain ⟨s, hrun, hclock, hpast, hholder, hrenew, hget⟩ := hrun
  refine ⟨s, .of_run ⟨rfl, rfl, fun _ => rfl⟩ hrun, hclock, hpast, hholder, hrenew, ?_⟩
  intro hlaws
  have heffective := current_of_leases hlaws.leases "rlease_1" _ hget rfl
  have hnot : s.clock.past sampleLease.expiresAt = false := heffective.2.2
  rw [hpast] at hnot
  cases hnot

end Rosclaw.Team
