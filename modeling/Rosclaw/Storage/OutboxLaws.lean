/-
What the outbox promises, over every interleaving of its workers.

`mark_failed`, the checksum test of `claim` and `requeue_dead_letter` write by the id of a row
they have read before, and nothing checks that the row is still the same; `enqueue` counts
before it inserts, and `requeue_dead_letter` does not count.  A run is sound when none of this
does harm:

* `Placed` — where the tables have a record in each stage of its life;
* `Call.sound` — a worker writes to a record only while it still has the lease, a dead letter
  is requeued only while it is one, and a record becomes active only while there is room;
* `OutboxLaws` — every record lives a life, in one place at a time; it is delivered after a
  commit under the lease; only the holder changes it; and the active records do not exceed
  the capacity;
* `outbox_laws` — the laws in every state that sound steps reach;
* `revived_after_delivery` — a failure that is recorded late takes a record back that another
  worker has delivered.
-/
import Rosclaw.Lib.Log
import Rosclaw.Storage.OutboxRuns

namespace Rosclaw.Storage

open Bool List Option Outbox State

variable {P : Type}

/-! ### The life of a record -/

inductive Life
  | absent
  | waiting
  /-- claimed under a lease -/
  | held (owner : PyStr)
  | delivered
  | dead
  | purged
deriving DecidableEq

def Life.step : Life → Entry → Option Life
  | l, .committed _ _ => some l
  | .absent, .enqueued _ => some .waiting
  | .waiting, .claimed owner _ | .held _, .claimed owner _ => some (.held owner)
  | .held owner, .delivered owner' _ => if owner = owner' then some .delivered else none
  | .held owner, .failed owner' _ => if owner = owner' then some .waiting else none
  | .held owner, .died owner' _ => if owner = owner' then some .dead else none
  | .dead, .requeued _ => some .waiting
  | .delivered, .purged _ => some .purged
  | _, _ => none

def lives (id : PyStr) (l : Life) (es : List Entry) : Option Life :=
  (es.filter fun e => e.about = id).foldlM Life.step l

def life (id : PyStr) (log : List Entry) : Option Life := lives id .absent log

section Life

variable {id : PyStr} {l l' : Life} {es es' log : List Entry} {owner : PyStr}

theorem lives_append : lives id l (es ++ es') = (lives id l es).bind fun l' => lives id l' es' := by
  rw [lives, filter_append, foldlM_append]
  rfl

theorem life_append : life id (log ++ es) = (life id log).bind fun l => lives id l es := lives_append

variable (e : Entry)

theorem lives_cons : lives id l (e :: es) =
      if e.about = id then (l.step e).bind fun l' => lives id l' es else lives id l es := by
  by_cases h : e.about = id
  · rw [if_pos h, lives, filter_cons_of_pos (by simpa using h), foldlM_cons]
    rfl
  · rw [if_neg h, lives, filter_cons_of_neg (by simpa using h), lives]

theorem lives_singleton : lives id l [e] = if e.about = id then l.step e else some l := by
  rw [lives_cons]
  split
  · cases l.step e <;> rfl
  · rfl

theorem lives_of_not_about (h : ∀ e ∈ es, e.about ≠ id) : lives id l es = some l := by
  rw [lives, filter_eq_nil_iff.mpr]
  · rfl
  · intro e he
    simpa using h e he

theorem lives_map {f : PyStr → Entry} (hf : ∀ id, (f id).about = id) {ids : List PyStr}
    (hnodup : ids.Nodup) : lives id l (ids.map f) = if id ∈ ids then l.step (f id) else some l := by
  induction ids with
  | nil => rfl
  | cons id' ids ih =>
    obtain ⟨hnew, hrest⟩ := nodup_cons.mp hnodup
    rw [map_cons, lives_cons, hf]
    by_cases h : id' = id
    · subst h
      have hothers : ∀ l', lives id' l' (ids.map f) = some l' := fun l' => lives_of_not_about (by
        intro e he
        obtain ⟨id'', hmem, rfl⟩ := mem_map.mp he
        rw [hf]
        rintro rfl
        exact hnew hmem)
      rw [if_pos rfl, if_pos mem_cons_self]
      simp only [hothers]
      cases l.step (f id') <;> rfl
    · rw [if_neg h, ih hrest]
      have hmem : id ∈ id' :: ids ↔ id ∈ ids := by
        rw [mem_cons, or_iff_right (Ne.symm h)]
      simp only [hmem]

/-- Only `enqueued` brings a record to life. -/
theorem stays_absent (h : lives id .absent es = some l) (hes : .enqueued id ∉ es) : l = .absent := by
  induction es with
  | nil => exact (some_inj.mp h).symm
  | cons e es ih =>
    have hrest : .enqueued id ∉ es := fun hmem => hes (mem_cons_of_mem e hmem)
    rw [lives_cons] at h
    split at h
    · next habout =>
      cases e with
      | committed owner id' => exact ih h hrest
      | enqueued id' =>
        obtain rfl : id' = id := habout
        exact absurd mem_cons_self hes
      | claimed _ _ => cases h
      | delivered _ _ => cases h
      | failed _ _ => cases h
      | died _ _ => cases h
      | requeued _ => cases h
      | purged _ => cases h
    · exact ih h hrest

theorem held_of_no_claim (h : lives id l es = some (.held owner))
    (hes : ∀ owner', .claimed owner' id ∉ es) :
    l = .held owner ∧ ∀ e ∈ es, e.about = id → ∃ owner', e = .committed owner' id := by
  induction es generalizing l with
  | nil => exact ⟨some_inj.mp h, by simp⟩
  | cons e es ih =>
    have hrest : ∀ owner', .claimed owner' id ∉ es := fun owner' hmem =>
      hes owner' (mem_cons_of_mem e hmem)
    rw [lives_cons] at h
    split at h
    · next habout =>
      obtain ⟨l', hstep, htail⟩ := bind_eq_some_iff.mp h
      obtain ⟨rfl, hall⟩ := ih htail hrest
      cases e with
      | committed owner' id' =>
        obtain rfl : id' = id := habout
        refine ⟨some_inj.mp hstep, fun e he hid => ?_⟩
        rcases mem_cons.mp he with rfl | he
        · exact ⟨owner', rfl⟩
        · exact hall e he hid
      | claimed owner' id' =>
        obtain rfl : id' = id := habout
        exact absurd mem_cons_self (hes owner')
      | enqueued _ => cases l <;> cases hstep
      | delivered _ _ =>
        cases l <;> simp [Life.step] at hstep
      | failed _ _ =>
        cases l <;> simp [Life.step] at hstep
      | died _ _ =>
        cases l <;> simp [Life.step] at hstep
      | requeued _ => cases l <;> cases hstep
      | purged _ => cases l <;> cases hstep
    · next habout =>
      obtain ⟨rfl, hall⟩ := ih h hrest
      refine ⟨rfl, fun e' he hid => ?_⟩
      rcases mem_cons.mp he with rfl | he
      · exact absurd hid habout
      · exact hall e' he hid

theorem purged_of_mem (h : lives id l es = some l') (hpurged : .purged id ∈ es ∨ l = .purged) :
    l' = .purged := by
  induction es generalizing l with
  | nil =>
    rcases hpurged with hmem | rfl
    · cases hmem
    · exact (some_inj.mp h).symm
  | cons e es ih =>
    rw [lives_cons] at h
    split at h
    · next habout =>
      obtain ⟨l₁, hstep, htail⟩ := bind_eq_some_iff.mp h
      refine ih htail ?_
      rcases hpurged with hmem | rfl
      · rcases mem_cons.mp hmem with rfl | hmem
        · right
          cases l with
          | delivered => exact (some_inj.mp hstep).symm
          | absent => cases hstep
          | waiting => cases hstep
          | held _ => cases hstep
          | dead => cases hstep
          | purged => cases hstep
        · exact .inl hmem
      · cases e with
        | committed _ _ => exact .inr (some_inj.mp hstep).symm
        | enqueued _ => cases hstep
        | claimed _ _ => cases hstep
        | delivered _ _ => cases hstep
        | failed _ _ => cases hstep
        | died _ _ => cases hstep
        | requeued _ => cases hstep
        | purged _ => cases hstep
    · next habout =>
      refine ih h (hpurged.imp_left fun hmem => ?_)
      rcases mem_cons.mp hmem with rfl | hmem
      · exact absurd rfl habout
      · exact hmem

theorem entered (h : lives id l es = some l') :
    l' = l ∨ ∃ e ∈ es, e.about = id ∧ ∃ l₀ : Life, l₀.step e = some l' ∧ l' ≠ l₀ := by
  induction es generalizing l with
  | nil => exact .inl (some_inj.mp h).symm
  | cons e es ih =>
    have hlater : (∃ e ∈ es, e.about = id ∧ ∃ l₀ : Life, l₀.step e = some l' ∧ l' ≠ l₀) →
        ∃ e' ∈ e :: es, e'.about = id ∧ ∃ l₀ : Life, l₀.step e' = some l' ∧ l' ≠ l₀ := by
      rintro ⟨e', hmem, hrest⟩
      exact ⟨e', mem_cons_of_mem e hmem, hrest⟩
    rw [lives_cons] at h
    split at h
    · next habout =>
      obtain ⟨l₁, hstep, htail⟩ := bind_eq_some_iff.mp h
      rcases ih htail with rfl | hentered
      · by_cases hsame : l' = l
        · exact .inl hsame
        · exact .inr ⟨e, mem_cons_self, habout, l, hstep, hsame⟩
      · exact .inr (hlater hentered)
    · exact (ih h).imp_right hlater

theorem mem_of_delivered (h : life id log = some .delivered) : ∃ owner, .delivered owner id ∈ log := by
  rcases entered h with hsame | ⟨e, hmem, habout, l₀, hstep, hmoved⟩
  · cases hsame
  · cases e with
    | delivered owner id' =>
      obtain rfl : id' = id := habout
      exact ⟨owner, hmem⟩
    | committed _ _ => exact absurd (some_inj.mp hstep).symm hmoved
    | enqueued _ => cases l₀ <;> cases hstep
    | claimed _ _ => cases l₀ <;> cases hstep
    | failed _ _ => cases l₀ <;> simp [Life.step] at hstep
    | died _ _ => cases l₀ <;> simp [Life.step] at hstep
    | requeued _ => cases l₀ <;> cases hstep
    | purged _ => cases l₀ <;> cases hstep

theorem mem_of_purged (h : life id log = some .purged) : .purged id ∈ log := by
  rcases entered h with hsame | ⟨e, hmem, habout, l₀, hstep, hmoved⟩
  · cases hsame
  · cases e with
    | purged id' =>
      obtain rfl : id' = id := habout
      exact hmem
    | committed _ _ => exact absurd (some_inj.mp hstep).symm hmoved
    | enqueued _ => cases l₀ <;> cases hstep
    | claimed _ _ => cases l₀ <;> cases hstep
    | delivered _ _ => cases l₀ <;> simp [Life.step] at hstep
    | failed _ _ => cases l₀ <;> simp [Life.step] at hstep
    | died _ _ => cases l₀ <;> simp [Life.step] at hstep
    | requeued _ => cases l₀ <;> cases hstep

theorem ne_absent_of_mem (h : lives id l es = some l') (hadded : .enqueued id ∈ es ∨ l ≠ .absent) :
    l' ≠ .absent := by
  induction es generalizing l with
  | nil =>
    rcases hadded with hmem | hl
    · cases hmem
    · rwa [← some_inj.mp h]
  | cons e es ih =>
    rw [lives_cons] at h
    split at h
    · next habout =>
      obtain ⟨l₁, hstep, htail⟩ := bind_eq_some_iff.mp h
      refine ih htail ?_
      by_cases hmem : .enqueued id ∈ es
      · exact .inl hmem
      · right
        rintro rfl
        cases e with
        | committed _ _ =>
          rcases hadded with hmem' | hl
          · rcases mem_cons.mp hmem' with heq | hmem'
            · cases heq
            · exact hmem hmem'
          · exact hl (some_inj.mp hstep)
        | enqueued _ => cases l <;> cases hstep
        | claimed _ _ => cases l <;> cases hstep
        | delivered _ _ => cases l <;> simp [Life.step] at hstep
        | failed _ _ => cases l <;> simp [Life.step] at hstep
        | died _ _ => cases l <;> simp [Life.step] at hstep
        | requeued _ => cases l <;> cases hstep
        | purged _ => cases l <;> cases hstep
    · next habout =>
      refine ih h (hadded.imp_left fun hmem => ?_)
      rcases mem_cons.mp hmem with rfl | hmem
      · exact absurd rfl habout
      · exact hmem

end Life

/-! ### The laws -/

def Placed (db : Outbox P) (id : PyStr) : Life → Prop
  | .absent | .purged => db.rows.get? id = none ∧ db.deadLetters.get? id = none
  | .waiting => (∃ row, db.rows.get? id = some row ∧ (row.status = .pending ∨ row.status = .retry) ∧
      row.leaseOwner = none) ∧ db.deadLetters.get? id = none
  | .held owner => (∃ row, db.rows.get? id = some row ∧ row.status = .inflight ∧
      row.leaseOwner = some owner) ∧ db.deadLetters.get? id = none
  | .delivered => (∃ row, db.rows.get? id = some row ∧ row.status = .delivered ∧
      row.leaseOwner = none) ∧ db.deadLetters.get? id = none
  | .dead => db.rows.get? id = none ∧ ∃ d, db.deadLetters.get? id = some d

inductive Place
  | active | delivered | deadLetter | purged

def Life.place : Life → Option Place
  | .absent => none
  | .waiting | .held _ => some .active
  | .delivered => some .delivered
  | .dead => some .deadLetter
  | .purged => some .purged

def State.IsIn (s : State P) (id : PyStr) : Place → Prop
  | .active => ∃ row, s.db.rows.get? id = some row ∧ row.status.isActive = true
  | .delivered => ∃ row, s.db.rows.get? id = some row ∧ row.status = .delivered
  | .deadLetter => ∃ d, s.db.deadLetters.get? id = some d
  | .purged => .purged id ∈ s.log

/-- The worker has committed the record while it held the lease, and nothing has happened to
the record since. -/
def Earned (log : List Entry) (owner id : PyStr) : Prop :=
  ∃ before since, log = before ++ .committed owner id :: since ∧
    life id before = some (.held owner) ∧
      ∀ e ∈ since, e.about = id → ∃ owner', e = .committed owner' id

def Entry.changedBy : Entry → Option PyStr
  | .delivered owner _ | .failed owner _ | .died owner _ => some owner
  | _ => none

structure OutboxLaws (s : State P) : Prop where
  /-- every record lives a lawful life, and the tables have it where it is -/
  lives : ∀ id, ∃ l, life id s.log = some l ∧ Placed s.db id l
  /-- a record that was enqueued is in one place, and in no other -/
  place : ∀ id, .enqueued id ∈ s.log → ∃! p, s.IsIn id p
  /-- a delivered record was marked so by a worker -/
  marked : ∀ id, s.IsIn id .delivered → ∃ owner, .delivered owner id ∈ s.log
  /-- and that after a commit under the lease -/
  earned : Log.Each (fun pre e => ∀ owner id, e = .delivered owner id → Earned pre owner id) s.log
  /-- only the worker that holds the lease changes a record -/
  holder : Log.Each (fun pre e => ∀ owner, e.changedBy = some owner →
    life e.about pre = some (.held owner)) s.log
  /-- the active records have room -/
  capacity : s.db.active ≤ s.db.maxRecords

def State.owns (s : State P) (owner id : PyStr) : Bool :=
  (s.db.rows.get? id).any fun row => row.leaseOwner = some owner

def Call.sound (K : Codec P) (s : State P) (owner : PyStr) : Call P → Bool
  | .enqueueInsert r => s.db.conflicts r.id r.row || decide (s.db.active < s.db.maxRecords)
  | .claimCheck ((id, row) :: _) => !row.corrupt K || s.owns owner id
  | .fail id row _ maxRetries _ =>
      (decide ((row.retryCount + 1 : Nat) < maxRetries) && (s.db.rows.get? id).isNone) ||
        s.owns owner id
  | .requeue id d now => s.db.conflicts id (d.row now) ||
      (s.db.deadLetters.contains id && decide (s.db.active < s.db.maxRecords))
  | _ => true

def Sound (K : Codec P) (s : State P) : Label P → Prop
  | .resume owner _ => (s.workers owner).call.all (fun call => call.sound K s owner) = true
  | _ => True

instance (K : Codec P) (s : State P) : (l : Label P) → Decidable (Sound K s l)
  | .resume _ _ => inferInstanceAs (Decidable (_ = true))
  | .enqueue _ _ => inferInstanceAs (Decidable True)
  | .claim _ => inferInstanceAs (Decidable True)
  | .commit _ _ => inferInstanceAs (Decidable True)
  | .markDelivered _ _ _ _ => inferInstanceAs (Decidable True)
  | .markFailed _ _ _ _ _ => inferInstanceAs (Decidable True)
  | .requeue _ _ _ => inferInstanceAs (Decidable True)
  | .purge _ _ => inferInstanceAs (Decidable True)
  | .abort _ => inferInstanceAs (Decidable True)
  | .crash _ => inferInstanceAs (Decidable True)

/-! ### Where a record is -/

section Placed

variable {db db' : Outbox P} {id owner : PyStr} {l : Life} {row : Row P}

theorem Placed.congr (h : Placed db id l) (hrows : db'.rows.get? id = db.rows.get? id)
    (hdead : db'.deadLetters.get? id = db.deadLetters.get? id) : Placed db' id l := by
  cases l <;> simpa only [Placed, hrows, hdead] using h

theorem Placed.of_owner (h : Placed db id l) (hrow : db.rows.get? id = some row)
    (howner : row.leaseOwner = some owner) : l = .held owner ∧ row.status = .inflight := by
  cases l with
  | held owner' =>
    obtain ⟨⟨row', hrow', hstatus, howner'⟩, -⟩ := h
    obtain rfl := some_inj.mp (hrow.symm.trans hrow')
    obtain rfl := some_inj.mp (howner.symm.trans howner')
    exact ⟨rfl, hstatus⟩
  | absent =>
    rw [h.1] at hrow
    cases hrow
  | purged =>
    rw [h.1] at hrow
    cases hrow
  | dead =>
    rw [h.1] at hrow
    cases hrow
  | waiting =>
    obtain ⟨⟨row', hrow', -, hfree⟩, -⟩ := h
    obtain rfl := some_inj.mp (hrow.symm.trans hrow')
    rw [hfree] at howner
    cases howner
  | delivered =>
    obtain ⟨⟨row', hrow', -, hfree⟩, -⟩ := h
    obtain rfl := some_inj.mp (hrow.symm.trans hrow')
    rw [hfree] at howner
    cases howner

theorem Placed.of_active (h : Placed db id l) (hrow : db.rows.get? id = some row)
    (hactive : row.status.isActive = true) : l = .waiting ∨ ∃ owner, l = .held owner := by
  cases l with
  | waiting => exact .inl rfl
  | held owner => exact .inr ⟨owner, rfl⟩
  | delivered =>
    obtain ⟨⟨row', hrow', hstatus, -⟩, -⟩ := h
    obtain rfl := some_inj.mp (hrow.symm.trans hrow')
    rw [hstatus] at hactive
    cases hactive
  | absent =>
    rw [h.1] at hrow
    cases hrow
  | purged =>
    rw [h.1] at hrow
    cases hrow
  | dead =>
    rw [h.1] at hrow
    cases hrow

theorem Placed.of_delivered (h : Placed db id l) (hrow : db.rows.get? id = some row)
    (hstatus : row.status = .delivered) : l = .delivered := by
  cases l with
  | delivered => rfl
  | waiting =>
    obtain ⟨⟨row', hrow', hwaits, -⟩, -⟩ := h
    obtain rfl := some_inj.mp (hrow.symm.trans hrow')
    rw [hstatus] at hwaits
    simp at hwaits
  | held owner =>
    obtain ⟨⟨row', hrow', hheld, -⟩, -⟩ := h
    obtain rfl := some_inj.mp (hrow.symm.trans hrow')
    rw [hstatus] at hheld
    cases hheld
  | absent =>
    rw [h.1] at hrow
    cases hrow
  | purged =>
    rw [h.1] at hrow
    cases hrow
  | dead =>
    rw [h.1] at hrow
    cases hrow

theorem Placed.of_dead (h : Placed db id l) {d : DeadLetter P} (hdead : db.deadLetters.get? id = some d) :
    l = .dead := by
  cases l with
  | dead => rfl
  | absent =>
    rw [h.2] at hdead
    cases hdead
  | purged =>
    rw [h.2] at hdead
    cases hdead
  | waiting =>
    rw [h.2] at hdead
    cases hdead
  | held owner =>
    rw [h.2] at hdead
    cases hdead
  | delivered =>
    rw [h.2] at hdead
    cases hdead

end Placed

/-! ### The invariant -/

def Worker.adding (w : Worker P) : Option PyStr :=
  match w.call with
  | some (.enqueueCount r) | some (.enqueueInsert r) => some r.id
  | _ => none

/-- The tables and the workers agree with the log. -/
structure Inv (s : State P) : Prop where
  lives : ∀ id, ∃ l, life id s.log = some l ∧ Placed s.db id l
  fresh : ∀ id, id ∉ s.issued → life id s.log = some .absent
  adding : ∀ owner id, (s.workers owner).adding = some id →
    id ∈ s.issued ∧ life id s.log = some .absent
  apart : ∀ owner owner' id, (s.workers owner).adding = some id →
    (s.workers owner').adding = some id → owner = owner'
  working : ∀ owner id, id ∈ (s.workers owner).committed → life id s.log = some (.held owner) →
    Earned s.log owner id
  earned : Log.Each (fun pre e => ∀ owner id, e = .delivered owner id → Earned pre owner id) s.log
  capacity : s.db.active ≤ s.db.maxRecords

section Steps

variable {K : Codec P} {s s' : State P} {db : Outbox P} {es : List Entry} {owner id : PyStr}

theorem Earned.append (h : Earned s.log owner id)
    (hes : ∀ e ∈ es, e.about = id → ∃ owner', e = .committed owner' id) :
    Earned (s.log ++ es) owner id := by
  obtain ⟨before, since, hlog, hheld, hsince⟩ := h
  refine ⟨before, since ++ es, ?_, hheld, fun e he habout => ?_⟩
  · rw [hlog, append_assoc, cons_append]
  · rcases mem_append.mp he with he | he
    · exact hsince e he habout
    · exact hes e he habout

theorem Inv.set (h : Inv s) {w : Worker P}
    (hadding : ∀ id, w.adding = some id → (s.workers owner).adding = some id)
    (hworking : ∀ id ∈ w.committed, life id s.log = some (.held owner) → Earned s.log owner id) :
    Inv (s.set owner w) := by
  have hold : ∀ owner' id, ((s.set owner w).workers owner').adding = some id →
      (s.workers owner').adding = some id := by
    intro owner' id hadd
    by_cases howner : owner' = owner
    · subst howner
      rw [set_workers_self] at hadd
      exact hadding id hadd
    · rwa [set_workers_of_ne s w howner] at hadd
  refine { h with
    adding := fun owner' id hadd => h.adding owner' id (hold owner' id hadd)
    apart := fun o₁ o₂ id h₁ h₂ => h.apart o₁ o₂ id (hold o₁ id h₁) (hold o₂ id h₂)
    working := fun owner' id hmem hheld => ?_ }
  by_cases howner : owner' = owner
  · subst howner
    rw [set_workers_self] at hmem
    exact hworking id hmem hheld
  · rw [set_workers_of_ne s w howner] at hmem
    exact h.working owner' id hmem hheld

theorem Inv.goOn (h : Inv s) {call : Option (Call P)}
    (hadding : ∀ id, Worker.adding { s.workers owner with call := call } = some id →
      (s.workers owner).adding = some id) : Inv (s.goOn owner call) :=
  h.set hadding (h.working owner)

theorem Inv.write (h : Inv s) (hroom : db.active ≤ db.maxRecords)
    (hlives : ∀ id l, life id s.log = some l → Placed s.db id l →
      ∃ l', Storage.lives id l es = some l' ∧ Placed db id l')
    (hnew : ∀ id, .enqueued id ∈ es → id ∈ s.issued ∧ ∀ owner, (s.workers owner).adding ≠ some id)
    (hkeep : ∀ owner id, id ∈ (s.workers owner).committed →
      life id (s.log ++ es) = some (.held owner) → life id s.log = some (.held owner) ∧
          ∀ e ∈ es, e.about = id → ∃ owner', e = .committed owner' id)
    (hearned : ∀ e ∈ es, ∀ owner id, e = .delivered owner id → es = [e] ∧ Earned s.log owner id) :
    Inv (s.write db es) := by
  have hstays : ∀ id, life id s.log = some .absent → .enqueued id ∉ es →
      life id (s.log ++ es) = some .absent := by
    intro id habsent hnot
    obtain ⟨l, hl, hplaced⟩ := h.lives id
    obtain rfl := some_inj.mp (habsent.symm.trans hl)
    obtain ⟨l', hl', -⟩ := hlives id .absent hl hplaced
    rw [life_append, hl, bind_some, hl', stays_absent hl' hnot]
  refine ⟨fun id => ?_, fun id hid => ?_, fun owner id hadd => ?_, h.apart, fun owner id hmem hheld => ?_,
    ?_, hroom⟩
  · obtain ⟨l, hl, hplaced⟩ := h.lives id
    obtain ⟨l', hl', hplaced'⟩ := hlives id l hl hplaced
    refine ⟨l', ?_, hplaced'⟩
    show life id (s.log ++ es) = _
    rw [life_append, hl, bind_some, hl']
  · exact hstays id (h.fresh id hid) fun hmem => hid (hnew id hmem).1
  · obtain ⟨hissued, habsent⟩ := h.adding owner id hadd
    exact ⟨hissued, hstays id habsent fun hmem => (hnew id hmem).2 owner hadd⟩
  · obtain ⟨hheld', hes⟩ := hkeep owner id hmem hheld
    exact (h.working owner id hmem hheld').append hes
  · by_cases hdelivered : ∃ e ∈ es, ∃ owner id, e = .delivered owner id
    · obtain ⟨e, he, owner, id, rfl⟩ := hdelivered
      obtain ⟨rfl, hearn⟩ := hearned _ he owner id rfl
      refine Log.each_snoc.mpr ⟨h.earned, fun owner' id' heq => ?_⟩
      rw [Entry.delivered.injEq] at heq
      rw [← heq.1, ← heq.2]
      exact hearn
    · refine Log.each_append h.earned fun e he pre owner id heq => ?_
      exact absurd ⟨e, he, owner, id, heq⟩ hdelivered

variable {c : ClaimCall} {cutoff now time : Rat} {e : Entry} {l : Life} {r : NewRecord P}

theorem Inv.write_one (h : Inv s) (hroom : db.active ≤ db.maxRecords)
    (hothers : ∀ id ≠ e.about, db.rows.get? id = s.db.rows.get? id ∧
      db.deadLetters.get? id = s.db.deadLetters.get? id)
    (hthis : ∀ l, life e.about s.log = some l → Placed s.db e.about l →
      ∃ l', l.step e = some l' ∧ Placed db e.about l')
    (hclaimed : ∀ owner id, e ≠ .claimed owner id)
    (hnew : ∀ id, e = .enqueued id → id ∈ s.issued ∧ ∀ owner, (s.workers owner).adding ≠ some id)
    (hearned : ∀ owner id, e = .delivered owner id → Earned s.log owner id) :
    Inv (s.write db [e]) := by
  have hlives : ∀ id l, life id s.log = some l → Placed s.db id l →
      ∃ l', Storage.lives id l [e] = some l' ∧ Placed db id l' := by
    intro id l hl hplaced
    rw [lives_singleton]
    by_cases habout : e.about = id
    · subst habout
      rw [if_pos rfl]
      exact hthis l hl hplaced
    · rw [if_neg habout]
      obtain ⟨hrows, hdead⟩ := hothers id (Ne.symm habout)
      exact ⟨l, rfl, hplaced.congr hrows hdead⟩
  refine h.write hroom hlives (fun id hmem => hnew id (mem_singleton.mp hmem).symm)
    (fun owner id _ hheld => ?_) fun e' he' owner id heq => ?_
  · obtain ⟨l, hl, -⟩ := h.lives id
    rw [life_append, hl, bind_some] at hheld
    obtain ⟨rfl, hall⟩ := held_of_no_claim hheld fun owner' hmem =>
      hclaimed owner' id (mem_singleton.mp hmem).symm
    exact ⟨hl, hall⟩
  · obtain rfl := mem_singleton.mp he'
    exact ⟨rfl, hearned owner id heq⟩

theorem Inv.held_of_owns (h : Inv s) (howns : s.owns owner id = true) :
    ∃ row, s.db.rows.get? id = some row ∧ row.status = .inflight ∧
      life id s.log = some (.held owner) ∧ Placed s.db id (.held owner) := by
  obtain ⟨row, hrow, howner⟩ := (any_eq_true _ _).mp howns
  obtain ⟨l, hl, hplaced⟩ := h.lives id
  obtain ⟨rfl, hstatus⟩ := hplaced.of_owner hrow (of_decide_eq_true howner)
  exact ⟨row, hrow, hstatus, hl, hplaced⟩

/-! ### What each step does to the invariant -/

theorem inv_markDelivered (h : Inv s) {remoteRevision : Option PyStr}
    (hcommitted : id ∈ (s.workers owner).committed) :
    Inv (s.markDelivered owner id remoteRevision now) := by
  unfold State.markDelivered
  split
  · exact h
  · next db hdeliver =>
    obtain ⟨row, hrow, howner, rfl⟩ := deliver_eq_some hdeliver
    obtain ⟨l, hl, hplaced⟩ := h.lives id
    obtain ⟨rfl, hstatus⟩ := hplaced.of_owner hrow howner
    refine h.write_one ?_ (fun id' hid => ?_) (fun l' hl' hplaced' => ?_) (by simp) (by simp) ?_
    · refine (active_setRow_le hrow fun hactive => ?_).trans h.capacity
      cases hactive
    · exact ⟨Dict.get?_set_of_ne _ _ (Ne.symm hid), rfl⟩
    · obtain rfl := some_inj.mp (hl.symm.trans hl')
      exact ⟨.delivered, if_pos rfl, ⟨_, Dict.get?_set_self .., rfl, rfl⟩, hplaced'.2⟩
    · intro owner' id' heq
      rw [Entry.delivered.injEq] at heq
      obtain ⟨rfl, rfl⟩ := heq
      exact h.working owner id hcommitted hl

theorem inv_move (h : Inv s) (howns : s.owns owner id = true) (row : Row P) (retryCount : Nat)
    (error : Option PyStr) (failedAt : Rat) :
    Inv (s.move owner id row retryCount error failedAt) := by
  obtain ⟨-, -, -, hl, -⟩ := h.held_of_owns howns
  refine h.write_one ?_ (fun id' hid => ?_) (fun l' hl' hplaced' => ?_) (by simp) (by simp) (by simp)
  · exact (active_move_le ..).trans h.capacity
  · change id' ≠ id at hid
    refine ⟨?_, Dict.get?_set_of_ne _ _ (Ne.symm hid)⟩
    show (s.db.rows.erase id).get? id' = _
    rw [Dict.get?_erase, if_neg (Ne.symm hid)]
  · obtain rfl := some_inj.mp (hl.symm.trans hl')
    refine ⟨.dead, if_pos rfl, ?_, _, Dict.get?_set_self ..⟩
    show (s.db.rows.erase id).get? id = none
    rw [Dict.get?_erase, if_pos rfl]

theorem inv_retry (h : Inv s) (howns : (s.db.rows.get? id).isSome → s.owns owner id = true)
    (retryCount : Nat) (error : Option PyStr) (now : Rat) :
    Inv (s.retry owner id retryCount error now) := by
  unfold State.retry
  split
  · next hsome =>
    obtain ⟨row, hrow, hstatus, hl, -⟩ := h.held_of_owns (howns hsome)
    have hdb : s.db.retry id retryCount error now =
        s.db.setRow id (row.retrying retryCount error now) := by rw [Outbox.retry, hrow]
    rw [hdb]
    refine h.write_one ?_ (fun id' hid => ?_) (fun l' hl' hplaced' => ?_) (by simp) (by simp) (by simp)
    · refine (active_setRow_le hrow fun _ => ?_).trans h.capacity
      rw [hstatus]
      rfl
    · exact ⟨Dict.get?_set_of_ne _ _ (Ne.symm hid), rfl⟩
    · obtain rfl := some_inj.mp (hl.symm.trans hl')
      exact ⟨.waiting, if_pos rfl, ⟨_, Dict.get?_set_self .., .inr rfl, rfl⟩, hplaced'.2⟩
  · exact h

theorem inv_insert (h : Inv s) (hcall : (s.workers owner).call =
    some (.enqueueInsert r)) (hsound : (Call.enqueueInsert r).sound K s owner = true) :
    Inv (s.resume K owner time (.enqueueInsert r)) := by
  have hadding : (s.workers owner).adding = some r.id := by rw [Worker.adding, hcall]
  have hover : Inv (s.goOn owner none) := h.goOn (by simp [Worker.adding])
  rw [State.resume]
  split
  · exact hover
  · next db hinsert =>
    obtain ⟨hnew, hdb⟩ := insert_eq_some hinsert
    obtain ⟨hissued, habsent⟩ := h.adding owner r.id hadding
    have hroom : s.db.active < s.db.maxRecords := by
      rw [Outbox.insert] at hinsert
      split at hinsert
      · cases hinsert
      · next hfree =>
        rw [Call.sound, or_eq_true, decide_eq_true_eq] at hsound
        exact hsound.resolve_left hfree
    subst hdb
    refine hover.write_one (e := .enqueued r.id) ?_ (fun id hid => ?_) (fun l hl hplaced => ?_) (by simp)
      (fun id heq => ?_) (by simp)
    · exact (active_setRow_new hnew).trans hroom
    · exact ⟨Dict.get?_set_of_ne _ _ (Ne.symm hid), rfl⟩
    · obtain rfl := some_inj.mp (habsent.symm.trans hl)
      exact ⟨.waiting, rfl, ⟨_, Dict.get?_set_self .., .inl rfl, rfl⟩, hplaced.2⟩
    · obtain rfl := Entry.enqueued.inj heq
      refine ⟨hissued, fun owner' hadd => ?_⟩
      by_cases howner : owner' = owner
      · subst howner
        rw [State.goOn, set_workers_self] at hadd
        cases hadd
      · rw [State.goOn, set_workers_of_ne _ _ howner] at hadd
        exact howner (h.apart owner' owner r.id hadd hadding)

theorem inv_requeue (h : Inv s) {d : DeadLetter P}
    (hsound : (Call.requeue id d now).sound K s owner = true) :
    Inv (s.resume K owner time (.requeue id d now)) := by
  have hover : Inv (s.goOn owner none) := h.goOn (by simp [Worker.adding])
  rw [State.resume]
  split
  · exact hover
  · next db hrestore =>
    obtain ⟨hnew, hdb⟩ := restore_eq_some hrestore
    have hfree : s.db.conflicts id (d.row now) = false := by
      rw [Outbox.restore] at hrestore
      split at hrestore
      · cases hrestore
      · next hfree => exact Bool.eq_false_iff.mpr hfree
    rw [Call.sound, hfree, Bool.false_or, Bool.and_eq_true, decide_eq_true_eq] at hsound
    obtain ⟨d', hdead⟩ := Dict.contains_iff.mp hsound.1
    subst hdb
    refine hover.write_one (e := .requeued id) ?_ (fun id' hid => ?_) (fun l hl hplaced => ?_) (by simp)
      (by simp) (by simp)
    · have hone : (s.db.setRow id (d.row now)).active ≤ s.db.active + 1 := active_setRow_new hnew
      exact hone.trans hsound.2
    · change id' ≠ id at hid
      refine ⟨Dict.get?_set_of_ne _ _ (Ne.symm hid), ?_⟩
      show (s.db.deadLetters.erase id).get? id' = _
      rw [Dict.get?_erase, if_neg (Ne.symm hid)]
      rfl
    · obtain rfl := hplaced.of_dead hdead
      refine ⟨.waiting, rfl, ⟨_, Dict.get?_set_self .., .inl rfl, rfl⟩, ?_⟩
      show (s.db.deadLetters.erase id).get? id = none
      rw [Dict.get?_erase, if_pos rfl]

theorem mem_claimedIds {ids : List PyStr} : id ∈ State.claimedIds s.db c ids ↔
    ∃ row, s.db.rows.get? id = some row ∧ (ids.contains id && row.ready c) = true := by
  simp only [State.claimedIds, Dict.mem_keys_iff, isSome_iff_exists, Dict.get?_filter]

theorem mem_purgedIds : id ∈ State.purgedIds s.db cutoff ↔
    ∃ row, s.db.rows.get? id = some row ∧ Outbox.purgeable cutoff row = true := by
  simp only [State.purgedIds, Dict.mem_keys_iff, isSome_iff_exists, Dict.get?_filter]

theorem active_of_ready {row : Row P} (h : row.ready c = true) : row.status.isActive = true := by
  cases hstatus : row.status with
  | delivered => simp [Row.ready, hstatus] at h
  | pending => rfl
  | retry => rfl
  | inflight => rfl

/-- The `UPDATE` of `claim` takes the records that can be claimed; what the worker has had in
its hands is out of them. -/
theorem inv_takeLease (h : Inv s) (c : ClaimCall) (ids : List PyStr)
    (hreleased : (s.workers c.owner).committed = []) :
    Inv (s.write (s.db.takeLease c ids) ((State.claimedIds s.db c ids).map (.claimed c.owner))) := by
  have hmap : ∀ id l, Storage.lives id l ((State.claimedIds s.db c ids).map (.claimed c.owner)) = _ :=
    fun id l => lives_map (fun _ => rfl) (Dict.nodup _)
  have hclaimed : ∀ id l, Placed s.db id l → id ∈ State.claimedIds s.db c ids →
      l.step (.claimed c.owner id) = some (.held c.owner) := by
    intro id l hplaced hmem
    obtain ⟨row, hrow, hready⟩ := mem_claimedIds.mp hmem
    rw [and_eq_true] at hready
    rcases hplaced.of_active hrow (active_of_ready hready.2) with rfl | ⟨owner', rfl⟩ <;> rfl
  refine h.write ?_ (fun id l hl hplaced => ?_) (by simp) (fun owner id hmem hheld => ?_) (by simp)
  · rw [active_takeLease]
    exact h.capacity
  · by_cases hmem : id ∈ State.claimedIds s.db c ids
    · refine ⟨.held c.owner, ?_, ?_⟩
      · rw [hmap, if_pos hmem, hclaimed id l hplaced hmem]
      · obtain ⟨row, hrow, hready⟩ := mem_claimedIds.mp hmem
        have hactive := active_of_ready (and_eq_true _ _ ▸ hready).2
        refine ⟨⟨row.leased c, ?_, rfl, rfl⟩, ?_⟩
        · rw [Outbox.get?_takeLease, hrow, map_some, if_pos hready]
        · rcases hplaced.of_active hrow hactive with rfl | ⟨owner', rfl⟩
          · exact hplaced.2
          · exact hplaced.2
    · refine ⟨l, ?_, hplaced.congr ?_ rfl⟩
      · rw [hmap, if_neg hmem]
      · rw [Outbox.get?_takeLease]
        cases hrow : s.db.rows.get? id with
        | none => rfl
        | some row =>
          have hnot : ¬ (ids.contains id && row.ready c) = true := fun hready =>
            hmem (mem_claimedIds.mpr ⟨row, hrow, hready⟩)
          rw [map_some, if_neg hnot]
  · obtain ⟨l, hl, hplaced⟩ := h.lives id
    rw [life_append, hl, bind_some, hmap] at hheld
    split at hheld
    · next hid =>
      -- the record is in the hands of the worker that claims it, and its hands are empty
      rw [hclaimed id l hplaced hid, some_inj, Life.held.injEq] at hheld
      rw [← hheld, hreleased] at hmem
      cases hmem
    · next hid =>
      cases hheld
      refine ⟨hl, fun e he habout => ?_⟩
      obtain ⟨id', hid', rfl⟩ := mem_map.mp he
      obtain rfl : id' = id := habout
      exact absurd hid' hid

theorem inv_purge (h : Inv s) (cutoff : Rat) :
    Inv (s.write (s.db.purgeDelivered cutoff) ((State.purgedIds s.db cutoff).map .purged)) := by
  have hmap : ∀ id l, Storage.lives id l ((State.purgedIds s.db cutoff).map .purged) = _ :=
    fun id l => lives_map (fun _ => rfl) (Dict.nodup _)
  have hget : ∀ id row, (s.db.purgeDelivered cutoff).rows.get? id = some row ↔
      s.db.rows.get? id = some row ∧ (!Outbox.purgeable cutoff row) = true := fun id row =>
    Dict.get?_filter
  have hpurged : ∀ id l, Placed s.db id l → id ∈ State.purgedIds s.db cutoff → l = .delivered := by
    intro id l hplaced hmem
    obtain ⟨row, hrow, hpurgeable⟩ := mem_purgedIds.mp hmem
    rw [Outbox.purgeable, and_eq_true, decide_eq_true_eq] at hpurgeable
    exact hplaced.of_delivered hrow hpurgeable.1
  refine h.write ?_ (fun id l hl hplaced => ?_) (by simp) (fun owner id hmem hheld => ?_) (by simp)
  · exact (active_purge_le _).trans h.capacity
  · by_cases hmem : id ∈ State.purgedIds s.db cutoff
    · obtain rfl := hpurged id l hplaced hmem
      refine ⟨.purged, ?_, ?_, hplaced.2⟩
      · rw [hmap, if_pos hmem]
        rfl
      · obtain ⟨row, hrow, hpurgeable⟩ := mem_purgedIds.mp hmem
        cases hgone : (s.db.purgeDelivered cutoff).rows.get? id with
        | none => rfl
        | some row' =>
          obtain ⟨hrow', hkept⟩ := (hget id row').mp hgone
          obtain rfl := some_inj.mp (hrow.symm.trans hrow')
          rw [hpurgeable] at hkept
          cases hkept
    · refine ⟨l, ?_, hplaced.congr ?_ rfl⟩
      · rw [hmap, if_neg hmem]
      · cases hrow : s.db.rows.get? id with
        | none =>
          cases hgone : (s.db.purgeDelivered cutoff).rows.get? id with
          | none => rfl
          | some row' =>
            rw [((hget id row').mp hgone).1] at hrow
            cases hrow
        | some row =>
          refine (hget id row).mpr ⟨hrow, not_eq_true' _ |>.mpr ?_⟩
          exact eq_false_iff.mpr fun hpurgeable => hmem (mem_purgedIds.mpr ⟨row, hrow, hpurgeable⟩)
  · obtain ⟨l, hl, -⟩ := h.lives id
    rw [life_append, hl, bind_some] at hheld
    obtain ⟨rfl, hall⟩ := held_of_no_claim hheld (by simp)
    exact ⟨hl, hall⟩

theorem inv_commit (h : Inv s) : Inv ((s.write s.db [.committed owner id]).set owner
      { s.workers owner with committed := id :: (s.workers owner).committed }) := by
  have hwrite : Inv (s.write s.db [.committed owner id]) := by
    refine h.write_one h.capacity (fun _ _ => ⟨rfl, rfl⟩) (fun l hl hplaced => ?_) (by simp) (by simp)
      (by simp)
    exact ⟨l, by cases l <;> rfl, hplaced⟩
  refine hwrite.set (fun _ hadd => hadd) fun id' hmem hheld => ?_
  rcases mem_cons.mp hmem with rfl | hmem
  · refine ⟨s.log, [], rfl, ?_, by simp⟩
    obtain ⟨l, hl, -⟩ := h.lives id'
    have hsame : life id' (s.log ++ [.committed owner id']) = some l := by
      rw [life_append, hl, bind_some, lives_singleton]
      split
      · cases l <;> rfl
      · rfl
    rw [hl, ← hsame]
    exact hheld
  · exact hwrite.working owner id' hmem hheld

theorem inv_resume (h : Inv s) {call : Call P} (hcall : (s.workers owner).call = some call)
    (hsound : call.sound K s owner = true) (time : Rat) : Inv (s.resume K owner time call) := by
  cases call with
  | enqueueCount r =>
    have hadding : (s.workers owner).adding = some r.id := by rw [Worker.adding, hcall]
    rw [State.resume]
    split
    · exact h.goOn (by simp [Worker.adding])
    · exact h.goOn fun id hadd => hadding.trans hadd
  | enqueueInsert r => exact inv_insert h hcall hsound
  | claimUpdate c ids =>
    have hreleased : Inv (s.release c.owner) := h.set (fun _ hadd => hadd) (by simp)
    have hempty : ((s.release c.owner).workers c.owner).committed = [] := by
      rw [State.release, set_workers_self]
    exact (inv_takeLease hreleased c ids hempty).goOn (by simp [Worker.adding])
  | claimSelect c ids => exact h.goOn (by simp [Worker.adding])
  | claimCheck rows =>
    cases rows with
    | nil => exact h.goOn (by simp [Worker.adding])
    | cons e rows =>
      obtain ⟨id, row⟩ := e
      rw [State.resume]
      split
      · next hcorrupt =>
        have howns : s.owns owner id = true := by simpa [Call.sound, hcorrupt] using hsound
        exact (inv_move h howns ..).goOn (by simp [Worker.adding])
      · have hkept : Inv (s.keep owner id) := h.set (fun _ hadd => hadd) (h.working owner)
        exact hkept.goOn (by simp [Worker.adding])
  | fail id row error maxRetries now =>
    rw [Call.sound, or_eq_true, and_eq_true, decide_eq_true_eq] at hsound
    rw [State.resume]
    split
    · next hlimit =>
      have howns := hsound.resolve_left fun hgone => not_lt.mpr hlimit hgone.1
      exact (inv_move h howns ..).goOn (by simp [Worker.adding])
    · have howns : (s.db.rows.get? id).isSome → s.owns owner id = true := fun hsome =>
        hsound.resolve_left fun hgone => by
          rw [isNone_iff_eq_none] at hgone
          rw [hgone.2] at hsome
          cases hsome
      exact (inv_retry h howns ..).goOn (by simp [Worker.adding])
  | requeue id d now => exact inv_requeue h hsound

/-- `enqueue` begins with an id that `uuid4` has just given. -/
theorem inv_beginEnqueue (h : Inv s) (hidle : s.idle owner = true) (hfresh : r.id ∉ s.issued) :
    Inv ({ s with issued := r.id :: s.issued }.beginEnqueue owner r) := by
  have hissued : Inv { s with issued := r.id :: s.issued } :=
    { h with
      fresh := fun id hid => h.fresh id fun hmem => hid (mem_cons_of_mem _ hmem)
      adding := fun owner id hadd =>
        ⟨mem_cons_of_mem _ (h.adding owner id hadd).1, (h.adding owner id hadd).2⟩ }
  unfold State.beginEnqueue
  split
  · exact hissued
  · have hwhat : ∀ owner' id, ((State.goOn { s with issued := r.id :: s.issued } owner
        (some (.enqueueCount r))).workers owner').adding = some id →
        owner' = owner ∧ id = r.id ∨ owner' ≠ owner ∧ (s.workers owner').adding = some id := by
      intro owner' id hadd
      by_cases howner : owner' = owner
      · subst howner
        rw [State.goOn, set_workers_self] at hadd
        exact .inl ⟨rfl, (some_inj.mp hadd).symm⟩
      · rw [State.goOn, set_workers_of_ne _ _ howner] at hadd
        exact .inr ⟨howner, hadd⟩
    have hother : ∀ owner', (s.workers owner').adding ≠ some r.id := fun owner' hadd =>
      hfresh (h.adding owner' r.id hadd).1
    refine { hissued with
      adding := fun owner' id hadd => ?_
      apart := fun o₁ o₂ id h₁ h₂ => ?_
      working := fun owner' id hmem hheld => ?_ }
    · rcases hwhat owner' id hadd with ⟨-, rfl⟩ | ⟨-, hold⟩
      · exact ⟨mem_cons_self, h.fresh r.id hfresh⟩
      · exact hissued.adding owner' id hold
    · rcases hwhat o₁ id h₁ with ⟨rfl, rfl⟩ | ⟨hne₁, hold₁⟩
      · rcases hwhat o₂ r.id h₂ with ⟨rfl, -⟩ | ⟨-, hold₂⟩
        · rfl
        · exact absurd hold₂ (hother o₂)
      · rcases hwhat o₂ id h₂ with ⟨rfl, rfl⟩ | ⟨-, hold₂⟩
        · exact absurd hold₁ (hother o₁)
        · exact h.apart o₁ o₂ id hold₁ hold₂
    · refine h.working owner' id ?_ hheld
      by_cases howner : owner' = owner
      · subst howner
        rw [State.goOn, set_workers_self] at hmem
        exact hmem
      · rw [State.goOn, set_workers_of_ne _ _ howner] at hmem
        exact hmem

theorem inv_step {l : Label P} (h : Inv s) (hsound : Sound K s l)
    (hstep : (outbox K).step s l = some s') : Inv s' := by
  cases l with
  | enqueue owner r =>
    change (if _ then _ else none) = some s' at hstep
    split at hstep
    · next hnew =>
      cases hstep
      exact inv_beginEnqueue h hnew.1 hnew.2
    · cases hstep
  | claim c =>
    change (if _ then _ else none) = some s' at hstep
    split at hstep
    · cases hstep
      unfold State.beginClaim
      split
      · exact h
      · exact h.goOn (by simp [Worker.adding])
    · cases hstep
  | commit owner id =>
    change (if _ then _ else none) = some s' at hstep
    split at hstep
    · cases hstep
      exact inv_commit h
    · cases hstep
  | markDelivered owner id remoteRevision now =>
    change (if _ then _ else none) = some s' at hstep
    split at hstep
    · next hcommitted =>
      cases hstep
      exact inv_markDelivered h hcommitted.2
    · cases hstep
  | markFailed owner id error maxRetries now =>
    change (if _ then _ else none) = some s' at hstep
    split at hstep
    · cases hstep
      unfold State.beginFail
      split
      · exact h
      · split
        · exact h
        · exact h.goOn (by simp [Worker.adding])
    · cases hstep
  | requeue owner id now =>
    change (if _ then _ else none) = some s' at hstep
    split at hstep
    · cases hstep
      unfold State.beginRequeue
      split
      · exact h
      · exact h.goOn (by simp [Worker.adding])
    · cases hstep
  | purge owner cutoff =>
    change (if _ then _ else none) = some s' at hstep
    split at hstep
    · cases hstep
      exact inv_purge h cutoff
    · cases hstep
  | resume owner time =>
    obtain ⟨call, hcall, rfl⟩ := map_eq_some_iff.mp hstep
    refine inv_resume h hcall ?_ time
    have hall : (s.workers owner).call.all (fun call => call.sound K s owner) = true := hsound
    rwa [hcall] at hall
  | abort owner =>
    change (if _ then none else _) = some s' at hstep
    split at hstep
    · cases hstep
    · cases hstep
      exact h.goOn (by simp [Worker.adding])
  | crash owner =>
    cases hstep
    exact h.set (by simp [Worker.adding]) (by simp)

theorem isIn_iff (hl : life id s.log = some l) (hplaced : Placed s.db id l) (p : Place) :
    s.IsIn id p ↔ l.place = some p := by
  cases p with
  | active =>
    constructor
    · rintro ⟨row, hrow, hactive⟩
      rcases hplaced.of_active hrow hactive with rfl | ⟨owner, rfl⟩ <;> rfl
    · intro hplace
      cases l with
      | waiting =>
        obtain ⟨⟨row, hrow, hstatus, -⟩, -⟩ := hplaced
        exact ⟨row, hrow, by rcases hstatus with hstatus | hstatus <;> rw [hstatus] <;> rfl⟩
      | held owner =>
        obtain ⟨⟨row, hrow, hstatus, -⟩, -⟩ := hplaced
        exact ⟨row, hrow, by rw [hstatus]; rfl⟩
      | absent => cases hplace
      | delivered => cases hplace
      | dead => cases hplace
      | purged => cases hplace
  | delivered =>
    constructor
    · rintro ⟨row, hrow, hstatus⟩
      rw [hplaced.of_delivered hrow hstatus]
      rfl
    · intro hplace
      cases l with
      | delivered =>
        obtain ⟨⟨row, hrow, hstatus, -⟩, -⟩ := hplaced
        exact ⟨row, hrow, hstatus⟩
      | absent => cases hplace
      | waiting => cases hplace
      | held _ => cases hplace
      | dead => cases hplace
      | purged => cases hplace
  | deadLetter =>
    constructor
    · rintro ⟨d, hdead⟩
      rw [hplaced.of_dead hdead]
      rfl
    · intro hplace
      cases l with
      | dead => exact hplaced.2
      | absent => cases hplace
      | waiting => cases hplace
      | held _ => cases hplace
      | delivered => cases hplace
      | purged => cases hplace
  | purged =>
    constructor
    · intro hmem
      rw [purged_of_mem hl (.inl hmem)]
      rfl
    · intro hplace
      cases l with
      | purged => exact mem_of_purged hl
      | absent => cases hplace
      | waiting => cases hplace
      | held _ => cases hplace
      | delivered => cases hplace
      | dead => cases hplace

theorem held_of_changed {log : List Entry} (post : List Entry)
    (h : life e.about (log ++ e :: post) = some l) (hchanged : e.changedBy = some owner) :
    life e.about log = some (.held owner) := by
  rw [life_append] at h
  obtain ⟨l₀, hl₀, hrest⟩ := bind_eq_some_iff.mp h
  rw [lives_cons, if_pos rfl] at hrest
  obtain ⟨l₁, hstep, -⟩ := bind_eq_some_iff.mp hrest
  have hheld : l₀ = .held owner := by
    cases e with
    | delivered owner' id =>
      cases hchanged
      cases l₀ <;> simp_all [Life.step]
    | failed owner' id =>
      cases hchanged
      cases l₀ <;> simp_all [Life.step]
    | died owner' id =>
      cases hchanged
      cases l₀ <;> simp_all [Life.step]
    | enqueued _ => cases hchanged
    | claimed _ _ => cases hchanged
    | committed _ _ => cases hchanged
    | requeued _ => cases hchanged
    | purged _ => cases hchanged
  rw [hl₀, hheld]

theorem laws_of_inv (h : Inv s) : OutboxLaws s where
  lives := h.lives
  place := by
    intro id hadded
    obtain ⟨l, hl, hplaced⟩ := h.lives id
    have hplace : ∃ p, l.place = some p := by
      cases l with
      | absent => exact absurd rfl (ne_absent_of_mem hl (.inl hadded))
      | waiting => exact ⟨_, rfl⟩
      | held _ => exact ⟨_, rfl⟩
      | delivered => exact ⟨_, rfl⟩
      | dead => exact ⟨_, rfl⟩
      | purged => exact ⟨_, rfl⟩
    obtain ⟨p, hp⟩ := hplace
    refine ⟨p, (isIn_iff hl hplaced p).mpr hp, fun p' hp' => ?_⟩
    exact some_inj.mp (((isIn_iff hl hplaced p').mp hp').symm.trans hp)
  marked := by
    rintro id ⟨row, hrow, hstatus⟩
    obtain ⟨l, hl, hplaced⟩ := h.lives id
    rw [hplaced.of_delivered hrow hstatus] at hl
    exact mem_of_delivered hl
  earned := h.earned
  holder := by
    intro pre e post hlog owner hchanged
    obtain ⟨l, hl, -⟩ := h.lives e.about
    rw [hlog] at hl
    exact held_of_changed post hl hchanged
  capacity := h.capacity

variable (K) in
/-- The laws of the outbox hold after any sound steps of any workers. -/
theorem outbox_laws (h : (outbox K).ReachableUnder (Sound K) s) : OutboxLaws s := by
  refine laws_of_inv (h.invariant (fun s₀ hinit => ?_) fun s₁ l s₂ hinv hsound hstep =>
    inv_step hinv hsound hstep)
  obtain ⟨hrows, hdead, hworkers, hissued, hlog⟩ := hinit
  have hlife : ∀ id, life id s₀.log = some .absent := fun id => by rw [hlog]; rfl
  have hadding : ∀ owner, (s₀.workers owner).adding = none := fun owner => by rw [hworkers]; rfl
  refine ⟨fun id => ⟨.absent, hlife id, ?_, ?_⟩, fun id _ => hlife id, fun owner id hadd => ?_,
    fun o₁ o₂ id hadd => ?_, fun owner id hmem => ?_, ?_, ?_⟩
  · rw [hrows]
    rfl
  · rw [hdead]
    rfl
  · rw [hadding] at hadd
    cases hadd
  · rw [hadding] at hadd
    cases hadd
  · rw [hworkers] at hmem
    cases hmem
  · rw [hlog]
    exact Log.each_nil
  · rw [Outbox.active, hrows]
    exact Nat.zero_le _

end Steps

def sampleCodec : Codec PyStr := ⟨fun _ => "sha", fun _ _ => true⟩

def sampleState : State PyStr := ⟨{}, fun _ => {}, [], []⟩

def sampleRecord : NewRecord PyStr :=
  newRecord sampleCodec "rec_1" "seekdb" "payload" (some "key_1") none none 0

def claimedRun : List (Label PyStr) :=
  [.enqueue "w1" sampleRecord, .resume "w1" 0, .resume "w1" 0, .claim { owner := "w1", now := 0 },
    .resume "w1" 0, .resume "w1" 0, .resume "w1" 0, .resume "w1" 0]

theorem outbox_laws_delivered : ∃ s, (outbox sampleCodec).run sampleState (claimedRun ++
      [.commit "w1" "rec_1", .markDelivered "w1" "rec_1" none 1]) = some s ∧
    s.IsIn "rec_1" .delivered ∧ OutboxLaws s := by
  have hrun : ∃ s row, (outbox sampleCodec).runUnder (Sound sampleCodec) sampleState (claimedRun ++
        [.commit "w1" "rec_1", .markDelivered "w1" "rec_1" none 1]) = some s ∧
      (outbox sampleCodec).run sampleState (claimedRun ++
        [.commit "w1" "rec_1", .markDelivered "w1" "rec_1" none 1]) = some s ∧
      s.db.rows.get? "rec_1" = some row ∧ row.status = .delivered := ⟨_, _, rfl, rfl, rfl, rfl⟩
  obtain ⟨s, row, hunder, hrun, hrow, hstatus⟩ := hrun
  exact ⟨s, hrun, ⟨row, hrow, hstatus⟩,
    outbox_laws sampleCodec (.of_runUnder ⟨rfl, rfl, rfl, rfl, rfl⟩ hunder)⟩

/-- The first worker has read the row for `mark_failed`; its lease expires, another worker
claims, commits and delivers the record; and then the failure is written. -/
def revivedRun : List (Label PyStr) :=
  claimedRun ++ [.markFailed "w1" "rec_1" (some "timeout") 10 1, .claim { owner := "w2", now := 31 },
    .resume "w2" 31, .resume "w2" 31, .resume "w2" 31, .resume "w2" 31, .commit "w2" "rec_1",
    .markDelivered "w2" "rec_1" none 32, .resume "w1" 33]

theorem revived_after_delivery : ∃ s, (outbox sampleCodec).Reachable s ∧
    .delivered "w2" "rec_1" ∈ s.log ∧ s.IsIn "rec_1" .active ∧ ¬ OutboxLaws s := by
  have hrun : ((outbox sampleCodec).run sampleState revivedRun).map (fun s =>
      (s.log, (s.db.rows.get? "rec_1").map fun row => row.status)) =
        some ([.enqueued "rec_1", .claimed "w1" "rec_1", .claimed "w2" "rec_1",
          .committed "w2" "rec_1", .delivered "w2" "rec_1", .failed "w1" "rec_1"], some .retry) := by
    decide +kernel
  obtain ⟨s, hrun, hs⟩ := Option.map_eq_some_iff.mp hrun
  obtain ⟨hlog, hstatus⟩ := Prod.mk.inj hs
  obtain ⟨row, hrow, hretry⟩ := Option.map_eq_some_iff.mp hstatus
  refine ⟨s, .of_run ⟨rfl, rfl, rfl, rfl, rfl⟩ hrun, ?_, ⟨row, hrow, by rw [hretry]; rfl⟩,
    fun hlaws => ?_⟩
  · rw [hlog]
    simp
  · obtain ⟨l, hl, -⟩ := hlaws.lives "rec_1"
    rw [hlog] at hl
    cases hl

end Rosclaw.Storage
