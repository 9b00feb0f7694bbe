/-
The ACTIVE collection follows the mutations.

The projection is right as long as no mutation is lost and none is overtaken:

* a mutation is lost when the outbox has a record with its key already, which happens if two
  mutations of a memory have the same marker;
* it is overtaken when a record that has failed is committed after a newer one of the same
  memory was delivered, or when a batch has them in another order;
* `Inv` — the invariant: the newest mutation of a memory waits in the outbox, is a dead
  letter, or is what the collection has;
* `projection_agrees` — agreement, in every state in which the outbox is empty and without
  dead letters that sound steps reach;
* `overtaken` — an upsert that is committed once more after the deletion of its memory.
-/
import Rosclaw.Storage.Projection

namespace Rosclaw.Projection

open Storage LastWriter List

def Waiting (db : Outbox PyVal) (payload : PyVal) : Prop :=
  ∃ id row, db.rows.get? id = some row ∧ row.status.isActive = true ∧ row.payload = payload

def Buried (db : Outbox PyVal) (payload : PyVal) : Prop :=
  ∃ id d, db.deadLetters.get? id = some d ∧ d.payload = payload

def Phase.records : Phase → List (PyStr × Row PyVal)
  | .idle => []
  | .batch records => records
  | .single marks records => marks ++ records

def Phase.marks : Phase → List (PyStr × Row PyVal)
  | .single marks _ => marks
  | _ => []

def Phase.payloads : Phase → List PyVal
  | .batch records => records.map fun r => r.2.payload
  | .single [] (r :: _) => [r.2.payload]
  | _ => []

section Laws

variable {E M : Type} (py : Builtins) (N : Native E M)

/-- The mutation has a key of its own, or it is the newest of its memory once more. -/
def Projector.Distinct (s : Projector E M) (memory : PyStr) (payload : PyVal) (marker : PyStr) :
    Prop :=
  s.db.findKey ACTIVE_PROJECTION_TARGET (idempotencyKey memory marker) = none ∨
    last memory s.mirrored = some payload

/-- The newest mutation of every memory that the commit is about has not been delivered. -/
def Projector.Undelivered (s : Projector E M) : Prop :=
  ∀ payload ∈ s.phase.payloads, ∀ newest, last (memoryId py payload) s.mirrored = some newest →
    Waiting s.db newest

def Projector.Ordered (s : Projector E M) : Prop :=
  ∀ payload ∈ s.phase.payloads, last (memoryId py payload) s.mirrored = some payload →
    last (memoryId py payload) (s.phase.payloads.map fun p => (memoryId py p, p)) = some payload

def Sound (s : Projector E M) : Projector.Label → Prop
  | .project _ record markerTime _ =>
      s.Distinct (memoryId py record) record (marker py record markerTime)
  | .projectDelete _ memory markerTime _ =>
      s.Distinct memory (deletion memory markerTime) (py.str (.float (.finite markerTime)))
  | .commit => s.Undelivered py ∧ s.Ordered py
  | .commitFails .. => s.Undelivered py
  | _ => True

/-- Each memory is in the collection as its newest mutation has left it. -/
def Projector.Agrees (s : Projector E M) : Prop :=
  ∀ id, s.collection.get? id = (last id s.mirrored).bind (effect py N)

/-! ### What the outbox keeps of the mutations -/

/-- A row has the payload it had before, and a mutation that waits goes on waiting or is
buried. -/
structure Keeps (db db' : Outbox PyVal) : Prop where
  payload : ∀ id row', db'.rows.get? id = some row' →
    ∃ row, db.rows.get? id = some row ∧ row.payload = row'.payload
  waiting : ∀ p, Waiting db p → Waiting db' p ∨ Buried db' p
  buried : ∀ p, Buried db p → Buried db' p
  apart : ∀ id d, db'.deadLetters.get? id = some d → db'.rows.get? id = none
  letters : ∀ id d, db'.deadLetters.get? id = some d →
    (∃ d', db.deadLetters.get? id = some d') ∨ ∃ row, db.rows.get? id = some row

section Keeps

variable {db db' db'' : Outbox PyVal} {id : PyStr} {row : Row PyVal}

theorem Keeps.trans (h : Keeps db db') (h' : Keeps db' db'') : Keeps db db'' where
  payload := by
    intro id row'' hrow''
    obtain ⟨row', hrow', heq'⟩ := h'.payload id row'' hrow''
    obtain ⟨row, hrow, heq⟩ := h.payload id row' hrow'
    exact ⟨row, hrow, heq.trans heq'⟩
  waiting := by
    intro p hp
    rcases h.waiting p hp with hp | hp
    · exact h'.waiting p hp
    · exact .inr (h'.buried p hp)
  buried := fun p hp => h'.buried p (h.buried p hp)
  apart := h'.apart
  letters := by
    intro id d hdead
    rcases h'.letters id d hdead with ⟨d', hd'⟩ | ⟨row', hrow'⟩
    · exact h.letters id d' hd'
    · obtain ⟨row, hrow, -⟩ := h.payload id row' hrow'
      exact .inr ⟨row, hrow⟩

theorem keeps_refl (hapart : ∀ id d, db.deadLetters.get? id = some d → db.rows.get? id = none) :
    Keeps db db where
  payload := fun _ row hrow => ⟨row, hrow, rfl⟩
  waiting := fun _ h => .inl h
  buried := fun _ h => h
  apart := hapart
  letters := fun _ d hdead => .inl ⟨d, hdead⟩

theorem keeps_mapVals (hapart : ∀ id d, db.deadLetters.get? id = some d → db.rows.get? id = none)
    {f : PyStr → Row PyVal → Row PyVal} (hpayload : ∀ id row, (f id row).payload = row.payload)
    (hactive : ∀ id row, row.status.isActive = true → (f id row).status.isActive = true) :
    Keeps db { db with rows := db.rows.mapVals f } where
  payload := by
    intro id row' hrow'
    rw [Dict.get?_mapVals] at hrow'
    obtain ⟨row, hrow, rfl⟩ := Option.map_eq_some_iff.mp hrow'
    exact ⟨row, hrow, (hpayload id row).symm⟩
  waiting := by
    rintro p ⟨id, row, hrow, hstatus, rfl⟩
    refine .inl ⟨id, f id row, ?_, hactive id row hstatus, hpayload id row⟩
    rw [Dict.get?_mapVals, hrow]
    rfl
  buried := fun _ h => h
  apart := by
    intro id d hdead
    rw [Dict.get?_mapVals, hapart id d hdead]
    rfl
  letters := fun _ d hdead => .inl ⟨d, hdead⟩

theorem keeps_takeLease (hapart : ∀ id d, db.deadLetters.get? id = some d → db.rows.get? id = none)
    (c : ClaimCall) (ids : List PyStr) : Keeps db (db.takeLease c ids) := by
  refine keeps_mapVals hapart (fun id row => ?_) fun id row hactive => ?_
  · split <;> rfl
  · split
    · rfl
    · exact hactive

theorem keeps_move (hapart : ∀ id d, db.deadLetters.get? id = some d → db.rows.get? id = none)
    (hrow : db.rows.get? id = some row) (retryCount : Nat) (error : Option PyStr) (failedAt : Rat) :
    Keeps db (db.moveToDeadLetters id row retryCount error failedAt) where
  payload := by
    intro id' row' hrow'
    change (db.rows.erase id).get? id' = some row' at hrow'
    rw [Dict.get?_erase] at hrow'
    split at hrow'
    · cases hrow'
    · exact ⟨row', hrow', rfl⟩
  waiting := by
    rintro p ⟨id', row', hrow', hstatus, rfl⟩
    by_cases hid : id = id'
    · subst hid
      obtain rfl := Option.some_inj.mp (hrow.symm.trans hrow')
      exact .inr ⟨id, _, Dict.get?_set_self .., rfl⟩
    · refine .inl ⟨id', row', ?_, hstatus, rfl⟩
      show (db.rows.erase id).get? id' = _
      rw [Dict.get?_erase, if_neg hid, hrow']
  buried := by
    rintro p ⟨id', d, hdead, rfl⟩
    refine ⟨id', d, ?_, rfl⟩
    show (db.deadLetters.set id _).get? id' = _
    rw [Dict.get?_set_of_ne, hdead]
    rintro rfl
    rw [hapart id d hdead] at hrow
    cases hrow
  apart := by
    intro id' d hdead
    show (db.rows.erase id).get? id' = none
    rw [Dict.get?_erase]
    split
    · rfl
    · next hid =>
      refine hapart id' d ?_
      change (db.deadLetters.set id _).get? id' = some d at hdead
      rwa [Dict.get?_set_of_ne _ _ hid] at hdead
  letters := by
    intro id' d hdead
    change (db.deadLetters.set id _).get? id' = some d at hdead
    rw [Dict.get?_set] at hdead
    split at hdead
    · next hid => exact .inr ⟨row, hid ▸ hrow⟩
    · exact .inl ⟨d, hdead⟩

theorem keeps_purge (hapart : ∀ id d, db.deadLetters.get? id = some d → db.rows.get? id = none)
    (cutoff : Rat) : Keeps db (db.purgeDelivered cutoff) where
  payload := fun id row hrow => ⟨row, (Dict.get?_filter.mp hrow).1, rfl⟩
  waiting := by
    rintro p ⟨id, row, hrow, hstatus, rfl⟩
    refine .inl ⟨id, row, Dict.get?_filter.mpr ⟨hrow, ?_⟩, hstatus, rfl⟩
    cases hrow' : row.status with
    | delivered =>
      rw [hrow'] at hstatus
      cases hstatus
    | pending => simp [Outbox.purgeable, hrow']
    | retry => simp [Outbox.purgeable, hrow']
    | inflight => simp [Outbox.purgeable, hrow']
  buried := fun _ h => h
  apart := by
    intro id d hdead
    cases hrow : (db.purgeDelivered cutoff).rows.get? id with
    | none => rfl
    | some row =>
      have hgone := hapart id d hdead
      rw [(Dict.get?_filter.mp hrow).1] at hgone
      cases hgone
  letters := fun _ d hdead => .inl ⟨d, hdead⟩

variable (K : Codec PyVal)

/-- `claim` keeps the mutations, and returns records of the outbox. -/
theorem keeps_sortOut (failedAt : Rat) (rows : List (PyStr × Row PyVal))
    (hapart : ∀ id d, db.deadLetters.get? id = some d → db.rows.get? id = none)
    (hnodup : (rows.map Prod.fst).Nodup) (hrows : ∀ r ∈ rows, db.rows.get? r.1 = some r.2) :
    Keeps db (Outbox.sortOut K failedAt rows db).2 ∧
      ∀ r ∈ (Outbox.sortOut K failedAt rows db).1, r ∈ rows := by
  induction rows generalizing db with
  | nil => exact ⟨keeps_refl hapart, by simp [Outbox.sortOut]⟩
  | cons e rows ih =>
    obtain ⟨id, row⟩ := e
    obtain ⟨hnew, hrest⟩ := nodup_cons.mp hnodup
    rw [Outbox.sortOut]
    split
    · have hmove := keeps_move hapart (hrows _ mem_cons_self) row.retryCount
        (some "payload checksum mismatch") failedAt
      obtain ⟨hkeeps, hmem⟩ := ih hmove.apart hrest fun r hr => by
        have hne : id ≠ r.1 := fun heq => hnew (mem_map.mpr ⟨r, hr, heq.symm⟩)
        show (db.rows.erase id).get? r.1 = _
        rw [Dict.get?_erase, if_neg hne, hrows r (mem_cons_of_mem _ hr)]
      exact ⟨hmove.trans hkeeps, fun r hr => mem_cons_of_mem _ (hmem r hr)⟩
    · obtain ⟨hkeeps, hmem⟩ := ih hapart hrest fun r hr => hrows r (mem_cons_of_mem _ hr)
      refine ⟨hkeeps, fun r hr => ?_⟩
      rcases mem_cons.mp hr with rfl | hr
      · exact mem_cons_self
      · exact mem_cons_of_mem _ (hmem r hr)

theorem keeps_claim (c : ClaimCall) (failedAt : Rat)
    (hapart : ∀ id d, db.deadLetters.get? id = some d → db.rows.get? id = none) :
    Keeps db (db.claim K c failedAt).2 ∧ ∀ r ∈ (db.claim K c failedAt).1,
      ∃ row, db.rows.get? r.1 = some row ∧ row.payload = r.2.payload := by
  unfold Outbox.claim
  split
  · exact ⟨keeps_refl hapart, by simp⟩
  · have hlease := keeps_takeLease hapart c (db.candidates c)
    obtain ⟨hkeeps, hmem⟩ := keeps_sortOut K failedAt _ hlease.apart (Outbox.nodup_leasedRows c _)
      fun r hr => (Outbox.mem_leasedRows hr).1
    exact ⟨hlease.trans hkeeps, fun r hr =>
      hlease.payload r.1 r.2 (Outbox.mem_leasedRows (hmem r hr)).1⟩

theorem keeps_markFailed (hapart : ∀ id d, db.deadLetters.get? id = some d → db.rows.get? id = none)
    (owner : PyStr) (error : Option PyStr) (maxRetries : Int) (now failedAt : Rat) :
    Keeps db (db.markFailed id owner error maxRetries now failedAt) := by
  have hsame := keeps_refl hapart
  unfold Outbox.markFailed
  split
  · exact hsame
  · next row hrow =>
    split
    · exact hsame
    · unfold Outbox.recordFailure
      split
      · exact keeps_move hapart hrow ..
      · rw [Outbox.retry, hrow]
        refine ⟨fun id' row' hrow' => ?_, ?_, fun _ h => h, fun id' d hdead => ?_,
          fun _ d hdead => .inl ⟨d, hdead⟩⟩
        · change (db.rows.set id _).get? id' = some row' at hrow'
          rw [Dict.get?_set] at hrow'
          split at hrow'
          · next hid =>
            subst hid
            cases hrow'
            exact ⟨row, hrow, rfl⟩
          · exact ⟨row', hrow', rfl⟩
        · rintro p ⟨id', row', hrow', hstatus, rfl⟩
          by_cases hid : id = id'
          · subst hid
            obtain rfl := Option.some_inj.mp (hrow.symm.trans hrow')
            exact .inl ⟨id, _, Dict.get?_set_self .., rfl, rfl⟩
          · exact .inl ⟨id', row', (Dict.get?_set_of_ne _ _ hid).trans hrow', hstatus, rfl⟩
        · show (db.rows.set id _).get? id' = none
          rw [Dict.get?_set_of_ne, hapart id' d hdead]
          rintro rfl
          rw [hapart id d hdead] at hrow
          cases hrow

end Keeps

/-! ### The invariant -/

/-- A record in the worker's hands is one of the outbox, or was. -/
structure InHand (s : Projector E M) (r : PyStr × Row PyVal) : Prop where
  issued : r.1 ∈ s.issued
  mirrored : (memoryId py r.2.payload, r.2.payload) ∈ s.mirrored
  payload : ∀ row, s.db.rows.get? r.1 = some row → row.payload = r.2.payload

/-- A record that is not in the worker's hands waits with the mutation. -/
def Elsewhere (s : Projector E M) (payload : PyVal) : Prop :=
  ∃ id row, (∀ r ∈ s.phase.records, r.1 ≠ id) ∧ s.db.rows.get? id = some row ∧
    row.status.isActive = true ∧ row.payload = payload

structure Inv (s : Projector E M) : Prop where
  apart : ∀ id d, s.db.deadLetters.get? id = some d → s.db.rows.get? id = none
  issued : ∀ id row, s.db.rows.get? id = some row → id ∈ s.issued
  dead : ∀ id d, s.db.deadLetters.get? id = some d → id ∈ s.issued
  mirrored : ∀ id row, s.db.rows.get? id = some row →
    (memoryId py row.payload, row.payload) ∈ s.mirrored
  keyed : ∀ e ∈ s.mirrored, memoryId py e.2 = e.1 ∧ (e.1.isEmpty = true → effect py N e.2 = none)
  newest : ∀ id newest, last id s.mirrored = some newest → Waiting s.db newest ∨
    Buried s.db newest ∨ s.collection.get? id = effect py N newest
  others : ∀ id, id.isEmpty = true ∨ last id s.mirrored = none → s.collection.get? id = none
  inHand : ∀ r ∈ s.phase.records, InHand py s r
  marks : ∀ r ∈ s.phase.marks, last (memoryId py r.2.payload) s.mirrored = some r.2.payload →
    s.collection.get? (memoryId py r.2.payload) = effect py N r.2.payload ∨ Elsewhere s r.2.payload

section Steps

variable {py N} {s s' : Projector E M} {K : Codec PyVal} {owner : PyStr}

variable {db : Outbox PyVal} {id marker memory : PyStr}
  {marks records rows : List (PyStr × Row PyVal)} {payload : PyVal} {phase : Phase}

theorem Inv.keeps (h : Inv py N s) (hkeeps : Keeps s.db db)
    (hrecords : ∀ r ∈ phase.records, r ∈ s.phase.records ∨
      ∃ row, s.db.rows.get? r.1 = some row ∧ row.payload = r.2.payload)
    (hmarks : phase.marks = []) : Inv py N { s with db := db, phase := phase } where
  apart := hkeeps.apart
  issued := by
    intro id row hrow
    obtain ⟨row', hrow', -⟩ := hkeeps.payload id row hrow
    exact h.issued id row' hrow'
  dead := by
    intro id d hdead
    rcases hkeeps.letters id d hdead with ⟨d', hd'⟩ | ⟨row, hrow⟩
    · exact h.dead id d' hd'
    · exact h.issued id row hrow
  mirrored := by
    intro id row hrow
    obtain ⟨row', hrow', heq⟩ := hkeeps.payload id row hrow
    rw [← heq]
    exact h.mirrored id row' hrow'
  keyed := h.keyed
  newest := by
    intro id newest hlast
    rcases h.newest id newest hlast with hwaiting | hburied | hsame
    · exact (hkeeps.waiting newest hwaiting).imp_right .inl
    · exact .inr (.inl (hkeeps.buried newest hburied))
    · exact .inr (.inr hsame)
  others := h.others
  inHand := by
    intro r hr
    have hold : InHand py s r := by
      rcases hrecords r hr with hr | ⟨row, hrow, heq⟩
      · exact h.inHand r hr
      · refine ⟨h.issued r.1 row hrow, ?_, fun row' hrow' => ?_⟩
        · rw [← heq]
          exact h.mirrored r.1 row hrow
        · obtain rfl := Option.some_inj.mp (hrow.symm.trans hrow')
          exact heq
    refine ⟨hold.issued, hold.mirrored, fun row hrow => ?_⟩
    obtain ⟨row', hrow', heq⟩ := hkeeps.payload r.1 row hrow
    exact heq.symm.trans (hold.payload row' hrow')
  marks := by
    intro r hr
    rw [hmarks] at hr
    cases hr

theorem inv_mirror (h : Inv py N s) {now : Rat} (hfresh : id ∉ s.issued)
    (hmemory : memoryId py payload = memory)
    (hblank : memory.isEmpty = true → effect py N payload = none)
    (hdistinct : s.Distinct memory payload marker) :
    Inv py N (s.mirror K id memory payload marker now) := by
  have hissued : Inv py N { s with issued := id :: s.issued } :=
    { h with
      issued := fun id row hrow => mem_cons_of_mem _ (h.issued id row hrow)
      dead := fun id d hdead => mem_cons_of_mem _ (h.dead id d hdead)
      inHand := fun r hr =>
        ⟨mem_cons_of_mem _ (h.inHand r hr).issued, (h.inHand r hr).mirrored, (h.inHand r hr).payload⟩ }
  have hkeyed : ∀ e ∈ s.mirrored ++ [(memory, payload)], memoryId py e.2 = e.1 ∧
      (e.1.isEmpty = true → effect py N e.2 = none) := by
    intro e he
    rcases mem_append.mp he with he | he
    · exact h.keyed e he
    · rw [mem_singleton.mp he]
      exact ⟨hmemory, hblank⟩
  have holder : ∀ memory', last memory' (s.mirrored ++ [(memory, payload)]) = none →
      last memory' s.mirrored = none := by
    intro memory' hnone
    rw [last_snoc] at hnone
    split at hnone
    · cases hnone
    · exact hnone
  unfold Projector.mirror
  generalize hr : newRecord K id ACTIVE_PROJECTION_TARGET payload
    (some (idempotencyKey memory marker)) (some "memory") (some memory) now = r
  have hid : r.id = id := by rw [← hr]; rfl
  have hpayload : r.row.payload = payload := by rw [← hr]; rfl
  have hpending : r.row.status.isActive = true := rfl
  rcases s.db.enqueue_cases r with
    ⟨id', hkey, henqueue⟩ | ⟨e, henqueue⟩ | ⟨-, db, hinsert, henqueue⟩
  · -- the key is there: the newest mutation once more
    rw [henqueue]
    have hsame : last memory s.mirrored = some payload := by
      refine hdistinct.resolve_left fun hnone => ?_
      have hkey' : s.db.findKey ACTIVE_PROJECTION_TARGET (idempotencyKey memory marker) = some id' := by
        rw [← hkey, ← hr]
        rfl
      rw [hnone] at hkey'
      cases hkey'
    have hlast : ∀ memory', last memory' (s.mirrored ++ [(memory, payload)]) = last memory' s.mirrored := by
      intro memory'
      rw [last_snoc]
      split
      · next heq =>
        obtain rfl : memory = memory' := heq
        exact hsame.symm
      · rfl
    refine { hissued with
      mirrored := fun id row hrow => mem_append_left _ (h.mirrored id row hrow)
      keyed := hkeyed
      newest := fun memory' newest hnewest => h.newest memory' newest ((hlast memory').symm.trans hnewest)
      others := fun memory' hother => h.others memory' (hother.imp_right (holder memory'))
      inHand := fun r hr => ⟨(hissued.inHand r hr).issued,
        mem_append_left _ (h.inHand r hr).mirrored, (h.inHand r hr).payload⟩
      marks := fun r hr hnewest => h.marks r hr ((hlast _).symm.trans hnewest) }
  · rw [henqueue]
    exact hissued
  · rw [henqueue]
    obtain ⟨hnew, rfl⟩ := Outbox.insert_eq_some hinsert
    rw [hid] at hnew ⊢
    have hget : ∀ id' row, (s.db.rows.set id r.row).get? id' = some row →
        id = id' ∧ row = r.row ∨ id ≠ id' ∧ s.db.rows.get? id' = some row := by
      intro id' row hrow
      rw [Dict.get?_set] at hrow
      split at hrow
      · next hid' => exact .inl ⟨hid', (Option.some_inj.mp hrow).symm⟩
      · next hid' => exact .inr ⟨hid', hrow⟩
    have hold : ∀ id' row, s.db.rows.get? id' = some row →
        (s.db.rows.set id r.row).get? id' = some row := by
      intro id' row hrow
      refine (Dict.get?_set_of_ne _ _ ?_).trans hrow
      rintro rfl
      rw [hnew] at hrow
      cases hrow
    refine { hissued with
      apart := fun id' d hdead => ?_
      issued := fun id' row hrow => ?_
      mirrored := fun id' row hrow => ?_
      keyed := hkeyed
      newest := fun memory' newest hnewest => ?_
      others := fun memory' hother => h.others memory' (hother.imp_right (holder memory'))
      inHand := fun r' hr' => ⟨(hissued.inHand r' hr').issued,
        mem_append_left _ (h.inHand r' hr').mirrored, fun row hrow => ?_⟩
      marks := fun r' hr' hnewest => ?_ }
    · refine (Dict.get?_set_of_ne _ _ ?_).trans (h.apart id' d hdead)
      rintro rfl
      exact hfresh (h.dead id d hdead)
    · rcases hget id' row hrow with ⟨rfl, -⟩ | ⟨-, hrow'⟩
      · exact mem_cons_self
      · exact mem_cons_of_mem _ (h.issued id' row hrow')
    · rcases hget id' row hrow with ⟨-, rfl⟩ | ⟨-, hrow'⟩
      · rw [hpayload, hmemory]
        exact mem_append_right _ mem_cons_self
      · exact mem_append_left _ (h.mirrored id' row hrow')
    · rw [last_snoc] at hnewest
      split at hnewest
      · cases hnewest
        exact .inl ⟨id, r.row, Dict.get?_set_self .., hpending, hpayload⟩
      · rcases h.newest memory' newest hnewest with ⟨id', row, hrow, hrest⟩ | hrest
        · exact .inl ⟨id', row, hold id' row hrow, hrest⟩
        · exact .inr hrest
    · rcases hget r'.1 row hrow with ⟨hid', -⟩ | ⟨-, hrow'⟩
      · exact absurd (hid' ▸ (h.inHand r' hr').issued) hfresh
      · exact (h.inHand r' hr').payload row hrow'
    · have hfar : ∀ r'' ∈ s.phase.records, r''.1 ≠ id := fun r'' hr'' heq =>
        hfresh (heq ▸ (h.inHand r'' hr'').issued)
      rw [last_snoc] at hnewest
      split at hnewest
      · -- the same mutation once more, in a record of its own
        refine .inr ⟨id, r.row, hfar, Dict.get?_set_self .., hpending, ?_⟩
        rw [hpayload]
        exact Option.some_inj.mp hnewest
      · rcases h.marks r' hr' hnewest with hsame | ⟨id', row, hother, hrow, hrest⟩
        · exact .inl hsame
        · exact .inr ⟨id', row, hother, hold id' row hrow, hrest⟩

theorem inv_applied (h : Inv py N s) (hmarks : s.phase.marks = [])
    (hpayloads : ∀ payload ∈ s.phase.payloads, (memoryId py payload, payload) ∈ s.mirrored)
    (hundelivered : s.Undelivered py) {collection : Dict PyStr (Point E M)}
    (hleft : ∀ id, (∀ payload ∈ s.phase.payloads, memoryId py payload = id → id.isEmpty = true) →
      collection.get? id = s.collection.get? id) : Inv py N { s with collection } :=
  { h with
    newest := by
      intro id newest hnewest
      by_cases htouched : ∃ payload ∈ s.phase.payloads, memoryId py payload = id
      · obtain ⟨payload, hmem, rfl⟩ := htouched
        exact .inl (hundelivered payload hmem newest hnewest)
      · have hsame := hleft id fun payload hmem hid => absurd ⟨payload, hmem, hid⟩ htouched
        rcases h.newest id newest hnewest with hwaiting | hburied | heffect
        · exact .inl hwaiting
        · exact .inr (.inl hburied)
        · exact .inr (.inr (hsame.trans heffect))
    others := by
      intro id hother
      refine (hleft id fun payload hmem hid => ?_).trans (h.others id hother)
      rcases hother with hblank | hnone
      · exact hblank
      · exact absurd hid (last_eq_none.mp hnone _ (hpayloads payload hmem))
    inHand := fun r hr => ⟨(h.inHand r hr).issued, (h.inHand r hr).mirrored, (h.inHand r hr).payload⟩
    marks := by
      intro r hr
      rw [hmarks] at hr
      cases hr }

theorem inv_commit (h : Inv py N s) (hmarks : s.phase.marks = [])
    (hrows : s.phase.payloads = rows.map fun r => r.2.payload)
    (hinHand : ∀ r ∈ rows, r ∈ s.phase.records) (hrecords : phase.records = s.phase.records)
    (hcommitted : phase.marks = rows) (hundelivered : s.Undelivered py) (hordered : s.Ordered py) :
    Inv py N { s with
      collection := commitBatch py N s.collection (rows.map fun r => payloadForCommit r.2)
      phase := phase } := by
  have hmirrored : ∀ payload ∈ s.phase.payloads, (memoryId py payload, payload) ∈ s.mirrored := by
    intro payload hmem
    rw [hrows] at hmem
    obtain ⟨r, hr, rfl⟩ := mem_map.mp hmem
    exact (h.inHand r (hinHand r hr)).mirrored
  have happlied : Inv py N { s with
      collection := commitBatch py N s.collection (rows.map fun r => payloadForCommit r.2) } := by
    refine inv_applied h hmarks hmirrored hundelivered fun id hid =>
      get?_commitBatch_of_not_mem _ fun payload hmem heq => ?_
    obtain ⟨r, hr, rfl⟩ := mem_map.mp hmem
    rw [memoryId_payloadForCommit] at heq
    refine hid r.2.payload ?_ heq
    rw [hrows]
    exact mem_map.mpr ⟨r, hr, rfl⟩
  refine { happlied with
    inHand := fun r hr => ?_
    marks := fun r hr hnewest => .inl ?_ }
  · change r ∈ phase.records at hr
    rw [hrecords] at hr
    exact ⟨(h.inHand r hr).issued, (h.inHand r hr).mirrored, (h.inHand r hr).payload⟩
  · change r ∈ phase.marks at hr
    rw [hcommitted] at hr
    have hmem : r.2.payload ∈ s.phase.payloads := by
      rw [hrows]
      exact mem_map.mpr ⟨r, hr, rfl⟩
    cases hblank : (memoryId py r.2.payload).isEmpty with
    | true =>
      have hgone := happlied.others _ (.inl hblank)
      refine hgone.trans ((h.keyed _ (hmirrored _ hmem)).2 hblank).symm
    | false =>
      have hlast := hordered _ hmem hnewest
      rw [hrows] at hlast
      show (commitBatch py N s.collection _).get? _ = _
      rw [get?_commitRows _ _ hblank, hlast]

theorem inv_mark (h : Inv py N s) {r : PyStr × Row PyVal}
    (hphase : s.phase = .single (r :: marks) records) (now : Rat) :
    Inv py N { s with
      db := (s.db.deliver r.1 owner none now).getD s.db
      phase := .single marks records } := by
  have hfewer : ∀ r' ∈ (Phase.single marks records).records, r' ∈ s.phase.records := by
    intro r' hr'
    rw [hphase]
    exact mem_cons_of_mem _ hr'
  have hmarks : ∀ r' ∈ marks, r' ∈ s.phase.marks := by
    intro r' hr'
    rw [hphase]
    exact mem_cons_of_mem _ hr'
  have hmine : r ∈ s.phase.records ∧ r ∈ s.phase.marks := by
    rw [hphase]
    exact ⟨mem_cons_self, mem_cons_self⟩
  cases hdeliver : s.db.deliver r.1 owner none now with
  | none =>
    refine { h with
      inHand := fun r' hr' => ⟨(h.inHand r' (hfewer r' hr')).issued,
        (h.inHand r' (hfewer r' hr')).mirrored, (h.inHand r' (hfewer r' hr')).payload⟩
      marks := fun r' hr' hnewest => ?_ }
    refine (h.marks r' (hmarks r' hr') hnewest).imp_right ?_
    rintro ⟨id, row, hfar, hrest⟩
    exact ⟨id, row, fun r'' hr'' => hfar r'' (hfewer r'' hr''), hrest⟩
  | some db =>
    obtain ⟨row, hrow, -, rfl⟩ := Outbox.deliver_eq_some hdeliver
    have hpayload : row.payload = r.2.payload := (h.inHand r hmine.1).payload row hrow
    have hget : ∀ id row', (s.db.rows.set r.1 (row.delivered now none)).get? id = some row' →
        ∃ row₀, s.db.rows.get? id = some row₀ ∧ row₀.payload = row'.payload := by
      intro id row' hrow'
      rw [Dict.get?_set] at hrow'
      split at hrow'
      · next hid =>
        subst hid
        cases hrow'
        exact ⟨row, hrow, rfl⟩
      · exact ⟨row', hrow', rfl⟩
    have helsewhere : ∀ p, Elsewhere s p → Waiting (s.db.setRow r.1 (row.delivered now none)) p := by
      rintro p ⟨id, row', hfar, hrow', hrest⟩
      exact ⟨id, row', (Dict.get?_set_of_ne _ _ (hfar r hmine.1)).trans hrow', hrest⟩
    refine { h with
      apart := fun id d hdead => ?_
      issued := fun id row' hrow' => ?_
      mirrored := fun id row' hrow' => ?_
      newest := fun id newest hnewest => ?_
      inHand := fun r' hr' => ⟨(h.inHand r' (hfewer r' hr')).issued,
        (h.inHand r' (hfewer r' hr')).mirrored, fun row' hrow' => ?_⟩
      marks := fun r' hr' hnewest => ?_ }
    · refine (Dict.get?_set_of_ne _ _ ?_).trans (h.apart id d hdead)
      rintro rfl
      rw [h.apart r.1 d hdead] at hrow
      cases hrow
    · obtain ⟨row₀, hrow₀, -⟩ := hget id row' hrow'
      exact h.issued id row₀ hrow₀
    · obtain ⟨row₀, hrow₀, heq⟩ := hget id row' hrow'
      rw [← heq]
      exact h.mirrored id row₀ hrow₀
    · rcases h.newest id newest hnewest with ⟨id', row', hrow', hstatus, rfl⟩ | hrest
      · by_cases hid : r.1 = id'
        · -- the record that is marked is the newest: its commit has left its effect
          obtain rfl : row = row' := Option.some_inj.mp (hrow.symm.trans (hid ▸ hrow'))
          have hmemory : memoryId py row.payload = id := (h.keyed _ (mem_of_last hnewest)).1
          have hmark := h.marks r hmine.2 (by rw [← hpayload, hmemory]; exact hnewest)
          rw [← hpayload, hmemory] at hmark
          rcases hmark with hsame | hother
          · exact .inr (.inr hsame)
          · exact .inl (helsewhere _ hother)
        · exact .inl ⟨id', row', (Dict.get?_set_of_ne _ _ hid).trans hrow', hstatus, rfl⟩
      · exact .inr hrest
    · obtain ⟨row₀, hrow₀, heq⟩ := hget r'.1 row' hrow'
      exact heq.symm.trans ((h.inHand r' (hfewer r' hr')).payload row₀ hrow₀)
    · refine (h.marks r' (hmarks r' hr') hnewest).imp_right ?_
      rintro ⟨id, row', hfar, hrow', hrest⟩
      exact ⟨id, row', fun r'' hr'' => hfar r'' (hfewer r'' hr''),
        (Dict.get?_set_of_ne _ _ (hfar r hmine.1)).trans hrow', hrest⟩

theorem mirrored_of_payloads (h : Inv py N s) (hmem : payload ∈ s.phase.payloads) :
    (memoryId py payload, payload) ∈ s.mirrored := by
  have hhand : ∃ r ∈ s.phase.records, r.2.payload = payload := by
    cases hphase : s.phase with
    | idle =>
      rw [hphase] at hmem
      cases hmem
    | batch records =>
      rw [hphase] at hmem
      exact mem_map.mp hmem
    | single marks records =>
      rw [hphase] at hmem
      cases marks with
      | cons r marks => cases hmem
      | nil =>
        cases records with
        | nil => cases hmem
        | cons r records => exact ⟨r, mem_cons_self, (mem_singleton.mp hmem).symm⟩
  obtain ⟨r, hr, rfl⟩ := hhand
  exact (h.inHand r hr).mirrored

theorem inv_fails (h : Inv py N s) (hmarks : s.phase.marks = []) (hundelivered : s.Undelivered py)
    (hrows : s.phase.payloads = rows.map fun r => r.2.payload) (taken : Nat)
    (reached : PyStr → Bool) (hkeeps : Keeps s.db db)
    (hrecords : ∀ r ∈ records, r ∈ s.phase.records) :
    Inv py N { s with
      collection := commitPartly py N taken reached s.collection
        (rows.map fun r => payloadForCommit r.2)
      db := db
      phase := .single [] records } := by
  have happlied : Inv py N { s with
      collection := commitPartly py N taken reached s.collection
        (rows.map fun r => payloadForCommit r.2) } := by
    refine inv_applied h hmarks (fun _ => mirrored_of_payloads h) hundelivered fun id hid =>
      get?_commitPartly _ _ _ fun payload hmem heq => ?_
    obtain ⟨r, hr, rfl⟩ := mem_map.mp hmem
    rw [memoryId_payloadForCommit] at heq
    refine hid r.2.payload ?_ heq
    rw [hrows]
    exact mem_map.mpr ⟨r, hr, rfl⟩
  exact happlied.keeps hkeeps (fun r hr => .inl (hrecords r hr)) rfl

theorem inv_step {l : Projector.Label} (h : Inv py N s) (hsound : Sound py s l)
    (hstep : (projection py N K owner).step s l = some s') : Inv py N s' := by
  cases l with
  | project id record markerTime now =>
    change (if _ then none else _) = some s' at hstep
    split at hstep
    · cases hstep
    next hfresh =>
    split at hstep
    · cases hstep
      exact h
    next hblank =>
    cases hstep
    exact inv_mirror h hfresh rfl (fun hempty => absurd hempty hblank) hsound
  | projectDelete id memory markerTime now =>
    change (if _ then none else _) = some s' at hstep
    split at hstep
    · cases hstep
    next hfresh =>
    cases hstep
    exact inv_mirror h hfresh (memoryId_deletion memory markerTime) (fun _ => rfl) hsound
  | claim c failedAt cutoff =>
    simp only [projection, Projector.next] at hstep
    split at hstep
    · next hphase =>
      split at hstep
      · cases hstep
      · cases hstep
        obtain ⟨hkeeps, hmem⟩ := keeps_claim K c failedAt h.apart
        refine h.keeps (hkeeps.trans (keeps_purge hkeeps.apart cutoff)) (fun r hr => ?_) ?_
        · right
          refine hmem r ?_
          revert hr
          cases (s.db.claim K c failedAt).1 with
          | nil => exact fun hr => hr
          | cons r₁ rest => cases rest <;> exact fun hr => hr
        · cases (s.db.claim K c failedAt).1 with
          | nil => rfl
          | cons r₁ rest => cases rest <;> rfl
    · cases hstep
  | commit =>
    obtain ⟨hundelivered, hordered⟩ := hsound
    simp only [projection, Projector.next] at hstep
    split at hstep
    · next records hphase =>
      cases hstep
      refine inv_commit h (by rw [hphase]; rfl) (by rw [hphase]; rfl) ?_ ?_ rfl hundelivered hordered
      · rw [hphase]
        exact fun r hr => hr
      · rw [hphase]
        exact append_nil records
    · next r records hphase =>
      cases hstep
      have hone : s.phase.payloads = [r].map fun r => r.2.payload := by
        rw [hphase]
        rfl
      refine inv_commit h (by rw [hphase]; rfl) hone (fun r' hr' => ?_) ?_ rfl hundelivered hordered
      · rw [hphase, mem_singleton.mp hr']
        exact mem_cons_self
      · rw [hphase]
        rfl
    · cases hstep
  | commitFails taken reached error maxRetries now failedAt =>
    simp only [projection, Projector.next] at hstep
    split at hstep
    · next records hphase =>
      cases hstep
      refine inv_fails h (by rw [hphase]; rfl) hsound (by rw [hphase]; rfl) taken reached
        (keeps_refl h.apart) ?_
      rw [hphase]
      exact fun r hr => hr
    · next r records hphase =>
      cases hstep
      have hone : s.phase.payloads = [r].map fun r => r.2.payload := by
        rw [hphase]
        rfl
      refine inv_fails h (by rw [hphase]; rfl) hsound hone taken reached
        (keeps_markFailed h.apart ..) ?_
      rw [hphase]
      exact fun r' hr' => mem_cons_of_mem _ hr'
    · cases hstep
  | markDelivered now =>
    simp only [projection, Projector.next] at hstep
    split at hstep
    · next r marks records hphase =>
      cases hstep
      exact inv_mark h hphase now
    · cases hstep
      exact h.keeps (keeps_refl h.apart) (by simp [Phase.records]) rfl
    · cases hstep
  | stop =>
    cases hstep
    exact h.keeps (keeps_refl h.apart) (by simp [Phase.records]) rfl

/-- **The collection agrees with the mutations** once the outbox is empty and has no dead
letter. -/
theorem projection_agrees (h : (projection py N K owner).ReachableUnder (Sound py) s)
    (hempty : s.db.active = 0) (hletters : s.db.deadLetters.entries = []) : s.Agrees py N := by
  have hinv : Inv py N s := by
    refine h.invariant (fun s₀ hinit => ?_) fun s₁ l s₂ hinv hsound hstep => inv_step hinv hsound hstep
    obtain ⟨hrows, hdead, hcollection, hmirrored, hphase, -⟩ := hinit
    refine ⟨?_, ?_, ?_, ?_, ?_, ?_, ?_, ?_, ?_⟩
    · simp [hdead]
    · simp [hrows]
    · simp [hdead]
    · simp [hrows]
    · simp [hmirrored]
    · simp [hmirrored]
    · simp [hcollection]
    · simp [hphase, Phase.records]
    · simp [hphase, Phase.marks]
  intro id
  cases hlast : last id s.mirrored with
  | none => exact hinv.others id (.inr hlast)
  | some newest =>
    rcases hinv.newest id newest hlast with ⟨id', row, hrow, hactive, -⟩ | ⟨id', d, hdead, -⟩ | heffect
    · -- a record that waits is counted
      have hmem := Dict.mem_entries_iff.mpr hrow
      exact absurd hactive (List.countP_eq_zero.mp hempty _ hmem)
    · have hmem := Dict.mem_entries_iff.mpr hdead
      rw [hletters] at hmem
      cases hmem
    · exact heffect

end Steps

end Laws

def sampleCodec : Codec PyVal := ⟨fun _ => "sha", fun _ _ => true⟩

/-- The metadata of a record is its `kind`. -/
def sampleNative : Native PyStr PyVal := ⟨fun text => text, fun record => record.get "kind"⟩

def sampleProjector : Projector PyStr PyVal := ⟨{}, ∅, [], .idle, []⟩

def sampleRecord : PyVal :=
  .dict [("id", .str "mem_1"), ("document", .str "grasp"), ("updated_at", .str "2026-01-01")]

abbrev sampleProjection : Machine (Projector PyStr PyVal) Projector.Label :=
  projection Builtins.zero sampleNative sampleCodec "worker"

/-- A memory is mirrored and deleted, and the worker delivers both in one batch. -/
def deletedRun : List Projector.Label :=
  [.project "rec_1" sampleRecord 0 0, .projectDelete "rec_2" "mem_1" 1 1,
    .claim { owner := "worker", now := 1 } 1 0, .commit, .markDelivered 1, .markDelivered 1,
    .markDelivered 1]

theorem projection_agrees_deleted : ∃ s, sampleProjection.run sampleProjector deletedRun = some s ∧
    s.mirrored.length = 2 ∧ s.collection.get? "mem_1" = none ∧
    s.Agrees Builtins.zero sampleNative := by
  obtain ⟨s₁, s₂, s₃, s₄, s₅, s₆, s, row, h₁, h₂, h₃, h₄, h₅, h₆, h₇, hrun, hfirst, hsecond,
      hpayloads, hmirrored, hrow, hstatus, hpayload, hactive, hdead, hlength, hcollection⟩ :
      ∃ s₁ s₂ s₃ s₄ s₅ s₆ s row,
      sampleProjection.step sampleProjector (.project "rec_1" sampleRecord 0 0) = some s₁ ∧
      sampleProjection.step s₁ (.projectDelete "rec_2" "mem_1" 1 1) = some s₂ ∧
      sampleProjection.step s₂ (.claim { owner := "worker", now := 1 } 1 0) = some s₃ ∧
      sampleProjection.step s₃ .commit = some s₄ ∧
      sampleProjection.step s₄ (.markDelivered 1) = some s₅ ∧
      sampleProjection.step s₅ (.markDelivered 1) = some s₆ ∧
      sampleProjection.step s₆ (.markDelivered 1) = some s ∧
      sampleProjection.run sampleProjector deletedRun = some s ∧
      sampleProjector.Distinct "mem_1" sampleRecord (marker Builtins.zero sampleRecord 0) ∧
      s₁.Distinct "mem_1" (deletion "mem_1" 1) (Builtins.zero.str (.float (.finite 1))) ∧
      s₃.phase.payloads = [sampleRecord, deletion "mem_1" 1] ∧
      last ("mem_1" : PyStr) s₃.mirrored = some (deletion "mem_1" 1) ∧
      s₃.db.rows.get? "rec_2" = some row ∧ row.status.isActive = true ∧
      row.payload = deletion "mem_1" 1 ∧ s.db.active = 0 ∧ s.db.deadLetters.entries = [] ∧
      s.mirrored.length = 2 ∧ s.collection.get? "mem_1" = none :=
    ⟨_, _, _, _, _, _, _, _, rfl, rfl, rfl, rfl, rfl, rfl, rfl, rfl, .inl rfl, .inl rfl, rfl, rfl, rfl,
      rfl, rfl, rfl, rfl, rfl, rfl⟩
  -- both records are of one memory, and the deletion is the newest
  have hnewest : ∀ payload ∈ s₃.phase.payloads, ∀ newest,
      last (memoryId Builtins.zero payload) s₃.mirrored = some newest →
        newest = deletion "mem_1" 1 := by
    intro payload hmem newest hlast
    have hid : memoryId Builtins.zero payload = "mem_1" := by
      rw [hpayloads, List.mem_pair] at hmem
      rcases hmem with rfl | rfl <;> rfl
    rw [hid, hmirrored] at hlast
    exact (Option.some.inj hlast).symm
  have hundelivered : s₃.Undelivered Builtins.zero := by
    intro payload hmem newest hlast
    obtain rfl := hnewest payload hmem newest hlast
    exact ⟨"rec_2", row, hrow, hstatus, hpayload⟩
  have hordered : s₃.Ordered Builtins.zero := by
    intro payload hmem hlast
    obtain rfl := hnewest payload hmem payload hlast
    rw [hpayloads]
    rfl
  have hclaimed : sampleProjection.ReachableUnder (Sound Builtins.zero) s₃ := by
    have hinit : sampleProjection.ReachableUnder (Sound Builtins.zero) sampleProjector :=
      .init ⟨rfl, rfl, rfl, rfl, rfl, rfl⟩
    exact .step (.step (.step hinit (by exact hfirst) h₁) (by exact hsecond) h₂) (by trivial) h₃
  have hcommitted : sampleProjection.ReachableUnder (Sound Builtins.zero) s₄ :=
    .step hclaimed (by exact ⟨hundelivered, hordered⟩) h₄
  have hreach : sampleProjection.ReachableUnder (Sound Builtins.zero) s :=
    .step (.step (.step hcommitted (by trivial) h₅) (by trivial) h₆) (by trivial) h₇
  exact ⟨s, hrun, hlength, hcollection, projection_agrees hreach hactive hdead⟩

/-- The commit of the memory fails; the memory is deleted; and the failed record is committed
again. -/
def overtakenRun : List Projector.Label :=
  [.project "rec_1" sampleRecord 0 0, .claim { owner := "worker", now := 0 } 0 0,
    .commitFails 0 (fun _ => false) (some "timeout") 10 0 0, .markDelivered 0,
    .projectDelete "rec_2" "mem_1" 1 1, .claim { owner := "worker", now := 1 } 1 0, .commit,
    .markDelivered 1, .markDelivered 1,
    .claim { owner := "worker", now := 60 } 60 0, .commit, .markDelivered 60, .markDelivered 60]

theorem overtaken : ∃ s newest, sampleProjection.Reachable s ∧ s.db.active = 0 ∧
    s.db.deadLetters.entries = [] ∧ last ("mem_1" : PyStr) s.mirrored = some newest ∧
    isActive Builtins.zero newest = false ∧ (s.collection.get? "mem_1").isSome ∧
    ¬ s.Agrees Builtins.zero sampleNative := by
  have hrun : (sampleProjection.run sampleProjector overtakenRun).map (fun s =>
      (s.db.active, s.db.deadLetters.entries.isEmpty,
        (last ("mem_1" : PyStr) s.mirrored).map (isActive Builtins.zero),
        (s.collection.get? "mem_1").isSome)) =
      some (0, true, some false, true) := by
    decide +kernel
  obtain ⟨s, hrun, hs⟩ := Option.map_eq_some_iff.mp hrun
  simp only [Prod.mk.injEq, List.isEmpty_iff, Option.map_eq_some_iff] at hs
  obtain ⟨hactive, hdead, ⟨newest, hlast, hdeleted⟩, hpresent⟩ := hs
  refine ⟨s, newest, .of_run ⟨rfl, rfl, rfl, rfl, rfl, rfl⟩ hrun, hactive, hdead, hlast, hdeleted,
    hpresent, fun hagrees => ?_⟩
  rw [hagrees, hlast, Option.bind_some, effect, hdeleted] at hpresent
  cases hpresent

end Rosclaw.Projection
