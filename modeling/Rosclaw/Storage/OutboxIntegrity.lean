/-
When a payload passes the check of its hash, and when a flush leaves nothing due.

The hash is taken of the keys as Python sorts them and compared with a text whose keys are strings;
the two texts are one where the keys are in the order of their texts, at every depth.  The drain
loop stops at the first batch of which no record is returned, be it that nothing is due or that the
whole batch was moved to the dead letters.

* `altered_enqueued`, `altered_of_different` — what passes the check;
* `claimRecords_row` — what `claim` makes of a row that it leases;
* `drainOnce_nothing`, `drainOnce_raises`, `drainOnce_altered`, `drainOnce_drains` — one cycle;
* `flush_clear` — the loop;
* `outbox_integrity` — the results together;
* `intact_buried` — an intact record that is moved to the dead letters, and a flush that stops
  before the end.
-/
import Rosclaw.Storage.OutboxDrain

namespace Rosclaw.Storage

open JsonDump PyJson List Option

variable {py : Python}

/-! ### The check of the hash -/

theorem hashMatches_text (d : Dump) (sha : PyStr) :
    (Stored.text d).hashMatches py sha = decide (py.sha256 (normal d) = sha) := by
  rw [Stored.hashMatches, dumpsSorted_decode]
  rfl

variable {c d d' : Dump} {row : Row Stored} {v : PyObj}

theorem altered_iff {sha : PyStr} (hp : row.payload = .text d) (hs : row.payloadSha256 = some sha)
    (hne : sha.isEmpty = false) : row.altered py = true ↔ py.sha256 (normal d) ≠ sha := by
  simp [Row.altered, hs, hne, hp, hashMatches_text]

/-- What `enqueue` writes for a payload. -/
structure Enqueued (py : Python) (v : PyObj) (d c : Dump) (row : Row Stored) : Prop where
  dumped : dumps v = some d
  sorted : dumpsSorted py.nanOrder v = some c
  payload : row.payload = .text d
  sha : row.payloadSha256 = some (py.sha256 c)

/-- What the interpreter promises: sorting finds an order, and a hash is no empty text. -/
structure Python.Sound (py : Python) : Prop where
  order : ∀ ks, (py.nanOrder ks).Perm (List.range ks.length)
  hex : ∀ d, (py.sha256 d).isEmpty = false

/-- **An enqueued payload passes if and only if its keys are in the order of their texts.** -/
theorem altered_enqueued (hpy : py.Sound) (h : Enqueued py v d c row)
    (hcollision : py.sha256 (normal d) = py.sha256 c → normal d = c) :
    row.altered py = false ↔ Canonical c := by
  rw [← Bool.not_eq_true, altered_iff h.payload h.sha (hpy.hex c), not_not,
    ← normal_of_dumps hpy.order h.dumped h.sorted]
  exact ⟨hcollision, fun heq => by rw [heq]⟩

/-- **A text that says something else does not pass.** -/
theorem altered_of_different (hpy : py.Sound) (hd : dumps v = some d)
    (hc : dumpsSorted py.nanOrder v = some c) (hp : row.payload = .text d')
    (hs : row.payloadSha256 = some (py.sha256 c))
    (hcollision : py.sha256 (normal d') = py.sha256 c → normal d' = c)
    (hdiff : normal d' ≠ normal d) : row.altered py = true := by
  rw [altered_iff hp hs (hpy.hex c)]
  intro heq
  have hnormal := hcollision heq
  refine hdiff (hnormal.trans ((normal_of_dumps hpy.order hd hc).mpr ?_).symm)
  exact hnormal ▸ canonical_normal d'

/-! ### The rows of a claim -/

namespace Outbox

variable {db : Outbox Stored} {c : ClaimCall} {failedAt : Rat}

theorem ready_of_candidate {id : PyStr} (hid : id ∈ db.candidates c) :
    ∃ row, db.rows.get? id = some row ∧ row.ready c = true := by
  obtain ⟨e, he, rfl⟩ := mem_map.mp hid
  have hmem : e ∈ db.rows.entries.filter fun e =>
      e.2.ready c && c.target.all (fun target => e.2.target = target) := by
    rw [limited] at he
    split at he
    · exact (perm_insertionSort _ _).mem_iff.mp he
    · exact (perm_insertionSort _ _).mem_iff.mp (mem_of_mem_take he)
  rw [mem_filter, Bool.and_eq_true] at hmem
  exact ⟨e.2, Dict.mem_entries_iff.mp hmem.1, hmem.2.1⟩

def claimed (db : Outbox Stored) (c : ClaimCall) : List (PyStr × Row Stored) :=
  (db.takeLease c (db.candidates c)).leasedRows c (db.candidates c)

variable {row row' : Row Stored} {rows : List (PyStr × Row Stored)}

theorem mem_claimed {id : PyStr} : (id, row') ∈ db.claimed c ↔
      id ∈ db.candidates c ∧ ∃ row, db.rows.get? id = some row ∧ row' = row.leased c := by
  rw [claimed, leasedRows, byAge, mem_insertionSort, mem_filter, Dict.mem_entries_iff,
    get?_takeLease, Bool.and_eq_true, Bool.and_eq_true]
  constructor
  · rintro ⟨hget, hleased, hid⟩
    have hid' : id ∈ db.candidates c := contains_iff_mem.mp hid
    obtain ⟨row, hrow, hr⟩ := ready_of_candidate hid'
    refine ⟨hid', row, hrow, ?_⟩
    rw [hrow, map_some, hid, hr, some_inj] at hget
    exact hget.symm
  · rintro ⟨hid, row, hrow, rfl⟩
    obtain ⟨row', hrow', hr⟩ := ready_of_candidate hid
    obtain rfl := Option.some.inj (hrow.symm.trans hrow')
    have hid' : (db.candidates c).contains id = true := contains_iff_mem.mpr hid
    refine ⟨?_, ⟨decide_eq_true rfl, decide_eq_true rfl⟩, hid'⟩
    rw [hrow, map_some, hid', hr]
    rfl

theorem checkRows_fst (rows : List (PyStr × Row Stored)) (db : Outbox Stored) :
    (checkRows py failedAt rows db).1 = if rows.all fun e => !e.2.payload.isRaising then
        some (rows.filter fun e => !e.2.altered py)
      else none := by
  induction rows generalizing db with
  | nil => rfl
  | cons e rows ih =>
    obtain ⟨id, row⟩ := e
    rw [checkRows, all_cons, filter_cons]
    cases hraising : row.payload.isRaising with
    | true => rfl
    | false =>
      cases haltered : row.altered py with
      | true =>
        rw [if_neg Bool.false_ne_true, if_pos rfl, ih]
        rfl
      | false =>
        rw [if_neg Bool.false_ne_true, if_neg Bool.false_ne_true]
        simp only [ih, Bool.not_false, Bool.true_and, if_true]
        split <;> rfl

theorem get?_checkRows_of_kept {id : PyStr}
    (h : ∀ row, (id, row) ∈ rows → row.altered py = false ∨ row.payload.isRaising = true)
    (failedAt : Rat) (db : Outbox Stored) :
    (checkRows py failedAt rows db).2.rows.get? id = db.rows.get? id ∧
      (checkRows py failedAt rows db).2.deadLetters.get? id = db.deadLetters.get? id := by
  induction rows generalizing db with
  | nil => exact ⟨rfl, rfl⟩
  | cons e rows ih =>
    obtain ⟨id', row⟩ := e
    have ih := ih fun row hrow => h row (mem_cons_of_mem _ hrow)
    rw [checkRows]
    split
    · exact ⟨rfl, rfl⟩
    · next hraising =>
      split
      · next haltered =>
        have hne : id' ≠ id := by
          rintro rfl
          rcases h row (mem_cons_self ..) with hfalse | htrue
          · rw [haltered] at hfalse
            cases hfalse
          · exact hraising htrue
        refine ⟨(ih _).1.trans ?_, (ih _).2.trans (Dict.get?_set_of_ne _ _ hne)⟩
        rw [moveToDeadLetters, Dict.get?_erase, if_neg hne]
      · exact ih db

theorem get?_checkRows_of_altered {id : PyStr} (hn : (rows.map Prod.fst).Nodup)
    (hreads : ∀ e ∈ rows, e.2.payload.isRaising = false) (hmem : (id, row) ∈ rows)
    (haltered : row.altered py = true) (failedAt : Rat) (db : Outbox Stored) :
    (checkRows py failedAt rows db).2.rows.get? id = none ∧
      (checkRows py failedAt rows db).2.deadLetters.get? id
        = some (row.deadLetter row.retryCount (some "payload checksum mismatch") failedAt) := by
  induction rows generalizing db with
  | nil => cases hmem
  | cons e rows ih =>
    obtain ⟨id', row'⟩ := e
    rw [map_cons, nodup_cons] at hn
    have hhead := hreads (id', row') (mem_cons_self ..)
    have ih := ih hn.2 fun e he => hreads e (mem_cons_of_mem _ he)
    rw [checkRows, hhead, if_neg Bool.false_ne_true]
    rcases mem_cons.mp hmem with heq | hmem
    · cases heq
      rw [if_pos haltered]
      have hlater : ∀ row', (id, row') ∈ rows → row'.altered py = false ∨
          row'.payload.isRaising = true := fun row' hrow' =>
        absurd (mem_map_of_mem (f := Prod.fst) hrow') hn.1
      have hkept := get?_checkRows_of_kept hlater failedAt
      refine ⟨(hkept _).1.trans ?_, (hkept _).2.trans (Dict.get?_set_self ..)⟩
      rw [moveToDeadLetters, Dict.get?_erase, if_pos rfl]
    · split
      · exact ih hmem _
      · exact ih hmem db

def Reads (db : Outbox Stored) (c : ClaimCall) : Prop :=
  ∀ id ∈ db.candidates c, ∀ row, db.rows.get? id = some row → row.payload.isRaising = false

theorem reads_iff : db.Reads c ↔ ∀ e ∈ db.claimed c, e.2.payload.isRaising = false := by
  constructor
  · intro h e he
    obtain ⟨hid, row, hrow, heq⟩ := mem_claimed.mp he
    rw [heq]
    exact h e.1 hid row hrow
  · intro h id hid row hrow
    exact h (id, row.leased c) (mem_claimed.mpr ⟨hid, row, hrow, rfl⟩)

theorem claimRecords_fst (hne : db.candidates c ≠ []) :
    (db.Reads c → (db.claimRecords py c failedAt).1
        = some ((db.claimed c).filter fun e => !e.2.altered py)) ∧
      (¬ db.Reads c → (db.claimRecords py c failedAt).1 = none) := by
  rw [claimRecords, if_neg hne, checkRows_fst, reads_iff]
  have hall : ((db.claimed c).all fun e => !e.2.payload.isRaising) = true ↔
      ∀ e ∈ db.claimed c, e.2.payload.isRaising = false := by
    rw [List.all_eq_true]
    exact forall₂_congr fun e _ => by rw [Bool.not_eq_true']
  rw [← hall]
  exact ⟨fun h => if_pos h, fun h => if_neg h⟩

/-- **What a claim makes of a row that it leases.**  It is returned if it passes and every row of
the claim can be read; if it does not pass it is moved to the dead letters. -/
theorem claimRecords_row {id : PyStr} {row : Row Stored} (hid : id ∈ db.candidates c)
    (hrow : db.rows.get? id = some row) (failedAt : Rat) :
    ((∃ records, (db.claimRecords py c failedAt).1 = some records ∧ (id, row.leased c) ∈ records) ↔
        row.altered py = false ∧ db.Reads c) ∧
      (row.altered py = false →
        (db.claimRecords py c failedAt).2.rows.get? id = some (row.leased c)) ∧
      (row.altered py = true → db.Reads c →
        (∀ records, (db.claimRecords py c failedAt).1 = some records → id ∉ records.map Prod.fst) ∧
        (db.claimRecords py c failedAt).2.rows.get? id = none ∧
        ((db.claimRecords py c failedAt).2.deadLetters.get? id).map DeadLetter.errorLog
          = some (some ("payload checksum mismatch" : PyStr))) := by
  have hne : db.candidates c ≠ [] := ne_nil_of_mem hid
  have hmem : (id, row.leased c) ∈ db.claimed c := mem_claimed.mpr ⟨hid, row, hrow, rfl⟩
  have hsame : (row.leased c).altered py = row.altered py := rfl
  have honly : ∀ row', (id, row') ∈ db.claimed c → row' = row.leased c := by
    intro row' hrow'
    obtain ⟨-, row₀, hrow₀, rfl⟩ := mem_claimed.mp hrow'
    rw [Option.some.inj (hrow₀.symm.trans hrow)]
  have hreturned : ∀ records, (db.claimRecords py c failedAt).1 = some records →
      db.Reads c ∧ records = (db.claimed c).filter fun e => !e.2.altered py := by
    intro records hrecords
    by_cases hreads : db.Reads c
    · rw [(claimRecords_fst hne).1 hreads, some_inj] at hrecords
      exact ⟨hreads, hrecords.symm⟩
    · rw [(claimRecords_fst hne).2 hreads] at hrecords
      cases hrecords
  refine ⟨⟨?_, ?_⟩, ?_, ?_⟩
  · rintro ⟨records, hrecords, hin⟩
    obtain ⟨hreads, rfl⟩ := hreturned records hrecords
    rw [mem_filter, hsame, Bool.not_eq_true'] at hin
    exact ⟨hin.2, hreads⟩
  · rintro ⟨hintact, hreads⟩
    refine ⟨_, (claimRecords_fst hne).1 hreads, mem_filter.mpr ⟨hmem, ?_⟩⟩
    rw [hsame, hintact]
    rfl
  · intro hintact
    rw [claimRecords, if_neg hne]
    refine (get?_checkRows_of_kept (fun row' hrow' => .inl ?_) failedAt _).1.trans ?_
    · rw [honly row' hrow', hsame, hintact]
    · obtain ⟨row', hrow', hready⟩ := ready_of_candidate hid
      obtain rfl := Option.some.inj (hrow.symm.trans hrow')
      rw [get?_takeLease, hrow, map_some, contains_iff_mem.mpr hid, hready]
      rfl
  · intro haltered hreads
    refine ⟨fun records hrecords hin => ?_, ?_⟩
    · obtain ⟨-, rfl⟩ := hreturned records hrecords
      obtain ⟨e, he, rfl⟩ := mem_map.mp hin
      obtain ⟨hin', hpasses⟩ := mem_filter.mp he
      rw [honly e.2 hin', hsame, haltered] at hpasses
      cases hpasses
    · rw [claimRecords, if_neg hne]
      have hmoved := get?_checkRows_of_altered (nodup_leasedRows c (db.candidates c))
        (reads_iff.mp hreads) hmem (hsame.trans haltered) failedAt (db.takeLease c (db.candidates c))
      exact ⟨hmoved.1, congrArg (Option.map DeadLetter.errorLog) hmoved.2⟩

/-! ### The rows that are not claimed -/

def live (db : Outbox Stored) : List (PyStr × Row Stored) :=
  db.rows.entries.filter fun e => e.2.status.isActive

def outside (db : Outbox Stored) (ids : List PyStr) : List (PyStr × Row Stored) :=
  db.rows.entries.filter fun e => !ids.contains e.1 && e.2.status.isActive

variable {ids : List PyStr} {id : PyStr}

theorem outside_eq (db : Outbox Stored) (ids : List PyStr) :
    db.outside ids = db.live.filter fun e => e.1 ∉ ids := by
  rw [outside, live, List.filter_filter]
  refine List.filter_congr fun e _ => ?_
  have hnot : (!ids.contains e.1) = decide (e.1 ∉ ids) := by
    rw [List.contains_eq_mem, decide_not]
  rw [hnot]

theorem outside_takeLease (db : Outbox Stored) (c : ClaimCall) (ids : List PyStr) :
    (db.takeLease c ids).outside ids = db.outside ids := by
  show ((db.rows.entries.map fun e => (e.1, if ids.contains e.1 && e.2.ready c then e.2.leased c
    else e.2)).filter _) = _
  rw [outside]
  induction db.rows.entries with
  | nil => rfl
  | cons e es ih =>
    rw [map_cons, filter_cons, filter_cons, ih]
    cases ids.contains e.1 <;> rfl

theorem outside_move (db : Outbox Stored) (hid : id ∈ ids) (row : Row Stored) (n : Nat)
    (error : Option PyStr) (failedAt : Rat) :
    (db.moveToDeadLetters id row n error failedAt).outside ids = db.outside ids := by
  show (db.rows.entries.filter fun e => e.1 ≠ id).filter _ = _
  rw [outside, List.filter_filter]
  refine List.filter_congr fun e _ => ?_
  by_cases he : e.1 = id
  · rw [he, List.contains_iff_mem.mpr hid]
    rfl
  · rw [decide_eq_true he, Bool.and_true]

theorem outside_setRow (db : Outbox Stored) (hid : id ∈ ids) (row : Row Stored) :
    (db.setRow id row).outside ids = db.outside ids := by
  refine Dict.filter_setList (fun row' => ?_) db.rows.entries
  rw [contains_iff_mem.mpr hid]
  rfl

theorem outside_purge (db : Outbox Stored) (cutoff : Rat) :
    (db.purgeDelivered cutoff).outside ids = db.outside ids := by
  show (db.rows.entries.filter _).filter _ = _
  rw [outside, List.filter_filter]
  refine List.filter_congr fun e _ => ?_
  cases hstatus : e.2.status <;> simp [purgeable, hstatus, Status.isActive]

theorem outside_checkRows (h : ∀ e ∈ rows, e.1 ∈ ids) (db : Outbox Stored) :
    (checkRows py failedAt rows db).2.outside ids = db.outside ids := by
  induction rows generalizing db with
  | nil => rfl
  | cons e rows ih =>
    obtain ⟨id, row⟩ := e
    have ih := ih fun e he => h e (mem_cons_of_mem _ he)
    rw [checkRows]
    split
    · rfl
    · split
      · rw [ih, outside_move _ (h (id, row) (mem_cons_self ..))]
      · exact ih db

end Outbox

/-! ### Commits -/

namespace OutboxWorker

variable {w : OutboxWorker} {t : Times} {db : Outbox Stored}

/-- The records can be committed: they are leased by the worker, and each payload is a mapping. -/
structure Committable (py : Python) (w : OutboxWorker) (rows : List (PyStr × Row Stored))
    (db : Outbox Stored) : Prop where
  nodup : (rows.map Prod.fst).Nodup
  leased : ∀ e ∈ rows, db.rows.get? e.1 = some e.2 ∧ e.2.leaseOwner = some w.owner
  mapping : ∀ e ∈ rows, e.2.payload.payload?.any py.isMapping = true

variable {id : PyStr} {row : Row Stored}

theorem deliver_of_leased (hrow : db.rows.get? id = some row)
    (howner : row.leaseOwner = some w.owner) (now : Rat) :
    (db.deliver id w.owner none now).getD db = db.setRow id (row.delivered now none) := by
  rw [Outbox.deliver, hrow, bind_some, if_pos howner, getD_some]

variable {e : PyStr × Row Stored} {rows : List (PyStr × Row Stored)}

theorem Committable.tail (h : Committable py w (e :: rows) db) (now : Rat) :
    Committable py w rows (db.setRow e.1 (e.2.delivered now none)) := by
  have hn := h.nodup
  rw [map_cons, nodup_cons] at hn
  refine ⟨hn.2, fun e' he' => ?_, fun e' he' => h.mapping e' (mem_cons_of_mem _ he')⟩
  have hne : e.1 ≠ e'.1 := fun heq => hn.1 (heq ▸ mem_map_of_mem he')
  obtain ⟨hrow, howner⟩ := h.leased e' (mem_cons_of_mem _ he')
  exact ⟨(Dict.get?_set_of_ne _ _ hne).trans hrow, howner⟩

theorem commitAll_cons (h : Committable py w (e :: rows) db) : w.commitAll py t (e :: rows) db
      = w.commitAll py t rows (db.setRow e.1 (e.2.delivered t.marked none)) := by
  obtain ⟨hrow, howner⟩ := h.leased e (mem_cons_self ..)
  rw [commitAll, if_pos (h.mapping e (mem_cons_self ..)), deliver_of_leased hrow howner]

theorem get?_commitAll_of_ne (h : Committable py w rows db) (hid : id ∉ rows.map Prod.fst) :
    (w.commitAll py t rows db).rows.get? id = db.rows.get? id := by
  induction rows generalizing db with
  | nil => rfl
  | cons e rows ih =>
    rw [map_cons, mem_cons, not_or] at hid
    rw [commitAll_cons h, ih (h.tail t.marked) hid.2]
    exact Dict.get?_set_of_ne _ _ (Ne.symm hid.1)

theorem get?_commitAll (h : Committable py w rows db) (he : e ∈ rows) :
    (w.commitAll py t rows db).rows.get? e.1 = some (e.2.delivered t.marked none) := by
  induction rows generalizing db with
  | nil => cases he
  | cons e' rows ih =>
    rw [commitAll_cons h]
    rcases mem_cons.mp he with rfl | he
    · have hn := h.nodup
      rw [map_cons, nodup_cons] at hn
      rw [get?_commitAll_of_ne (h.tail t.marked) hn.1]
      exact Dict.get?_set_self ..
    · exact ih (h.tail t.marked) he

theorem outside_commitAll (h : Committable py w rows db)
    {ids : List PyStr} (hids : ∀ e ∈ rows, e.1 ∈ ids) :
    (w.commitAll py t rows db).outside ids = db.outside ids := by
  induction rows generalizing db with
  | nil => rfl
  | cons e rows ih =>
    rw [commitAll_cons h, ih (h.tail t.marked) fun e he => hids e (mem_cons_of_mem _ he),
      Outbox.outside_setRow _ (hids e (mem_cons_self ..))]

/-! ### Batches -/

theorem isActive_of_ready {c : ClaimCall} (h : row.ready c = true) :
    row.status.isActive = true := by
  cases hstatus : row.status with
  | delivered => simp [Row.ready, hstatus] at h
  | pending | retry | inflight => rfl

theorem isActive_of_due (h : w.isDue t row = true) : row.status.isActive = true := by
  rw [isDue, Bool.and_eq_true] at h
  exact isActive_of_ready h.1

theorem due_live (w : OutboxWorker) (t : Times) (db : Outbox Stored) :
    w.due t db.live = w.due t db.rows.entries := by
  rw [due, due, Outbox.live, List.filter_filter]
  congr 1
  refine List.filter_congr fun e _ => ?_
  cases hdue : w.isDue t e.2 with
  | true => rw [isActive_of_due hdue]; rfl
  | false => rfl

theorem batch_live (w : OutboxWorker) (t : Times) (db : Outbox Stored) :
    w.batch t db.live = w.batch t db.rows.entries := by
  rw [batch, batch, due_live]

theorem mem_due :
    e ∈ w.due t db.rows.entries ↔ db.rows.get? e.1 = some e.2 ∧ w.isDue t e.2 = true := by
  rw [due, byAge, mem_insertionSort, mem_filter, ← Dict.mem_entries_iff]

theorem nodup_due (w : OutboxWorker) (t : Times) (db : Outbox Stored) :
    ((w.due t db.rows.entries).map Prod.fst).Nodup := by
  have hperm := (perm_insertionSort (fun e e' : PyStr × Row Stored =>
    decide (e.2.createdAt ≤ e'.2.createdAt) = true)
    (db.rows.entries.filter fun e => w.isDue t e.2)).map Prod.fst
  exact hperm.nodup_iff.mpr (db.rows.nodup.sublist (filter_sublist.map _))

theorem due_eq_batch (w : OutboxWorker) (t : Times) (rows : List (PyStr × Row Stored)) :
    ∃ later, w.due t rows = w.batch t rows ++ later := by
  rw [batch, limited]
  split
  · exact ⟨[], (append_nil _).symm⟩
  · exact ⟨_, (take_append_drop _ _).symm⟩

theorem candidates_eq (w : OutboxWorker) (t : Times) (db : Outbox Stored) :
    db.candidates (w.call t) = (w.batch t db.rows.entries).map Prod.fst := rfl

theorem mem_batch (h : e ∈ w.batch t db.rows.entries) :
    e.1 ∈ db.candidates (w.call t) ∧ db.rows.get? e.1 = some e.2 ∧ w.isDue t e.2 = true := by
  obtain ⟨later, heq⟩ := due_eq_batch w t db.rows.entries
  have hdue : e ∈ w.due t db.rows.entries := heq ▸ mem_append_left _ h
  exact ⟨mem_map_of_mem h, mem_due.mp hdue⟩

theorem reads_iff_batch :
    db.Reads (w.call t) ↔ ∀ e ∈ w.batch t db.rows.entries, e.2.payload.isRaising = false := by
  constructor
  · intro h e he
    obtain ⟨hid, hrow, -⟩ := mem_batch he
    exact h e.1 hid e.2 hrow
  · intro h id hid row hrow
    obtain ⟨e, he, rfl⟩ := mem_map.mp (candidates_eq w t db ▸ hid)
    obtain rfl := Option.some.inj ((mem_batch he).2.1.symm.trans hrow)
    exact h e he

/-! ### One cycle -/

theorem drainOnce_nothing (h : w.batch t db.rows.entries = []) :
    w.drainOnce py t db = (some 0, db.purgeDelivered (t.purged - w.retentionSec)) := by
  have hnone : db.candidates (w.call t) = [] := by rw [candidates_eq, h, map_nil]
  simp only [drainOnce, Outbox.claimRecords, hnone, if_pos, length_nil, commitAll]

theorem get?_purge (h : db.rows.get? id = some row) (hactive : row.status.isActive = true)
    (cutoff : Rat) : (db.purgeDelivered cutoff).rows.get? id = some row := by
  refine Dict.get?_filter.mpr ⟨h, ?_⟩
  cases hstatus : row.status with
  | delivered =>
    rw [hstatus] at hactive
    cases hactive
  | pending | retry | inflight => simp [Outbox.purgeable, hstatus]

theorem drainOnce_raises (he : e ∈ w.batch t db.rows.entries)
    (hraising : e.2.payload.isRaising = true) :
    (w.drainOnce py t db).1 = none ∧
      (w.drainOnce py t db).2.rows.get? e.1 = some (e.2.leased (w.call t)) := by
  obtain ⟨hid, hrow, -⟩ := mem_batch he
  have hne : db.candidates (w.call t) ≠ [] := ne_nil_of_mem hid
  have hreads : ¬ db.Reads (w.call t) := by
    intro h
    rw [h e.1 hid e.2 hrow] at hraising
    cases hraising
  have hfst : (db.claimRecords py (w.call t) t.deadLettered).1 = none :=
    (Outbox.claimRecords_fst hne).2 hreads
  have hsnd : (db.claimRecords py (w.call t) t.deadLettered).2.rows.get? e.1
      = some (e.2.leased (w.call t)) := by
    rw [Outbox.claimRecords, if_neg hne]
    refine (Outbox.get?_checkRows_of_kept (fun row' hrow' => .inr ?_) _ _).1.trans ?_
    · obtain ⟨-, row, hrow'', rfl⟩ := Outbox.mem_claimed.mp hrow'
      obtain rfl := Option.some.inj (hrow''.symm.trans hrow)
      exact hraising
    · obtain ⟨row', hrow', hready⟩ := Outbox.ready_of_candidate hid
      obtain rfl := Option.some.inj (hrow.symm.trans hrow')
      rw [Outbox.get?_takeLease, hrow, map_some, contains_iff_mem.mpr hid, hready]
      rfl
  rw [drainOnce]
  cases hclaim : db.claimRecords py (w.call t) t.deadLettered with
  | mk records db' =>
    rw [hclaim] at hfst hsnd
    cases hfst
    exact ⟨rfl, hsnd⟩

theorem drainOnce_of_reads (hne : w.batch t db.rows.entries ≠ []) (hreads : db.Reads (w.call t)) :
    w.drainOnce py t db = (some ((db.claimed (w.call t)).filter fun e => !e.2.altered py).length,
      w.commitAll py t ((db.claimed (w.call t)).filter fun e => !e.2.altered py)
        ((db.claimRecords py (w.call t) t.deadLettered).2.purgeDelivered
          (t.purged - w.retentionSec))) := by
  have hne' : db.candidates (w.call t) ≠ [] := fun h => hne (map_eq_nil_iff.mp h)
  have hfst : (db.claimRecords py (w.call t) t.deadLettered).1
      = some ((db.claimed (w.call t)).filter fun e => !e.2.altered py) :=
    (Outbox.claimRecords_fst hne').1 hreads
  rw [drainOnce]
  cases hclaim : db.claimRecords py (w.call t) t.deadLettered with
  | mk records db' =>
    rw [hclaim] at hfst
    cases hfst
    rfl

/-- If no row of the batch passes, all of them are gone, the other active rows stay, and the cycle
has drained nothing. -/
theorem drainOnce_altered (hne : w.batch t db.rows.entries ≠ []) (hreads : db.Reads (w.call t))
    (haltered : ∀ e ∈ w.batch t db.rows.entries, e.2.altered py = true) :
    (w.drainOnce py t db).1 = some 0 ∧
      (∀ e ∈ w.batch t db.rows.entries, (w.drainOnce py t db).2.rows.get? e.1 = none) ∧
      ∀ id row, db.rows.get? id = some row → row.status.isActive = true →
        id ∉ (w.batch t db.rows.entries).map Prod.fst →
        (w.drainOnce py t db).2.rows.get? id = some row := by
  have hempty : ((db.claimed (w.call t)).filter fun e => !e.2.altered py) = [] := by
    refine filter_eq_nil_iff.mpr fun e he => ?_
    obtain ⟨hid, row, hrow, heq⟩ := Outbox.mem_claimed.mp he
    obtain ⟨e', he', heq'⟩ := mem_map.mp (candidates_eq w t db ▸ hid)
    obtain rfl := Option.some.inj ((heq' ▸ (mem_batch he').2.1).symm.trans hrow)
    have hsame : e.2.altered py = e'.2.altered py := by rw [heq]; rfl
    rw [hsame, haltered e' he']
    exact Bool.false_ne_true
  have hne' : db.candidates (w.call t) ≠ [] := fun h => hne (map_eq_nil_iff.mp h)
  rw [drainOnce_of_reads hne hreads, hempty]
  refine ⟨rfl, fun e he => ?_, fun id row hrow hactive hid => ?_⟩
  · obtain ⟨hid, hrow, -⟩ := mem_batch he
    have hgone := ((Outbox.claimRecords_row hid hrow t.deadLettered).2.2 (haltered e he) hreads).2.1
    cases hget : ((db.claimRecords py (w.call t) t.deadLettered).2.purgeDelivered
        (t.purged - w.retentionSec)).rows.get? e.1 with
    | none => exact hget
    | some row =>
      rw [(Dict.get?_filter.mp hget).1] at hgone
      cases hgone
  · refine get?_purge ?_ hactive _
    have hnot : (db.candidates (w.call t)).contains id = false := by
      rw [candidates_eq, contains_eq_mem, decide_eq_false hid]
    rw [Outbox.claimRecords, if_neg hne']
    refine (Outbox.get?_checkRows_of_kept (fun row' hrow' => ?_) _ _).1.trans ?_
    · exact absurd (Outbox.mem_claimed.mp hrow').1 hid
    · rw [Outbox.get?_takeLease, hrow, map_some, hnot]
      rfl

/-- If some row of the batch passes, the cycle has drained a record, and what is left active is
what was not in the batch. -/
theorem drainOnce_drains (hreads : db.Reads (w.call t))
    (hintact : ∃ e ∈ w.batch t db.rows.entries, e.2.altered py = false)
    (hmapping : ∀ e ∈ db.live, e.2.altered py = false →
      e.2.payload.payload?.any py.isMapping = true) :
    (∃ n, (w.drainOnce py t db).1 = some (n + 1)) ∧
      (w.drainOnce py t db).2.live = w.rest t db.live := by
  obtain ⟨e, he, hpasses⟩ := hintact
  have hne : w.batch t db.rows.entries ≠ [] := ne_nil_of_mem he
  let records := (db.claimed (w.call t)).filter fun e => !e.2.altered py
  let db₁ := (db.claimRecords py (w.call t) t.deadLettered).2
  let db₂ := db₁.purgeDelivered (t.purged - w.retentionSec)
  have hdrain : w.drainOnce py t db = (some records.length, w.commitAll py t records db₂) :=
    drainOnce_of_reads hne hreads
  -- what is returned is leased, and its payload is a mapping
  have hrecord : ∀ e ∈ records, e.1 ∈ db.candidates (w.call t) ∧
      ∃ row, db.rows.get? e.1 = some row ∧ row.altered py = false ∧ e.2 = row.leased (w.call t) := by
    intro e he
    obtain ⟨hclaimed, hpasses⟩ := mem_filter.mp he
    obtain ⟨hid, row, hrow, heq⟩ := Outbox.mem_claimed.mp hclaimed
    rw [Bool.not_eq_true', heq] at hpasses
    exact ⟨hid, row, hrow, hpasses, heq⟩
  have hcommittable : Committable py w records db₂ := by
    refine ⟨(Outbox.nodup_leasedRows _ _).sublist (filter_sublist.map _),
      fun e he => ?_, fun e he => ?_⟩
    · obtain ⟨hid, row, hrow, hpasses, heq⟩ := hrecord e he
      have hleased := (Outbox.claimRecords_row hid hrow t.deadLettered).2.1 hpasses
      rw [heq]
      exact ⟨get?_purge hleased rfl _, rfl⟩
    · obtain ⟨hid, row, hrow, hpasses, heq⟩ := hrecord e he
      obtain ⟨row', hrow', hready⟩ := Outbox.ready_of_candidate hid
      obtain rfl := Option.some.inj (hrow.symm.trans hrow')
      have hlive : (e.1, row) ∈ db.live :=
        mem_filter.mpr ⟨Dict.mem_entries_iff.mpr hrow, isActive_of_ready hready⟩
      rw [heq]
      exact hmapping (e.1, row) hlive hpasses
  have hids : ∀ e ∈ records, e.1 ∈ db.candidates (w.call t) := fun e he => (hrecord e he).1
  refine ⟨?_, ?_⟩
  · obtain ⟨hid, hrow, -⟩ := mem_batch he
    have hmem : (e.1, e.2.leased (w.call t)) ∈ records :=
      mem_filter.mpr ⟨Outbox.mem_claimed.mpr ⟨hid, e.2, hrow, rfl⟩, by
        show (!e.2.altered py) = true
        rw [hpasses]
        rfl⟩
    rw [hdrain]
    exact ⟨records.length - 1, congrArg some (Nat.succ_pred_eq_of_pos
      (length_pos_of_mem hmem)).symm⟩
  · -- no row of the batch is active any more
    have hdone : ∀ e' ∈ (w.commitAll py t records db₂).rows.entries,
        e'.2.status.isActive = true → e'.1 ∉ db.candidates (w.call t) := by
      intro e' he' hactive hid
      obtain ⟨row, hrow, hready⟩ := Outbox.ready_of_candidate hid
      have hget := Dict.mem_entries_iff.mp he'
      cases haltered : row.altered py with
      | true =>
        have hgone := ((Outbox.claimRecords_row hid hrow t.deadLettered).2.2 haltered hreads).2.1
        have hnot : e'.1 ∉ records.map Prod.fst := by
          intro hmem
          obtain ⟨r, hr, heq⟩ := mem_map.mp hmem
          obtain ⟨-, row', hrow', hpasses', -⟩ := hrecord r hr
          rw [heq, hrow, some_inj] at hrow'
          rw [← hrow', haltered] at hpasses'
          cases hpasses'
        rw [get?_commitAll_of_ne hcommittable hnot] at hget
        rw [(Dict.get?_filter.mp hget).1] at hgone
        cases hgone
      | false =>
        have hmem : (e'.1, row.leased (w.call t)) ∈ records :=
          mem_filter.mpr ⟨Outbox.mem_claimed.mpr ⟨hid, row, hrow, rfl⟩, by
            show (!row.altered py) = true
            rw [haltered]
            rfl⟩
        rw [get?_commitAll hcommittable hmem, some_inj] at hget
        rw [← hget] at hactive
        cases hactive
    have hlive : (w.commitAll py t records db₂).live
        = (w.commitAll py t records db₂).outside (db.candidates (w.call t)) := by
      rw [Outbox.outside_eq]
      refine (filter_eq_self.mpr fun e' he' => decide_eq_true ?_).symm
      obtain ⟨hentry, hactive⟩ := mem_filter.mp he'
      exact hdone e' hentry hactive
    have hne' : db.candidates (w.call t) ≠ [] := fun h => hne (map_eq_nil_iff.mp h)
    have hclaim : db₁.outside (db.candidates (w.call t)) = db.outside (db.candidates (w.call t)) := by
      show (db.claimRecords py (w.call t) t.deadLettered).2.outside _ = _
      rw [Outbox.claimRecords, if_neg hne', Outbox.outside_checkRows, Outbox.outside_takeLease]
      exact fun e he => (Outbox.mem_claimed.mp he).1
    rw [hdrain]
    show (w.commitAll py t records db₂).live = _
    rw [hlive, outside_commitAll hcommittable hids, Outbox.outside_purge, hclaim,
      Outbox.outside_eq, rest, batch_live, candidates_eq]

/-! ### The loop -/

def Flushed.Clear (w : OutboxWorker) (times : Nat → Times) (f : Flushed) : Prop :=
  ∀ id row, f.before.rows.get? id = some row → w.isDue (times f.last) row = true →
    ∀ row', f.after.rows.get? id = some row' → row'.status.isActive = false

variable {times : Nat → Times} {fuel cycle : Nat}

theorem flush_of_stop (h : ∀ n, (w.drainOnce py (times cycle) db).1 ≠ some (n + 1)) :
    w.flush py times (fuel + 1) cycle db
      = some ⟨0, cycle, db, (w.drainOnce py (times cycle) db).2⟩ := by
  rw [flush]
  cases hdrain : w.drainOnce py (times cycle) db with
  | mk drained db' =>
    cases drained with
    | none => rfl
    | some n =>
      cases n with
      | zero => rfl
      | succ n =>
        rw [hdrain] at h
        exact absurd rfl (h n)

theorem flush_of_drained {n : Nat} (h : (w.drainOnce py (times cycle) db).1 = some (n + 1)) :
    w.flush py times (fuel + 1) cycle db
      = (w.flush py times fuel (cycle + 1) (w.drainOnce py (times cycle) db).2).map
        fun f => { f with total := n + 1 + f.total } := by
  rw [flush]
  cases hdrain : w.drainOnce py (times cycle) db with
  | mk drained db' =>
    rw [hdrain] at h
    cases h
    rfl

theorem clear_of_altered (hne : w.batch (times cycle) db.rows.entries ≠ [])
    (hreads : db.Reads (w.call (times cycle)))
    (haltered : ∀ e ∈ w.batch (times cycle) db.rows.entries, e.2.altered py = true) :
    Flushed.Clear w times ⟨0, cycle, db, (w.drainOnce py (times cycle) db).2⟩ ↔
      (w.due (times cycle) db.rows.entries).length
        ≤ (w.batch (times cycle) db.rows.entries).length := by
  obtain ⟨-, hgone, hstays⟩ := drainOnce_altered hne hreads haltered
  obtain ⟨later, hdue⟩ := due_eq_batch w (times cycle) db.rows.entries
  have hnodup := nodup_due w (times cycle) db
  rw [hdue, map_append, nodup_append] at hnodup
  rw [hdue, length_append]
  constructor
  · intro hclear
    by_contra hlater
    obtain ⟨e, he⟩ := exists_mem_of_length_pos (l := later) (by omega)
    obtain ⟨hrow, hisDue⟩ := mem_due.mp (hdue ▸ mem_append_right _ he)
    have hnot : e.1 ∉ (w.batch (times cycle) db.rows.entries).map Prod.fst := fun hmem =>
      hnodup.2.2 _ hmem _ (mem_map_of_mem he) rfl
    have hstill := hstays e.1 e.2 hrow (isActive_of_due hisDue) hnot
    have hdone := hclear e.1 e.2 hrow hisDue e.2 hstill
    rw [isActive_of_due hisDue] at hdone
    cases hdone
  · intro hall id row hrow hisDue row' hrow'
    have hempty : later = [] := length_eq_zero_iff.mp (by omega)
    have hmem : (id, row) ∈ w.due (times cycle) db.rows.entries := mem_due.mpr ⟨hrow, hisDue⟩
    rw [hdue, hempty, append_nil] at hmem
    rw [hgone (id, row) hmem] at hrow'
    cases hrow'

/-- **The loop ends; nothing due is left if and only if every batch could be read and the one
without an intact row, if there was one, was all that was due.** -/
theorem flush_clear (hfuel : db.live.length < fuel)
    (hmapping : ∀ e ∈ db.live, e.2.altered py = false →
      e.2.payload.payload?.any py.isMapping = true) :
    ∃ f, w.flush py times fuel cycle db = some f ∧
      (f.Clear w times ↔ w.Clears py times fuel cycle db.live) := by
  induction fuel generalizing cycle db with
  | zero => exact absurd hfuel (Nat.not_lt_zero _)
  | succ fuel ih =>
    rw [Clears, due_live, batch_live, ← reads_iff_batch]
    by_cases hne : w.batch (times cycle) db.rows.entries = []
    · -- nothing is claimed
      have hstop : w.drainOnce py (times cycle) db = _ := drainOnce_nothing hne
      refine ⟨_, flush_of_stop (fun n h => ?_), ?_⟩
      · rw [hstop] at h
        cases h
      · rw [hne]
        constructor
        · intro hclear
          left
          by_contra hdue
          obtain ⟨e, he⟩ := exists_mem_of_ne_nil _ hdue
          obtain ⟨hrow, hisDue⟩ := mem_due.mp he
          have hstill := get?_purge hrow (isActive_of_due hisDue)
            ((times cycle).purged - w.retentionSec)
          have hdone := hclear e.1 e.2 hrow hisDue e.2 (by rw [hstop]; exact hstill)
          rw [isActive_of_due hisDue] at hdone
          cases hdone
        · rintro (hdue | ⟨-, ⟨⟨e, he, -⟩, -⟩ | ⟨-, hdue⟩⟩) id row hrow hisDue
          · have hmem : (id, row) ∈ w.due (times cycle) db.rows.entries := mem_due.mpr ⟨hrow, hisDue⟩
            rw [hdue] at hmem
            cases hmem
          · cases he
          · have hmem : (id, row) ∈ w.due (times cycle) db.rows.entries := mem_due.mpr ⟨hrow, hisDue⟩
            rw [length_eq_zero_iff.mp (Nat.le_zero.mp hdue)] at hmem
            cases hmem
    · have hdue : w.due (times cycle) db.rows.entries ≠ [] := by
        obtain ⟨later, heq⟩ := due_eq_batch w (times cycle) db.rows.entries
        rw [heq]
        exact fun h => hne (append_eq_nil_iff.mp h).1
      by_cases hreads : db.Reads (w.call (times cycle))
      · by_cases hintact : ∃ e ∈ w.batch (times cycle) db.rows.entries, e.2.altered py = false
        · -- the loop goes on with what is left
          obtain ⟨⟨n, hdrained⟩, hlive⟩ := drainOnce_drains hreads hintact hmapping
          have hshorter : (w.drainOnce py (times cycle) db).2.live.length < fuel := by
            obtain ⟨e, he, -⟩ := hintact
            obtain ⟨-, hrow, hisDue⟩ := mem_batch he
            have hmem : e ∈ db.live :=
              mem_filter.mpr ⟨Dict.mem_entries_iff.mpr hrow, isActive_of_due hisDue⟩
            rw [hlive, rest, batch_live]
            refine lt_of_lt_of_le ?_ (Nat.lt_succ_iff.mp hfuel)
            refine length_filter_lt_length_iff_exists.mpr ⟨e, hmem, ?_⟩
            rw [decide_eq_true_eq, not_not]
            exact mem_map_of_mem he
          have hmapping' : ∀ e ∈ (w.drainOnce py (times cycle) db).2.live, e.2.altered py = false →
              e.2.payload.payload?.any py.isMapping = true := by
            intro e he
            rw [hlive] at he
            exact hmapping e (mem_of_mem_filter he)
          obtain ⟨f, hflush, hclear⟩ : ∃ f,
              w.flush py times fuel (cycle + 1) (w.drainOnce py (times cycle) db).2 = some f ∧
                (f.Clear w times ↔ w.Clears py times fuel (cycle + 1)
                  (w.drainOnce py (times cycle) db).2.live) := ih hshorter hmapping'
          refine ⟨{ f with total := n + 1 + f.total }, ?_, ?_⟩
          · rw [flush_of_drained hdrained, hflush]
            rfl
          · rw [hlive] at hclear
            refine Iff.trans (b := f.Clear w times) Iff.rfl (hclear.trans ?_)
            constructor
            · intro hclears
              exact .inr ⟨hreads, .inl ⟨hintact, hclears⟩⟩
            · rintro (hnone | ⟨-, ⟨-, hclears⟩ | ⟨haltered, -⟩⟩)
              · exact absurd hnone hdue
              · exact hclears
              · obtain ⟨e, he, hpasses⟩ := hintact
                rw [haltered e he] at hpasses
                cases hpasses
        · -- the whole batch goes to the dead letters
          have haltered : ∀ e ∈ w.batch (times cycle) db.rows.entries, e.2.altered py = true := by
            intro e he
            by_contra hfalse
            exact hintact ⟨e, he, Bool.not_eq_true _ ▸ hfalse⟩
          have hstop := (drainOnce_altered hne hreads haltered).1
          refine ⟨_, flush_of_stop (fun n h => ?_), ?_⟩
          · rw [hstop] at h
            cases h
          · rw [clear_of_altered hne hreads haltered]
            constructor
            · intro hall
              exact .inr ⟨hreads, .inr ⟨haltered, hall⟩⟩
            · rintro (hnone | ⟨-, ⟨hsome, -⟩ | ⟨-, hall⟩⟩)
              · exact absurd hnone hdue
              · exact absurd hsome hintact
              · exact hall
      · -- a row of the batch cannot be read, and stays
        have hraises : ∃ e ∈ w.batch (times cycle) db.rows.entries, e.2.payload.isRaising = true := by
          rw [reads_iff_batch] at hreads
          push Not at hreads
          obtain ⟨e, he, hraising⟩ := hreads
          exact ⟨e, he, Bool.not_eq_false _ ▸ hraising⟩
        obtain ⟨e, he, hraising⟩ := hraises
        obtain ⟨hnone, hstays⟩ : (w.drainOnce py (times cycle) db).1 = none ∧
            (w.drainOnce py (times cycle) db).2.rows.get? e.1 = some (e.2.leased (w.call _)) :=
          drainOnce_raises he hraising
        refine ⟨_, flush_of_stop (fun n h => ?_), ?_⟩
        · rw [hnone] at h
          cases h
        · constructor
          · intro hclear
            obtain ⟨-, hrow, hisDue⟩ := mem_batch he
            have hdone := hclear e.1 e.2 hrow hisDue _ hstays
            cases hdone
          · rintro (hnothing | ⟨hreads', -⟩)
            · exact absurd hnothing hdue
            · exact absurd hreads' hreads

end OutboxWorker

/-! ### The results -/

structure Integrity (py : Python) : Prop where
  /-- a payload that was enqueued and not altered is returned if and only if its keys are in the
  order of their texts and every row of the claim can be read; only then is it not a mismatch -/
  returned : ∀ (v : PyObj) (d c : Dump) (row : Row Stored) (db : Outbox Stored) (call : ClaimCall)
    (id : PyStr) (failedAt : Rat), Enqueued py v d c row →
    (py.sha256 (normal d) = py.sha256 c → normal d = c) → id ∈ db.candidates call →
    db.rows.get? id = some row →
    ((∃ records row', (db.claimRecords py call failedAt).1 = some records ∧ (id, row') ∈ records ∧
        row'.payload.payload? = some (decode d)) ↔ Canonical c ∧ db.Reads call) ∧
      (Canonical c → ((db.claimRecords py call failedAt).2.rows.get? id).isSome = true) ∧
      (¬ Canonical c → db.Reads call →
        ((db.claimRecords py call failedAt).2.deadLetters.get? id).map DeadLetter.errorLog
          = some (some ("payload checksum mismatch" : PyStr)))
  /-- a row whose text says something else is not returned -/
  other : ∀ (v : PyObj) (d c : Dump) (row : Row Stored) (db : Outbox Stored) (call : ClaimCall)
    (id : PyStr) (failedAt : Rat) (records : List (PyStr × Row Stored)), dumps v = some d →
    dumpsSorted py.nanOrder v = some c → row.payloadSha256 = some (py.sha256 c) →
    (∀ d', row.payload = .text d' → normal d' ≠ normal d ∧
      (py.sha256 (normal d') = py.sha256 c → normal d' = c)) →
    db.rows.get? id = some row → (db.claimRecords py call failedAt).1 = some records →
    id ∉ records.map Prod.fst
  /-- a flush ends, and leaves nothing due if and only if its batches allow it -/
  cleared : ∀ (w : OutboxWorker) (times : Nat → Times) (db : Outbox Stored),
    (∀ e ∈ db.live, e.2.altered py = false → e.2.payload.payload?.any py.isMapping = true) →
    ∃ f, w.flush py times (db.live.length + 1) 0 db = some f ∧
      (f.Clear w times ↔ w.Clears py times (db.live.length + 1) 0 db.live)

/-- **When records are returned, and when a flush is complete.** -/
theorem outbox_integrity (py : Python) (hpy : py.Sound) : Integrity py := by
  refine ⟨?_, ?_, fun w times db hmapping => w.flush_clear (Nat.lt_succ_self _) hmapping⟩
  · intro v d c row db call id failedAt h hcollision hid hrow
    have hclaimed := @Outbox.claimRecords_row py db call id row hid hrow failedAt
    obtain ⟨hreturned, hkept, hmoved⟩ := hclaimed
    have haltered := altered_enqueued hpy h hcollision
    refine ⟨?_, fun hcanonical => ?_, fun hnot hreads => ?_⟩
    · rw [← haltered, ← hreturned]
      constructor
      · rintro ⟨records, row', hrecords, hmem, -⟩
        have hreads : db.Reads call := by
          by_contra hnot
          rw [(Outbox.claimRecords_fst (List.ne_nil_of_mem hid)).2 hnot] at hrecords
          cases hrecords
        have hin := hmem
        rw [(Outbox.claimRecords_fst (List.ne_nil_of_mem hid)).1 hreads, Option.some_inj] at hrecords
        rw [← hrecords, List.mem_filter] at hin
        obtain ⟨-, row₀, hrow₀, rfl⟩ := Outbox.mem_claimed.mp hin.1
        obtain rfl := Option.some.inj (hrow₀.symm.trans hrow)
        refine ⟨records, ?_, hmem⟩
        rw [(Outbox.claimRecords_fst (List.ne_nil_of_mem hid)).1 hreads, hrecords]
      · rintro ⟨records, hrecords, hmem⟩
        refine ⟨records, _, hrecords, hmem, ?_⟩
        show row.payload.payload? = some (decode d)
        rw [h.payload]
        rfl
    · rw [hkept (haltered.mpr hcanonical)]
      rfl
    · refine (hmoved ?_ hreads).2.2
      by_contra hfalse
      exact hnot (haltered.mp (Bool.not_eq_true _ ▸ hfalse))
  · intro v d c row db call id failedAt records hd hc hs hother hrow hrecords hmem
    by_cases hnone : db.candidates call = []
    · rw [Outbox.claimRecords, if_pos hnone] at hrecords
      cases hrecords
      cases hmem
    · have hreads : db.Reads call := by
        by_contra hnot
        rw [(Outbox.claimRecords_fst hnone).2 hnot] at hrecords
        cases hrecords
      have hin := hmem
      rw [(Outbox.claimRecords_fst hnone).1 hreads, Option.some_inj] at hrecords
      rw [← hrecords] at hin
      obtain ⟨e, he, rfl⟩ := List.mem_map.mp hin
      obtain ⟨hid, row', hrow', heq⟩ := Outbox.mem_claimed.mp (List.mem_filter.mp he).1
      obtain rfl := Option.some.inj (hrow'.symm.trans hrow)
      have haltered : row'.altered py = true := by
        cases hp : row'.payload with
        | text d' =>
          obtain ⟨hdiff, hcollision⟩ := hother d' hp
          exact altered_of_different hpy hd hc hp hs hcollision hdiff
        | garbled | raising => simp [Row.altered, hs, hp, Stored.hashMatches, hpy.hex c]
      have hpasses := (List.mem_filter.mp he).2
      rw [heq] at hpasses
      change (!row'.altered py) = true at hpasses
      rw [haltered] at hpasses
      cases hpasses

/-! ### An intact record in the dead letters, and a flush that stops early -/

def sampleHash : Dump → PyStr
  | .obj ((k, _) :: _) =>
    if k = units "2" then "32ce6229c4ffe23c47132793b8af3f92ff2ff0f500470758f51bff15e565ff6c"
    else "c7e17e909e96be5714890cfc14fa6c23eb62cee2cf81b588a23dce39cb983cae"
  | _ => "44136fa355b3678a1146ad16f7e8649e94fb4fc21fe77e8310c060f61caaff8a"

def isDictionary : PyObj → Bool
  | .dict _ => true
  | _ => false

def samplePython : Python where
  sha256 := sampleHash
  nanOrder := fun ks => List.range ks.length
  isMapping := isDictionary

theorem samplePython_sound : samplePython.Sound := by
  refine ⟨fun ks => List.Perm.refl _, fun d => ?_⟩
  show (sampleHash d).isEmpty = false
  rw [sampleHash.eq_def]
  split
  · split <;> rfl
  · rfl

/-- `{2: None, 10: None}`. -/
def numberKeys : PyObj := .dict [(.int 2, .none), (.int 10, .none)]

def numberText : Dump := .obj [(units "2", .null), (units "10", .null)]

theorem keyUnits?_two : keyUnits? (.int 2) = some (units "2") := by decide +kernel

theorem keyUnits?_ten : keyUnits? (.int 10) = some (units "10") := by decide +kernel

theorem dumps_numberKeys : dumps numberKeys = some numberText := by
  simp [numberKeys, numberText, dumps, dumpsEntries, JsonDump.textKeys, keyUnits?_two,
    keyUnits?_ten]

theorem dumpsSorted_numberKeys (nanOrder : List Key → List Nat) :
    dumpsSorted nanOrder numberKeys = some numberText := by
  have hsorted : JsonDump.sortItems nanOrder [(Key.int 2, Dump.null), (Key.int 10, Dump.null)]
      = some [(Key.int 2, Dump.null), (Key.int 10, Dump.null)] := by
    rfl
  simp [numberKeys, numberText, dumpsSorted, dumpsSortedEntries, hsorted, JsonDump.textKeys,
    keyUnits?_two, keyUnits?_ten]

def numberRow : Row Stored where
  target := "seekdb"
  payload := .text numberText
  createdAt := 0
  nextRetryAt := some 0
  idempotencyKey := some "record:r1"
  entityType := none
  entityId := none
  payloadSha256 := some "32ce6229c4ffe23c47132793b8af3f92ff2ff0f500470758f51bff15e565ff6c"
  updatedAt := 0

def garbledRow : Row Stored := { numberRow with payload := .garbled }

def emptyRow : Row Stored :=
  { numberRow with
    payload := .text (.obj [])
    createdAt := 1
    payloadSha256 := some "44136fa355b3678a1146ad16f7e8649e94fb4fc21fe77e8310c060f61caaff8a" }

def sampleCall : ClaimCall where
  owner := "w1"
  now := 2

def oneByOne : OutboxWorker where
  owner := "w1"
  batchSize := 1

def sampleTimes : Times := ⟨2, 2, 2, 2⟩

/-- A queue with one row, and a queue with a corrupt row before an intact one. -/
def numberQueue : Outbox Stored where
  rows := (∅ : Dict PyStr (Row Stored)).set "r1" numberRow

def mixedQueue : Outbox Stored where
  rows := ((∅ : Dict PyStr (Row Stored)).set "r1" garbledRow).set "r2" emptyRow

def mixedRows : List (PyStr × Row Stored) := [("r1", garbledRow), ("r2", emptyRow)]

theorem mapping_mixedQueue : ∀ e ∈ mixedQueue.live, e.2.altered samplePython = false →
    e.2.payload.payload?.any samplePython.isMapping = true := by
  intro e he _
  have hmem : e ∈ mixedRows := he
  rw [mixedRows, List.mem_pair] at hmem
  rcases hmem with rfl | rfl <;> rfl

/-- A flush in batches that take both rows leaves neither behind. -/
theorem outbox_integrity_flushed : ∃ f,
    OutboxWorker.flush samplePython { owner := "w1" } (fun _ => sampleTimes) 3 0 mixedQueue =
      some f ∧ f.Clear { owner := "w1" } fun _ => sampleTimes := by
  obtain ⟨f, hf, hclear⟩ := (outbox_integrity samplePython samplePython_sound).cleared
    { owner := "w1" } (fun _ => sampleTimes) mixedQueue mapping_mixedQueue
  have hbatch : OutboxWorker.batch { owner := "w1" } sampleTimes mixedQueue.live = mixedRows := by
    rfl
  have hpasses : emptyRow.altered samplePython = false := by rfl
  have hraising : ∀ e ∈ mixedRows, e.2.payload.isRaising = false := by
    rw [mixedRows]
    decide
  have hrest : OutboxWorker.due { owner := "w1" } sampleTimes
      (OutboxWorker.rest { owner := "w1" } sampleTimes mixedQueue.live) = [] := by rfl
  rw [← hbatch] at hraising
  have hmem : (("r2" : PyStr), emptyRow) ∈
      OutboxWorker.batch { owner := "w1" } sampleTimes mixedQueue.live := by
    rw [hbatch]
    exact List.mem_pair.mpr (.inr rfl)
  exact ⟨f, hf, hclear.mpr (.inr ⟨hraising, .inl ⟨⟨_, hmem, hpasses⟩, .inl hrest⟩⟩)⟩

theorem enqueued_numberRow : Enqueued samplePython numberKeys numberText numberText numberRow := by
  refine ⟨dumps_numberKeys, dumpsSorted_numberKeys _, rfl, ?_⟩
  show some _ = some (sampleHash numberText)
  rw [numberText, sampleHash, if_pos rfl]

theorem numberRow_altered : numberRow.altered samplePython = true := by
  have htext : numberRow.payload = .text numberText := rfl
  have hdiffer : samplePython.sha256 (normal numberText) ≠ samplePython.sha256 numberText := by
    show sampleHash (normal numberText) ≠ sampleHash numberText
    decide +kernel
  exact (altered_iff htext enqueued_numberRow.sha (samplePython_sound.hex numberText)).mpr hdiffer

theorem candidates_numberQueue : numberQueue.candidates sampleCall = [("r1" : PyStr)] := by
  decide +kernel

/-- **A payload with the keys 2 and 10 is moved to the dead letters though nothing altered it; and a
flush in batches of one stops at a corrupt row and leaves the intact one behind it.** -/
theorem intact_buried :
    (Enqueued samplePython numberKeys numberText numberText numberRow ∧
      numberQueue.rows.get? "r1" = some numberRow ∧
      ((numberQueue.claimRecords samplePython sampleCall 2).2.deadLetters.get? "r1").map
        DeadLetter.errorLog = some (some ("payload checksum mismatch" : PyStr))) ∧
      ∃ f, oneByOne.flush samplePython (fun _ => sampleTimes) 3 0 mixedQueue = some f ∧
        ¬ f.Clear oneByOne fun _ => sampleTimes := by
  have hrow : numberQueue.rows.get? "r1" = some numberRow := Dict.get?_set_self ..
  refine ⟨⟨enqueued_numberRow, hrow, ?_⟩, ?_⟩
  · have hid : ("r1" : PyStr) ∈ numberQueue.candidates sampleCall := by
      rw [candidates_numberQueue]
      exact List.mem_singleton_self _
    have hreads : numberQueue.Reads sampleCall := by
      intro id hid' row hget
      rw [candidates_numberQueue, List.mem_singleton] at hid'
      subst hid'
      obtain rfl := Option.some.inj (hrow.symm.trans hget)
      rfl
    exact ((Outbox.claimRecords_row hid hrow 2).2.2 numberRow_altered hreads).2.2
  · have hlive : mixedQueue.live = mixedRows := by rfl
    have hfuel : mixedQueue.live.length < 3 := by
      rw [hlive]
      decide
    obtain ⟨f, hf, hclear⟩ : ∃ f,
        oneByOne.flush samplePython (fun _ => sampleTimes) 3 0 mixedQueue = some f ∧
          (f.Clear oneByOne (fun _ => sampleTimes) ↔
            oneByOne.Clears samplePython (fun _ => sampleTimes) 3 0 mixedQueue.live) :=
      oneByOne.flush_clear hfuel mapping_mixedQueue
    refine ⟨f, hf, fun h => ?_⟩
    -- the batch is the corrupt row, and both rows are due
    have hdue : oneByOne.due sampleTimes mixedQueue.live = mixedRows := by
      rw [hlive]
      rfl
    have hbatch : oneByOne.batch sampleTimes mixedQueue.live
        = [(("r1" : PyStr), garbledRow)] := by
      rw [OutboxWorker.batch, hdue]
      rfl
    rw [hclear, OutboxWorker.Clears, hdue, hbatch] at h
    obtain h | ⟨-, ⟨⟨e, he, hpasses⟩, -⟩ | ⟨-, hlen⟩⟩ := h
    · cases h
    · rw [List.mem_singleton] at he
      subst he
      revert hpasses
      decide
    · revert hlen
      decide

end Rosclaw.Storage
