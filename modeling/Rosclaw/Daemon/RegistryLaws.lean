/-
Whether a call on the registry of enrollments is one step: made in memory and on disk, or in
neither.

A call changes memory first, and a save that raises before the file is replaced leaves the change
there; one that raises after it leaves the change in both although the call failed; a short write
loses the file without raising anything.

* `load_saved` — what is saved in full loads again as it was;
* `Durable` — the condition under which a call that saves is one step;
* `calls_atomic` — in every run whose calls meet it, memory and file agree, and a call is one step
  exactly where it meets it;
* `registration_half_made` — a registration whose rename fails.
-/
import Rosclaw.Daemon.OperatorRegistry

namespace Rosclaw.OperatorRegistry

open List Option

/-! ### Memories that can be saved -/

/-- Every record stands under its own id with a key that can be read, and the nonces are the
sorted list of a set. -/
structure Memory.WellFormed (publicKey : PyStr → Bool) (m : Memory) : Prop where
  keyed : ∀ k r, m.records.get? k = some r → k = r.enrollmentId
  readable : ∀ k r, m.records.get? k = some r → publicKey r.publicKeyPem = true
  sorted : PyStr.sortedSet m.burned = m.burned

theorem Memory.wellFormed_empty (publicKey : PyStr → Bool) : Memory.empty.WellFormed publicKey := by
  constructor
  · intro k r h
    cases h
  · intro k r h
    cases h
  · rfl

variable {m : Memory}

theorem Memory.WellFormed.set {publicKey : PyStr → Bool} (h : m.WellFormed publicKey)
    {r : EnrollmentRecord} (hr : publicKey r.publicKeyPem = true) :
    Memory.WellFormed publicKey { m with records := m.records.set r.enrollmentId r } := by
  constructor
  · intro k r' hk
    change (m.records.set r.enrollmentId r).get? k = some r' at hk
    rw [Dict.get?_set] at hk
    split at hk
    · next he => rw [← he, ← Option.some.inj hk]
    · exact h.keyed k r' hk
  · intro k r' hk
    change (m.records.set r.enrollmentId r).get? k = some r' at hk
    rw [Dict.get?_set] at hk
    split at hk
    · rw [← Option.some.inj hk]
      exact hr
    · exact h.readable k r' hk
  · exact h.sorted

theorem Memory.WellFormed.burn {publicKey : PyStr → Bool} (h : m.WellFormed publicKey)
    (nonces : List PyStr) :
    Memory.WellFormed publicKey { m with burned := PyStr.sortedSet nonces } :=
  ⟨h.keyed, h.readable, PyStr.sortedSet_sortedSet nonces⟩

/-! ### What is saved loads again -/

theorem recordOf_asdict (r : EnrollmentRecord) : recordOf r.asdict = some r := by
  obtain ⟨id, pem, uid, purpose, created, status, version, revokedAt⟩ := r
  simp [recordOf, EnrollmentRecord.asdict, fieldNames, PyVal.get, strOf, intOf]

theorem canon_asdict (r : EnrollmentRecord) : r.asdict.canon = some r.asdict := by
  simp [EnrollmentRecord.asdict, PyVal.canon, PyVal.canonEntries]

theorem mapM_map {α β : Type} {f : β → Option α} {g : α → β} (h : ∀ x, f (g x) = some x)
    (xs : List α) : (xs.map g).mapM f = some xs := by
  induction xs with
  | nil => rfl
  | cons x xs ih => simp [h x, ih]

theorem canonList_map {α : Type} {g : α → PyVal} (h : ∀ x, (g x).canon = some (g x))
    (xs : List α) : PyVal.canonList (xs.map g) = some (xs.map g) := by
  induction xs with
  | nil => rfl
  | cons x xs ih => simp [PyVal.canonList, h x, ih]

theorem canon_payload (m : Memory) : m.payload.canon = some m.payload := by
  have hrecords := canonList_map canon_asdict m.records.values
  have hnonces : PyVal.canonList (m.burned.map .str) = some (m.burned.map .str) :=
    canonList_map (fun _ => rfl) m.burned
  simp [Memory.payload, PyVal.canon, PyVal.canonEntries, hrecords, hnonces]

theorem loadRecords_entries {publicKey : PyStr → Bool} {es : List (PyStr × EnrollmentRecord)}
    {d : Dict PyStr EnrollmentRecord} (hnodup : ((d.entries ++ es).map Prod.fst).Nodup)
    (hkeyed : ∀ e ∈ es, e.1 = e.2.enrollmentId)
    (hreadable : ∀ e ∈ es, publicKey e.2.publicKeyPem = true) :
    ∃ d', loadRecords publicKey (es.map Prod.snd) d = some d' ∧ d'.entries = d.entries ++ es := by
  induction es generalizing d with
  | nil => exact ⟨d, rfl, (append_nil _).symm⟩
  | cons e es ih =>
    have hkey : e.1 = e.2.enrollmentId := hkeyed e (mem_cons_self ..)
    have hnone : d.get? e.2.enrollmentId = none := by
      rw [← not_isSome_iff_eq_none, ← Dict.mem_keys_iff, ← hkey]
      intro hmem
      rw [map_append, nodup_append] at hnodup
      exact hnodup.2.2 _ hmem _ (mem_cons_self ..) rfl
    have hset : (d.set e.2.enrollmentId e.2).entries = d.entries ++ [e] := by
      rw [Dict.entries_set_of_none hnone, ← hkey]
    obtain ⟨d', hload, hentries⟩ := ih (d := d.set e.2.enrollmentId e.2)
      (by rw [hset, append_assoc]; exact hnodup)
      (fun e' he' => hkeyed e' (mem_cons_of_mem _ he'))
      (fun e' he' => hreadable e' (mem_cons_of_mem _ he'))
    refine ⟨d', ?_, ?_⟩
    · rw [map_cons, loadRecords, if_pos (hreadable e (mem_cons_self ..))]
      exact hload
    · rw [hentries, hset, append_assoc]
      rfl

theorem loadRecords_values {publicKey : PyStr → Bool} (h : m.WellFormed publicKey) :
    loadRecords publicKey m.records.values ∅ = some m.records := by
  have hget : ∀ e ∈ m.records.entries, m.records.get? e.1 = some e.2 := fun e he =>
    Dict.mem_entries_iff.mp he
  have hload : ∃ d', loadRecords publicKey m.records.values ∅ = some d' ∧
      d'.entries = m.records.entries :=
    loadRecords_entries (d := ∅) m.records.nodup (fun e he => h.keyed _ _ (hget e he))
      (fun e he => h.readable _ _ (hget e he))
  obtain ⟨d, hload, hentries⟩ := hload
  rw [hload]
  obtain ⟨es, hn⟩ := d
  change es = _ at hentries
  subst hentries
  rfl

/-- **What is saved in full loads again as it was.** -/
theorem load_saved {publicKey : PyStr → Bool} (h : m.WellFormed publicKey)
    (path : PyStr) : load publicKey path ⟨m.payload.canon, 0o600⟩ = .ok m := by
  have hrecords : (m.payload.getD "enrollments" (.list []))
      = .list (m.records.values.map EnrollmentRecord.asdict) := by
    simp [Memory.payload]
  have hnonces : (m.payload.getD "burned_nonces" (.list [])) = .list (m.burned.map .str) := by
    simp [Memory.payload]
  have hread : listOf recordOf (.list (m.records.values.map EnrollmentRecord.asdict))
      = some m.records.values := mapM_map recordOf_asdict _
  have hstrs : listOf strOf (.list (m.burned.map .str)) = some m.burned :=
    mapM_map (g := PyVal.str) (fun _ => rfl) _
  have hmode : ¬ (0o600 % 64 ≠ 0) := by decide
  rw [load, if_neg hmode, canon_payload]
  simp only [hrecords, hnonces, hread, hstrs, loadRecords_values h, h.sorted]

theorem loadRecords_wellFormed {publicKey : PyStr → Bool} {rs : List EnrollmentRecord}
    {d d' : Dict PyStr EnrollmentRecord} {burned : List PyStr}
    (h : Memory.WellFormed publicKey ⟨d, burned⟩) (hload : loadRecords publicKey rs d = some d') :
    Memory.WellFormed publicKey ⟨d', burned⟩ := by
  induction rs generalizing d with
  | nil =>
    rw [loadRecords, some_inj] at hload
    exact hload ▸ h
  | cons r rs ih =>
    rw [loadRecords] at hload
    split at hload
    · next hr => exact ih (h.set hr) hload
    · cases hload

theorem wellFormed_of_load {publicKey : PyStr → Bool} {path : PyStr} {file : File}
    (h : load publicKey path file = .ok m) : m.WellFormed publicKey := by
  rw [load] at h
  split at h
  · cases h
  · split at h
    · cases h
    · split at h
      · next rs nonces _ _ =>
        split at h
        · next records hrecords =>
          have hempty : Memory.WellFormed publicKey ⟨∅, PyStr.sortedSet nonces⟩ :=
            (Memory.wellFormed_empty publicKey).burn nonces
          cases h
          exact loadRecords_wellFormed hempty hrecords
        · cases h
      · cases h

namespace Registry

theorem wellFormed_of_restarted {publicKey : PyStr → Bool} {s : Registry} {m : Memory}
    (h : s.restarted publicKey = .ok m) : m.WellFormed publicKey := by
  rw [restarted] at h
  split at h
  · exact wellFormed_of_load h
  · cases h
    exact Memory.wellFormed_empty publicKey

end Registry

/-! ### What a save leaves -/

def written (fault : Fault) (m : Memory) : File :=
  ⟨if fault.short then none else m.payload.canon, 0o600⟩

theorem load_written {publicKey : PyStr → Bool} (h : m.WellFormed publicKey)
    (path : PyStr) (fault : Fault) :
    load publicKey path (written fault m) = if fault.short then .error .corrupt else .ok m := by
  have hmode : ¬ (0o600 % 64 ≠ 0) := by decide
  rw [written]
  split
  · rw [load, if_neg hmode]
  · exact load_saved h path

theorem saveTo_ok {fault : Fault} (h : fault.failsAt = none) (path : PyStr) (m : Memory) (d : Disk) :
    saveTo path fault m d = (.ok (), ⟨some (written fault m), none⟩) := by
  simp [saveTo, attempt, h, written]

theorem saveTo_error {fault : Fault} {st : SaveStep} (h : fault.failsAt = some st) (path : PyStr)
    (m : Memory) (d : Disk) :
    (saveTo path fault m d).1 = .error (st.error path) ∧
      (saveTo path fault m d).2.file = if st.renamed then some (written fault m) else d.file := by
  cases st <;> simp [saveTo, attempt, h, written, SaveStep.renamed]

namespace Registry

theorem commit_pathless {s : Registry} (h : s.path = none) (fault : Fault)
    (answer : Option EnrollmentRecord) : s.commit fault answer = (.ok answer, s) := by
  simp only [commit, save, h]

theorem commit_ok {s : Registry} {path : PyStr} {fault : Fault} (hp : s.path = some path)
    (hf : fault.failsAt = none) (answer : Option EnrollmentRecord) :
    s.commit fault answer
      = (.ok answer, { s with disk := ⟨some (written fault s.memory), none⟩ }) := by
  simp only [commit, save, hp, saveTo_ok hf]

theorem commit_error {s : Registry} {path : PyStr} {fault : Fault} {st : SaveStep}
    (hp : s.path = some path) (hf : fault.failsAt = some st) (answer : Option EnrollmentRecord) :
    ∃ d : Disk, s.commit fault answer = (.error (st.error path), { s with disk := d }) ∧
      d.file = if st.renamed then some (written fault s.memory) else s.disk.file := by
  have h := saveTo_error hf path s.memory s.disk
  refine ⟨(saveTo path fault s.memory s.disk).2, ?_, h.2⟩
  simp only [commit, save, hp, h.1]

theorem restarted_of_file {publicKey : PyStr → Bool} {s s' : Registry} (hp : s'.path = s.path)
    (hf : s'.disk.file = s.disk.file) : s'.restarted publicKey = s.restarted publicKey := by
  simp only [restarted, hp, hf]

theorem restarted_of_written {publicKey : PyStr → Bool} {s : Registry} {path : PyStr} {m : Memory}
    {fault : Fault} (hp : s.path = some path) (hf : s.disk.file = some (written fault m))
    (hm : m.WellFormed publicKey) :
    s.restarted publicKey = if fault.short then .error .corrupt else .ok m := by
  simp only [restarted, hp, hf]
  exact load_written hm path fault

end Registry

/-! ### The calls -/

def Call.Saves (publicKey : PyStr → Bool) (m : Memory) : Call → Prop
  | .register id pem _ _ _ => publicKey pem = true ∧ m.records.get? id = none
  | .revoke id _ => (m.records.get? id).isSome = true
  | .burnNonce nonce => nonce ∉ m.burned

def Call.Again (m : Memory) : Call → Prop
  | .revoke id now => ∃ r, m.records.get? id = some r ∧ r.status = "revoked" ∧ r.revokedAt = now
  | _ => False

/-- The memory contains what the call, with its answer, was to bring about. -/
def Call.Holds (m : Memory) (answer : Option EnrollmentRecord) : Call → Prop
  | .register id pem _ _ _ =>
      ∃ r, answer = some r ∧ m.records.get? id = some r ∧ r.publicKeyPem = pem
  | .revoke id now =>
      ∃ r, answer = some r ∧ m.records.get? id = some r ∧ r.status = "revoked" ∧ r.revokedAt = now
  | .burnNonce nonce => nonce ∈ m.burned

/-- A call that raises changes neither the memory nor what a new registry would load; after one
that returns both contain the change. -/
structure Registry.Atomic (publicKey : PyStr → Bool) (s : Registry) (c : Call) (fault : Fault) :
    Prop where
  raised : ∀ e, (s.perform publicKey c fault).1 = .error e →
    (s.perform publicKey c fault).2.memory = s.memory ∧
      (s.perform publicKey c fault).2.restarted publicKey = s.restarted publicKey
  returned : ∀ answer, (s.perform publicKey c fault).1 = .ok answer →
    c.Holds (s.perform publicKey c fault).2.memory answer ∧
      ∃ m, (s.perform publicKey c fault).2.restarted publicKey = .ok m ∧ c.Holds m answer

/-- A call that saves has a file, and its save goes through; one that changes nothing may fail, as
long as a short write is not put in place. -/
def Durable (publicKey : PyStr → Bool) (s : Registry) (c : Call) (fault : Fault) : Prop :=
  c.Saves publicKey s.memory → s.path.isSome = true ∧
    (fault = Fault.none ∨
      (c.Again s.memory ∧ ∃ st, fault.failsAt = some st ∧ (st.renamed = true → fault.short = false)))

def Goes (publicKey : PyStr → Bool) (s : Registry) : Label → Prop
  | .call c fault => Durable publicKey s c fault
  | .restart => True

namespace Registry

variable {publicKey : PyStr → Bool} {s : Registry} {c : Call}

theorem perform_of_not_saves (h : ¬ c.Saves publicKey s.memory) (fault : Fault) :
    (s.perform publicKey c fault).2 = s ∧
      ∀ answer, (s.perform publicKey c fault).1 = .ok answer → c.Holds s.memory answer := by
  cases c with
  | register id pem uid purpose now =>
    rw [perform, register]
    split
    · next hpem =>
      split
      · next existing hget =>
        split
        · exact ⟨rfl, fun answer ha => by cases ha⟩
        · next hsame =>
          split
          · exact ⟨rfl, fun answer ha => by cases ha⟩
          · refine ⟨rfl, fun answer ha => ?_⟩
            cases ha
            exact ⟨existing, rfl, hget, not_not.mp hsame⟩
      · next hget => exact absurd ⟨hpem, hget⟩ h
    · exact ⟨rfl, fun answer ha => by cases ha⟩
  | revoke id now =>
    rw [perform, revoke]
    split
    · exact ⟨rfl, fun answer ha => by cases ha⟩
    · next record hget => exact absurd (isSome_of_eq_some hget) h
  | burnNonce nonce =>
    have hmem : nonce ∈ s.memory.burned := not_not.mp h
    rw [perform, burnNonce, if_pos hmem]
    exact ⟨rfl, fun answer ha => by cases ha⟩

/-- A call that reaches its save commits a memory that contains its change; only a revocation made
again is a memory that was there. -/
theorem perform_of_saves (hs : s.memory.WellFormed publicKey) (h : c.Saves publicKey s.memory)
    (fault : Fault) :
    ∃ (m : Memory) (answer : Option EnrollmentRecord),
      s.perform publicKey c fault = ({ s with memory := m } : Registry).commit fault answer ∧
        m.WellFormed publicKey ∧ c.Holds m answer ∧ (m = s.memory ↔ c.Again s.memory) := by
  cases c with
  | register id pem uid purpose now =>
    obtain ⟨hpem, hget⟩ := h
    let record : EnrollmentRecord :=
      { enrollmentId := id, publicKeyPem := pem, operatorUid := uid, purpose := purpose
        createdAt := now }
    refine ⟨{ s.memory with records := s.memory.records.set id record }, some record, ?_,
      hs.set (r := record) hpem, ⟨_, rfl, Dict.get?_set_self .., rfl⟩, ?_⟩
    · simp only [perform, register, if_pos hpem, hget]
      rfl
    · refine ⟨fun he => ?_, fun ha => ha.elim⟩
      have hsome := congrArg (fun m => m.records.get? id) he
      simp [hget] at hsome
  | revoke id now =>
    obtain ⟨r, hget⟩ := isSome_iff_exists.mp h
    have hid : id = r.enrollmentId := hs.keyed id r hget
    let revoked : EnrollmentRecord := { r with status := "revoked", revokedAt := now }
    have hwf := hs.set (r := revoked) (hs.readable id r hget)
    refine ⟨{ s.memory with records := s.memory.records.set id revoked }, some revoked, ?_, ?_,
      ⟨_, rfl, Dict.get?_set_self .., rfl, rfl⟩, ?_⟩
    · simp only [perform, revoke, hget]
      rfl
    · rw [hid]
      exact hwf
    · constructor
      · intro he
        have hsame := congrArg (fun m => m.records.get? id) he
        simp only [Dict.get?_set_self, hget, some_inj] at hsame
        exact ⟨r, hget, by rw [← hsame], by rw [← hsame]⟩
      · rintro ⟨r', hget', hstatus, hat⟩
        rw [hget, some_inj] at hget'
        have hsame : revoked = r' := by
          simp only [revoked, hget', ← hstatus, ← hat]
        rw [hsame, Dict.set_of_get (hget' ▸ hget)]
  | burnNonce nonce =>
    have hmem : nonce ∈ PyStr.sortedSet (nonce :: s.memory.burned) :=
      PyStr.mem_sortedSet.mpr (mem_cons_self ..)
    refine ⟨{ s.memory with burned := PyStr.sortedSet (nonce :: s.memory.burned) }, none, ?_,
      hs.burn _, hmem, fun he => ?_, fun ha => ha.elim⟩
    · rw [perform, burnNonce, if_neg h]
    · have hburned : PyStr.sortedSet (nonce :: s.memory.burned) = s.memory.burned :=
        congrArg Memory.burned he
      exact h (hburned ▸ hmem)

theorem not_holds_empty (c : Call) (answer : Option EnrollmentRecord) :
    ¬ c.Holds Memory.empty answer := by
  cases c with
  | register id pem uid purpose now =>
    rintro ⟨r, -, hget, -⟩
    cases hget
  | revoke id now =>
    rintro ⟨r, -, hget, -⟩
    cases hget
  | burnNonce nonce => exact not_mem_nil

/-! ### One step -/

theorem atomic_of_durable {fault : Fault} (hs : s.restarted publicKey = .ok s.memory)
    (h : Durable publicKey s c fault) :
    s.Atomic publicKey c fault ∧ (s.perform publicKey c fault).2.restarted publicKey
      = .ok (s.perform publicKey c fault).2.memory := by
  by_cases hsaves : c.Saves publicKey s.memory
  · obtain ⟨hpath, hfault⟩ := h hsaves
    obtain ⟨path, hp⟩ := isSome_iff_exists.mp hpath
    obtain ⟨m, answer, hperform, hwf, hholds, hsame⟩ :=
      perform_of_saves (wellFormed_of_restarted hs) hsaves fault
    rcases hfault with rfl | ⟨hagain, st, hst, hshort⟩
    · -- the save goes through
      have hfails : Fault.none.failsAt = none := rfl
      have hcommit := commit_ok (s := { s with memory := m }) hp hfails answer
      have hnew : (s.perform publicKey c Fault.none).2.restarted publicKey = .ok m := by
        rw [hperform, hcommit]
        exact restarted_of_written
          (s := { s with memory := m, disk := ⟨some (written Fault.none m), none⟩ }) hp rfl hwf
      have hmem : (s.perform publicKey c Fault.none).2.memory = m := by rw [hperform, hcommit]
      have hok : (s.perform publicKey c Fault.none).1 = .ok answer := by rw [hperform, hcommit]
      refine ⟨⟨fun e he => ?_, fun answer' ha => ?_⟩, by rw [hnew, hmem]⟩
      · rw [hok] at he
        cases he
      · rw [hok] at ha
        cases ha
        rw [hmem]
        exact ⟨hholds, m, hnew, hholds⟩
    · -- it raises, and the memory is as it was
      have hm : m = s.memory := hsame.mpr hagain
      obtain ⟨d, hcommit, hfile⟩ := commit_error (s := { s with memory := m }) hp hst answer
      have herror : (s.perform publicKey c fault).1 = .error (st.error path) := by
        rw [hperform, hcommit]
      have hmem : (s.perform publicKey c fault).2.memory = s.memory := by
        rw [hperform, hcommit]
        exact hm
      have hold : (s.perform publicKey c fault).2.restarted publicKey = .ok s.memory := by
        rw [hperform, hcommit]
        by_cases hrenamed : st.renamed = true
        · rw [if_pos hrenamed] at hfile
          have hload := restarted_of_written (s := { s with memory := m, disk := d }) hp hfile hwf
          rw [hload, hshort hrenamed, hm]
          rfl
        · rw [if_neg hrenamed] at hfile
          have hload : ({ s with memory := m, disk := d } : Registry).restarted publicKey
              = s.restarted publicKey := restarted_of_file rfl hfile
          exact hload.trans hs
      refine ⟨⟨fun e _ => ⟨hmem, hold.trans hs.symm⟩, fun answer' ha => ?_⟩, by rw [hold, hmem]⟩
      rw [herror] at ha
      cases ha
  · obtain ⟨hstate, hholds⟩ := perform_of_not_saves hsaves fault
    refine ⟨⟨fun e _ => by rw [hstate]; exact ⟨rfl, rfl⟩, fun answer ha => ?_⟩, by rw [hstate, hs]⟩
    rw [hstate]
    exact ⟨hholds answer ha, s.memory, hs, hholds answer ha⟩

theorem durable_of_atomic {fault : Fault} (hs : s.restarted publicKey = .ok s.memory)
    (h : s.Atomic publicKey c fault) : Durable publicKey s c fault := by
  intro hsaves
  obtain ⟨m, answer, hperform, hwf, hholds, hsame⟩ :=
    perform_of_saves (wellFormed_of_restarted hs) hsaves fault
  cases hp : s.path with
  | none =>
    -- without a file a new registry is empty
    have hcommit := commit_pathless (s := { s with memory := m }) hp fault answer
    obtain ⟨-, m', hload, hcontains⟩ := h.returned answer (by rw [hperform, hcommit])
    rw [hperform, hcommit] at hload
    have hempty : m' = Memory.empty := by
      have hrestarted : ({ s with memory := m } : Registry).restarted publicKey = .ok Memory.empty := by
        simp only [restarted, hp]
      exact Except.ok.inj (hload.symm.trans hrestarted)
    rw [hempty] at hcontains
    exact absurd hcontains (not_holds_empty c answer)
  | some path =>
    refine ⟨rfl, ?_⟩
    cases hfails : fault.failsAt with
    | none =>
      left
      have hcommit := commit_ok (s := { s with memory := m }) hp hfails answer
      obtain ⟨-, m', hload, -⟩ := h.returned answer (by rw [hperform, hcommit])
      rw [hperform, hcommit] at hload
      have hnew := restarted_of_written
        (s := { s with memory := m, disk := ⟨some (written fault m), none⟩ }) hp rfl hwf
      rw [hnew] at hload
      obtain ⟨failsAt, short⟩ := fault
      cases short with
      | true => cases hload
      | false =>
        change failsAt = none at hfails
        rw [hfails]
        rfl
    | some st =>
      right
      obtain ⟨d, hcommit, hfile⟩ := commit_error (s := { s with memory := m }) hp hfails answer
      obtain ⟨hmem, hload⟩ := h.raised (st.error path) (by rw [hperform, hcommit])
      rw [hperform, hcommit] at hmem hload
      refine ⟨hsame.mp hmem, st, rfl, fun hrenamed => ?_⟩
      rw [if_pos hrenamed] at hfile
      have hnew := restarted_of_written (s := { s with memory := m, disk := d }) hp hfile hwf
      rw [hnew, hs] at hload
      cases hshort : fault.short with
      | false => rfl
      | true =>
        rw [hshort] at hload
        cases hload

end Registry

theorem agreed_step {publicKey : PyStr → Bool} {s s' : Registry} {l : Label}
    (hs : s.restarted publicKey = .ok s.memory) (hgoes : Goes publicKey s l)
    (h : s.step publicKey l = some s') : s'.restarted publicKey = .ok s'.memory := by
  cases l with
  | call c fault =>
    rw [Registry.step, some_inj] at h
    rw [← h]
    exact (Registry.atomic_of_durable hs hgoes).2
  | restart =>
    simp only [Registry.step, hs, some_inj] at h
    rw [← h]
    exact hs

/-- **In a run of durable calls memory and file agree, and a call is one step exactly where it is
durable.** -/
theorem calls_atomic (publicKey : PyStr → Bool) (s : Registry)
    (h : (registries publicKey).ReachableUnder (Goes publicKey) s) :
    s.restarted publicKey = .ok s.memory ∧
      ∀ c fault, s.Atomic publicKey c fault ↔ Durable publicKey s c fault := by
  have hs : s.restarted publicKey = .ok s.memory :=
    h.invariant (P := fun s => s.restarted publicKey = .ok s.memory) (fun _ hi => hi)
      fun _ _ _ hi hg hl => agreed_step hi hg hl
  exact ⟨hs, fun c fault => ⟨Registry.durable_of_atomic hs,
    fun hd => (Registry.atomic_of_durable hs hd).1⟩⟩

/-! ### A registration whose rename fails -/

def samplePem : PyStr :=
  "-----BEGIN PUBLIC KEY-----\nMCowBQYDK2VwAyEAGb9ECWmEzf6FQbrBZ9w7lshQhqowtrbLDFw4rXAxZuE=\n" ++
    "-----END PUBLIC KEY-----\n"

def samplePublicKey (pem : PyStr) : Bool := pem = samplePem

def sampleRegistry : Registry :=
  ⟨some "/var/lib/rosclaw/operator-enrollments.json", Memory.empty, ⟨none, none⟩⟩

def sampleCall : Call :=
  .register "op-1" samplePem 1000 "operator-decision" "2025-01-01T00:00:00+00:00"

theorem sampleRegistry_init : (registries samplePublicKey).Init sampleRegistry := rfl

theorem sampleCall_saves : sampleCall.Saves samplePublicKey sampleRegistry.memory :=
  ⟨decide_eq_true rfl, rfl⟩

/-- After a registration, memory and file agree. -/
theorem calls_atomic_registered :
    ∃ s, sampleRegistry.step samplePublicKey (.call sampleCall Fault.none) = some s ∧
      s.restarted samplePublicKey = .ok s.memory ∧
        ∀ c fault, s.Atomic samplePublicKey c fault ↔ Durable samplePublicKey s c fault := by
  refine ⟨_, rfl, calls_atomic samplePublicKey _ ?_⟩
  have hgoes : Goes samplePublicKey sampleRegistry (.call sampleCall Fault.none) :=
    fun _ => ⟨rfl, .inl rfl⟩
  exact .step (.init sampleRegistry_init) hgoes rfl

/-- **The rename fails and the call raises, but the enrollment is in memory, and not on disk; the
same call then answers with it and still does not save it.** -/
theorem registration_half_made :
    ¬ sampleRegistry.Atomic samplePublicKey sampleCall ⟨some .rename, false⟩ ∧
      ∃ s, (registries samplePublicKey).Reachable s ∧
        (s.memory.records.get? "op-1").isSome = true ∧
        s.restarted samplePublicKey = .ok Memory.empty ∧
        ¬ s.Atomic samplePublicKey sampleCall Fault.none := by
  constructor
  · intro hatomic
    obtain ⟨-, hnone | ⟨hagain, -⟩⟩ :=
      Registry.durable_of_atomic sampleRegistry_init hatomic sampleCall_saves
    · cases hnone
    · exact hagain
  · have hreach : (registries samplePublicKey).Reachable
        (sampleRegistry.perform samplePublicKey sampleCall ⟨some .rename, false⟩).2 :=
      .step (l := .call sampleCall ⟨some .rename, false⟩) (.init sampleRegistry_init) trivial rfl
    refine ⟨_, hreach, rfl, rfl, fun hatomic => ?_⟩
    obtain ⟨-, m, hload, hholds⟩ := hatomic.returned (some ⟨"op-1", samplePem, 1000,
      "operator-decision", "2025-01-01T00:00:00+00:00", "active", 1, ""⟩) rfl
    cases hload
    exact Registry.not_holds_empty _ _ hholds

end Rosclaw.OperatorRegistry
