/-
What a migration runner leaves behind.

* `migrate_spec` — a migration takes effect with its record, or leaves nothing;
* `applyFiles_spec` — the loop;
* `Good` — what is promised of a call;
* `life_good` — **a database all of whose calls meet the condition**;
* `applied_twice` — a directory with two files of one version.
-/
import Rosclaw.Storage.Migrations

namespace Rosclaw.Migrations

open Savepoint List Option

variable {R : Type} {p : Platform R}

/-! ### The condition -/

def Database.recorded (d : Database R) : Dict PyStr (Option PyStr) := d.tables.records.getD ∅

def File.executions (p : Platform R) (f : File) : List Execution :=
  (splitStatements f.text).map fun s => ⟨f.version p, s⟩

/-- Every statement is one of its own, and none writes `schema_migrations`. -/
def Tame (p : Platform R) (f : File) : Prop :=
  ∀ s ∈ splitStatements f.text, ∃ g, (p.parse s).command = .run g ∧
    ∀ t t', g t = .ok t' → t'.records = t.records

def targeted (p : Platform R) (files : List File) : List File := files.filter (·.targets p)

/-- The history of a database: what was executed is recorded, and was executed in order. -/
structure Past (p : Platform R) (d : Database R) : Prop where
  recorded : ∀ e ∈ d.history, d.recorded.contains e.version = true
  ordered : d.history.Pairwise fun e e' => versionNumber p e.version ≤ versionNumber p e'.version

structure Meets (p : Platform R) (d : Database R) (files : List File) : Prop where
  distinct : ((targeted p files).map (·.version p)).Nodup
  tame : ∀ f ∈ targeted p files, Tame p f
  /-- a file that passes for an applied one is the one that was applied -/
  same : ∀ f ∈ targeted p files, ∀ checksum, d.recorded.get? (f.version p) = some checksum →
    (hasChecksum checksum = true → checksum = some f.checksum) →
      d.history.filter (fun e => e.version = f.version p) = f.executions p
  /-- a file that is new comes after all that is recorded -/
  later : ∀ f ∈ targeted p files, d.recorded.get? (f.version p) = none →
    ∀ v, d.recorded.contains v = true → versionNumber p v ≤ f.number p

/-! ### One migration -/

def tableEffect (p : Platform R) (s : PyStr) (t : Tables R) : Except Failure (Tables R) :=
  match (p.parse s).command with
  | .run g => g t
  | _ => .error .statement

def effect (p : Platform R) (version s : PyStr) (d : Database R) : Except Failure (Database R) :=
  (tableEffect p s d.tables).map fun t => ⟨t, d.history ++ [⟨version, s⟩]⟩

variable {applied records : Dict PyStr (Option PyStr)} {c c₁ d d' : Database R} {f : File}
  {files : List File} {statements : List PyStr} (version : PyStr)

theorem onDatabase_eq {s : PyStr} {g : Tables R → Except Failure (Tables R)}
    (h : (p.parse s).command = .run g) :
    onDatabase (some ⟨version, s⟩) (p.parse s).command = .run (effect p version s) := by
  rw [h, onDatabase]
  congr 1
  funext d
  rw [effect, tableEffect, h]
  rfl

theorem execute_guarded (execution : Option Execution) (s : Statement R) (c d : Database R) :
    execute p execution s (guarded savepointName c d)
      = (onDatabase execution s.command).execute p.holds (guarded savepointName c d) := by
  rw [execute, guarded]
  simp only [Bool.not_true, Bool.and_false, Bool.false_eq_true, if_false]

theorem executeScript_eq (h : ∀ s ∈ statements, ∃ g, (p.parse s).command = .run g)
    (c d : Database R) :
    executeScript p version statements (guarded savepointName c d)
      = script p.holds (guarded savepointName c d) ((statements.map (effect p version)).map .run)
    := by
  induction statements generalizing d with
  | nil => rfl
  | cons s rest ih =>
    obtain ⟨⟨g, hg⟩, hrest⟩ := forall_mem_cons.mp h
    rw [executeScript, execute_guarded, onDatabase_eq version hg, map_cons, map_cons, script]
    cases heffect : effect p version s d with
    | ok d' =>
      rw [execute_run_ok heffect]
      exact ih hrest d'
    | error e =>
      rcases @execute_run_error PyStr (Database R) _ p.holds savepointName c d _ e heffect
        with hkept | hgone
      · rw [hkept]
      · rw [hgone]

theorem effects_spec (h : ∀ s ∈ statements, ∃ g, (p.parse s).command = .run g ∧
      ∀ t t', g t = .ok t' → t'.records = t.records)
    (heffects : effects (statements.map (effect p version)) d = .ok d') :
    d'.tables.records = d.tables.records
      ∧ d'.history = d.history ++ statements.map fun s => ⟨version, s⟩ := by
  induction statements generalizing d with
  | nil =>
    cases heffects
    exact ⟨rfl, (append_nil _).symm⟩
  | cons s rest ih =>
    obtain ⟨⟨g, hg, hkeeps⟩, hrest⟩ := forall_mem_cons.mp h
    rw [map_cons, effects, effect, tableEffect, hg] at heffects
    dsimp only at heffects
    cases ht : g d.tables with
    | error e =>
      rw [ht] at heffects
      cases heffects
    | ok t =>
      rw [ht] at heffects
      obtain ⟨hrecords, hhistory⟩ := ih hrest heffects
      refine ⟨hrecords.trans (hkeeps _ _ ht), hhistory.trans ?_⟩
      rw [append_assoc]
      rfl

theorem undo_guarded (hc : p.holds c = true) :
    undo p (guarded savepointName c d) = (.closed c, false) := by
  have hback : execute p none goBack (guarded savepointName c d)
      = (guarded savepointName c c, true) := by
    rw [execute_guarded]
    exact execute_rollbackTo_guarded
  have hrelease : execute p none release (guarded savepointName c c) = (.closed c, true) := by
    rw [execute_guarded]
    exact execute_release_guarded.trans (if_pos hc)
  rw [undo, hback]
  simp only [hrelease]

theorem undo_closed (c : Database R) : undo p (.closed c) = (.closed c, false) := by
  have hback : execute p none goBack (.closed c) = (.closed c, false) := by
    rw [execute, goBack]
    simp only [Bool.and_false, Bool.false_and, Bool.false_eq_true, if_false]
    rfl
  rw [undo, hback]

theorem run_onRecords (g : Dict PyStr (Option PyStr) → Dict PyStr (Option PyStr))
    (h : d.tables.records = some records) :
    ∃ F, onDatabase none (onRecords g : Statement R).command = .run F
      ∧ F d = .ok ⟨⟨some (g records), d.tables.rest⟩, d.history⟩ := by
  refine ⟨_, rfl, ?_⟩
  simp only [h, Except.map, toList_none, append_nil]

theorem migrate_spec (hf : Tame p f) (hc : p.holds c = true)
    (htable : c.tables.records.isSome = true) :
    (∃ d, migrate p f (.closed c) = (.closed d, true) ∧ p.holds d = true
        ∧ d.tables.records = some (c.recorded.set (f.version p) (some f.checksum))
        ∧ d.history = c.history ++ f.executions p)
      ∨ migrate p f (.closed c) = (.closed c, false) := by
  obtain ⟨records, hrecords⟩ := isSome_iff_exists.mp htable
  have hmark : (execute p none mark (.closed c)).1 = guarded savepointName c c := by
    rw [execute, mark]
    simp only [Bool.and_false, Bool.false_and, Bool.false_eq_true, if_false]
    rfl
  rw [migrate, hmark, attempt, executeScript_eq (f.version p) fun s hs =>
    (hf s hs).imp fun g hg => hg.1]
  obtain ⟨d, heffects, hscript⟩ | ⟨d, hfailed⟩ | hnone :=
    @script_guarded PyStr (Database R) _ p.holds savepointName c c
      ((splitStatements f.text).map (effect p (f.version p)))
  · obtain ⟨hkept, hhistory⟩ := effects_spec (f.version p) hf heffects
    set d₁ : Database R :=
      ⟨⟨some (records.set (f.version p) (some f.checksum)), d.tables.rest⟩, d.history⟩ with hd₁
    have hrecord : execute p none (record (f.version p) f.checksum) (guarded savepointName c d)
        = (guarded savepointName c d₁, true) := by
      obtain ⟨F, hcommand, hF⟩ := run_onRecords
        (fun records => records.set (f.version p) (some f.checksum)) (hkept.trans hrecords)
      rw [execute_guarded, record, hcommand]
      exact execute_run_ok hF
    have hrelease : execute p none release (guarded savepointName c d₁)
        = if p.holds d₁ = true then (.closed d₁, true)
          else (guarded savepointName c d₁, false) := by
      rw [execute_guarded]
      exact execute_release_guarded
    rw [hscript]
    simp only [hrecord, hrelease]
    by_cases hvalid : p.holds d₁ = true
    · refine .inl ⟨d₁, ?_, hvalid, ?_, hhistory⟩
      · rw [if_pos hvalid]
        rfl
      · rw [Database.recorded, hrecords]
        rfl
    · rw [if_neg hvalid]
      exact .inr (undo_guarded hc)
  · rw [hfailed]
    exact .inr (undo_guarded hc)
  · rw [hnone]
    exact .inr (undo_closed c)

def filled (c : Database R) (version checksum : PyStr) : Database R :=
  ⟨⟨some (c.recorded.mapVals fun v recorded => if v = version then some checksum else recorded),
    c.tables.rest⟩, c.history⟩

theorem get?_filled_self {version : PyStr} {recorded : Option PyStr}
    (h : c.recorded.get? version = some recorded) (checksum : PyStr) :
    (filled c version checksum).recorded.get? version = some (some checksum) := by
  have hget := Dict.get?_mapVals (fun v recorded => if v = version then some checksum else recorded)
    c.recorded version
  rw [h, map_some, if_pos rfl] at hget
  exact hget

theorem get?_filled_of_ne {version v : PyStr} (h : v ≠ version) (checksum : PyStr) :
    (filled c version checksum).recorded.get? v = c.recorded.get? v := by
  have hget := Dict.get?_mapVals (fun v recorded => if v = version then some checksum else recorded)
    c.recorded v
  simp only [if_neg h, Option.map_id'] at hget
  exact hget

theorem updateChecksum_spec (hc : p.holds c = true) (htable : c.tables.records.isSome = true)
    (version checksum : PyStr) :
    ∃ c₁, execute p none (updateChecksum version checksum) (.closed c) = (c₁, true)
      ∧ pyCommit p c₁ = (.closed (filled c version checksum), true) := by
  obtain ⟨records, hrecords⟩ := isSome_iff_exists.mp htable
  obtain ⟨F, hcommand, hF⟩ := run_onRecords
    (fun records => records.mapVals fun v recorded => if v = version then some checksum else recorded)
    hrecords
  have hF' : F c = .ok (filled c version checksum) := by
    rw [hF, filled, Database.recorded, hrecords]
    rfl
  have hvalid : p.holds (filled c version checksum) = true := hc
  have hdml : (updateChecksum version checksum : Statement R).isDml = true := rfl
  have hrun : onDatabase none (updateChecksum version checksum : Statement R).command = .run F :=
    hcommand
  rw [execute, hrun, hdml]
  cases p.implicit with
  | true =>
    -- Python has begun a transaction, and commits it
    refine ⟨⟨c, filled c version checksum, [], true, false⟩, ?_, ?_⟩
    · show (Command.run F).execute p.holds (⟨c, c, [], true, false⟩ : Connection R) = _
      rw [Command.execute]
      simp only [hF']
      rfl
    · show Savepoint.commit p.holds (⟨c, filled c version checksum, [], true, false⟩ : Connection R)
        = _
      rw [Savepoint.commit, if_pos hvalid]
  | false =>
    refine ⟨.closed (filled c version checksum), ?_, rfl⟩
    show (Command.run F).execute p.holds (.closed c : Connection R) = _
    rw [Command.execute, Session.closed]
    simp only [hF']
    exact if_pos hvalid

/-! ### The loop -/

def unrecorded (p : Platform R) (applied : Dict PyStr (Option PyStr)) (files : List File) :
    List File :=
  (targeted p files).filter fun f => (applied.get? (f.version p)).isNone

structure Ran (p : Platform R) (applied : Dict PyStr (Option PyStr)) (files : List File)
    (c d : Database R) (r : Except Error (List PyStr)) : Prop where
  ran : applyFiles p applied files (.closed c) = (.closed d, r)
  valid : p.holds d = true
  table : d.tables.records.isSome = true
  others : ∀ v, v ∉ (targeted p files).map (·.version p) → d.recorded.get? v = c.recorded.get? v
  kept : ∀ v, c.recorded.contains v = true → d.recorded.contains v = true
  history : ∃ done, done.Sublist (unrecorded p applied files)
    ∧ d.history = c.history ++ done.flatMap (·.executions p)
    ∧ (∀ f ∈ done, d.recorded.contains (f.version p) = true)
    ∧ (r.isOk = true → done = unrecorded p applied files)
  recorded : r.isOk = true → ∀ f ∈ targeted p files,
    d.recorded.get? (f.version p) = some (some f.checksum)
      ∧ ∀ checksum, applied.get? (f.version p) = some checksum → hasChecksum checksum = true →
        checksum = some f.checksum
  /-- an error leaves what the files before the one that failed leave -/
  failed : ∀ e, r = .error e → ∃ before k after news, files = before ++ k :: after
    ∧ applyFiles p applied before (.closed c) = (.closed d, .ok news)

theorem Ran.cons {r : Except Error (List PyStr)} {g : List PyStr → List PyStr}
    (hf : f.targets p = true) (hdistinct : f.version p ∉ (targeted p files).map (·.version p))
    (hrest : Ran p applied files c₁ d r)
    (hrun : ∀ files', applyFiles p applied (f :: files') (.closed c)
      = ((applyFiles p applied files' (.closed c₁)).1,
        (applyFiles p applied files' (.closed c₁)).2.map g))
    (hself : c₁.recorded.get? (f.version p) = some (some f.checksum))
    (hothers : ∀ v, v ≠ f.version p → c₁.recorded.get? v = c.recorded.get? v)
    (hhistory : c₁.history = c.history
      ++ if (applied.get? (f.version p)).isNone then f.executions p else [])
    (hmatch : ∀ checksum, applied.get? (f.version p) = some checksum → hasChecksum checksum = true →
      checksum = some f.checksum) : Ran p applied (f :: files) c d (r.map g) := by
  have htargeted : targeted p (f :: files) = f :: targeted p files := by
    rw [targeted, filter_cons_of_pos hf]
    rfl
  have hd : d.recorded.get? (f.version p) = some (some f.checksum) :=
    (hrest.others _ hdistinct).trans hself
  have hok : (r.map g).isOk = r.isOk := by cases r <;> rfl
  refine ⟨?_, hrest.valid, hrest.table, ?_, ?_, ?_, ?_, ?_⟩
  · rw [hrun, hrest.ran]
  · intro v hv
    rw [htargeted, map_cons, mem_cons, not_or] at hv
    exact (hrest.others v hv.2).trans (hothers v hv.1)
  · intro v hv
    refine hrest.kept v ?_
    by_cases heq : v = f.version p
    · rw [heq, Dict.contains, hself]
      rfl
    · rw [Dict.contains, hothers v heq]
      exact hv
  · obtain ⟨done, hsub, hdone, hcontains, hall⟩ := hrest.history
    have hunrecorded : unrecorded p applied (f :: files)
        = if (applied.get? (f.version p)).isNone then f :: unrecorded p applied files
          else unrecorded p applied files := by
      rw [unrecorded, htargeted, filter_cons]
      rfl
    rw [hunrecorded, hok]
    rw [hhistory] at hdone
    cases hnone : (applied.get? (f.version p)).isNone with
    | true =>
      rw [hnone, if_pos rfl, append_assoc] at hdone
      rw [if_pos rfl]
      refine ⟨f :: done, hsub.cons_cons f, hdone, ?_, fun h => congrArg _ (hall h)⟩
      refine forall_mem_cons.mpr ⟨?_, hcontains⟩
      rw [Dict.contains, hd]
      rfl
    | false =>
      rw [hnone, if_neg Bool.false_ne_true, append_nil] at hdone
      rw [if_neg Bool.false_ne_true]
      exact ⟨done, hsub, hdone, hcontains, hall⟩
  · intro h
    rw [hok] at h
    rw [htargeted]
    exact forall_mem_cons.mpr ⟨⟨hd, hmatch⟩, hrest.recorded h⟩
  · intro e he
    have hr : r = .error e := by
      cases r with
      | ok news => cases he
      | error e' =>
        cases he
        rfl
    obtain ⟨before, k, after, news, rfl, hbefore⟩ := hrest.failed e hr
    exact ⟨f :: before, k, after, g news, rfl, by rw [hrun, hbefore]; rfl⟩

/-- **The loop.**  What was recorded before it is still what is recorded of the files to come. -/
theorem applyFiles_spec {applied : Dict PyStr (Option PyStr)} {files : List File}
    (hdistinct : ((targeted p files).map (·.version p)).Nodup)
    (htame : ∀ f ∈ targeted p files, Tame p f) {c : Database R} (hc : p.holds c = true)
    (htable : c.tables.records.isSome = true)
    (hsync : ∀ f ∈ targeted p files, c.recorded.get? (f.version p) = applied.get? (f.version p)) :
    ∃ d r, Ran p applied files c d r := by
  induction files generalizing c with
  | nil =>
    refine ⟨c, .ok [], rfl, hc, htable, fun _ _ => rfl, fun _ h => h,
      ⟨[], .refl _, ?_, ?_, fun _ => rfl⟩, ?_, ?_⟩
    · exact (append_nil _).symm
    · intro f hf
      cases hf
    · intro _ f hf
      cases hf
    · intro e he
      cases he
  | cons f files ih =>
    cases hf : f.targets p with
    | false =>
      have htargeted : targeted p (f :: files) = targeted p files := by
        rw [targeted, filter_cons_of_neg (by rw [hf]; exact Bool.false_ne_true)]
        rfl
      have hskip : ∀ files', applyFiles p applied (f :: files') (.closed c)
          = applyFiles p applied files' (.closed c) := by
        intro files'
        rw [applyFiles, hf]
        rfl
      rw [htargeted] at hdistinct htame hsync
      obtain ⟨d, r, h⟩ := ih hdistinct htame hc htable hsync
      refine ⟨d, r, (hskip files).trans h.ran, h.valid, h.table, ?_, h.kept, ?_, ?_, ?_⟩
      · rw [htargeted]
        exact h.others
      · rw [unrecorded, htargeted]
        exact h.history
      · rw [htargeted]
        exact h.recorded
      · intro e he
        obtain ⟨before, k, after, news, rfl, hbefore⟩ := h.failed e he
        exact ⟨f :: before, k, after, news, rfl, (hskip before).trans hbefore⟩
    | true =>
      have htargeted : targeted p (f :: files) = f :: targeted p files := by
        rw [targeted, filter_cons_of_pos hf]
        rfl
      rw [htargeted] at hdistinct htame hsync
      rw [map_cons, nodup_cons] at hdistinct
      obtain ⟨hsame, hsync⟩ := forall_mem_cons.mp hsync
      obtain ⟨hfirst, htame⟩ := forall_mem_cons.mp htame
      have hne : ∀ f' ∈ targeted p files, f'.version p ≠ f.version p := by
        intro f' hf' heq
        exact hdistinct.1 (heq ▸ mem_map_of_mem hf')
      -- an error at this file leaves the database as it is
      have hstop : ∀ e, applyFiles p applied (f :: files) (.closed c) = (.closed c, .error e) →
          ∃ d r, Ran p applied (f :: files) c d r := by
        intro e he
        refine ⟨c, .error e, he, hc, htable, fun _ _ => rfl, fun _ h => h,
          ⟨[], nil_sublist _, (append_nil _).symm, ?_, ?_⟩, ?_, ?_⟩
        · intro f' hf'
          cases hf'
        · intro h
          cases h
        · intro h
          cases h
        · intro e' _
          exact ⟨[], f, files, [], rfl, rfl⟩
      cases happlied : applied.get? (f.version p) with
      | some recorded =>
        rw [happlied] at hsame
        cases hsum : hasChecksum recorded with
        | true =>
          by_cases heq : recorded = some f.checksum
          · -- the file is recorded as it is
            subst heq
            obtain ⟨d, r, h⟩ := ih hdistinct.2 htame hc htable hsync
            refine ⟨d, r.map id, h.cons hf hdistinct.1 ?_ hsame (fun _ _ => rfl) ?_ ?_⟩
            · intro files'
              rw [applyFiles, hf, happlied]
              simp only [hsum, Bool.not_true, Bool.false_eq_true, if_false, if_true]
              cases applyFiles p applied files' (.closed c) with
              | mk c' r' => cases r' <;> rfl
            · rw [happlied]
              exact (append_nil _).symm
            · intro checksum hchecksum _
              rw [happlied] at hchecksum
              exact (Option.some.inj hchecksum).symm
          · refine hstop (.checksumMismatch (f.version p) f.name) ?_
            rw [applyFiles, hf, happlied]
            simp only [hsum, heq, Bool.not_true, Bool.false_eq_true, if_false, if_true]
        | false =>
          obtain ⟨c₁, hupdate, hcommit⟩ := updateChecksum_spec hc htable (f.version p) f.checksum
          obtain ⟨d, r, h⟩ := @ih hdistinct.2 htame (filled c (f.version p) f.checksum) hc rfl
            fun f' hf' => (get?_filled_of_ne (hne f' hf') f.checksum).trans (hsync f' hf')
          refine ⟨d, r.map id, h.cons hf hdistinct.1 ?_ (get?_filled_self hsame f.checksum)
            (fun v hv => get?_filled_of_ne hv f.checksum) ?_ ?_⟩
          · intro files'
            rw [applyFiles, hf, happlied]
            simp only [hsum, hupdate, hcommit, Bool.not_true, Bool.false_eq_true, if_false]
            cases applyFiles p applied files' (.closed (filled c (f.version p) f.checksum)) with
            | mk c' r' => cases r' <;> rfl
          · rw [happlied]
            exact (append_nil _).symm
          · intro checksum hchecksum htrue
            rw [happlied] at hchecksum
            rw [← Option.some.inj hchecksum, hsum] at htrue
            cases htrue
      | none =>
        obtain ⟨c₁, hrun, hvalid, hset, hhistory⟩ | hfailed := migrate_spec hfirst hc htable
        · have hrecorded₁ : c₁.recorded = c.recorded.set (f.version p) (some f.checksum) := by
            rw [Database.recorded, hset]
            rfl
          have hothers : ∀ v, v ≠ f.version p → c₁.recorded.get? v = c.recorded.get? v := by
            intro v hv
            rw [hrecorded₁, Dict.get?_set_of_ne _ _ hv.symm]
          obtain ⟨d, r, h⟩ := @ih hdistinct.2 htame c₁ hvalid (by rw [hset]; rfl) fun f' hf' =>
            (hothers _ (hne f' hf')).trans (hsync f' hf')
          refine ⟨d, r.map (f.version p :: ·), h.cons hf hdistinct.1 ?_ ?_ hothers ?_ ?_⟩
          · intro files'
            rw [applyFiles, hf, happlied]
            simp only [hrun, Bool.not_true, Bool.false_eq_true, if_false]
          · rw [hrecorded₁, Dict.get?_set_self]
          · rw [happlied]
            exact hhistory
          · intro checksum hchecksum
            rw [happlied] at hchecksum
            cases hchecksum
        · refine hstop .operationalError ?_
          rw [applyFiles, hf, happlied]
          simp only [hfailed, Bool.not_true, Bool.false_eq_true, if_false]

/-! ### A call -/

def ensured (d : Database R) : Database R := ⟨⟨some d.recorded, d.tables.rest⟩, d.history⟩

theorem createTable_spec (hd : p.holds d = true) :
    execute p none createTable (.closed d) = (.closed (ensured d), true) := by
  have hvalid : p.holds (ensured d) = true := hd
  rw [execute, createTable]
  simp only [Bool.and_false, Bool.false_and, Bool.false_eq_true, if_false]
  have hrun : (onDatabase none (.run fun t : Tables R => .ok ⟨some (t.records.getD ∅), t.rest⟩))
      = (.run fun d : Database R => .ok (ensured d)) := by
    rw [onDatabase]
    congr 1
    funext d
    simp only [Except.map, toList_none, append_nil]
    rfl
  rw [hrun, Command.execute, Session.closed]
  exact if_pos hvalid

theorem apply_eq (hd : p.holds d = true) (files : List File) :
    apply p files (.closed d) = if files.any fun f => (versionText p f.name).isNone then
          (.closed (ensured d), .error .valueError)
        else applyFiles p d.recorded (sorted p files) (.closed (ensured d)) := by
  rw [apply, createTable_spec hd]
  rfl

theorem mem_sorted : f ∈ sorted p files ↔ f ∈ files := mem_insertionSort _

theorem mem_targeted_sorted : f ∈ targeted p (sorted p files) ↔ f ∈ targeted p files := by
  rw [targeted, targeted, mem_filter, mem_filter, mem_sorted]

theorem pairwise_sorted (files : List File) :
    (sorted p files).Pairwise fun f f' => f.number p ≤ f'.number p := by
  have : Std.Total fun f f' : File => f.number p ≤ f'.number p := ⟨fun _ _ => le_total _ _⟩
  have : IsTrans File fun f f' => f.number p ≤ f'.number p := ⟨fun _ _ _ => le_trans⟩
  exact pairwise_insertionSort _ files

theorem sorted_of_pairwise (h : files.Pairwise fun f f' => f.number p ≤ f'.number p) :
    sorted p files = files := by
  have : Std.Total fun f f' : File => f.number p ≤ f'.number p := ⟨fun _ _ => le_total _ _⟩
  have : IsTrans File fun f f' => f.number p ≤ f'.number p := ⟨fun _ _ _ => le_trans⟩
  exact h.insertionSort_eq

theorem applyFiles_recorded
    (h : ∀ f ∈ targeted p files, applied.get? (f.version p) = some (some f.checksum))
    (c : Connection R) : applyFiles p applied files c = (c, .ok []) := by
  induction files with
  | nil => rfl
  | cons f files ih =>
    have hrest : ∀ f' ∈ targeted p files, applied.get? (f'.version p) = some (some f'.checksum) :=
      fun f' hf' => h f' (((sublist_cons_self f files).filter _).subset hf')
    rw [applyFiles]
    cases hf : f.targets p with
    | false => exact ih hrest
    | true =>
      have hsum : hasChecksum (some f.checksum) = true := by
        rw [hasChecksum, any_some, PyStr.isEmpty, Bool.not_eq_true', isEmpty_eq_false_iff]
        exact f.hashed
      rw [h f (mem_filter.mpr ⟨mem_cons_self, hf⟩)]
      simp only [hsum, Bool.not_true, Bool.false_eq_true, if_false, if_true]
      exact ih hrest

theorem filter_executions (h : (files.map (·.version p)).Nodup) (hf : f ∈ files) :
    (files.flatMap (·.executions p)).filter (fun e => e.version = f.version p)
      = f.executions p := by
  have hown : ∀ f' : File, (f'.executions p).filter (fun e => decide (e.version = f.version p))
      = if f'.version p = f.version p then f'.executions p else [] := by
    intro f'
    rw [File.executions, List.filter_map]
    split
    · next heq => simp [Function.comp_def, heq]
    · next hne => simp [Function.comp_def, hne]
  induction files with
  | nil => cases hf
  | cons f' files ih =>
    rw [List.map_cons, List.nodup_cons] at h
    rw [List.flatMap_cons, List.filter_append, hown]
    rcases List.mem_cons.mp hf with rfl | hmem
    · -- no other file has its version
      have hnone : (files.flatMap (·.executions p)).filter
          (fun e => decide (e.version = f.version p)) = [] := by
        refine List.filter_eq_nil_iff.mpr fun e he => ?_
        obtain ⟨f', hf', he⟩ := List.mem_flatMap.mp he
        obtain ⟨s, -, rfl⟩ := List.mem_map.mp he
        intro heq
        exact h.1 (List.mem_map.mpr ⟨f', hf', by simpa using heq⟩)
      rw [if_pos rfl, hnone, List.append_nil]
    · have hne : f'.version p ≠ f.version p := fun heq =>
        h.1 (heq ▸ List.mem_map_of_mem hmem)
      rw [if_neg hne, List.nil_append]
      exact ih h.2 hmem

structure Good (p : Platform R) (d : Database R) (files : List File) : Prop where
  pending : ∀ c news, apply p files (.closed d) = (c, .ok news) → pending p files c = (c, .ok [])
  again : ∀ c news, apply p files (.closed d) = (c, .ok news) → apply p files c = (c, .ok [])
  once : ∀ c news, apply p files (.closed d) = (c, .ok news) → ∀ f ∈ targeted p files,
    c.current.history.filter (fun e => e.version = f.version p) = f.executions p
  ordered : ∀ c news, apply p files (.closed d) = (c, .ok news) →
    c.current.history.Pairwise fun e e' => versionNumber p e.version ≤ versionNumber p e'.version
  /-- the call that fails is a call for the files before the one that failed -/
  failed : ∀ c e, apply p files (.closed d) = (c, .error e) → ∃ before k after news,
    sorted p files = before ++ k :: after ∧ apply p before (.closed d) = (c, .ok news)

section Call

variable {d : Database R} {files : List File}

theorem ran_of_meets (hd : p.holds d = true) (h : Meets p d files) :
    ∃ d' r, Ran p d.recorded (sorted p files) (ensured d) d' r := by
  have hperm : ((targeted p (sorted p files)).map (·.version p)).Perm
      ((targeted p files).map (·.version p)) := ((perm_insertionSort _ files).filter _).map _
  refine applyFiles_spec (hperm.nodup_iff.mpr h.distinct) ?_ hd rfl fun _ _ => rfl
  intro f hf
  exact h.tame f (mem_targeted_sorted.mp hf)

variable {d' : Database R} {news : List PyStr}

theorem past_of_ran (hpast : Past p d) (h : Meets p d files) {r : Except Error (List PyStr)}
    (hran : Ran p d.recorded (sorted p files) (ensured d) d' r) : Past p d' := by
  obtain ⟨done, hsub, hhistory, hcontains, -⟩ := hran.history
  have hnew : ∀ f ∈ done, f ∈ targeted p files ∧ d.recorded.get? (f.version p) = none := by
    intro f hf
    obtain ⟨hmem, hnone⟩ := mem_filter.mp (hsub.subset hf)
    exact ⟨mem_targeted_sorted.mp hmem, isNone_iff_eq_none.mp hnone⟩
  have hversion : ∀ f : File, ∀ e ∈ f.executions p, e.version = f.version p := by
    intro f e he
    obtain ⟨s, -, rfl⟩ := mem_map.mp he
    rfl
  have hsorted : done.Pairwise fun f f' => f.number p ≤ f'.number p :=
    (pairwise_sorted files).sublist (hsub.trans (filter_sublist.trans filter_sublist))
  refine ⟨?_, ?_⟩
  · intro e he
    rw [hhistory] at he
    rcases mem_append.mp he with hold | hdone
    · exact hran.kept e.version (hpast.recorded e hold)
    · obtain ⟨f, hf, he⟩ := mem_flatMap.mp hdone
      rw [hversion f e he]
      exact hcontains f hf
  · rw [hhistory, pairwise_append]
    refine ⟨hpast.ordered, ?_, ?_⟩
    · rw [pairwise_flatMap]
      refine ⟨fun f hf => ?_, hsorted.imp fun hle => ?_⟩
      · refine pairwise_of_forall_mem_list fun e he e' he' => ?_
        rw [hversion f e he, hversion f e' he']
      · intro e he e' he'
        rw [hversion _ e he, hversion _ e' he']
        exact hle
    · intro e he e' he'
      obtain ⟨f, hf, he'⟩ := mem_flatMap.mp he'
      rw [hversion f e' he']
      exact h.later f (hnew f hf).1 (hnew f hf).2 e.version (hpast.recorded e he)

theorem ensured_of_table (h : d'.tables.records.isSome = true) : ensured d' = d' := by
  obtain ⟨⟨records, rest⟩, history⟩ := d'
  obtain ⟨r, rfl⟩ := isSome_iff_exists.mp h
  rfl

theorem loop_of_ok (hd : p.holds d = true) (h : Meets p d files) {c : Connection R}
    (happly : apply p files (.closed d) = (c, .ok news)) :
    (files.any fun f => (versionText p f.name).isNone) = false ∧
      ∃ d', c = .closed d' ∧ Ran p d.recorded (sorted p files) (ensured d) d' (.ok news) := by
  rw [apply_eq hd] at happly
  cases hnames : files.any fun f => (versionText p f.name).isNone with
  | true =>
    rw [hnames, if_pos rfl] at happly
    cases happly
  | false =>
    rw [hnames, if_neg Bool.false_ne_true] at happly
    obtain ⟨d', r, hran⟩ := ran_of_meets hd h
    have heq := hran.ran.symm.trans happly
    cases heq
    exact ⟨rfl, d', rfl, hran⟩

theorem once_of_ran (hpast : Past p d) (h : Meets p d files)
    (hran : Ran p d.recorded (sorted p files) (ensured d) d' (.ok news)) {f : File}
    (hf : f ∈ targeted p files) :
    d'.history.filter (fun e => e.version = f.version p) = f.executions p := by
  obtain ⟨done, -, hhistory, -, hall⟩ := hran.history
  have hmem : f ∈ targeted p (sorted p files) := mem_targeted_sorted.mpr hf
  have hperm : ((targeted p (sorted p files)).map (·.version p)).Perm
      ((targeted p files).map (·.version p)) := ((perm_insertionSort _ files).filter _).map _
  have hnodup : ((targeted p (sorted p files)).map (·.version p)).Nodup :=
    hperm.nodup_iff.mpr h.distinct
  rw [hhistory, hall rfl, filter_append]
  cases hrecorded : d.recorded.get? (f.version p) with
  | none =>
    -- nothing of the version was executed before
    have hold : d.history.filter (fun e => decide (e.version = f.version p)) = [] := by
      refine filter_eq_nil_iff.mpr fun e he heq => ?_
      have hcontains := hpast.recorded e he
      rw [Dict.contains, of_decide_eq_true heq, hrecorded] at hcontains
      cases hcontains
    have hnew : f ∈ unrecorded p d.recorded (sorted p files) :=
      mem_filter.mpr ⟨hmem, by rw [hrecorded]; rfl⟩
    show d.history.filter _ ++ _ = _
    rw [hold, nil_append]
    exact filter_executions (hnodup.sublist (filter_sublist.map _)) hnew
  | some checksum =>
    -- nothing of the version is executed now
    have hnone : ((unrecorded p d.recorded (sorted p files)).flatMap (·.executions p)).filter
        (fun e => decide (e.version = f.version p)) = [] := by
      refine filter_eq_nil_iff.mpr fun e he heq => ?_
      obtain ⟨f', hf', he⟩ := mem_flatMap.mp he
      obtain ⟨s, -, rfl⟩ := mem_map.mp he
      have hversion : f'.version p = f.version p := of_decide_eq_true heq
      have hisNone := (mem_filter.mp hf').2
      rw [hversion, hrecorded] at hisNone
      cases hisNone
    rw [hnone, append_nil]
    exact h.same f hf checksum hrecorded fun hsum =>
      (hran.recorded rfl f hmem).2 checksum hrecorded hsum

theorem good_of_meets (hd : p.holds d = true) (hpast : Past p d) (h : Meets p d files) :
    Good p d files := by
  -- after a call that went through, everything is recorded
  have hafter : ∀ c news, apply p files (.closed d) = (c, .ok news) →
      (files.any fun f => (versionText p f.name).isNone) = false ∧ ∃ d', c = .closed d'
        ∧ p.holds d' = true ∧ ensured d' = d'
        ∧ ∀ f ∈ targeted p (sorted p files),
          d'.recorded.get? (f.version p) = some (some f.checksum) := by
    intro c news happly
    obtain ⟨hnames, d', rfl, hran⟩ := loop_of_ok hd h happly
    exact ⟨hnames, d', rfl, hran.valid, ensured_of_table hran.table,
      fun f hf => (hran.recorded rfl f hf).1⟩
  refine ⟨?_, ?_, ?_, ?_, ?_⟩
  · intro c news happly
    obtain ⟨hnames, d', rfl, hvalid, hensured, hrecorded⟩ := hafter c news happly
    have hnone : ((sorted p files).filter fun f =>
        !(recorded (.closed d' : Connection R)).contains (f.version p) && f.targets p) = [] := by
      refine filter_eq_nil_iff.mpr fun f hf hpending => ?_
      obtain ⟨hmissing, htargets⟩ := Bool.and_eq_true_iff.mp hpending
      have hget : (recorded (.closed d' : Connection R)).get? (f.version p)
          = some (some f.checksum) := hrecorded f (mem_filter.mpr ⟨hf, htargets⟩)
      rw [Dict.contains, hget] at hmissing
      cases hmissing
    rw [pending, createTable_spec hvalid, hensured]
    simp only [hnames, hnone, Bool.false_eq_true, if_false, map_nil]
  · intro c news happly
    obtain ⟨hnames, d', rfl, hvalid, hensured, hrecorded⟩ := hafter c news happly
    rw [apply_eq hvalid, hnames, if_neg Bool.false_ne_true, hensured]
    exact applyFiles_recorded hrecorded _
  · intro c news happly f hf
    obtain ⟨-, d', rfl, hran⟩ := loop_of_ok hd h happly
    exact once_of_ran hpast h hran hf
  · intro c news happly
    obtain ⟨-, d', rfl, hran⟩ := loop_of_ok hd h happly
    exact (past_of_ran hpast h hran).ordered
  · intro c e happly
    rw [apply_eq hd] at happly
    cases hnames : files.any fun f => (versionText p f.name).isNone with
    | true =>
      -- a name without a version: no file is looked at
      rw [hnames, if_pos rfl] at happly
      cases happly
      have hne : sorted p files ≠ [] := by
        intro hnil
        obtain ⟨f, hf, -⟩ := any_eq_true.mp hnames
        have hmem : f ∈ sorted p files := mem_sorted.mpr hf
        rw [hnil] at hmem
        cases hmem
      obtain ⟨k, after, hsorted⟩ := exists_cons_of_ne_nil hne
      exact ⟨[], k, after, [], hsorted, apply_eq hd []⟩
    | false =>
      rw [hnames, if_neg Bool.false_ne_true] at happly
      obtain ⟨d', r, hran⟩ := ran_of_meets hd h
      have heq := hran.ran.symm.trans happly
      cases heq
      obtain ⟨before, k, after, news, hsorted, hbefore⟩ := hran.failed e rfl
      refine ⟨before, k, after, news, hsorted, ?_⟩
      have hpairwise := pairwise_sorted (p := p) files
      rw [hsorted, pairwise_append] at hpairwise
      have hnames' : (before.any fun f => (versionText p f.name).isNone) = false := by
        refine any_eq_false.mpr fun f hf => ?_
        have hmem : f ∈ sorted p files := by
          rw [hsorted]
          exact mem_append_left _ hf
        exact any_eq_false.mp hnames f (mem_sorted.mp hmem)
      rw [apply_eq hd, hnames', if_neg Bool.false_ne_true, sorted_of_pairwise hpairwise.1]
      exact hbefore

end Call

/-! ### A database over its life -/

/-- A database with a past that is in order, and what happens to it. -/
def life (p : Platform R) : Machine (Connection R) (Step R) where
  Init := fun c => ∃ d, c = .closed d ∧ p.holds d = true ∧ Past p d
  step := fun c s => some (s.after p c)

/-- Every call meets the condition; other writers leave the table of migrations and the constraints
alone. -/
def Step.Meets (p : Platform R) (c : Connection R) : Step R → Prop
  | .apply files => Migrations.Meets p c.current files
  | .write f => (f c.current.tables).records = c.current.tables.records
      ∧ p.valid (f c.current.tables).rest = true

/-- **Over a life in which every call meets the condition**, the next such call is good. -/
theorem life_good {c : Connection R} (hc : (life p).ReachableUnder (fun c s => s.Meets p c) c)
    {files : List File} (h : Meets p c.current files) :
    ∃ d, c = .closed d ∧ Good p d files := by
  have hinv : ∃ d, c = .closed d ∧ p.holds d = true ∧ Past p d := by
    refine hc.invariant (P := fun c => ∃ d, c = .closed d ∧ p.holds d = true ∧ Past p d)
      (fun _ hinit => hinit) ?_
    rintro _ s c' ⟨d, rfl, hd, hpast⟩ hs hstep
    obtain rfl : s.after p (.closed d) = c' := Option.some.inj hstep
    cases s with
    | apply files =>
      show ∃ d', (apply p files (.closed d)).1 = .closed d' ∧ _
      rw [apply_eq hd]
      split
      · exact ⟨ensured d, rfl, hd, hpast.recorded, hpast.ordered⟩
      · obtain ⟨d', r, hran⟩ := ran_of_meets hd hs
        exact ⟨d', by rw [hran.ran], hran.valid, past_of_ran hpast hs hran⟩
    | write f =>
      refine ⟨⟨f d.tables, d.history⟩, rfl, hs.2, ?_, hpast.ordered⟩
      have hsame : (⟨f d.tables, d.history⟩ : Database R).recorded = d.recorded :=
        congrArg (fun records => Option.getD records ∅) hs.1
      intro e he
      rw [hsame]
      exact hpast.recorded e he
  obtain ⟨d, rfl, hd, hpast⟩ := hinv
  exact ⟨d, rfl, good_of_meets hd hpast h⟩

/-! ### Two files of one version -/

def plainPlatform : Platform (List PyStr) where
  decimal c := if 48 ≤ c ∧ c ≤ 57 then some (c - 48) else none
  isWord c := (48 ≤ c && c ≤ 57) || (65 ≤ c && c ≤ 90) || (97 ≤ c && c ≤ 122) || c = 95
  implicit := true
  valid _ := true
  parse s := ⟨false, .run fun t => .ok ⟨t.records, t.rest ++ [s]⟩⟩

def emptyDatabase : Database (List PyStr) := ⟨⟨none, []⟩, []⟩

def firstFile : File where
  name := "001_a.sql"
  checksum := "e0782122f01bfe9d4a4df45c1e26dafd152b24305ab01f8b8cdb00ddf4ebc354"
  text := "CREATE TABLE a (x)"
  hashed := by decide

def secondFile : File where
  name := "001_b.sql"
  checksum := "7d69cc5d191c0671ced938375e9f54969b4378f4475b6cf4b68696c21cdd07e3"
  text := "CREATE TABLE b (x)"
  hashed := by decide

def thirdFile : File := { secondFile with name := "002_b.sql" }

theorem tame_plain (f : File) : Tame plainPlatform f := by
  intro s _
  refine ⟨_, rfl, fun t t' ht => ?_⟩
  cases ht
  rfl

/-- The database to which the first file has been applied. -/
def migrated : Connection (List PyStr) := (apply plainPlatform [firstFile] (.closed emptyDatabase)).1

/-- A second file, when the first one has been applied. -/
theorem life_good_second : ∃ d, migrated = .closed d ∧ Good plainPlatform d [firstFile, thirdFile] := by
  have hinit : (life plainPlatform).ReachableUnder (fun c s => s.Meets plainPlatform c)
      (.closed emptyDatabase) := .init ⟨emptyDatabase, rfl, rfl, nofun, List.Pairwise.nil⟩
  have hfirst : Meets plainPlatform emptyDatabase [firstFile] :=
    ⟨by decide +kernel, fun f _ => tame_plain f, nofun, nofun⟩
  have hmigrated : (life plainPlatform).ReachableUnder (fun c s => s.Meets plainPlatform c)
      migrated := .step hinit hfirst (l := .apply [firstFile]) rfl
  have hfiles : ∀ f ∈ targeted plainPlatform [firstFile, thirdFile], f = firstFile ∨ f = thirdFile :=
    fun f hf => by simpa using mem_of_mem_filter hf
  have hkeys : migrated.current.recorded.keys = [firstFile.version plainPlatform] := by
    decide +kernel
  have hnone : migrated.current.recorded.get? (thirdFile.version plainPlatform) = none := by
    decide +kernel
  refine life_good hmigrated ⟨by decide +kernel, fun f _ => tame_plain f, ?_, ?_⟩
  · intro f hf checksum hget _
    rcases hfiles f hf with rfl | rfl
    · -- the first file is the one that was applied
      decide +kernel
    · rw [hnone] at hget
      cases hget
  · intro f hf _ v hv
    have hfirst : v = firstFile.version plainPlatform := by
      simpa [hkeys] using Dict.mem_keys_iff.mpr hv
    subst hfirst
    rcases hfiles f hf with rfl | rfl
    · exact le_refl _
    · decide +kernel

/-- The first call executes both files and records the second; the next call takes the first file
for one that was changed. -/
theorem applied_twice :
    (apply plainPlatform [firstFile, secondFile] (.closed emptyDatabase)).2.isOk = true
    ∧ (apply plainPlatform [firstFile, secondFile]
      (apply plainPlatform [firstFile, secondFile] (.closed emptyDatabase)).1).2.isOk = false := by
  decide +kernel

end Rosclaw.Migrations
