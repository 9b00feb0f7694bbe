/-
The lineage of the champions.

* `Replay.add_cases` — what the loop of `_replay` does with a record;
* `Lineage` — a record whose parents go back to a baseline;
* `Grown` — what `_replay` knows of the records so far;
* `heads_lineal` — **the heads of a registry are lineal just when its records are loyal**, and
  no archived artifact is a head's, and an append moves the head of one track only.
-/
import Rosclaw.Continual.ChampionRegistry

namespace Rosclaw.Champions

open List Option

open Feedback (Platform)

variable {os : Platform} {records : List ChampionRegistryRecord}

/-! ### The loop -/

variable {a p q r : ChampionRegistryRecord} {agentId t : PyStr} {n : Nat} {s s' : Replay}
  (x : ChampionRegistryRecord)

/-- What the loop of `_replay` does with a record that it takes. -/
theorem Replay.add_cases (h : s.add os r = .ok s') :
    r.recordHash os ∉ s.recordHashes ∧ (r.trackId, r.artifactHash) ∉ s.artifactKeys
      ∧ s'.recordHashes = s.recordHashes ++ [r.recordHash os]
      ∧ s'.artifactKeys = s.artifactKeys ++ [(r.trackId, r.artifactHash)]
      ∧ ((r.kind.isBaseline = true ∧ s.heads.get? r.trackId = none
            ∧ s'.heads = s.heads.set r.trackId r)
        ∨ ∃ active, s.heads.get? r.trackId = some active ∧ r.kind.isBaseline = false
            ∧ r.parentRecordHash = active.recordHash os
            ∧ r.parentArtifactHash = some active.artifactHash
            ∧ r.generation = active.generation + 1
            ∧ (r.kind = .trackReplacement ∧ s'.heads = s.heads.set r.trackId r
              ∨ r.kind = .candidateArchived ∧ s'.heads = s.heads)) := by
  rw [Replay.add] at h
  split at h
  · cases h
  next hhash =>
  split at h
  · cases h
  next hkey =>
  refine ⟨hhash, hkey, ?_⟩
  dsimp only at h
  cases hactive : s.heads.get? r.trackId with
  | none =>
    rw [hactive] at h
    dsimp only at h
    split at h
    · next hbase =>
      cases h
      exact ⟨rfl, rfl, .inl ⟨hbase, rfl, rfl⟩⟩
    · cases h
  | some active =>
    rw [hactive] at h
    dsimp only at h
    split at h
    · cases h
    next hbase =>
    split at h
    · cases h
    next hparent =>
    split at h
    · cases h
    next hartifact =>
    split at h
    · cases h
    next hgen =>
    have hchild : r.kind.isBaseline = false := Bool.not_eq_true _ ▸ hbase
    split at h
    · next hkind =>
      cases h
      exact ⟨rfl, rfl, .inr ⟨active, rfl, hchild, not_not.mp hparent, not_not.mp hartifact,
        not_not.mp hgen, .inl ⟨hkind, rfl⟩⟩⟩
    · next hkind =>
      have harchived : r.kind = .candidateArchived := by
        cases hk : r.kind with
        | globalBaseline => rw [hk] at hchild; cases hchild
        | specialistBaseline => rw [hk] at hchild; cases hchild
        | trackReplacement => exact absurd hk hkind
        | candidateArchived => rfl
      cases h
      exact ⟨rfl, rfl, .inr ⟨active, rfl, hchild, not_not.mp hparent, not_not.mp hartifact,
        not_not.mp hgen, .inr ⟨harchived, rfl⟩⟩⟩

theorem replay_snoc (r : ChampionRegistryRecord) :
    replay os (records ++ [r]) = (replay os records).bind fun s => s.add os r := by
  rw [replay, foldlM_append]
  cases h : List.foldlM (Replay.add os) Replay.start records with
  | error e =>
    rw [replay, h]
    rfl
  | ok s =>
    rw [replay, h]
    show (s.add os r).bind pure = s.add os r
    cases s.add os r <;> rfl

/-! ### Lineages -/

inductive Lineage (os : Platform) (records : List ChampionRegistryRecord) :
    ChampionRegistryRecord → Prop
  | baseline {r : ChampionRegistryRecord} :
      r ∈ records → r.kind.isBaseline = true → Lineage os records r
  | replacement {r p : ChampionRegistryRecord} :
      r ∈ records → r.kind = .trackReplacement → Lineage os records p →
      r.parentRecordHash = p.recordHash os → r.parentArtifactHash = some p.artifactHash →
      r.generation = p.generation + 1 → r.trackId = p.trackId → Lineage os records r

namespace Lineage

variable {r : ChampionRegistryRecord}

theorem mem (h : Lineage os records r) : r ∈ records := by
  cases h with
  | baseline hmem => exact hmem
  | replacement hmem => exact hmem

theorem mono {records' : List ChampionRegistryRecord} (hsub : ∀ r ∈ records, r ∈ records')
    (h : Lineage os records r) : Lineage os records' r := by
  induction h with
  | baseline hmem hbase => exact .baseline (hsub _ hmem) hbase
  | replacement hmem hkind _ hparent hartifact hgen htrack ih =>
    exact .replacement (hsub _ hmem) hkind ih hparent hartifact hgen htrack

theorem passing (h : Lineage os records r) : r.passing = true := by
  rw [ChampionRegistryRecord.passing, Bool.and_eq_true]
  cases h with
  | baseline _ hbase =>
    obtain ⟨a, ha⟩ := isSome_iff_exists.mp hbase
    exact (r.baseline a ha).2.2.2.2
  | replacement _ hkind => exact r.replacement hkind

theorem not_archived (h : Lineage os records r) : r.kind ≠ .candidateArchived := by
  intro hkind
  have hpassed := h.passing
  rw [ChampionRegistryRecord.passing, r.archived hkind, Bool.and_false] at hpassed
  cases hpassed

end Lineage

theorem generation_of_baseline (h : r.kind.isBaseline = true) :
    r.generation = 0 ∧ r.parentRecordHash = none := by
  obtain ⟨a, ha⟩ := isSome_iff_exists.mp h
  obtain ⟨-, hparent, -, hgen, -⟩ := r.baseline a ha
  exact ⟨hgen, hparent⟩

theorem parent?_of_baseline (h : r.kind.isBaseline = true) : parent? os records r = none := by
  rw [parent?, (generation_of_baseline h).2, bind_none]

theorem parent?_eq (hdistinct : (records.map (·.recordHash os)).Nodup) (hp : p ∈ records)
    (hsome : r.parentRecordHash.isSome = true) (h : r.parentRecordHash = p.recordHash os) :
    parent? os records r = some p := by
  obtain ⟨hash, hhash⟩ := isSome_iff_exists.mp hsome
  have hown : p.recordHash os = some hash := h.symm.trans hhash
  rw [parent?, hhash, bind_some]
  cases hfind : records.find? fun p => p.recordHash os = some hash with
  | none => exact absurd hown (by simpa using List.find?_eq_none.mp hfind p hp)
  | some q =>
    have hq : q.recordHash os = some hash := by simpa using List.find?_some hfind
    have hmem := mem_of_find?_eq_some hfind
    exact congrArg some (inj_on_of_nodup_map hdistinct hmem hp (hq.trans hown.symm))

theorem parent?_of_lineage (hdistinct : (records.map (·.recordHash os)).Nodup) (hp : p ∈ records)
    (hkind : r.kind = .trackReplacement) (h : r.parentRecordHash = p.recordHash os) :
    parent? os records r = some p := parent?_eq hdistinct hp (r.child (by rw [hkind]; rfl)).2.1 h

theorem climb_succ (n : Nat) (r : ChampionRegistryRecord) :
    climb os records (n + 1) r = (climb os records n r).bind (parent? os records) := by
  induction n generalizing r with
  | zero =>
    show (parent? os records r).bind some = parent? os records r
    cases parent? os records r <;> rfl
  | succ n ih =>
    rw [climb]
    show _ = ((parent? os records r).bind (climb os records n)).bind (parent? os records)
    cases parent? os records r with
    | none => rfl
    | some p => exact ih p

theorem climb_snoc (h : climb os records n r = some q) :
    climb os (records ++ [x]) n r = some q := by
  induction n generalizing r with
  | zero => exact h
  | succ n ih =>
    obtain ⟨p, hp, hclimb⟩ := bind_eq_some_iff.mp h
    obtain ⟨hash, hhash, hfind⟩ := bind_eq_some_iff.mp hp
    have hparent : parent? os (records ++ [x]) r = some p := by
      rw [parent?, hhash, bind_some, List.find?_append, hfind, some_or]
    rw [climb, hparent, bind_some]
    exact ih hclimb

variable {h : ChampionRegistryRecord}

theorem Lineage.of_climb (hdistinct : (records.map (·.recordHash os)).Nodup)
    (hline : Lineage os records h) (hclimb : climb os records n h = some r) :
    Lineage os records r ∧ r.trackId = h.trackId ∧ r.generation + n = h.generation := by
  induction hline generalizing n with
  | @baseline h hmem hbase =>
    cases n with
    | zero =>
      cases hclimb
      exact ⟨.baseline hmem hbase, rfl, rfl⟩
    | succ n =>
      rw [climb, parent?_of_baseline hbase, bind_none] at hclimb
      cases hclimb
  | @replacement h p hmem hkind hp hparent hartifact hgen htrack ih =>
    cases n with
    | zero =>
      cases hclimb
      exact ⟨.replacement hmem hkind hp hparent hartifact hgen htrack, rfl, rfl⟩
    | succ n =>
      rw [climb, parent?_of_lineage hdistinct hp.mem hkind hparent, bind_some] at hclimb
      obtain ⟨hline, hsame, hsum⟩ := ih hclimb
      exact ⟨hline, hsame.trans htrack.symm, by omega⟩

theorem Lineage.exists_climb (hdistinct : (records.map (·.recordHash os)).Nodup)
    (hline : Lineage os records h) (hn : n ≤ h.generation) :
    ∃ r, climb os records n h = some r := by
  induction hline generalizing n with
  | baseline hmem hbase =>
    rw [(generation_of_baseline hbase).1, Nat.le_zero] at hn
    subst hn
    exact ⟨_, rfl⟩
  | @replacement h p hmem hkind hp hparent hartifact hgen htrack ih =>
    cases n with
    | zero => exact ⟨_, rfl⟩
    | succ n =>
      obtain ⟨r, hr⟩ := ih (n := n) (by omega)
      refine ⟨r, ?_⟩
      rw [climb, parent?_of_lineage hdistinct hp.mem hkind hparent, bind_some, hr]

theorem Lineage.parent (hdistinct : (records.map (·.recordHash os)).Nodup)
    (hline : Lineage os records r) (hgen : 0 < r.generation) :
    r.kind = .trackReplacement ∧ ∃ p, parent? os records r = some p ∧ Lineage os records p
      ∧ r.parentRecordHash = p.recordHash os ∧ r.parentArtifactHash = some p.artifactHash := by
  cases hline with
  | baseline _ hbase => exact absurd (generation_of_baseline hbase).1 hgen.ne'
  | @replacement _ p hmem hkind hp hparent hartifact _ _ =>
    exact ⟨hkind, p, parent?_of_lineage hdistinct hp.mem hkind hparent, hp, hparent, hartifact⟩

theorem Lineage.isBaseline_iff (hline : Lineage os records r) :
    r.kind.isBaseline = true ↔ r.generation = 0 := by
  refine ⟨fun h => (generation_of_baseline h).1, fun h => ?_⟩
  cases hline with
  | baseline _ hbase => exact hbase
  | replacement _ _ _ _ _ hgen _ => omega

/-! ### The registry -/

/-- What `_replay` knows of the records so far. -/
structure Grown (os : Platform) (records : List ChampionRegistryRecord) (s : Replay) : Prop where
  hashes : s.recordHashes = records.map (·.recordHash os)
  keys : s.artifactKeys = records.map fun r => (r.trackId, r.artifactHash)
  distinct : (records.map (·.recordHash os)).Nodup
  fresh : (records.map fun r => (r.trackId, r.artifactHash)).Nodup
  lineage : ∀ t h, s.heads.get? t = some h → h.trackId = t ∧ Lineage os records h
  /-- what was a head once is behind the head -/
  covered : ∀ r ∈ records, r.kind ≠ .candidateArchived →
    ∃ h n, s.heads.get? r.trackId = some h ∧ climb os records n h = some r

theorem grown_start : Grown os [] .start where
  hashes := rfl
  keys := rfl
  distinct := nodup_nil
  fresh := nodup_nil
  lineage := by
    intro t h hhead
    cases hhead
  covered := by
    intro r hr
    cases hr

theorem nodup_map_snoc {K : Type} {f : ChampionRegistryRecord → K} (h : (records.map f).Nodup)
    (hr : f r ∉ records.map f) : ((records ++ [r]).map f).Nodup := by
  rw [map_append, nodup_append]
  refine ⟨h, nodup_singleton _, ?_⟩
  intro k hk k' hk'
  rw [map_singleton, mem_singleton] at hk'
  intro heq
  exact hr (hk' ▸ heq ▸ hk)

theorem mem_snoc_of_mem : ∀ r ∈ records, r ∈ records ++ [x] := fun _ hr => mem_append_left _ hr

theorem heads_set (h : Grown os records s) (hr : Lineage os (records ++ [r]) r)
    (habove : ∀ h₀, s.heads.get? r.trackId = some h₀ → parent? os (records ++ [r]) r = some h₀) :
    (∀ t h', (s.heads.set r.trackId r).get? t = some h' →
        h'.trackId = t ∧ Lineage os (records ++ [r]) h')
      ∧ ∀ r' ∈ records ++ [r], r'.kind ≠ .candidateArchived → ∃ h' n,
        (s.heads.set r.trackId r).get? r'.trackId = some h'
          ∧ climb os (records ++ [r]) n h' = some r' := by
  constructor
  · intro t h' hget
    rw [Dict.get?_set] at hget
    split at hget
    · next ht =>
      cases hget
      exact ⟨ht, hr⟩
    · obtain ⟨htrack, hline⟩ := h.lineage t h' hget
      exact ⟨htrack, hline.mono (mem_snoc_of_mem r)⟩
  · intro r' hr' hkind
    obtain hold | hnew := mem_append.mp hr'
    · obtain ⟨h₀, n, hhead, hclimb⟩ := h.covered r' hold hkind
      by_cases ht : r.trackId = r'.trackId
      · refine ⟨r, n + 1, by rw [Dict.get?_set, if_pos ht], ?_⟩
        rw [climb, habove h₀ (ht ▸ hhead), bind_some]
        exact climb_snoc r hclimb
      · exact ⟨h₀, n, by rw [Dict.get?_set, if_neg ht, hhead], climb_snoc r hclimb⟩
    · rw [mem_singleton] at hnew
      subst hnew
      exact ⟨r', 0, Dict.get?_set_self _ _ _, rfl⟩

theorem Grown.add (h : Grown os records s) (hadd : s.add os r = .ok s') :
    Grown os (records ++ [r]) s' := by
  obtain ⟨hhash, hkey, hhashes, hkeys, hcase⟩ := Replay.add_cases hadd
  have hmem : r ∈ records ++ [r] := mem_append_right _ (mem_singleton.mpr rfl)
  have hdistinct := nodup_map_snoc h.distinct (h.hashes ▸ hhash)
  suffices hheads : (∀ t h', s'.heads.get? t = some h' →
        h'.trackId = t ∧ Lineage os (records ++ [r]) h')
      ∧ ∀ r' ∈ records ++ [r], r'.kind ≠ .candidateArchived → ∃ h' n,
        s'.heads.get? r'.trackId = some h' ∧ climb os (records ++ [r]) n h' = some r' from
    { hashes := by rw [hhashes, h.hashes, map_append, map_singleton]
      keys := by rw [hkeys, h.keys, map_append, map_singleton]
      distinct := hdistinct
      fresh := nodup_map_snoc h.fresh (h.keys ▸ hkey)
      lineage := hheads.1
      covered := hheads.2 }
  obtain ⟨hbase, hnone, hset⟩ | ⟨active, hactive, hchild, hparent, hartifact, hgen, hkind⟩ := hcase
  · rw [hset]
    refine heads_set h (.baseline hmem hbase) fun h₀ hh₀ => ?_
    rw [hnone] at hh₀
    cases hh₀
  · obtain ⟨htrack, hline⟩ := h.lineage _ _ hactive
    obtain ⟨hreplace, hset⟩ | ⟨harchive, hsame⟩ := hkind
    · have hline' := hline.mono (mem_snoc_of_mem r)
      rw [hset]
      refine heads_set h (.replacement hmem hreplace hline' hparent hartifact hgen htrack.symm)
        fun h₀ hh₀ => ?_
      rw [hactive] at hh₀
      cases hh₀
      exact parent?_eq hdistinct hline'.mem (r.child hchild).2.1 hparent
    · rw [hsame]
      refine ⟨fun t h' hget => ?_, fun r' hr' hkind => ?_⟩
      · obtain ⟨ht, hline⟩ := h.lineage t h' hget
        exact ⟨ht, hline.mono (mem_snoc_of_mem r)⟩
      · obtain hold | hnew := mem_append.mp hr'
        · obtain ⟨h₀, n, hhead, hclimb⟩ := h.covered r' hold hkind
          exact ⟨h₀, n, hhead, climb_snoc r hclimb⟩
        · rw [mem_singleton.mp hnew] at hkind
          exact absurd harchive hkind

theorem Registry.append_eq_ok {reg reg' : Registry os} (h : reg.append r = .ok reg') :
    reg'.records = reg.records ++ [r] ∧ reg.state.add os r = .ok reg'.state := by
  rw [Registry.append] at h
  split at h
  · cases h
  · split at h
    · next state hstate =>
      cases h
      rw [replay_snoc, reg.replayed] at hstate
      exact ⟨rfl, hstate⟩
    · cases h

variable {reg : Registry os}

theorem grown (h : (machine os).Reachable reg) : Grown os reg.records reg.state := by
  refine h.invariant (P := fun reg => Grown os reg.records reg.state) ?_ ?_
  · intro reg hinit
    rw [hinit]
    exact grown_start
  · intro reg r reg' hgrown _ hstep
    have happend : reg.append r = .ok reg' := by
      rw [machine] at hstep
      dsimp only at hstep
      cases hres : reg.append r with
      | error e =>
        rw [hres] at hstep
        cases hstep
      | ok reg₁ =>
        rw [hres] at hstep
        cases hstep
        rfl
    obtain ⟨hrecords, hadd⟩ := Registry.append_eq_ok happend
    rw [hrecords]
    exact hgrown.add hadd

/-! ### What is promised -/

structure Lineal (reg : Registry os) (h : ChampionRegistryRecord) : Prop where
  /-- the only baseline of the track is as many steps away as the generation says -/
  origin : ∃ b, climb os reg.records h.generation h = some b ∧ b.kind.isBaseline = true
    ∧ b.trackId = h.trackId ∧ ∀ b' ∈ reg.records, b'.trackId = h.trackId →
      b'.kind.isBaseline = true → b' = b
  /-- on the way there, a record is no baseline and replaced the artifact of its parent -/
  upward : ∀ n < h.generation, ∃ r p, climb os reg.records n h = some r
    ∧ climb os reg.records (n + 1) h = some p ∧ r.kind.isBaseline = false
    ∧ r.parentArtifactHash = some p.artifactHash
  passed : ∀ n r, climb os reg.records n h = some r →
    r.passing = true ∧ r.trackId = h.trackId ∧ r.agentId = h.agentId

structure Sound (reg : Registry os) : Prop where
  lineal : ∀ t h, reg.activeHead t = some h → h.trackId = t ∧ Lineal reg h
  isolated : ∀ r reg', reg.append r = .ok reg' →
    ∀ t, t ≠ r.trackId → reg'.activeHead t = reg.activeHead t
  archived : ∀ a ∈ reg.records, a.kind = .candidateArchived →
    ∀ h, reg.activeHead a.trackId = some h → h.artifactHash ≠ a.artifactHash

def Loyal (reg : Registry os) : Prop :=
  ∀ r ∈ reg.records, r.kind = .trackReplacement →
    ∀ p, parent? os reg.records r = some p → p.agentId = r.agentId

theorem append_isolated {reg reg' : Registry os} (h : reg.append r = .ok reg')
    (ht : t ≠ r.trackId) : reg'.activeHead t = reg.activeHead t := by
  obtain ⟨-, hadd⟩ := Registry.append_eq_ok h
  obtain ⟨-, -, -, -, ⟨-, -, hset⟩ | ⟨active, -, -, -, -, -, ⟨-, hset⟩ | ⟨-, hsame⟩⟩⟩ :=
    Replay.add_cases hadd
  · rw [Registry.activeHead, hset, Dict.get?_set, if_neg ht.symm, Registry.activeHead]
  · rw [Registry.activeHead, hset, Dict.get?_set, if_neg ht.symm, Registry.activeHead]
  · rw [Registry.activeHead, hsame, Registry.activeHead]

theorem Grown.archived (h : Grown os records s) (ha : a ∈ records)
    (hkind : a.kind = .candidateArchived) (hr : s.heads.get? a.trackId = some r) :
    r.artifactHash ≠ a.artifactHash := by
  obtain ⟨htrack, hline⟩ := h.lineage _ _ hr
  intro hsame
  have heq : r = a := inj_on_of_nodup_map h.fresh hline.mem ha (Prod.ext htrack hsame)
  exact hline.not_archived (heq ▸ hkind)

theorem Grown.above (hs : Grown os records s) (hr : r ∈ records)
    (hkind : r.kind ≠ .candidateArchived) :
    ∃ h n, s.heads.get? r.trackId = some h ∧ climb os records n h = some r
      ∧ Lineage os records h ∧ Lineage os records r ∧ r.generation + n = h.generation := by
  obtain ⟨h, n, hhead, hclimb⟩ := hs.covered r hr hkind
  obtain ⟨-, hline⟩ := hs.lineage _ _ hhead
  obtain ⟨hline', -, hgen⟩ := hline.of_climb hs.distinct hclimb
  exact ⟨h, n, hhead, hclimb, hline, hline', hgen⟩

theorem ne_archived_of_isBaseline (h : r.kind.isBaseline = true) : r.kind ≠ .candidateArchived := by
  intro hkind
  rw [hkind] at h
  cases h

theorem agent_of_climb (hs : Grown os reg.records reg.state) (hloyal : Loyal reg)
    (hline : Lineage os reg.records h) (hclimb : climb os reg.records n h = some r) :
    r.agentId = h.agentId := by
  induction n generalizing r with
  | zero =>
    cases hclimb
    rfl
  | succ n ih =>
    rw [climb_succ] at hclimb
    obtain ⟨q, hq, hparent⟩ := bind_eq_some_iff.mp hclimb
    obtain ⟨hlineq, -, -⟩ := hline.of_climb hs.distinct hq
    have hgen : 0 < q.generation := by
      refine Nat.pos_of_ne_zero fun hzero => ?_
      rw [parent?_of_baseline (hlineq.isBaseline_iff.mpr hzero)] at hparent
      cases hparent
    obtain ⟨hkind, -⟩ := hlineq.parent hs.distinct hgen
    exact (hloyal q hlineq.mem hkind r hparent).trans (ih hq)

theorem lineal_of_loyal (hs : Grown os reg.records reg.state) (hloyal : Loyal reg)
    (hhead : reg.activeHead t = some h) : h.trackId = t ∧ Lineal reg h := by
  obtain ⟨htrack, hline⟩ := hs.lineage t h hhead
  refine ⟨htrack, ?_, ?_, ?_⟩
  · obtain ⟨b, hb⟩ := hline.exists_climb hs.distinct (Nat.le_refl _)
    obtain ⟨hlineb, htrackb, hgenb⟩ := hline.of_climb hs.distinct hb
    refine ⟨b, hb, hlineb.isBaseline_iff.mpr (by omega), htrackb, ?_⟩
    intro b' hb' htrack' hbase'
    -- the other baseline is above the same head, at the same height
    obtain ⟨h', n, hhead', hclimb', -, -, hgen'⟩ := hs.above hb' (ne_archived_of_isBaseline hbase')
    have hsame : h' = h := by
      rw [htrack', htrack] at hhead'
      exact some_inj.mp (hhead'.symm.trans hhead)
    rw [(generation_of_baseline hbase').1, Nat.zero_add, hsame] at hgen'
    rw [hsame, hgen', hb] at hclimb'
    exact (some_inj.mp hclimb').symm
  · intro n hn
    obtain ⟨r, hr⟩ := hline.exists_climb hs.distinct hn.le
    obtain ⟨hliner, -, hgen⟩ := hline.of_climb hs.distinct hr
    obtain ⟨hkind, p, hp, -, -, hartifact⟩ := hliner.parent hs.distinct (by omega)
    refine ⟨r, p, hr, ?_, by rw [hkind]; rfl, hartifact⟩
    rw [climb_succ, hr, bind_some, hp]
  · intro n r hr
    obtain ⟨hliner, htrackr, -⟩ := hline.of_climb hs.distinct hr
    exact ⟨hliner.passing, htrackr, agent_of_climb hs hloyal hline hr⟩

theorem loyal_of_sound (hs : Grown os reg.records reg.state) (hsound : Sound reg) : Loyal reg := by
  intro r hr hkind p hp
  have hnot : r.kind ≠ .candidateArchived := by
    rw [hkind]
    intro h
    cases h
  obtain ⟨h, n, hhead, hclimb, -, -, -⟩ := hs.above hr hnot
  obtain ⟨-, hlineal⟩ := hsound.lineal _ _ hhead
  have hnext : climb os reg.records (n + 1) h = some p := by
    rw [climb_succ, hclimb, bind_some, hp]
  exact (hlineal.passed _ _ hnext).2.2.trans (hlineal.passed _ _ hclimb).2.2.symm

/-- **The heads of a registry are lineal just when its records are loyal.** -/
theorem heads_lineal (reg : Registry os) (h : (machine os).Reachable reg) :
    Sound reg ↔ Loyal reg := by
  have hs := grown h
  refine ⟨loyal_of_sound hs, fun hloyal => ⟨?_, ?_, ?_⟩⟩
  · intro t h' hhead
    exact lineal_of_loyal hs hloyal hhead
  · intro r reg' happend t ht
    exact append_isolated happend ht
  · intro a ha hkind r hr
    exact hs.archived ha hkind hr

/-! ### Two agents on one track -/

def textOf (k : PyStr) : PyVal → Option PyStr
  | .dict kvs => (kvs.find? fun e => e.1 = k).bind fun e => match e.2 with
      | .str s => some s
      | _ => none
  | _ => none

def baselineArtifact : PyStr :=
  "sha256:8ba8496a2525ae171ffd104d632dede6ef418d9b95962a9d88e2fcdbc8d48d24"

def candidateArtifact : PyStr :=
  "sha256:dda18a0e21ae47c53b4309434cbc02ae8bf764fa83a6defbb719431242722aa7"

def baselineHash : PyStr :=
  "sha256:1b6d8f6a355022df46f8dbbe2c4ef11a0c3f09e98d4bc5f592405d740a8e7f0b"

def sums : Platform where
  sqrt := id
  digest := fun v =>
    if textOf "artifact_hash" v = some baselineArtifact then baselineHash
    else if textOf "agent_id" v = some "agent.goalkeeper" then
      "sha256:0c5f6657abaa1178a55a100a86dd24ece7cd267d64e0d3724107a21eafc08a25"
    else "sha256:c8934ed8b72a812eaccba9eb8de332939b359ebfe7f498f0d97a59e7eb66ae05"
  hex := by
    intro v
    split_ifs <;> decide +kernel

def firstChampion : ChampionRegistryRecord where
  agentId := "agent.goalkeeper"
  trackId := "global"
  artifactHash := baselineArtifact
  evidenceHash := "sha256:ee8250fb76e094b34b471f13a73dbbe51d1ae142e9df59d7c0d31ec20f0a0a8e"
  scenarioSuiteHash := "sha256:f8ebd43dbef1f029bf4930c65c9b7c5cc76af476927cee861ff18fcc73bfc4ab"
  authority := .baselineStrictExam
  kind := .globalBaseline
  evidenceValid := true
  promotionPassed := true
  generation := 0
  parentRecordHash := none
  parentArtifactHash := none
  sourceParentArtifactHash := none
  identified := by decide
  hashed := by decide +kernel
  hashedParents := ⟨rfl, rfl, rfl⟩
  baseline := by decide
  child := by decide
  replacement := by decide
  archived := by decide

def successor (agentId : PyStr) (h : isIdentifier agentId = true) : ChampionRegistryRecord where
  agentId := agentId
  trackId := "global"
  artifactHash := candidateArtifact
  evidenceHash := "sha256:ee8250fb76e094b34b471f13a73dbbe51d1ae142e9df59d7c0d31ec20f0a0a8e"
  scenarioSuiteHash := "sha256:f8ebd43dbef1f029bf4930c65c9b7c5cc76af476927cee861ff18fcc73bfc4ab"
  authority := .pairedDominance
  kind := .trackReplacement
  evidenceValid := true
  promotionPassed := true
  generation := 1
  parentRecordHash := some baselineHash
  parentArtifactHash := some baselineArtifact
  sourceParentArtifactHash := none
  identified := ⟨h, by decide⟩
  hashed := by decide +kernel
  hashedParents := by decide +kernel
  baseline := by decide
  child := by decide
  replacement := by decide
  archived := by decide

theorem append_eq (hfresh : ∀ existing ∈ reg.records, existing.recordHash os ≠ r.recordHash os)
    (h : replay os (reg.records ++ [r]) = .ok s) :
    reg.append r = .ok ⟨reg.records ++ [r], s, h⟩ := by
  rw [Registry.append, if_neg]
  · split
    · next s' hs' =>
      cases hs'.symm.trans h
      rfl
    · next e he => cases he.symm.trans h
  · simpa using hfresh

theorem exists_registry (h : isIdentifier agentId = true)
    (hok : (replay sums [firstChampion, successor agentId h]).isOk = true)
    (hfresh : firstChampion.recordHash sums ≠ (successor agentId h).recordHash sums) :
    ∃ reg : Registry sums, (machine sums).Reachable reg
      ∧ reg.records = [firstChampion, successor agentId h] := by
  obtain ⟨s₁, h₁⟩ : ∃ s, replay sums [firstChampion] = .ok s := ⟨_, rfl⟩
  obtain ⟨s₂, h₂⟩ : ∃ s, replay sums [firstChampion, successor agentId h] = .ok s := by
    cases hres : replay sums [firstChampion, successor agentId h] with
    | ok s => exact ⟨s, rfl⟩
    | error e =>
      rw [hres] at hok
      cases hok
  have happend₁ : (Registry.empty : Registry sums).append firstChampion
      = .ok ⟨[firstChampion], s₁, h₁⟩ := append_eq (fun _ hr => by cases hr) h₁
  have happend₂ : (⟨[firstChampion], s₁, h₁⟩ : Registry sums).append (successor agentId h)
      = .ok ⟨[firstChampion, successor agentId h], s₂, h₂⟩ := by
    refine append_eq (fun r hr => ?_) h₂
    rw [mem_singleton] at hr
    rw [hr]
    exact hfresh
  have hreach₁ : (machine sums).Reachable ⟨[firstChampion], s₁, h₁⟩ := by
    refine .step (.init rfl) trivial (l := firstChampion) ?_
    show ((Registry.empty : Registry sums).append firstChampion).toOption = _
    rw [happend₁]
    rfl
  refine ⟨⟨[firstChampion, successor agentId h], s₂, h₂⟩,
    .step hreach₁ trivial (l := successor agentId h) ?_, rfl⟩
  show ((⟨[firstChampion], s₁, h₁⟩ : Registry sums).append (successor agentId h)).toOption = _
  rw [happend₂]
  rfl

/-- A champion and its successor, of one agent. -/
theorem heads_lineal_successor : ∃ reg : Registry sums, (machine sums).Reachable reg
    ∧ reg.records.length = 2 ∧ Sound reg := by
  obtain ⟨reg, hreach, hrecords⟩ := exists_registry
    (show isIdentifier "agent.goalkeeper" = true by decide) (by decide +kernel) (by decide +kernel)
  refine ⟨reg, hreach, by rw [hrecords]; rfl, (heads_lineal reg hreach).mpr ?_⟩
  intro r hr hkind p hp
  rw [hrecords] at hr hp
  rw [mem_cons, mem_singleton] at hr
  rcases hr with rfl | rfl
  · cases hkind
  · have hparent : parent? sums [firstChampion, successor "agent.goalkeeper" (by decide)]
        (successor "agent.goalkeeper" (by decide)) = some firstChampion := by decide +kernel
    obtain rfl : p = firstChampion := Option.some.inj (hp.symm.trans hparent)
    rfl

/-- The champion of one agent is replaced by another agent's. -/
theorem champion_of_another : ¬ ∀ (os : Platform) (reg : Registry os),
    (machine os).Reachable reg → Sound reg := by
  intro hall
  obtain ⟨reg, hreach, hrecords⟩ := exists_registry (show isIdentifier "agent.striker" = true by decide)
    (by decide +kernel) (by decide +kernel)
  have hloyal := loyal_of_sound (grown hreach) (hall sums reg hreach)
  have hparent : parent? sums reg.records (successor "agent.striker" (by decide))
      = some firstChampion := by
    rw [hrecords]
    decide +kernel
  have hagent := hloyal _ (by rw [hrecords]; exact List.mem_cons_of_mem _ List.mem_cons_self) rfl _
    hparent
  revert hagent
  decide +kernel

end Rosclaw.Champions
