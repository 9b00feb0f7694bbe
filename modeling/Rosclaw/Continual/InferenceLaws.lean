/-
What the methods of the inference service append can be applied.

What a method checks before it appends is enough for `_apply`, if the policies in the slots are
such as `policy_version_from_dict` gives them (`Sane`); this stays so.

* `callback_applied` — so is every event of a call, if a published policy has the schema tag;
* `beginMotion_applied`, `endMotion_applied`, `abort_applied` — the events of motions.
-/
import Rosclaw.Continual.WeightUpdate

namespace Rosclaw.Continual.WeightUpdateService

open EventSourced InferenceService Option

variable {H B : Type} [DecidableEq H] {hs : ServiceHashes H B} {blobs blobs' : Blobs H B}
  {st st' : Inference H} {e : InferenceEvent H}

variable {p : PolicyVersion H}

omit [DecidableEq H] in
theorem mem_policies {s : Slots H} : p ∈ s.policies ↔
    s.active = some p ∨ s.candidate = some p ∨ s.rollback = some p ∨ s.published = some p := by
  simp [Slots.policies, List.mem_filterMap, eq_comm]

/-! ### Blobs -/

theorem readBlob_congr (hs : Hashes H B) (blobs : Blobs H B) {p q : PolicyVersion H}
    (h : p.artifactHash = q.artifactHash) : readBlob hs blobs p = readBlob hs blobs q := by
  unfold readBlob verifies
  rw [h]

theorem readBlob_kept (hs : Hashes H B) (h : blobs.Kept blobs')
    (hread : (readBlob hs blobs p).isSome = true) : (readBlob hs blobs' p).isSome = true := by
  obtain ⟨artifact, hartifact⟩ := isSome_iff_exists.mp hread
  obtain ⟨hget, hverifies⟩ := filter_eq_some_iff.mp hartifact
  exact isSome_iff_exists.mpr ⟨artifact, filter_eq_some_iff.mpr ⟨h _ _ hget, hverifies⟩⟩

/-- What `_store_blob` has stored can be read. -/
theorem storeBlob_spec [DecidableEq B] {hs : Hashes H B} {artifact : B}
    (h : storeBlob hs blobs p artifact = some blobs') :
    blobs.Kept blobs' ∧ (readBlob hs blobs' p).isSome = true := by
  unfold storeBlob at h
  split at h
  · next hverifies =>
    have hread : ∀ d : Blobs H B, d.get? p.artifactHash = some artifact →
        (readBlob hs d p).isSome = true := by
      intro d hget
      exact isSome_iff_exists.mpr ⟨artifact, filter_eq_some_iff.mpr ⟨hget, hverifies⟩⟩
    cases hget : blobs.get? p.artifactHash with
    | none =>
      rw [hget] at h
      cases h
      exact ⟨Dict.kept_set hget artifact, hread _ (Dict.get?_set_self _ _ _)⟩
    | some old =>
      rw [hget] at h
      change (if old = artifact then some blobs else none) = some blobs' at h
      split at h
      · next heq =>
        cases h
        exact ⟨.refl blobs, hread _ (heq ▸ hget)⟩
      · cases h
  · cases h

/-! ### The state -/

/-- The policies of the slots are rebuilt ones with their blobs, and every motion pins the active
one. -/
structure Sane (hs : Hashes H B) (blobs : Blobs H B) (st : Inference H) : Prop where
  active : ∃ p, st.active = some p
  rebuilt : ∀ p ∈ st.policies, policyVersionFromDict p.toPolicyFields = some p
  readable : ∀ p ∈ st.policies, (readBlob hs blobs p).isSome = true
  pinned : ∀ leaseId lease, st.motions.get? leaseId = some lease →
    ∃ p, st.active = some p ∧ lease.Pins hs p

theorem Sane.slots {hs : Hashes H B} (h : Sane hs blobs st) {slots : Slots H}
    (hactive : slots.active = st.active) (hpolicies : ∀ p ∈ slots.policies, p ∈ st.policies) :
    Sane hs blobs ⟨slots, st.motions⟩ := by
  refine ⟨?_, fun p hp => h.rebuilt p (hpolicies p hp), fun p hp => h.readable p (hpolicies p hp),
    fun leaseId lease hget => ?_⟩
  · obtain ⟨p, hp⟩ := h.active
    exact ⟨p, hactive.trans hp⟩
  · obtain ⟨p, hp, hpins⟩ := h.pinned leaseId lease hget
    exact ⟨p, hactive.trans hp, hpins⟩

theorem Sane.kept {hs : Hashes H B} (h : Sane hs blobs st) (hkept : blobs.Kept blobs') :
    Sane hs blobs' st :=
  ⟨h.active, h.rebuilt, fun p hp => readBlob_kept hs hkept (h.readable p hp), h.pinned⟩

theorem Sane.swapped {hs : Hashes H B} (h : Sane hs blobs st) {slots : Slots H}
    (hidle : st.motions.entries = []) (hactive : slots.active = some p)
    (hpolicies : ∀ q ∈ slots.policies, q ∈ st.policies) : Sane hs blobs ⟨slots, st.motions⟩ := by
  refine ⟨⟨p, hactive⟩, fun q hq => h.rebuilt q (hpolicies q hq),
    fun q hq => h.readable q (hpolicies q hq), fun leaseId lease hget => ?_⟩
  have hget' : st.motions.get? leaseId = some lease := hget
  rw [Dict.eq_empty_of_entries hidle] at hget'
  cases hget'

/-! ### Calls -/

/-- The active policy was replaced by the candidate, and the report names both. -/
def Activates (st : Inference H) (op : Operation H B) (st' : Inference H) : Prop :=
  ∃ phase report p c, op = .activate phase report ∧ st.active = some p ∧ st.candidate = some c ∧
    st'.active = some c ∧ ResidualWeightSlot.Promotes report p c

structure Applied (hs : ServiceHashes H B) (blobs : Blobs H B) (st : Inference H)
    (op : Operation H B) (e : InferenceEvent H) (st' : Inference H) : Prop where
  apply : applyEvent hs.toHashes st e = some st'
  sane : Sane hs.toHashes blobs st'
  expected : expects op.name e = true
  active : st'.active = st.active ∨ Activates st op st' ∨
    ∃ reason, op = .rollback reason ∧ st'.active = st.rollback
  freeze : st.SafetyFrozen → st'.SafetyFrozen ∨ (∃ reason, op = .unfreeze reason) ∨
    ∃ reason, op = .rollback reason

theorem publish_applied [DecidableEq B] (h : Sane hs.toHashes blobs st) {policy : PolicyVersion H}
    {artifact : B} (htag : policy.schemaVersion = policySchema)
    (hpublish : publish hs.toHashes blobs st policy artifact = (blobs', some e)) :
    ∃ st', Applied hs blobs' st (.publish policy artifact) e st' := by
  unfold publish at hpublish
  split at hpublish
  · cases (Prod.mk.inj hpublish).2
  · next hguard =>
    push Not at hguard
    obtain ⟨-, hpublished, hcandidate, active, hactive, hfollows⟩ := hguard
    cases hstore : storeBlob hs.toHashes blobs policy artifact with
    | none =>
      rw [hstore] at hpublish
      cases (Prod.mk.inj hpublish).2
    | some blobs₁ =>
      rw [hstore] at hpublish
      obtain ⟨rfl, he⟩ := Prod.mk.inj hpublish
      cases he
      obtain ⟨hkept, hread⟩ := storeBlob_spec hstore
      obtain ⟨q, hq⟩ := isSome_iff_exists.mp ((fromDict_isSome_iff policy).mpr htag)
      have hartifact : q.artifactHash = policy.artifactHash := (fromDict_fields hq).2.1
      have hsuccessor : st.Successor hs.toHashes q :=
        ⟨active, hactive, follows_of_fromDict hq hfollows⟩
      refine ⟨{ st with published := some q, publishedVerified := false }, ?_, ?_, rfl, .inl rfl,
        fun hfrozen => .inl hfrozen⟩
      · refine (if_neg ?_).trans (bind_eq_some_iff.mpr ⟨q, hq, if_pos ⟨hartifact.symm, hsuccessor⟩⟩)
        rintro (hsome | hsome)
        · exact hpublished hsome
        · exact hcandidate hsome
      · have hsane := h.kept hkept
        have hcases : ∀ p ∈ (⟨{ st.toSlots with
            published := some q, publishedVerified := false }, st.motions⟩ : Inference H).policies,
            p ∈ st.policies ∨ p = q := by
          intro p hp
          rcases mem_policies.mp hp with hp | hp | hp | hp
          · exact .inl (mem_policies.mpr (.inl hp))
          · exact .inl (mem_policies.mpr (.inr (.inl hp)))
          · exact .inl (mem_policies.mpr (.inr (.inr (.inl hp))))
          · exact .inr (Option.some.inj hp).symm
        refine ⟨h.active, fun p hp => ?_, fun p hp => ?_, h.pinned⟩
        · rcases hcases p hp with hp | rfl
          · exact h.rebuilt p hp
          · exact fromDict_rebuilt hq
        · rcases hcases p hp with hp | rfl
          · exact hsane.readable p hp
          · rw [readBlob_congr _ _ hartifact]
            exact hread

theorem verify_applied (h : Sane hs.toHashes blobs st)
    (hverify : verifyPublished hs.toHashes blobs st = some e) :
    ∃ st', Applied hs blobs st .verify e st' := by
  obtain ⟨p, hp, he⟩ := bind_eq_some_iff.mp hverify
  split at he
  · cases he
    refine ⟨{ st with publishedVerified := true }, bind_eq_some_iff.mpr ⟨p, hp, if_pos rfl⟩,
      h.slots rfl fun q hq => hq, rfl, .inl rfl, fun hfrozen => .inl hfrozen⟩
  · cases he

theorem stage_applied (h : Sane hs.toHashes blobs st)
    (hstage : stage hs.toHashes st = some e) : ∃ st', Applied hs blobs st .stage e st' := by
  obtain ⟨p, hp, he⟩ := bind_eq_some_iff.mp hstage
  split at he
  · cases he
    refine ⟨{ st with candidate := some p, published := none, publishedVerified := false },
      bind_eq_some_iff.mpr ⟨p, hp, if_pos rfl⟩, h.slots rfl fun q hq => ?_, rfl, .inl rfl,
      fun hfrozen => .inl hfrozen⟩
    rcases mem_policies.mp hq with hq | hq | hq | hq
    · exact mem_policies.mpr (.inl hq)
    · exact mem_policies.mpr (.inr (.inr (.inr (hp.trans hq))))
    · exact mem_policies.mpr (.inr (.inr (.inl hq)))
    · cases hq
  · cases he

variable {reason : String}

theorem discard_applied (h : Sane hs.toHashes blobs st)
    (hdiscard : discardCandidate hs.toHashes st reason = some e) :
    ∃ st', Applied hs blobs st (.discard reason) e st' := by
  unfold discardCandidate at hdiscard
  split at hdiscard
  · cases hdiscard
  · obtain ⟨p, hp, he⟩ := bind_eq_some_iff.mp hdiscard
    obtain ⟨active, hactive, rfl⟩ := map_eq_some_iff.mp he
    refine ⟨{ st with candidate := none, published := none, publishedVerified := false },
      bind_eq_some_iff.mpr ⟨p, hp, bind_eq_some_iff.mpr ⟨active, hactive, if_pos ⟨rfl, rfl⟩⟩⟩,
      h.slots rfl fun q hq => ?_, rfl, .inl rfl, fun hfrozen => .inl hfrozen⟩
    rcases mem_policies.mp hq with hq | hq | hq | hq
    · exact mem_policies.mpr (.inl hq)
    · cases hq
    · exact mem_policies.mpr (.inr (.inr (.inl hq)))
    · cases hq

theorem freeze_applied (h : Sane hs.toHashes blobs st) (hfreeze : freeze reason .safety = some e) :
    ∃ st', Applied hs blobs st (.freeze reason) e st' := by
  unfold freeze at hfreeze
  split at hfreeze
  · cases hfreeze
  · cases hfreeze
    exact ⟨{ st with frozen := true, freezeKind := some .safety }, rfl, h.slots rfl fun q hq => hq,
      rfl, .inl rfl, fun _ => .inl ⟨rfl, rfl⟩⟩

theorem unfreeze_applied (h : Sane hs.toHashes blobs st) (hunfreeze : unfreeze st reason = some e) :
    ∃ st', Applied hs blobs st (.unfreeze reason) e st' := by
  unfold unfreeze at hunfreeze
  split at hunfreeze
  · cases hunfreeze
  · next hguard =>
    cases hunfreeze
    push Not at hguard
    have hfrozen : st.frozen = true := by
      rw [← Bool.not_eq_false]
      exact hguard.1
    exact ⟨{ st with frozen := false, freezeKind := none }, if_pos hfrozen,
      h.slots rfl fun q hq => hq, rfl, .inl rfl, fun _ => .inr (.inl ⟨reason, rfl⟩)⟩

theorem rollback_applied (h : Sane hs.toHashes blobs st)
    (hrollback : rollbackActive st reason = some e) :
    ∃ st', Applied hs blobs st (.rollback reason) e st' := by
  unfold rollbackActive at hrollback
  split at hrollback
  · cases hrollback
  · next hguard =>
    push Not at hguard
    obtain ⟨target, htarget, he⟩ := bind_eq_some_iff.mp hrollback
    obtain ⟨failed, hfailed, rfl⟩ := map_eq_some_iff.mp he
    have htarget' : target ∈ st.policies := mem_policies.mpr (.inr (.inr (.inl htarget)))
    have hfailed' : failed ∈ st.policies := mem_policies.mpr (.inl hfailed)
    refine ⟨{ st with
      active := some target
      rollback := some failed
      candidate := none
      published := none
      publishedVerified := false
      frozen := false
      freezeKind := none }, ?_, h.swapped hguard.1 rfl fun q hq => ?_, rfl,
      .inr (.inr ⟨reason, rfl, htarget.symm⟩), fun _ => .inr (.inr ⟨reason, rfl⟩)⟩
    · exact bind_eq_some_iff.mpr ⟨target, h.rebuilt target htarget',
        bind_eq_some_iff.mpr ⟨failed, h.rebuilt failed hfailed',
          bind_eq_some_iff.mpr ⟨target, htarget, bind_eq_some_iff.mpr
            ⟨failed, hfailed, if_pos ⟨rfl, rfl⟩⟩⟩⟩⟩
    · rcases mem_policies.mp hq with hq | hq | hq | hq
      · exact Option.some.inj hq ▸ htarget'
      · cases hq
      · exact Option.some.inj hq ▸ hfailed'
      · cases hq

variable {phase : SkillPhase}

/-- A slot that is active after `activate` had a candidate, and a report that promotes it. -/
theorem slot_activate {slot : ResidualWeightSlot H} {report : GateReport H}
    {result : ResidualWeightSlot H × String} (h : slot.activate phase report = some result)
    (hactive : result.1.state = .active) :
    ∃ c, slot.candidate = some c ∧ ResidualWeightSlot.Promotes report slot.active c := by
  obtain ⟨c, hc, h⟩ := bind_eq_some_iff.mp h
  split at h
  · cases h
  · split at h
    · cases h
      cases hactive
    · split at h
      · next hpromotes => exact ⟨c, hc, hpromotes⟩
      · cases h
        cases hactive

theorem slot_stage {hs : Hashes H B} {slot slot' : ResidualWeightSlot H} {c : PolicyVersion H}
    {artifact : B} (h : slot.stage hs c artifact = some slot') :
    slot'.candidate = some c ∧ slot'.active = slot.active := by
  unfold ResidualWeightSlot.stage at h
  split at h
  · cases h
  · split at h
    · cases h
      exact ⟨rfl, rfl⟩
    · cases h

omit [DecidableEq H] in
theorem freeze_eq_some {kind : FreezeKind}
    (h : freeze reason kind = some e) : e = .frozen reason (some kind) := by
  unfold freeze at h
  split at h
  · cases h
  · exact (Option.some.inj h).symm

/-- **What an activation appends**: a freeze that is transient while something moves, or the
activation of the candidate that the report promotes. -/
theorem activate_cases {report : GateReport H}
    (h : activate hs.toHashes blobs st phase report = some e) :
    ¬ st.SafetyFrozen ∧ ((∃ reason kind, e = .frozen reason (some kind)) ∨
      ∃ p c reason, st.active = some p ∧ st.candidate = some c ∧ st.motions.entries = [] ∧
        e = .activated c.toPolicyFields p.toPolicyFields reason ∧
        ResidualWeightSlot.Promotes report p c) := by
  obtain ⟨c, hc, h⟩ := bind_eq_some_iff.mp h
  obtain ⟨p, hp, h⟩ := bind_eq_some_iff.mp h
  split at h
  · cases h
  · next hkind =>
    refine ⟨fun hsafety => hkind ⟨hsafety.1, by rw [hsafety.2]; decide⟩, ?_⟩
    split at h
    · exact .inl ⟨_, _, freeze_eq_some h⟩
    · next hidle =>
      obtain ⟨activeArtifact, -, h⟩ := bind_eq_some_iff.mp h
      obtain ⟨slot, hnew, h⟩ := bind_eq_some_iff.mp h
      obtain ⟨artifact, -, h⟩ := bind_eq_some_iff.mp h
      obtain ⟨staged, hstage, h⟩ := bind_eq_some_iff.mp h
      obtain ⟨result, hactivate, h⟩ := bind_eq_some_iff.mp h
      split at h
      · exact .inl ⟨_, _, freeze_eq_some h⟩
      · next hstate =>
        cases h
        obtain ⟨c', hc', hpromotes⟩ := slot_activate hactivate (not_not.mp hstate)
        obtain ⟨hcandidate, hactive⟩ := slot_stage hstage
        obtain rfl : c = c' := Option.some.inj (hcandidate.symm.trans hc')
        have hslot : slot.active = p := by
          unfold ResidualWeightSlot.new at hnew
          split at hnew
          · rw [← Option.some.inj hnew]
          · cases hnew
        rw [hactive, hslot] at hpromotes
        exact .inr ⟨p, c, _, hp, hc, not_not.mp hidle, rfl, hpromotes⟩

theorem activate_applied (h : Sane hs.toHashes blobs st)
    {report : GateReport H} (hactivate : activate hs.toHashes blobs st phase report = some e) :
    ∃ st', Applied hs blobs st (.activate phase report) e st' := by
  obtain ⟨hsafety, ⟨reason, kind, rfl⟩ | ⟨p, c, reason, hp, hc, hidle, rfl, hpromotes⟩⟩ :=
    activate_cases hactivate
  · exact ⟨{ st with frozen := true, freezeKind := some kind }, rfl, h.slots rfl fun q hq => hq,
      rfl, .inl rfl, fun hfrozen => absurd hfrozen hsafety⟩
  · have hp' : p ∈ st.policies := mem_policies.mpr (.inl hp)
    have hc' : c ∈ st.policies := mem_policies.mpr (.inr (.inl hc))
    refine ⟨{ st with
      active := some c
      rollback := some p
      candidate := none
      frozen := false
      freezeKind := none }, ?_, h.swapped hidle rfl fun q hq => ?_, rfl,
      .inr (.inl ⟨phase, report, p, c, rfl, hp, hc, rfl, hpromotes⟩),
      fun hfrozen => absurd hfrozen hsafety⟩
    · exact bind_eq_some_iff.mpr ⟨c, h.rebuilt c hc', bind_eq_some_iff.mpr
        ⟨p, h.rebuilt p hp', bind_eq_some_iff.mpr ⟨c, hc, bind_eq_some_iff.mpr
          ⟨p, hp, if_pos ⟨rfl, rfl⟩⟩⟩⟩⟩
    · rcases mem_policies.mp hq with hq | hq | hq | hq
      · exact Option.some.inj hq ▸ hc'
      · cases hq
      · exact Option.some.inj hq ▸ hp'
      · exact mem_policies.mpr (.inr (.inr (.inr hq)))

/-- **Every event of a call can be applied.** -/
theorem callback_applied [DecidableEq B] (h : Sane hs.toHashes blobs st) {op : Operation H B}
    (htag : ∀ policy artifact, op = .publish policy artifact → policy.schemaVersion = policySchema)
    (hcall : callback hs blobs st op = (blobs', some e)) : ∃ st', Applied hs blobs' st op e st' := by
  cases op with
  | publish policy artifact => exact publish_applied h (htag policy artifact rfl) hcall
  | verify =>
    obtain ⟨rfl, he⟩ := Prod.mk.inj hcall
    exact verify_applied h he
  | stage =>
    obtain ⟨rfl, he⟩ := Prod.mk.inj hcall
    exact stage_applied h he
  | discard reason =>
    obtain ⟨rfl, he⟩ := Prod.mk.inj hcall
    exact discard_applied h he
  | activate phase report =>
    obtain ⟨rfl, he⟩ := Prod.mk.inj hcall
    exact activate_applied h he
  | freeze reason =>
    obtain ⟨rfl, he⟩ := Prod.mk.inj hcall
    exact freeze_applied h he
  | unfreeze reason =>
    obtain ⟨rfl, he⟩ := Prod.mk.inj hcall
    exact unfreeze_applied h he
  | rollback reason =>
    obtain ⟨rfl, he⟩ := Prod.mk.inj hcall
    exact rollback_applied h he

theorem callback_kept [DecidableEq B] (hs : ServiceHashes H B) (blobs : Blobs H B)
    (st : Inference H) (op : Operation H B) : blobs.Kept (callback hs blobs st op).1 := by
  cases op with
  | publish policy artifact =>
    show blobs.Kept (publish hs.toHashes blobs st policy artifact).1
    unfold publish
    split
    · exact .refl blobs
    · cases hstore : storeBlob hs.toHashes blobs policy artifact with
      | none => exact .refl blobs
      | some blobs₁ => exact (storeBlob_spec hstore).1
  | _ => exact .refl blobs

/-! ### Motions -/

theorem beginMotion_applied (h : Sane hs.toHashes blobs st) {episodeId : String} {next : Nat}
    (hbegin : InferenceService.beginMotion hs.toHashes st episodeId phase next = some e) :
    ∃ st', applyEvent hs.toHashes st e = some st' ∧ st'.toSlots = st.toSlots ∧
      Sane hs.toHashes blobs st' := by
  unfold InferenceService.beginMotion at hbegin
  split at hbegin
  · cases hbegin
  · next hguard =>
    push Not at hguard
    obtain ⟨p, hp, rfl⟩ := map_eq_some_iff.mp hbegin
    have hmotion : st.inMotion episodeId = false := by
      rw [← Bool.not_eq_true]
      exact hguard.2.2
    refine ⟨_, bind_eq_some_iff.mpr ⟨p, hp, if_pos ⟨⟨rfl, rfl, rfl, rfl⟩, hmotion⟩⟩, rfl,
      h.active, h.rebuilt, h.readable, fun leaseId lease hget => ?_⟩
    have hget' := hget
    rw [Dict.get?_set] at hget'
    split at hget'
    · cases hget'
      exact ⟨p, hp, rfl, rfl, rfl, rfl⟩
    · exact h.pinned leaseId lease hget'

theorem Sane.ended {hs : Hashes H B} (h : Sane hs blobs st) (leaseId : H) :
    Sane hs blobs { st with motions := st.motions.erase leaseId } := by
  refine ⟨h.active, h.rebuilt, h.readable, fun leaseId' lease hget => ?_⟩
  have hget' := hget
  rw [Dict.get?_erase] at hget'
  split at hget'
  · cases hget'
  · exact h.pinned leaseId' lease hget'

theorem endMotion_applied (h : Sane hs.toHashes blobs st) {leaseId : H} {aborted : Bool}
    (hend : InferenceService.endMotion st leaseId aborted reason = some e) :
    ∃ st', applyEvent hs.toHashes st e = some st' ∧ st'.toSlots = st.toSlots ∧
      Sane hs.toHashes blobs st' := by
  unfold InferenceService.endMotion at hend
  split at hend
  · cases hend
  · next hguard =>
    push Not at hguard
    have hcontains : st.motions.contains leaseId = true := by
      rw [← Bool.not_eq_false]
      exact hguard.1
    refine ⟨{ st with motions := st.motions.erase leaseId }, ?_, rfl, h.ended leaseId⟩
    split at hend
    · cases hend
      exact if_pos hcontains
    · cases hend
      exact if_pos hcontains

theorem abort_applied (hs : ServiceHashes H B) {leaseId : H} {leases : List H}
    (hmotions : st.motions.entries.map Prod.fst = leaseId :: leases) :
    applyEvent hs.toHashes st (recoveredAbort leaseId) =
      some { st with motions := st.motions.erase leaseId } ∧
    (st.motions.erase leaseId).entries.map Prod.fst = leases := by
  obtain ⟨⟨_, lease⟩, entries, hentries, rfl, rfl⟩ := List.map_eq_cons_iff.mp hmotions
  refine ⟨if_pos ?_, by rw [Dict.entries_erase_cons hentries]⟩
  refine Dict.contains_iff.mpr ⟨lease, Dict.mem_entries_iff.mp ?_⟩
  rw [hentries]
  exact List.mem_cons_self

end Rosclaw.Continual.WeightUpdateService
