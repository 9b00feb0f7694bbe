/-
The slots of the inference service, in every run of both services.

* `Steps`, `step_cases` — what a step can do;
* `inference_laws` — both hold in every run of tagged steps;
* `publish_poisons` — a published policy with another tag, after which no reopening succeeds.
-/
import Rosclaw.Continual.InferenceLaws

namespace Rosclaw.Continual.WeightUpdateService

open EventSourced InferenceService

variable {H B : Type} [DecidableEq H] {hs : ServiceHashes H B} {s s' : State H B}
  {st st' : Inference H} {e : InferenceEvent H} {l : Label H B}

section

variable [DecidableEq B]

/-! ### What a step can do -/

inductive Steps (hs : ServiceHashes H B) (s : State H B) : Label H B → State H B → Prop
  | create {active : PolicyVersion H} {artifact : B} : s.control = .down → s.inference = [] →
      Steps hs s (.create active artifact) (create hs s active artifact)
  | openInference : s.control = .down → s.inference ≠ [] →
      Steps hs s .openInference (openInference hs s)
  | abortMotion {st : Inference H} {leaseId : H} {leases : List H} :
      s.control = .opening st (leaseId :: leases) → Steps hs s .abortMotion
        (s.log hs st (recoveredAbort leaseId) (fun st => .opening st leases) .down)
  | openWeights {st : Inference H} : s.control = .opening st [] → Steps hs s .openWeights
      { s with control := .serving st (pendingOf s.weight).entries }
  | recover {st : Inference H} {job : H × Pending H} {pending : List (H × Pending H)} :
      s.control = .serving st (job :: pending) → Steps hs s .recover (recover hs s st job pending)
  | recoverFrozen {st : Inference H} {job : H × Pending H} {pending : List (H × Pending H)} :
      s.control = .freezing st job pending → Steps hs s .recover
        (s.close (.aborted job.1 job.2.1 true) st pending)
  | request {st : Inference H} {op : Operation H B} : s.control = .serving st [] →
      Steps hs s (.request op) (request hs s st op)
  | call {st : Inference H} {operationId : H} {op : Operation H B} :
      s.control = .requested st operationId op → Steps hs s .call (call hs s st operationId op)
  | resolve {st : Inference H} {operationId : H} {op : Operation H B} {returned : Bool} :
      s.control = .called st operationId op returned →
        Steps hs s .resolve (resolve hs s st operationId op returned)
  | beginMotion {st : Inference H} {episodeId : String} {phase : SkillPhase} :
      s.control = .serving st [] → Steps hs s (.beginMotion episodeId phase) (motion hs s st
        (InferenceService.beginMotion hs.toHashes st episodeId phase (s.inference.length + 1)))
  | endMotion {st : Inference H} {leaseId : H} {aborted : Bool} {reason : String} :
      s.control = .serving st [] → Steps hs s (.endMotion leaseId aborted reason) (motion hs s st
        (InferenceService.endMotion st leaseId aborted reason))
  | crash {stored : Bool} : Steps hs s (.crash stored)
      { s with blobs := crashBlobs hs s stored, control := .down }

theorem step_cases (h : (weightUpdates hs).step s l = some s') : Steps hs s l s' := by
  simp only [weightUpdates] at h
  split at h
  · next hcontrol =>
    split at h
    · next hempty =>
      cases h
      exact .create hcontrol (List.isEmpty_iff.mp hempty)
    · cases h
  · next hcontrol =>
    split at h
    · cases h
    · next hempty =>
      cases h
      exact .openInference hcontrol fun hnil => hempty (List.isEmpty_iff.mpr hnil)
  · next hcontrol =>
    cases h
    exact .abortMotion hcontrol
  · next hcontrol =>
    cases h
    exact .openWeights hcontrol
  · next hcontrol =>
    cases h
    exact .recover hcontrol
  · next hcontrol =>
    cases h
    exact .recoverFrozen hcontrol
  · next hcontrol =>
    cases h
    exact .request hcontrol
  · next hcontrol =>
    cases h
    exact .call hcontrol
  · next hcontrol =>
    cases h
    exact .resolve hcontrol
  · next hcontrol =>
    cases h
    exact .beginMotion hcontrol
  · next hcontrol =>
    cases h
    exact .endMotion hcontrol
  · cases h
    exact .crash
  · cases h

/-! ### The condition and the laws -/

/-- The policies that the inference service accepts have the schema tag. -/
def Tagged (hs : ServiceHashes H B) (s : State H B) : Label H B → Prop
  | .create active artifact => (storeBlob hs.toHashes s.blobs active artifact).isSome = true →
      active.schemaVersion = policySchema
  | .call => ∀ st operationId policy artifact,
      s.control = .requested st operationId (.publish policy artifact) →
        (publish hs.toHashes s.blobs st policy artifact).2.isSome = true →
          policy.schemaVersion = policySchema
  | _ => True

/-- The state that the journal of the inference service is replayed to. -/
def recovered (hs : ServiceHashes H B) (s : State H B) : Option (Inference H) :=
  replay (applyEvent hs.toHashes) {} s.inference

structure Recovers (hs : ServiceHashes H B) (s : State H B) (st : Inference H) : Prop where
  same : ∀ st', s.control.state = some st' → st' = st
  reopens : ∃ s', (weightUpdates hs).run { s with control := .down }
      (.openInference :: List.replicate st.motions.entries.length .abortMotion) = some s' ∧
    s'.control = .opening { st with motions := ∅ } []
  pinned : ∀ leaseId lease, st.motions.get? leaseId = some lease →
    ∃ p, st.active = some p ∧ lease.Pins hs.toHashes p

def InferenceLaws (hs : ServiceHashes H B) (s : State H B) : Prop :=
  (s.inference = [] ∧ s.control = .down) ∨ ∃ st, recovered hs s = some st ∧ Recovers hs s st

/-- What a step from `s` may change. -/
structure Change (s : State H B) (st st' : Inference H) : Prop where
  active : st'.active = st.active ∨ s.inference = [] ∨
    (∃ operationId op, s.control = .requested st operationId op ∧ Activates st op st') ∨
    ∃ operationId reason, s.control = .requested st operationId (.rollback reason) ∧
      st'.active = st.rollback
  freeze : st.SafetyFrozen → st'.SafetyFrozen ∨ ∃ operationId reason,
    s.control = .requested st operationId (.unfreeze reason) ∨
      s.control = .requested st operationId (.rollback reason)

def ChangeLaws (hs : ServiceHashes H B) (s s' : State H B) : Prop :=
  ∀ st st', recovered hs s = some st → recovered hs s' = some st' → Change s st st'

end

/-! ### The invariant -/

/-- The journal is replayed to a sane state, the one of the process. -/
structure Held (hs : ServiceHashes H B) (s : State H B) (st : Inference H) : Prop where
  replayed : recovered hs s = some st
  sane : Sane hs.toHashes s.blobs st
  same : ∀ st', s.control.state = some st' → st' = st
  leases : ∀ st' leases, s.control = .opening st' leases →
    st'.motions.entries.map Prod.fst = leases

def Fit (hs : ServiceHashes H B) (s : State H B) : Prop :=
  (s.inference = [] ∧ s.control = .down) ∨ ∃ st, Held hs s st

theorem Held.keep (h : Held hs s st) (hinference : s'.inference = s.inference)
    (hkept : s.blobs.Kept s'.blobs) (hsame : ∀ st', s'.control.state = some st' → st' = st)
    (hleases : ∀ st' leases, s'.control = .opening st' leases →
      st'.motions.entries.map Prod.fst = leases) : Held hs s' st := by
  refine ⟨?_, h.sane.kept hkept, hsame, hleases⟩
  unfold recovered
  rw [hinference]
  exact h.replayed

theorem Held.append (h : Held hs s st) (happly : applyEvent hs.toHashes st e = some st')
    (hinference : s'.inference = s.inference ++ [e]) (hsane : Sane hs.toHashes s'.blobs st')
    (hsame : ∀ st'', s'.control.state = some st'' → st'' = st')
    (hleases : ∀ st'' leases, s'.control = .opening st'' leases →
      st''.motions.entries.map Prod.fst = leases) : Held hs s' st' := by
  refine ⟨?_, hsane, hsame, hleases⟩
  unfold recovered
  rw [hinference]
  exact replay_snoc_of h.replayed happly

variable {blobs : Blobs H B} {control raised : Control H B}

theorem Held.of_control (h : Held hs s st) (hcontrol : s.control = control)
    (hstate : control.state = some st') : st' = st := h.same st' (hcontrol ▸ hstate)

theorem Fit.of_control (h : Fit hs s) (hcontrol : s.control = control)
    (hstate : control.state = some st) : Held hs s st := by
  rcases h with ⟨-, hdown⟩ | ⟨st', h⟩
  · rw [← hcontrol, hdown] at hstate
    cases hstate
  · obtain rfl := h.of_control hcontrol hstate
    exact h

theorem Change.refl {H B : Type} (s : State H B) (st : Inference H) : Change s st st :=
  ⟨.inl rfl, fun h => .inl h⟩

theorem Change.slots {H B : Type} (s : State H B) {st st' : Inference H}
    (h : st'.toSlots = st.toSlots) : Change s st st' := by
  refine ⟨.inl (congrArg Slots.active h), fun hfrozen => .inl ?_⟩
  rw [h]
  exact hfrozen

def Next (hs : ServiceHashes H B) (s s' : State H B) : Prop := Fit hs s' ∧ ChangeLaws hs s s'

theorem Held.next (h : Held hs s st) (h' : Held hs s' st') (hchange : Change s st st') :
    Next hs s s' := by
  refine ⟨.inr ⟨st', h'⟩, fun st₁ st₁' hst hst' => ?_⟩
  obtain rfl := Option.some.inj (h.replayed.symm.trans hst)
  obtain rfl := Option.some.inj (h'.replayed.symm.trans hst')
  exact hchange

theorem opened_state (h : (opened hs blobs st).state = some st') : st' = st := by
  unfold opened at h
  split at h
  · exact (Option.some.inj h).symm
  · cases h

theorem opened_leases {leases : List H} (h : opened hs blobs st = .opening st' leases) :
    st'.motions.entries.map Prod.fst = leases := by
  unfold opened at h
  split at h
  · cases h
    rfl
  · cases h

theorem log_eq {next : Inference H → Control H B}
    (happly : applyEvent hs.toHashes st e = some st') :
    s.log hs st e next raised =
      { s with inference := s.inference ++ [e], control := next st' } := by
  unfold State.log
  rw [happly, Option.elim_some]

theorem next_log (h : Held hs s st) (happly : applyEvent hs.toHashes st e = some st')
    (hsane : Sane hs.toHashes s.blobs st') (hchange : Change s st st')
    {next : Inference H → Control H B} {raised : Control H B}
    (hstate : (next st').state = some st') (hleases : ∀ st'' leases,
      next st' = .opening st'' leases → st''.motions.entries.map Prod.fst = leases) :
    Next hs s (s.log hs st e next raised) := by
  rw [log_eq happly]
  refine h.next (h.append happly rfl hsane (fun st'' hst'' => ?_) hleases) hchange
  exact (Option.some.inj (hstate.symm.trans hst'')).symm

theorem next_motion (h : Held hs s st) {e : Option (InferenceEvent H)}
    (happlied : ∀ e' ∈ e, ∃ st', applyEvent hs.toHashes st e' = some st' ∧
      st'.toSlots = st.toSlots ∧ Sane hs.toHashes s.blobs st') : Next hs s (motion hs s st e) := by
  cases e with
  | none => exact h.next h (.refl s st)
  | some e =>
    obtain ⟨st', happly, hslots, hsane⟩ := happlied e rfl
    exact next_log h happly hsane (.slots s hslots) rfl fun st'' leases h => by cases h

theorem apply_ambiguous (hs : ServiceHashes H B) (st : Inference H) :
    applyEvent hs.toHashes st (.frozen
      "ambiguous inference mutations followed an interrupted weight operation" (some .safety)) =
        some { st with frozen := true, freezeKind := some .safety } := rfl

section

variable [DecidableEq B]

theorem crashBlobs_kept (hs : ServiceHashes H B) (s : State H B) (stored : Bool) :
    s.blobs.Kept (crashBlobs hs s stored) := by
  unfold crashBlobs
  cases s.control with
  | requested st operationId op =>
    cases stored with
    | true => exact callback_kept hs s.blobs st op
    | false => exact .refl s.blobs
  | _ => exact .refl s.blobs

theorem next_create {active : PolicyVersion H} {artifact : B} (hdown : s.control = .down)
    (hempty : s.inference = []) (htag : Tagged hs s (.create active artifact)) :
    Next hs s (create hs s active artifact) := by
  cases hstore : storeBlob hs.toHashes s.blobs active artifact with
  | none =>
    simp only [create, hstore]
    refine ⟨.inl ⟨hempty, hdown⟩, fun st st' hst hst' => ?_⟩
    obtain rfl := Option.some.inj (hst.symm.trans hst')
    exact .refl s st
  | some blobs =>
    have hschema : active.schemaVersion = policySchema := htag (by rw [hstore]; rfl)
    obtain ⟨p, hp⟩ := Option.isSome_iff_exists.mp ((fromDict_isSome_iff active).mpr hschema)
    have hartifact : p.artifactHash = active.artifactHash := (fromDict_fields hp).2.1
    have happly : applyEvent hs.toHashes {} (.initialized active.toPolicyFields
        active.artifactHash) = some { active := some p } := by
      show (if false = true then none
        else (policyVersionFromDict active.toPolicyFields).bind _) = _
      rw [if_neg Bool.false_ne_true, hp, Option.bind_some, if_pos hartifact.symm]
    simp only [create, hstore]
    rw [log_eq happly]
    have hpolicies : ∀ q ∈ ({ active := some p } : Slots H).policies, q = p := by
      intro q hq
      rcases mem_policies.mp hq with hq | hq | hq | hq
      · exact (Option.some.inj hq).symm
      · cases hq
      · cases hq
      · cases hq
    refine ⟨.inr ⟨{ active := some p }, ?_, ?_, fun st' h => opened_state h,
      fun st' leases h => opened_leases h⟩, fun st st' hst hst' => ⟨.inr (.inl hempty), ?_⟩⟩
    · show replay _ _ (s.inference ++ [_]) = _
      rw [hempty]
      exact replay_snoc_of rfl happly
    · refine ⟨⟨p, rfl⟩, fun q hq => ?_, fun q hq => ?_, fun leaseId lease h => by cases h⟩
      · obtain rfl := hpolicies q hq
        exact fromDict_rebuilt hp
      · obtain rfl := hpolicies q hq
        rw [readBlob_congr _ _ hartifact]
        exact (storeBlob_spec hstore).2
    · unfold recovered at hst
      rw [hempty] at hst
      cases hst
      intro hfrozen
      cases hfrozen.1

theorem call_cases (h : Sane hs.toHashes s.blobs st) (operationId : H) (op : Operation H B)
    (htag : ∀ policy artifact, op = .publish policy artifact →
      (publish hs.toHashes s.blobs st policy artifact).2.isSome = true →
        policy.schemaVersion = policySchema) :
    (call hs s st operationId op = { s with
        blobs := (callback hs s.blobs st op).1
        control := .called st operationId op false }) ∨
    ∃ e st', Applied hs (callback hs s.blobs st op).1 st op e st' ∧
      call hs s st operationId op = { s with
        inference := s.inference ++ [e]
        blobs := (callback hs s.blobs st op).1
        control := .called st' operationId op true
        current := s.current.map fun r => { r with wrote := true } } := by
  cases hcall : callback hs s.blobs st op with
  | mk blobs result =>
    cases result with
    | none => exact .inl (by simp only [call, hcall])
    | some e =>
      obtain ⟨st', happlied⟩ := callback_applied h (fun policy artifact hop => by
        subst hop
        refine htag policy artifact rfl ?_
        rw [show publish hs.toHashes s.blobs st policy artifact = _ from hcall]
        rfl) hcall
      refine .inr ⟨e, st', happlied, ?_⟩
      simp only [call, hcall]
      exact log_eq happlied.apply

theorem next_call (h : Fit hs s) {operationId : H} {op : Operation H B}
    (hcontrol : s.control = .requested st operationId op) (htag : Tagged hs s .call) :
    Next hs s (call hs s st operationId op) := by
  have hheld := h.of_control hcontrol rfl
  rcases call_cases hheld.sane operationId op (by
      rintro policy artifact rfl hsome
      exact htag st operationId policy artifact hcontrol hsome) with heq | ⟨e, st', happlied, heq⟩
  · rw [heq]
    refine hheld.next (hheld.keep rfl (callback_kept hs s.blobs st op) (fun st' h => ?_)
      fun st' leases h => by cases h) (.refl s st)
    exact (Option.some.inj h).symm
  · rw [heq]
    refine hheld.next (hheld.append happlied.apply rfl happlied.sane (fun st'' h => ?_)
      fun st'' leases h => by cases h) ⟨?_, ?_⟩
    · exact (Option.some.inj h).symm
    · rcases happlied.active with hsame | hactivates | ⟨reason, rfl, hrollback⟩
      · exact .inl hsame
      · exact .inr (.inr (.inl ⟨operationId, op, hcontrol, hactivates⟩))
      · exact .inr (.inr (.inr ⟨operationId, reason, hcontrol, hrollback⟩))
    · intro hfrozen
      rcases happlied.freeze hfrozen with hstill | ⟨reason, rfl⟩ | ⟨reason, rfl⟩
      · exact .inl hstill
      · exact .inr ⟨operationId, reason, .inl hcontrol⟩
      · exact .inr ⟨operationId, reason, .inr hcontrol⟩

/-- **A step keeps the invariant, and changes only what it may.** -/
theorem next_of_step (h : Fit hs s) (htag : Tagged hs s l)
    (hstep : (weightUpdates hs).step s l = some s') : Next hs s s' := by
  -- steps that append no event to the journal of the inference service
  have hkeep : ∀ {st : Inference H} {control : Control H B} {s' : State H B},
      s.control = control → control.state = some st → s'.inference = s.inference →
        s'.blobs = s.blobs → s'.control.state = some st →
          (∀ st' leases, s'.control ≠ .opening st' leases) → Next hs s s' := by
    intro st control s' hcontrol hstate hinference hblobs hstate' hopening
    have hheld := h.of_control hcontrol hstate
    refine hheld.next (hheld.keep hinference (hblobs ▸ .refl s.blobs) (fun st' hst' => ?_)
      fun st' leases hst' => absurd hst' (hopening st' leases)) (.refl s st)
    exact (Option.some.inj (hstate'.symm.trans hst')).symm
  cases step_cases hstep with
  | create hdown hempty => exact next_create hdown hempty htag
  | openInference hdown hne =>
    rcases h with ⟨hempty, -⟩ | ⟨st, h⟩
    · exact absurd hempty hne
    · have heq : openInference hs s = { s with control := opened hs s.blobs st } := by
        unfold openInference
        rw [show replay _ _ s.inference = some st from h.replayed, Option.elim_some]
      rw [heq]
      exact h.next (h.keep rfl (.refl s.blobs) (fun st' => opened_state)
        fun st' leases => opened_leases) (.refl s st)
  | @abortMotion st leaseId leases hcontrol =>
    have hheld := h.of_control hcontrol rfl
    obtain ⟨happly, hleases⟩ := abort_applied hs (hheld.leases _ _ hcontrol)
    refine next_log hheld happly (hheld.sane.ended leaseId) (.slots s rfl) rfl fun st'' ls h => ?_
    cases h
    exact hleases
  | openWeights hcontrol => exact hkeep hcontrol rfl rfl rfl rfl fun st' leases h => by cases h
  | @recover st job pending hcontrol =>
    unfold recover
    cases classify hs s.inference job.2.1 job.2.2 with
    | complete eventHash => exact hkeep hcontrol rfl rfl rfl rfl fun st' leases h => by cases h
    | abort => exact hkeep hcontrol rfl rfl rfl rfl fun st' leases h => by cases h
    | ambiguous =>
      have hheld := h.of_control hcontrol rfl
      exact next_log hheld (apply_ambiguous hs st)
        (hheld.sane.slots rfl fun q hq => hq) ⟨.inl rfl, fun _ => .inl ⟨rfl, rfl⟩⟩ rfl
        fun st' leases h => by cases h
  | recoverFrozen hcontrol => exact hkeep hcontrol rfl rfl rfl rfl fun st' leases h => by cases h
  | request hcontrol => exact hkeep hcontrol rfl rfl rfl rfl fun st' leases h => by cases h
  | call hcontrol => exact next_call h hcontrol htag
  | resolve hcontrol => exact hkeep hcontrol rfl rfl rfl rfl fun st' leases h => by cases h
  | beginMotion hcontrol =>
    have hheld := h.of_control hcontrol rfl
    exact next_motion hheld fun e he => beginMotion_applied hheld.sane he
  | endMotion hcontrol =>
    have hheld := h.of_control hcontrol rfl
    exact next_motion hheld fun e he => endMotion_applied hheld.sane he
  | crash =>
    rcases h with ⟨hempty, hdown⟩ | ⟨st, h⟩
    · refine ⟨.inl ⟨hempty, rfl⟩, fun st st' hst hst' => ?_⟩
      obtain rfl := Option.some.inj (hst.symm.trans hst')
      exact .refl s st
    · exact h.next (h.keep rfl (crashBlobs_kept hs s _) (fun st' h => by cases h)
        fun st' leases h => by cases h) (.refl s st)

theorem fit_of_reachable (h : (weightUpdates hs).ReachableUnder (Tagged hs) s) : Fit hs s := by
  refine h.invariant (P := Fit hs) ?_ fun s l s' hfit htag hstep =>
    (next_of_step hfit htag hstep).1
  intro s hinit
  obtain rfl : s = ⟨[], [], ∅, .down, none, []⟩ := hinit
  exact .inl ⟨rfl, rfl⟩

/-- `__init__` aborts one motion after the other. -/
theorem run_aborts (hs : ServiceHashes H B) (leases : List H) {s : State H B} {st : Inference H}
    (hcontrol : s.control = .opening st leases)
    (hleases : st.motions.entries.map Prod.fst = leases) :
    ∃ s', (weightUpdates hs).run s (List.replicate leases.length .abortMotion) = some s' ∧
      s'.control = .opening { st with motions := ∅ } [] ∧ s'.past = s.past ∧
      s'.current = s.current := by
  induction leases generalizing s st with
  | nil =>
    have hempty : st.motions = ∅ := Dict.eq_empty_of_entries (List.map_eq_nil_iff.mp hleases)
    refine ⟨s, rfl, ?_, rfl, rfl⟩
    rw [hcontrol, ← hempty]
  | cons leaseId leases ih =>
    obtain ⟨happly, hrest⟩ := abort_applied hs hleases
    have hstep : (weightUpdates hs).step s .abortMotion = some (s.log hs st (recoveredAbort leaseId)
        (fun st => .opening st leases) .down) := by
      simp only [weightUpdates, hcontrol]
    rw [log_eq happly] at hstep
    obtain ⟨s', hrun, hs'⟩ := ih (s := { s with
      inference := s.inference ++ [recoveredAbort leaseId]
      control := .opening { st with motions := st.motions.erase leaseId } leases }) rfl hrest
    exact ⟨s', Machine.run_cons_eq_some.mpr ⟨_, hstep, hrun⟩, hs'⟩

theorem Held.reopens (h : Held hs s st) : ∃ s', (weightUpdates hs).run { s with control := .down }
      (.openInference :: List.replicate st.motions.entries.length .abortMotion) = some s' ∧
    s'.control = .opening { st with motions := ∅ } [] ∧ s'.past = s.past ∧
    s'.current = s.current := by
  have hne : s.inference.isEmpty = false := by
    rw [List.isEmpty_eq_false_iff]
    intro hempty
    have hreplayed := h.replayed
    unfold recovered at hreplayed
    rw [hempty] at hreplayed
    cases hreplayed
    obtain ⟨p, hp⟩ := h.sane.active
    cases hp
  have hopen : (weightUpdates hs).step { s with control := .down } .openInference =
      some { s with control := .opening st (st.motions.entries.map Prod.fst) } := by
    simp only [weightUpdates, hne, Bool.false_eq_true, if_false, openInference]
    rw [show replay _ _ s.inference = some st from h.replayed, Option.elim_some]
    unfold opened
    rw [if_pos h.sane.readable]
  obtain ⟨s', hrun, hs'⟩ := run_aborts hs (st.motions.entries.map Prod.fst)
    (s := { s with control := .opening st (st.motions.entries.map Prod.fst) }) rfl rfl
  rw [List.length_map] at hrun
  exact ⟨s', Machine.run_cons_eq_some.mpr ⟨_, hopen, hrun⟩, hs'⟩

theorem Held.laws (h : Held hs s st) : Recovers hs s st := by
  obtain ⟨s', hrun, hcontrol, -⟩ := h.reopens
  exact ⟨h.same, ⟨s', hrun, hcontrol⟩, h.sane.pinned⟩

/-- **Reopening recovers the slots, motions pin the active policy, and only an activation with its
report or a rollback changes it**, in every run. -/
theorem inference_laws (hs : ServiceHashes H B)
    (h : (weightUpdates hs).ReachableUnder (Tagged hs) s) :
    InferenceLaws hs s ∧ ∀ l s', Tagged hs s l → (weightUpdates hs).step s l = some s' →
      ChangeLaws hs s s' := by
  have hfit := fit_of_reachable h
  refine ⟨?_, fun l s' htag hstep => (next_of_step hfit htag hstep).2⟩
  rcases hfit with hempty | ⟨st, hheld⟩
  · exact .inl hempty
  · exact .inr ⟨st, hheld.replayed, hheld.laws⟩

end

/-! ### Runs -/

/-- An operation has the number of its event for a name, a journal its length for a hash. -/
def sampleHashes : ServiceHashes Nat Nat where
  digest := id
  isEmpty := fun artifact => artifact = 0
  versionHash := fun p => p.version.toInt.toNat
  leaseId := fun _ _ n => n
  operationId := fun _ n _ => n
  lastHash := List.length

def foreignPolicy : PolicyVersion Nat :=
  ⟨{ samplePolicy 1 8 (some 0) with schemaVersion := "rosclaw.continual.policy_version.v2" },
    by decide⟩

/-- The process ends while a motion has leased the first policy and the next one is published. -/
theorem inference_laws_published :
    ∃ s : State Nat Nat, InferenceLaws sampleHashes s ∧ s.inference.length = 3 ∧
      s.control.state.isNone = true := by
  refine ⟨_, (inference_laws sampleHashes
    (.step (l := .crash false)
      (.step (l := .beginMotion "walk" .stand)
        (.step (l := .resolve)
          (.step (l := .call)
            (.step (l := .request (.publish nextPolicy 8))
              (.step (l := .openWeights)
                (.step (l := .create firstPolicy 7) (.init rfl) (fun _ => rfl) rfl) trivial rfl)
              trivial rfl)
            ?_ rfl)
          trivial rfl)
        trivial rfl)
      trivial rfl)).1, rfl, rfl⟩
  intro st operationId policy artifact hcontrol _
  cases hcontrol
  rfl

/-- **No reopening succeeds** after a policy with another schema tag was published. -/
theorem publish_poisons :
    ∃ s : State Nat Nat, (weightUpdates sampleHashes).Reachable s ∧
      ¬ InferenceLaws sampleHashes s := by
  refine ⟨_, .step (l := .call)
    (.step (l := .request (.publish foreignPolicy 8))
      (.step (l := .openWeights)
        (.step (l := .create firstPolicy 7) (.init rfl) trivial rfl) trivial rfl)
      trivial rfl)
    trivial rfl, ?_⟩
  rintro (⟨hempty, -⟩ | ⟨st, hreplay, -⟩)
  · cases hempty
  · cases hreplay

end Rosclaw.Continual.WeightUpdateService
