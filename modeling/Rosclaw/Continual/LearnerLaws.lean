/-
At most one call of the executor for a batch.

* `Sane`, `Inv`, `inv_step` — the invariant of the replayed state, kept by every sound step;
* `learner_laws` — the laws hold in every state of every run of sound steps;
* `executed_twice` — a batch whose completion could not be appended is executed again.
-/
import Mathlib.Data.List.Chain
import Rosclaw.Continual.Learner

namespace Rosclaw.Continual.LearnerService

open EventSourced List Option

variable {H B M : Type} [DecidableEq H] {hs : Hashes H B} {s s' : State H B M}
  {st st' : Learner H M} {blobs blobs' : Blobs H B}

/-! ### The condition and the laws -/

def Successor (hs : Hashes H B) (parent policy : PolicyVersion H) : Prop :=
  policy.version.toInt = parent.version.toInt + 1 ∧
    policy.parentVersionHash = some (hs.versionHash parent.toPolicyFields)

def Returns : Fate → Bool
  | .failed _ => false
  | _ => true

def Sound (hs : Hashes H B) (s : State H B M) : Label H B M → Prop
  | .create parent _ => parent.schemaVersion = policySchema
  | .recover _ => True
  | .execute _ start w last => start.1.clean = true ∧ Returns last.1 = true ∧
      ∀ p ∈ w.product, ∀ es st parent, s.service.live = some (es, st) → st.parent = some parent →
        PolicyFields.Follows hs.versionHash parent.toPolicyFields p.candidate.toPolicyFields →
          p.candidate.schemaVersion = policySchema
  | .advanceParent policy a => a.1.clean = true ∧
      ∀ es st, s.service.live = some (es, st) →
        st.known (hs.versionHash policy.toPolicyFields) = true →
          policyVersionFromDict policy.toPolicyFields = some policy ∧
            ∀ parent, st.parent = some parent → Successor hs parent policy

def parentOf : Logged H M → Option (PolicyVersion H)
  | (.initialized parent, _) | (.parentAdvanced parent, _) => policyVersionFromDict parent
  | _ => none

def parents (es : List (Logged H M)) : List (PolicyVersion H) := es.filterMap parentOf

structure Recovered (hs : Hashes H B) (s : State H B M) (st : Learner H M) : Prop where
  same : ∀ es st' as, s.service.live = some (es, st') →
    st' = st ∧ (recover hs s as).service.live = some (es, st)
  receipts : ∀ b r, (b, r) ∈ s.returned → st.completed.get? b = some r
  apart : ∀ b ∈ st.quarantined, st.completed.contains b = false
  lineage : (parents s.service.durable).IsChain (Successor hs) ∧
    (parents s.service.durable).getLast? = st.parent

structure LearnerLaws (hs : Hashes H B) (s : State H B M) : Prop where
  once : s.invoked.Nodup
  receipt : ∀ b r r', (b, r) ∈ s.returned → (b, r') ∈ s.returned → r = r'
  opens : ∃ st, replay (applyEvent hs s.blobs) {} s.service.durable = some st ∧ Recovered hs s st

/-! ### Blobs -/

variable {b batchHash checkpointHash contentHash j jobId : H}
  {c candidate p parent policy : PolicyVersion H} {e : Logged H M}

theorem readable_kept (h : blobs.Kept blobs') {suffix : Suffix}
    (hread : readable hs blobs suffix contentHash = true) :
    readable hs blobs' suffix contentHash = true := by
  unfold readable at hread ⊢
  cases hget : blobs.get? (suffix, contentHash) with
  | none => rw [hget] at hread; cases hread
  | some v =>
    rw [h _ _ hget]
    rw [hget] at hread
    exact hread

theorem applyEvent_kept (h : blobs.Kept blobs') (st : Learner H M) (e : Logged H M)
    (st' : Learner H M) (happly : applyEvent hs blobs st e = some st') :
    applyEvent hs blobs' st e = some st' := by
  obtain ⟨e, eventHash⟩ := e
  cases e with
  | jobCompleted jobId batchHash parentPolicyHash candidate artifactHash checkpointHash metrics =>
    obtain ⟨c, hc, happly⟩ := bind_eq_some_iff.mp happly
    obtain ⟨parent, hparent, happly⟩ := bind_eq_some_iff.mp happly
    refine bind_eq_some_iff.mpr ⟨c, hc, bind_eq_some_iff.mpr ⟨parent, hparent, ?_⟩⟩
    split at happly
    · next hcond =>
      obtain ⟨h₁, h₂, h₃, h₄, h₅, h₆⟩ := hcond
      rw [if_pos ⟨h₁, h₂, h₃, h₄, readable_kept h h₅, readable_kept h h₆⟩]
      exact happly
    · cases happly
  | _ => exact happly

section

variable [DecidableEq B]

/-- `_store_blob` keeps what is there, and what it stored can be read. -/
theorem storeBlob_spec {suffix : Suffix} {contentHash : H} {payload : B} {stored : Stored}
    {next : Blobs H B → Blobs H B × Ended H B M} {R : Blobs H B × Ended H B M → Prop}
    (hraised : ∀ blobs', blobs.Kept blobs' → R (blobs', .raised) ∧ R (blobs', .crashed))
    (hnext : ∀ blobs', blobs.Kept blobs' → readable hs blobs' suffix contentHash = true →
      R (next blobs')) :
    R (storeBlob hs blobs suffix contentHash payload stored next) := by
  unfold storeBlob
  split
  · exact (hraised blobs (.refl blobs)).1
  · next hdigest =>
    have hdigest : hs.digest payload = contentHash := not_not.mp hdigest
    have hset : blobs.get? (suffix, contentHash) = none → ∀ kept : Bool,
        blobs.Kept (if kept then blobs.set (suffix, contentHash) payload else blobs) := by
      intro hnone kept
      cases kept with
      | true => exact Dict.kept_set hnone payload
      | false => exact .refl blobs
    cases hget : blobs.get? (suffix, contentHash) with
    | some old =>
      show R (if old = payload then next blobs else (blobs, .raised))
      split
      · next heq =>
        refine hnext blobs (.refl blobs) ?_
        rw [readable, hget, heq]
        exact decide_eq_true hdigest
      · exact (hraised blobs (.refl blobs)).1
    | none =>
      cases stored with
      | done =>
        refine hnext _ (Dict.kept_set hget payload) ?_
        rw [readable, Dict.get?_set_self]
        exact decide_eq_true hdigest
      | raised kept => exact (hraised _ (hset hget kept)).1
      | crashed kept => exact (hraised _ (hset hget kept)).2

/-- What is known when the executor and the storing are through. -/
structure Worked (hs : Hashes H B) (blobs blobs' : Blobs H B) (parent : PolicyVersion H)
    (w : Work H B M) (ended : Ended H B M) : Prop where
  kept : blobs.Kept blobs'
  product : ∀ p, ended = .product p → w.product = some p ∧
    PolicyFields.Follows hs.versionHash parent.toPolicyFields p.candidate.toPolicyFields ∧
    readable hs blobs' .artifact p.candidate.artifactHash = true ∧
    readable hs blobs' .checkpoint (hs.digest p.checkpoint) = true

theorem work_spec (hs : Hashes H B) (blobs : Blobs H B) (parent : PolicyVersion H)
    (w : Work H B M) :
    Worked hs blobs (work hs blobs parent w).1 parent w (work hs blobs parent w).2 := by
  have hraised : ∀ blobs', blobs.Kept blobs' →
      Worked hs blobs blobs' parent w .raised ∧ Worked hs blobs blobs' parent w .crashed :=
    fun blobs' h => ⟨⟨h, fun p hp => by cases hp⟩, ⟨h, fun p hp => by cases hp⟩⟩
  unfold work
  split
  · exact (hraised blobs (.refl blobs)).2
  · cases hproduct : w.product with
    | none => exact (hraised blobs (.refl blobs)).1
    | some p =>
      show Worked hs blobs (ite _ _ _ : Blobs H B × Ended H B M).1 parent w
        (ite _ _ _ : Blobs H B × Ended H B M).2
      split
      · next hvalid =>
        refine storeBlob_spec (R := fun x => Worked hs blobs x.1 parent w x.2) hraised ?_
        intro blobs₁ h₁ hartifact
        refine storeBlob_spec (R := fun x => Worked hs blobs x.1 parent w x.2)
          (fun blobs' h => hraised blobs' (h₁.trans h)) ?_
        intro blobs₂ h₂ hcheckpoint
        refine ⟨h₁.trans h₂, fun p' hp' => ?_⟩
        obtain rfl : p = p' := by
          cases hp'
          rfl
        exact ⟨hproduct, hvalid.1, readable_kept h₂ hartifact, hcheckpoint⟩
      · exact (hraised blobs (.refl blobs)).1

end

/-! ### The replayed state -/

/-- What holds of the state that a journal is replayed to. -/
structure Sane (hs : Hashes H B) (invoked : List H) (returned : List (H × Receipt H M))
    (es : List (Logged H M)) (st : Learner H M) : Prop where
  fresh : ∀ j b, st.pending.get? j = some b → st.completed.get? b = none
  apart : ∀ b ∈ st.quarantined, st.completed.get? b = none
  tried : ∀ b ∈ invoked, (∃ r, st.completed.get? b = some r) ∨ b ∈ st.quarantined ∨
    ∃ j, st.pending.get? j = some b
  receipts : ∀ b r, (b, r) ∈ returned → st.completed.get? b = some r
  lineage : (parents es).IsChain (Successor hs) ∧ (parents es).getLast? = st.parent

variable {invoked : List H} {returned : List (H × Receipt H M)} {es : List (Logged H M)}

omit [DecidableEq H] in
theorem parents_snoc (es : List (Logged H M)) (e : Logged H M) :
    parents (es ++ [e]) = parents es ++ (parentOf e).toList := by
  rw [parents, filterMap_append, filterMap_cons, filterMap_nil]
  cases parentOf e <;> rfl

omit [DecidableEq H] in
theorem lineage_snoc (he : parentOf e = some p) (hes : (parents es).IsChain (Successor hs))
    (hlast : ∀ q, (parents es).getLast? = some q → Successor hs q p) :
    (parents (es ++ [e])).IsChain (Successor hs) ∧ (parents (es ++ [e])).getLast? = some p := by
  rw [parents_snoc, he]
  refine ⟨hes.append (.singleton p) ?_, List.getLast?_concat⟩
  intro q hq p' hp'
  cases hp'
  exact hlast q hq

theorem Sane.lineage_other (h : Sane hs invoked returned es st) (he : parentOf e = none) :
    (parents (es ++ [e])).IsChain (Successor hs) ∧ (parents (es ++ [e])).getLast? = st.parent := by
  rw [parents_snoc, he, toList_none, append_nil]
  exact h.lineage

theorem Sane.initialized (h : Sane hs invoked returned es st) (hnone : st.parent = none)
    {parent : PolicyFields H} (hp : policyVersionFromDict parent = some p) (eventHash : H) :
    Sane hs invoked returned (es ++ [(.initialized parent, eventHash)])
      { st with parent := some p } := by
  have hempty : (parents es).getLast? = none := h.lineage.2.trans hnone
  refine ⟨h.fresh, h.apart, h.tried, h.receipts, lineage_snoc hp h.lineage.1 fun q hq => ?_⟩
  rw [hempty] at hq
  cases hq

theorem Sane.advanced (h : Sane hs invoked returned es st) {parent : PolicyFields H}
    (hp : policyVersionFromDict parent = some p)
    (hsuccessor : ∀ q, st.parent = some q → Successor hs q p) (eventHash : H) :
    Sane hs invoked returned (es ++ [(.parentAdvanced parent, eventHash)])
      { st with parent := some p } := by
  refine ⟨h.fresh, h.apart, h.tried, h.receipts, lineage_snoc hp h.lineage.1 fun q hq => ?_⟩
  exact hsuccessor q (h.lineage.2.symm.trans hq)

theorem Sane.started (h : Sane hs invoked returned es st) (hidle : st.pending = ∅)
    (hfresh : st.completed.get? b = none) (parentHash eventHash : H) :
    Sane hs (invoked ++ [b]) returned (es ++ [(.jobStarted j b parentHash, eventHash)])
      { st with pending := st.pending.set j b } := by
  have honly : ∀ j' b', (st.pending.set j b).get? j' = some b' → b' = b := by
    intro j' b' hget
    rw [hidle, Dict.get?_set] at hget
    split at hget
    · exact (Option.some.inj hget).symm
    · cases hget
  refine ⟨fun j' b' hget => ?_, h.apart, fun b' hb' => ?_, h.receipts, h.lineage_other rfl⟩
  · rw [honly j' b' hget]
    exact hfresh
  · rcases mem_append.mp hb' with hb' | hb'
    · rcases h.tried b' hb' with hcompleted | hquarantined | ⟨j', hj'⟩
      · exact .inl hcompleted
      · exact .inr (.inl hquarantined)
      · rw [hidle] at hj'
        cases hj'
    · obtain rfl := mem_singleton.mp hb'
      exact .inr (.inr ⟨j, Dict.get?_set_self _ _ _⟩)

theorem Sane.quarantined (h : Sane hs invoked returned es st)
    (hpending : st.pending.get? j = some b) (reason : String) (recovered : Bool) (eventHash : H) :
    Sane hs invoked returned (es ++ [(.jobQuarantined j b reason recovered, eventHash)]) { st with
        pending := st.pending.erase j
        quarantined := if b ∈ st.quarantined then st.quarantined else st.quarantined ++ [b] } := by
  have hmem : ∀ b', b' ∈ (if b ∈ st.quarantined then st.quarantined else st.quarantined ++ [b]) ↔
      b' ∈ st.quarantined ∨ b' = b := by
    intro b'
    split
    · next hb =>
      refine ⟨.inl, fun hb' => hb'.elim (fun h => h) ?_⟩
      rintro rfl
      exact hb
    · rw [mem_append, mem_singleton]
  refine ⟨fun j' b' hget => ?_, fun b' hb' => ?_, fun b' hb' => ?_, h.receipts, h.lineage_other rfl⟩
  · rw [Dict.get?_erase] at hget
    split at hget
    · cases hget
    · exact h.fresh j' b' hget
  · rcases (hmem b').mp hb' with hb' | rfl
    · exact h.apart b' hb'
    · exact h.fresh j b' hpending
  · rcases h.tried b' hb' with hcompleted | hquarantined | ⟨j', hj'⟩
    · exact .inl hcompleted
    · exact .inr (.inl ((hmem b').mpr (.inl hquarantined)))
    · by_cases hj : j = j'
      · subst hj
        obtain rfl : b = b' := Option.some.inj (hpending.symm.trans hj')
        exact .inr (.inl ((hmem b).mpr (.inr rfl)))
      · refine .inr (.inr ⟨j', ?_⟩)
        rw [Dict.get?_erase, if_neg hj]
        exact hj'

theorem Sane.completed (h : Sane hs invoked returned es st) (hidle : st.pending.erase j = ∅)
    (hpending : st.pending.get? j = some b) (hnot : b ∉ st.quarantined)
    (candidate : PolicyVersion H) (receipt : Receipt H M) (he : parentOf e = none) :
    Sane hs invoked returned (es ++ [e]) { st with
        completed := st.completed.set b receipt
        candidates := st.candidates.set b candidate
        pending := st.pending.erase j } := by
  have hfresh : st.completed.get? b = none := h.fresh j b hpending
  refine ⟨fun j' b' hget => ?_, fun b' hb' => ?_, fun b' hb' => ?_, fun b' r hr => ?_,
    h.lineage_other he⟩
  · rw [hidle] at hget
    cases hget
  · have hne : b ≠ b' := by
      rintro rfl
      exact hnot hb'
    rw [Dict.get?_set_of_ne _ _ hne]
    exact h.apart b' hb'
  · by_cases hb : b = b'
    · subst hb
      exact .inl ⟨receipt, Dict.get?_set_self _ _ _⟩
    · rw [Dict.get?_set_of_ne _ _ hb]
      rcases h.tried b' hb' with hcompleted | hquarantined | ⟨j', hj'⟩
      · exact .inl hcompleted
      · exact .inr (.inl hquarantined)
      · have hj : j ≠ j' := by
          rintro rfl
          exact hb (Option.some.inj (hpending.symm.trans hj'))
        have hstill : (st.pending.erase j).get? j' = some b' := by
          rw [Dict.get?_erase, if_neg hj]
          exact hj'
        rw [hidle] at hstill
        cases hstill
  · have hold := h.receipts b' r hr
    have hne : b ≠ b' := by
      rintro rfl
      rw [hfresh] at hold
      cases hold
    rw [Dict.get?_set_of_ne _ _ hne]
    exact hold

theorem Sane.called {invoked' : List H} (h : Sane hs invoked returned es st)
    (hsub : invoked' ⊆ invoked) : Sane hs invoked' returned es st :=
  ⟨h.fresh, h.apart, fun b hb => h.tried b (hsub hb), h.receipts, h.lineage⟩

theorem Sane.handed (h : Sane hs invoked returned es st) {r : Receipt H M}
    (hr : st.completed.get? b = some r) : Sane hs invoked (returned ++ [(b, r)]) es st := by
  refine ⟨h.fresh, h.apart, h.tried, fun b' r' hmem => ?_, h.lineage⟩
  rcases mem_append.mp hmem with hmem | hmem
  · exact h.receipts b' r' hmem
  · obtain ⟨rfl, rfl⟩ := Prod.mk.inj (mem_singleton.mp hmem)
    exact hr

/-! ### Steps -/

/-- The service between two calls: nothing is pending in its process. -/
structure Good (hs : Hashes H B) (blobs : Blobs H B) (invoked : List H)
    (returned : List (H × Receipt H M)) (v : Service (Learner H M) (Logged H M)) : Prop where
  consistent : Consistent (applyEvent hs blobs) {} (Sane hs invoked returned) v
  idle : ∀ es st, v.live = some (es, st) → st.pending = ∅

structure Inv (hs : Hashes H B) (s : State H B M) : Prop where
  service : Good hs s.blobs s.invoked s.returned s.service
  once : s.invoked.Nodup

variable {v v' : Service (Learner H M) (Logged H M)} {a : Append H}

theorem Good.killed (hv : Consistent (applyEvent hs blobs) {} (Sane hs invoked returned) v) :
    Good hs blobs invoked returned ⟨v.durable, none⟩ := ⟨hv.killed, fun es st h => by cases h⟩

theorem Good.log (hv : Consistent (applyEvent hs s.blobs) {} (Sane hs invoked returned) v)
    (hlive : v.live = some (es, st)) {e : LearnerEvent H M}
    (happly : applyEvent hs s.blobs st (e, a.2) = some st') (hclean : a.1.clean = true)
    (hsane : Sane hs invoked returned (v.durable ++ [(e, a.2)]) st') (hidle' : st'.pending = ∅)
    (hidle : Returns a.1 = false → st.pending = ∅) :
    Good hs s.blobs invoked returned (s.log hs v es st e a).1 := by
  refine ⟨hv.attempt hlive happly hclean hsane, fun es' st'' hst => ?_⟩
  rcases hv.attempt_cases hlive happly hclean with ⟨-, heq⟩ | ⟨hf, heq⟩ | ⟨durable, -, heq⟩
  · rw [State.log, heq] at hst
    obtain ⟨-, rfl⟩ := Prod.mk.inj (Option.some.inj hst)
    exact hidle'
  · rw [State.log, heq] at hst
    obtain ⟨-, rfl⟩ := Prod.mk.inj (Option.some.inj (hlive.symm.trans hst))
    exact hidle (by rw [hf]; rfl)
  · rw [State.log, heq] at hst
    cases hst

theorem quarantineAll_cons {job : H × H} {jobs : List (H × H)} {as : List (Append H)}
    {result : Option (Learner H M)} (hlive : v.live = some (es, st))
    (hlog : s.log hs v es st (.jobQuarantined job.1 job.2
      "service recovery found an incomplete optimizer update" true) a = (v', result)) :
    quarantineAll hs s (job :: jobs) (a :: as) v =
      if result.isSome then quarantineAll hs s jobs as v' else ⟨v'.durable, none⟩ := by
  simp only [quarantineAll, hlive, hlog]
  cases result <;> rfl

/-- `__init__` quarantines one job after the other. -/
theorem good_quarantineAll (jobs : List (H × H)) (as : List (Append H))
    (hv : Consistent (applyEvent hs s.blobs) {} (Sane hs s.invoked s.returned) v)
    (hjobs : ∀ es st, v.live = some (es, st) → st.pending.entries = jobs) :
    Good hs s.blobs s.invoked s.returned (quarantineAll hs s jobs as v) := by
  induction jobs generalizing as v with
  | nil => exact ⟨hv, fun es st hlive => Dict.eq_empty_of_entries (hjobs es st hlive)⟩
  | cons job jobs ih =>
    cases as with
    | nil => exact .killed hv
    | cons a as =>
      cases hlive : v.live with
      | none =>
        simp only [quarantineAll, hlive]
        exact ⟨hv, fun es st h => by cases hlive.symm.trans h⟩
      | some l =>
        obtain ⟨es, st⟩ := l
        have hentries := hjobs es st hlive
        have hpending : st.pending.get? job.1 = some job.2 := by
          refine Dict.mem_entries_iff.mp ?_
          rw [hentries]
          exact mem_cons_self
        have hsane := (hv.holds hlive).quarantined hpending
          "service recovery found an incomplete optimizer update" true a.2
        have happly : applyEvent hs s.blobs st (.jobQuarantined job.1 job.2
            "service recovery found an incomplete optimizer update" true, a.2) = some _ :=
          if_pos hpending
        cases hlog : s.log hs v es st (.jobQuarantined job.1 job.2
            "service recovery found an incomplete optimizer update" true) a with
        | mk v' result =>
          rw [quarantineAll_cons hlive hlog]
          cases result with
          | none =>
            have hkilled := hv.attempt_killed (f := a.1) hlive happly hsane
            rw [show attempt _ v es st _ a.1 = (v', none) from hlog] at hkilled
            exact ⟨hkilled, fun es st h => by cases h⟩
          | some st'' =>
            obtain ⟨hdone, happly', hv'⟩ := attempt_eq_some hlog
            obtain rfl := Option.some.inj (happly.symm.trans happly')
            have hnext := hv.attempt (f := a.1) hlive happly (by rw [hdone]; rfl) hsane
            rw [show attempt _ v es st _ a.1 = (v', some _) from hlog] at hnext
            refine ih as hnext fun es' st' h => ?_
            rw [hv'] at h
            obtain ⟨-, rfl⟩ := Prod.mk.inj (Option.some.inj h)
            exact Dict.entries_erase_cons hentries

theorem inv_create (h : Inv hs s) (hempty : s.service.durable = [])
    (hschema : parent.schemaVersion = policySchema) (a : Append H) :
    Inv hs (create hs s parent a) := by
  obtain ⟨p, hp⟩ := isSome_iff_exists.mp ((fromDict_isSome_iff parent).mpr hschema)
  have hv : Consistent (applyEvent hs s.blobs) {} (Sane hs s.invoked s.returned)
      ⟨s.service.durable, some ([], {})⟩ := by
    refine ⟨h.service.consistent.opens, fun es st hlive => ?_⟩
    obtain ⟨rfl, rfl⟩ := Prod.mk.inj (Option.some.inj hlive)
    show [] = s.service.durable ∧ replay _ _ s.service.durable = _
    rw [hempty]
    exact ⟨rfl, rfl⟩
  have hsane := (hv.holds rfl).initialized rfl hp a.2
  have happly : applyEvent hs s.blobs ({} : Learner H M)
      (.initialized parent.toPolicyFields, a.2) = some { parent := some p } := by
    show (policyVersionFromDict parent.toPolicyFields).map _ = _
    rw [hp, map_some]
  refine ⟨?_, by unfold create; split <;> exact h.once⟩
  unfold create
  cases hlog : s.log hs ⟨s.service.durable, some ([], {})⟩ [] {}
      (.initialized parent.toPolicyFields) a with
  | mk v result =>
    cases result with
    | none =>
      have hkilled := hv.attempt_killed (f := a.1) rfl happly hsane
      rw [show attempt _ _ [] {} _ a.1 = (v, none) from hlog] at hkilled
      exact ⟨hkilled, fun es st h => by cases h⟩
    | some st =>
      obtain ⟨hdone, happly', hv'⟩ := attempt_eq_some hlog
      obtain rfl := Option.some.inj (happly.symm.trans happly')
      have hnext := hv.attempt (f := a.1) rfl happly (by rw [hdone]; rfl) hsane
      rw [show attempt _ _ [] {} _ a.1 = (v, some _) from hlog] at hnext
      refine ⟨hnext, fun es st hlive => ?_⟩
      rw [show _ = v from rfl, hv'] at hlive
      obtain ⟨-, rfl⟩ := Prod.mk.inj (Option.some.inj hlive)
      rfl

theorem recover_none (hlive : (reopen (applyEvent hs s.blobs) {} s.service).live = none)
    (as : List (Append H)) :
    recover hs s as = { s with service := reopen (applyEvent hs s.blobs) {} s.service } := by
  simp only [recover, hlive]

theorem recover_some (hlive : (reopen (applyEvent hs s.blobs) {} s.service).live = some (es, st))
    (as : List (Append H)) :
    recover hs s as = { s with
      service := (quarantineAll hs s st.pending.entries as
        (reopen (applyEvent hs s.blobs) {} s.service)) } := by
  simp only [recover, hlive]

/-- What `__init__` makes of a journal that can be replayed. -/
theorem inv_recover (h : Inv hs s) (as : List (Append H)) : Inv hs (recover hs s as) := by
  have hv := h.service.consistent.reopen
  cases hlive : (reopen (applyEvent hs s.blobs) {} s.service).live with
  | none =>
    rw [recover_none hlive]
    refine ⟨⟨hv, fun es st hst => ?_⟩, h.once⟩
    cases hlive.symm.trans hst
  | some l =>
    obtain ⟨es, st⟩ := l
    rw [recover_some hlive]
    refine ⟨good_quarantineAll st.pending.entries as hv fun es' st' hst => ?_, h.once⟩
    obtain ⟨-, rfl⟩ := Prod.mk.inj (Option.some.inj (hlive.symm.trans hst))
    rfl

theorem applyEvent_completed (hpending : st.pending.get? jobId = some batchHash)
    (hparent : st.parent = some parent)
    (hc : policyVersionFromDict candidate.toPolicyFields = some c)
    (hfollows : PolicyFields.Follows hs.versionHash parent.toPolicyFields candidate.toPolicyFields)
    (hartifact : readable hs blobs .artifact candidate.artifactHash = true)
    (hcheckpoint : readable hs blobs .checkpoint checkpointHash = true) (metrics : M)
    (eventHash : H) :
    applyEvent hs blobs st (.jobCompleted jobId batchHash (hs.versionHash parent.toPolicyFields)
      candidate.toPolicyFields candidate.artifactHash checkpointHash metrics, eventHash) =
      some { st with
        completed := st.completed.set batchHash (receiptOf hs jobId batchHash
          (hs.versionHash parent.toPolicyFields) c candidate.artifactHash checkpointHash metrics
          eventHash)
        candidates := st.candidates.set batchHash c
        pending := st.pending.erase jobId } := by
  have hartifactHash := (fromDict_fields hc).2.1
  have hfollows' := follows_of_fromDict hc hfollows
  refine bind_eq_some_iff.mpr ⟨c, hc, bind_eq_some_iff.mpr ⟨parent, hparent, ?_⟩⟩
  exact if_pos ⟨hpending, rfl, hfollows', hartifactHash, hartifact, hcheckpoint⟩

theorem Good.recover_eq (h : Good hs s.blobs s.invoked s.returned s.service)
    (hlive : s.service.live = some (es, st)) (as : List (Append H)) :
    (recover hs s as).service.live = some (es, st) := by
  obtain ⟨rfl, hreplay⟩ := h.consistent.agrees es st hlive
  have hopen : (reopen (applyEvent hs s.blobs) {} s.service).live =
      some (s.service.durable, st) := by
    show (replay _ _ s.service.durable).map _ = _
    rw [hreplay, map_some]
  rw [recover_some hopen, h.idle _ _ hlive]
  exact hopen

theorem inv_advanceParent (h : Inv hs s) (hlive : s.service.live = some (es, st))
    (hsound : Sound hs s (.advanceParent policy a)) :
    Inv hs (advanceParent hs s es st policy a) := by
  obtain ⟨hclean, hpolicy⟩ := hsound
  unfold advanceParent
  split
  · next hknown =>
    obtain ⟨hp, hsuccessor⟩ := hpolicy es st hlive hknown
    have hsane := (h.service.consistent.holds hlive).advanced hp hsuccessor a.2
    have hidle := h.service.idle es st hlive
    have happly : applyEvent hs s.blobs st (.parentAdvanced policy.toPolicyFields, a.2) =
        some { st with parent := some policy } := bind_eq_some_iff.mpr ⟨policy, hp, if_pos hknown⟩
    exact ⟨Good.log h.service.consistent hlive happly hclean hsane hidle fun _ => hidle, h.once⟩
  · exact h

theorem Sane.untried (h : Sane hs invoked returned es st) (hidle : st.pending = ∅)
    (hcompleted : st.completed.get? b = none) (hnot : b ∉ st.quarantined) : b ∉ invoked := by
  intro hb
  rcases h.tried b hb with ⟨r, hr⟩ | hquarantined | ⟨j, hj⟩
  · cases hcompleted.symm.trans hr
  · exact hnot hquarantined
  · rw [hidle] at hj
    cases hj

theorem applyEvent_started (hs : Hashes H B) (blobs : Blobs H B) (hparent : st.parent = some parent)
    (hidle : st.pending = ∅) (hcompleted : st.completed.get? b = none) (j eventHash : H) :
    applyEvent hs blobs st (.jobStarted j b (hs.versionHash parent.toPolicyFields), eventHash) =
      some { st with pending := st.pending.set j b } := by
  refine bind_eq_some_iff.mpr ⟨parent, hparent, if_neg ?_⟩
  rintro (hne | hpending | hcontains)
  · exact hne rfl
  · rw [hidle] at hpending
    cases hpending
  · obtain ⟨r, hr⟩ := Dict.contains_iff.mp hcontains
    cases hcompleted.symm.trans hr

section

variable [DecidableEq B] {batch : Batch H} {parent : PolicyVersion H} {jobId : H} {w : Work H B M}

theorem finish_product {p : Product H B M}
    {result : Service (Learner H M) (Logged H M) × Option (Learner H M)}
    (hended : (work hs s.blobs parent w).2 = .product p) (hlive : v.live = some (es, st))
    (hlog : attempt (applyEvent hs (work hs s.blobs parent w).1) v es st
      (.jobCompleted jobId batch.batchHash (hs.versionHash parent.toPolicyFields)
        p.candidate.toPolicyFields p.candidate.artifactHash (hs.digest p.checkpoint) p.metrics,
        a.2) a.1 = result) :
    finish hs s v st parent batch jobId w a =
      { s.called (work hs s.blobs parent w).1 batch.batchHash with
        service := result.1
        returned := s.returned ++ (result.2.bind fun st' =>
          (st'.completed.get? batch.batchHash).map (batch.batchHash, ·)).toList } := by
  subst hlog
  simp only [finish, hended, hlive]
  rfl

/-- **The executor has been called, and the job ends.** -/
theorem inv_finish (hv : Consistent (applyEvent hs s.blobs) {}
      (Sane hs (s.invoked ++ [batch.batchHash]) s.returned) v)
    (hlive : v.live = some (es, st)) (honly : st.pending = (∅ : Dict H H).set jobId batch.batchHash)
    (hnot : batch.batchHash ∉ st.quarantined) (hparent : st.parent = some parent)
    (hcandidate : ∀ p ∈ w.product,
      PolicyFields.Follows hs.versionHash parent.toPolicyFields p.candidate.toPolicyFields →
        p.candidate.schemaVersion = policySchema)
    (hreturns : Returns a.1 = true) (honce : (s.invoked ++ [batch.batchHash]).Nodup) :
    Inv hs (finish hs s v st parent batch jobId w a) := by
  have hclean : a.1.clean = true := by
    cases hf : a.1 with
    | failed durable => rw [hf] at hreturns; cases hreturns
    | _ => rfl
  have hnofail : Returns a.1 = false → st.pending = ∅ := by
    rw [hreturns]
    intro h
    cases h
  have hpending : st.pending.get? jobId = some batch.batchHash := by
    rw [honly]
    exact Dict.get?_set_self _ _ _
  have hidle : st.pending.erase jobId = ∅ := by
    rw [honly]
    exact Dict.eq_empty_of_entries (Dict.entries_erase_cons rfl)
  have hworked := work_spec hs s.blobs parent w
  have hv' := hv.change (applyEvent_kept hworked.kept)
  have hsane := hv.holds hlive
  cases hended : (work hs s.blobs parent w).2 with
  | crashed =>
    have heq : finish hs s v st parent batch jobId w a =
        { s.called (work hs s.blobs parent w).1 batch.batchHash with
          service := ⟨v.durable, none⟩ } := by
      simp only [finish, hended]
    rw [heq]
    exact ⟨.killed hv', honce⟩
  | raised =>
    have heq : finish hs s v st parent batch jobId w a =
        { s.called (work hs s.blobs parent w).1 batch.batchHash with
          service := ((s.called (work hs s.blobs parent w).1 batch.batchHash).log hs v es st
            (.jobQuarantined jobId batch.batchHash w.reason false) a).1 } := by
      simp only [finish, hended, hlive]
    rw [heq]
    refine ⟨?_, honce⟩
    exact Good.log (s := s.called (work hs s.blobs parent w).1 batch.batchHash) hv' hlive
      (if_pos hpending) hclean (hsane.quarantined hpending w.reason false a.2) hidle hnofail
  | product p =>
    obtain ⟨hproduct, hfollows, hartifact, hcheckpoint⟩ := hworked.product p hended
    obtain ⟨c, hc⟩ := isSome_iff_exists.mp
      ((fromDict_isSome_iff p.candidate).mpr (hcandidate p hproduct hfollows))
    have happly := applyEvent_completed (M := M) hpending hparent hc hfollows hartifact hcheckpoint
      p.metrics a.2
    have hdone := hsane.completed hidle hpending hnot c
      (receiptOf hs jobId batch.batchHash (hs.versionHash parent.toPolicyFields) c
        p.candidate.artifactHash (hs.digest p.checkpoint) p.metrics a.2)
      (e := (.jobCompleted jobId batch.batchHash (hs.versionHash parent.toPolicyFields)
        p.candidate.toPolicyFields p.candidate.artifactHash (hs.digest p.checkpoint) p.metrics,
        a.2)) rfl
    have hlogged := hv'.attempt hlive happly hclean hdone
    refine ⟨?_, ?_⟩
    · rcases hv'.attempt_cases hlive happly hclean with ⟨-, hlog⟩ | ⟨hf, -⟩ | ⟨durable, -, hlog⟩
      · rw [hlog] at hlogged
        rw [finish_product hended hlive hlog]
        show Good hs _ _ (s.returned ++ (Option.map _
          ((st.completed.set batch.batchHash _).get? batch.batchHash)).toList) _
        rw [Dict.get?_set_self]
        refine ⟨hlogged.of_live rfl (hdone.handed (Dict.get?_set_self _ _ _)), ?_⟩
        intro es' st' h
        obtain ⟨-, rfl⟩ := Prod.mk.inj (Option.some.inj h)
        exact hidle
      · rw [hf] at hreturns
        cases hreturns
      · rw [hlog] at hlogged
        rw [finish_product hended hlive hlog]
        show Good hs _ _ (s.returned ++ []) _
        rw [append_nil]
        exact ⟨hlogged, fun es st h => by cases h⟩
    · simp only [finish, hended, hlive]
      exact honce

variable {last start : Append H}

theorem inv_execute (h : Inv hs s) (hlive : s.service.live = some (es, st))
    (hsound : Sound hs s (.execute batch start w last)) :
    Inv hs (execute hs s es st batch start w last) := by
  obtain ⟨hclean, hreturns, hcandidate⟩ := hsound
  have hv := h.service.consistent
  have hsane := hv.holds hlive
  have hidle := h.service.idle es st hlive
  cases hcompleted : st.completed.get? batch.batchHash with
  | some receipt =>
    simp only [execute, hcompleted]
    exact ⟨⟨hv.of_live hlive (hsane.handed hcompleted), h.service.idle⟩, h.once⟩
  | none =>
    cases hparent : st.parent with
    | none =>
      simp only [execute, hcompleted, hparent]
      exact h
    | some parent =>
      simp only [execute, hcompleted, hparent]
      split
      · exact h
      · next hguard =>
        have hnot : batch.batchHash ∉ st.quarantined := fun hmem => hguard (.inl hmem)
        have hnew : batch.batchHash ∉ s.invoked := hsane.untried hidle hcompleted hnot
        have hstarted := hsane.started hidle hcompleted (b := batch.batchHash)
          (j := hs.jobId batch.batchHash (hs.versionHash parent.toPolicyFields) (es.length + 1))
          (hs.versionHash parent.toPolicyFields) start.2
        have happly := applyEvent_started hs s.blobs hparent hidle hcompleted
          (hs.jobId batch.batchHash (hs.versionHash parent.toPolicyFields) (es.length + 1)) start.2
        have hcalled := hv.attempt hlive happly hclean (hstarted.called (subset_append_left _ _))
        rcases hv.attempt_cases hlive happly hclean with ⟨-, hlog⟩ | ⟨-, hlog⟩ | ⟨durable, -, hlog⟩
        · rw [State.log, hlog]
          rw [hlog] at hcalled
          refine inv_finish (hcalled.of_live rfl hstarted) rfl ?_ hnot hparent ?_ hreturns ?_
          · show st.pending.set _ _ = _
            rw [hidle]
          · intro p hp hfollows
            exact hcandidate p hp es st parent hlive hparent hfollows
          · rw [nodup_append_comm, singleton_append, nodup_cons]
            exact ⟨hnew, h.once⟩
        · rw [State.log, hlog]
          exact h
        · rw [State.log, hlog]
          rw [hlog] at hcalled
          exact ⟨⟨hcalled, fun es st h => by cases h⟩, h.once⟩

theorem inv_init {s : State H B M} (h : (learnerService hs).Init s) : Inv hs s := by
  obtain rfl : s = ⟨⟨[], none⟩, ∅, [], []⟩ := h
  refine ⟨⟨⟨⟨{}, rfl, ?_⟩, fun es st h => ?_⟩, fun es st h => ?_⟩, nodup_nil⟩
  · refine ⟨fun j b hget => ?_, fun b hb => ?_, fun b hb => ?_, fun b r hr => ?_, .nil, rfl⟩
    · cases hget
    · cases hb
    · cases hb
    · cases hr
  · cases h
  · cases h

theorem inv_step (h : Inv hs s) {l : Label H B M} (hsound : Sound hs s l)
    (hstep : (learnerService hs).step s l = some s') : Inv hs s' := by
  cases l with
  | create parent a =>
    change (if _ then some (create hs s parent a) else none) = some s' at hstep
    split at hstep
    · next hempty =>
      cases hstep
      exact inv_create h hempty.1 hsound a
    · cases hstep
  | recover as =>
    change (if _ then none else some (recover hs s as)) = some s' at hstep
    split at hstep
    · cases hstep
    · cases hstep
      exact inv_recover h as
  | execute batch start w last =>
    obtain ⟨⟨es, st⟩, hlive, rfl⟩ := map_eq_some_iff.mp hstep
    exact inv_execute h hlive hsound
  | advanceParent policy a =>
    obtain ⟨⟨es, st⟩, hlive, rfl⟩ := map_eq_some_iff.mp hstep
    exact inv_advanceParent h hlive hsound

omit [DecidableEq B] in
theorem Inv.laws (h : Inv hs s) : LearnerLaws hs s := by
  obtain ⟨st, hreplay, hsane⟩ := h.service.consistent.opens
  refine ⟨h.once, fun b r r' hr hr' => ?_, st, hreplay, fun es st' as hlive => ?_,
    hsane.receipts, fun b hb => ?_, hsane.lineage⟩
  · exact Option.some.inj ((hsane.receipts b r hr).symm.trans (hsane.receipts b r' hr'))
  · obtain ⟨-, hreplay'⟩ := h.service.consistent.agrees es st' hlive
    obtain rfl : st' = st := Option.some.inj (hreplay'.symm.trans hreplay)
    exact ⟨rfl, h.service.recover_eq hlive as⟩
  · rw [Dict.contains, hsane.apart b hb]
    rfl

end

/-! ### Runs -/

def sampleHashes : Hashes Nat Nat where
  digest := id
  versionHash := fun p => p.version.toInt.toNat
  jobId := fun _ _ n => n

end Rosclaw.Continual.LearnerService
