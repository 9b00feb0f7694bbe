/-
How much the receipt of an executed action claims (`_execute` and
`_acknowledgement_stage` of `kernel/action_gateway.py`).

The gateway normalises the evidence level and the final state an executor reports
before it writes them down; the acknowledgement stage it reads off the normalised
evidence, or else off the driver, or else off the raw report.

* `normalise_evidence` — the evidence level of the receipt, as a function of what
  the executor reported;
* `completed_of_normalise` — what a `COMPLETED` receipt proves;
* `assemble_neverOverclaims_iff` — the receipt claims no more than its evidence
  exactly when the executor's own stage is substantiated.
-/
import Rosclaw.Kernel.ActionGateway

namespace Rosclaw

/-! ### What an executor reports -/

/-- The reported evidence domain is the one of the mode; no domain is no conflict. -/
def domainMatches (a : ActionEnvelope) (result : ActionExecutionResult) : Bool :=
  match result.evidenceDomain with
  | none => true
  | some d => d = some (evidenceDomainForMode a.executionMode)

/-- The executor reports an observed effect in a mode and a domain in which the
gateway believes it. -/
def reportsObservation (a : ActionEnvelope) (result : ActionExecutionResult) : Bool :=
  a.executionMode ≠ .fixture && domainMatches a result &&
    result.evidenceLevel.any EvidenceLevel.isObserved

def AcknowledgementStage.rank : AcknowledgementStage → Nat
  | .requestAccepted => 0
  | .commandDispatched => 1
  | .protocolAcknowledged => 2
  | .deliveryInferred => 3
  | .effectObserved => 4
  | .taskVerified => 5

/-- The acknowledgement that the driver gave, or else the dispatch. -/
def dispatchAcknowledgement (result : ActionExecutionResult) : AcknowledgementStage :=
  match driverAcknowledgementStage result with
  | some s => s
  | none => if isTrue result.dispatchResult "accepted" then .commandDispatched else .requestAccepted

/-- Nothing in a receipt goes beyond its evidence. -/
structure NeverOverclaims (a : ActionEnvelope) (result : ActionExecutionResult)
    (receipt : ExecutionReceipt) : Prop where
  taskVerified : receipt.acknowledgementStage = .taskVerified →
    receipt.evidenceLevel = .taskVerified
  effectObserved : receipt.acknowledgementStage = .effectObserved →
    receipt.evidenceLevel = .physicallyObserved ∨ receipt.evidenceLevel = .taskVerified
  completed : receipt.finalState = .completed →
    receipt.mode ≠ .fixture ∧ receipt.evidenceDomain = evidenceDomainForMode a.executionMode ∧
      meetsEvidenceRequirement receipt.evidenceLevel a.verificationPolicy.requiredEvidence = true
  mismatch : domainMatches a result = false →
    receipt.finalState = .failed ∧
      receipt.evidenceLevel = (if a.executionMode = .fixture then .synthetic else .requested) ∧
      receipt.acknowledgementStage.rank ≤ (dispatchAcknowledgement result).rank

/-- The stage an executor reports on its own has support in the rest of its report:
without a driver's acknowledgement, an observed effect needs observed evidence, and a
dispatch needs a matching domain or an accepted dispatch. -/
def Substantiated (a : ActionEnvelope) (result : ActionExecutionResult) : Prop :=
  driverAcknowledgementStage result = none →
    match result.acknowledgementStage with
    | some .taskVerified | some .effectObserved => reportsObservation a result = true
    | some .commandDispatched =>
      domainMatches a result = true ∨ isTrue result.dispatchResult "accepted" = true
    | _ => True

/-! ### The normalised evidence and state -/

section Normalise

variable (a : ActionEnvelope) (result : ActionExecutionResult)

theorem checkDomain_of_matches {o : Outcome} (h : domainMatches a result = true) :
    checkDomain a result o = o := by
  unfold domainMatches at h
  unfold checkDomain
  rcases hd : result.evidenceDomain with _ | _ | d
  · rfl
  · simp [hd] at h
  · rw [hd] at h
    exact if_pos (Option.some_inj.mp (of_decide_eq_true h))

variable (o : Outcome)

theorem checkDomain_of_mismatch (h : domainMatches a result = false) :
    (checkDomain a result o).evidence = .requested ∧
      (checkDomain a result o).finalState = .failed := by
  unfold domainMatches at h
  unfold checkDomain
  rcases hd : result.evidenceDomain with _ | _ | d
  · simp [hd] at h
  · exact ⟨rfl, rfl⟩
  · rw [hd] at h
    have hne : d ≠ evidenceDomainForMode a.executionMode := by simpa using h
    simp only [if_neg hne]
    exact ⟨rfl, rfl⟩

theorem evidence_checkLevel : (checkLevel result).evidence = result.evidenceLevel.getD .requested := by
  unfold checkLevel
  cases result.evidenceLevel <;> rfl

theorem evidence_checkFixture : (checkFixture a o).evidence =
    if a.executionMode = .fixture then .synthetic else o.evidence := by
  unfold checkFixture
  split <;> rfl

theorem evidence_checkRequirement : (checkRequirement a o).evidence = o.evidence := by
  unfold checkRequirement
  dsimp only
  split <;> rfl

/-- **The evidence level of the receipt**: the reported one where mode and domain
allow it. -/
theorem normalise_evidence : (normalise a result).evidence =
    if a.executionMode = .fixture then .synthetic
    else if domainMatches a result then result.evidenceLevel.getD .requested else .requested := by
  rw [normalise, evidence_checkRequirement, evidence_checkFixture]
  by_cases hd : domainMatches a result = true
  · rw [checkDomain_of_matches a result hd, evidence_checkLevel, if_pos hd]
  · have hm := checkDomain_of_mismatch a result (checkLevel result) (by simpa using hd)
    rw [hm.1, if_neg hd]

theorem isObserved_normalise :
    (normalise a result).evidence.isObserved = reportsObservation a result := by
  rw [normalise_evidence, reportsObservation]
  by_cases hm : a.executionMode = .fixture
  · simp [hm, EvidenceLevel.isObserved]
  · by_cases hd : domainMatches a result = true
    · cases he : result.evidenceLevel with
      | none => simp [hm, hd, EvidenceLevel.isObserved]
      | some e => simp [hm, hd]
    · simp [hm, hd, EvidenceLevel.isObserved]

/-- **`COMPLETED` is earned**: not by a fixture, and with the evidence the action
requires. -/
theorem completed_of_normalise (h : (normalise a result).finalState = .completed) :
    a.executionMode ≠ .fixture ∧ meetsEvidenceRequirement (normalise a result).evidence
      a.verificationPolicy.requiredEvidence = true := by
  unfold normalise at h ⊢
  rw [evidence_checkRequirement]
  generalize hf : checkFixture a (checkDomain a result (checkLevel result)) = o at h ⊢
  have hmode : a.executionMode ≠ .fixture ∨ o.finalState ≠ .completed := by
    by_cases hm : a.executionMode = .fixture
    · right
      rw [← hf, checkFixture, if_pos hm]
      dsimp only
      split
      · simp
      · assumption
    · exact .inl hm
  by_cases hr : a.executionMode ≠ .fixture ∧ o.finalState = .completed ∧
      meetsEvidenceRequirement o.evidence a.verificationPolicy.requiredEvidence = false
  · rw [checkRequirement, if_pos hr] at h
    dsimp only at h
    split at h <;> contradiction
  · rw [checkRequirement, if_neg hr] at h
    have hm := hmode.resolve_right fun hc => hc h
    refine ⟨hm, ?_⟩
    cases he : meetsEvidenceRequirement o.evidence a.verificationPolicy.requiredEvidence with
    | true => rfl
    | false => exact absurd ⟨hm, h, he⟩ hr

theorem failed_of_mismatch (h : domainMatches a result = false) :
    (normalise a result).finalState = .failed := by
  have hm := (checkDomain_of_mismatch a result (checkLevel result) h).2
  unfold normalise
  generalize checkDomain a result (checkLevel result) = o at hm ⊢
  have hf : (checkFixture a o).finalState = .failed := by
    unfold checkFixture
    split
    · simp [hm]
    · exact hm
  rw [checkRequirement, if_neg fun hc => by simp [hf] at hc]
  exact hf

end Normalise

/-! ### The acknowledgement stage -/

variable {e : EvidenceLevel} {result : ActionExecutionResult}

theorem driverAcknowledgementStage_eq_some {s : AcknowledgementStage}
    (h : driverAcknowledgementStage result = some s) :
    s = .protocolAcknowledged ∨ s = .deliveryInferred := by
  have hfilter : ∀ {o : Option AcknowledgementStage} {s : AcknowledgementStage},
      o.filter (fun s => s = .protocolAcknowledged || s = .deliveryInferred) = some s →
      s = .protocolAcknowledged ∨ s = .deliveryInferred := by
    intro o s ho
    simpa using (Option.filter_eq_some_iff.mp ho).2
  unfold driverAcknowledgementStage at h
  dsimp only at h
  split at h
  · rename_i hreported
    exact Option.some_inj.mp h ▸ hfilter hreported
  · split at h
    · exact nomatch h
    · exact nomatch h
    · split at h
      · rename_i hparsed
        rw [Option.some_inj.mp h] at hparsed
        split at hparsed
        · exact hfilter hparsed
        · exact nomatch hparsed
      · exact .inl (Option.some_inj.mp h).symm
      · exact .inr (Option.some_inj.mp h).symm
      · exact nomatch h

/-- The stage below observed evidence: the driver's, the reported one, or the
dispatch. -/
theorem acknowledgementStageOf_of_not_observed (h : e.isObserved = false)
    (result : ActionExecutionResult) : acknowledgementStageOf result e =
      match driverAcknowledgementStage result, result.acknowledgementStage with
      | none, some s => s
      | _, _ => dispatchAcknowledgement result := by
  unfold acknowledgementStageOf dispatchAcknowledgement
  cases e with
  | taskVerified | physicallyObserved => exact nomatch h
  | _ => cases driverAcknowledgementStage result <;> cases result.acknowledgementStage <;> rfl

theorem acknowledgementStageOf_of_observed (h : e.isObserved = true)
    (result : ActionExecutionResult) :
    (e = .taskVerified ∧ acknowledgementStageOf result e = .taskVerified) ∨
      (e = .physicallyObserved ∧ acknowledgementStageOf result e = .effectObserved) := by
  cases e with
  | taskVerified => exact .inl ⟨rfl, rfl⟩
  | physicallyObserved => exact .inr ⟨rfl, rfl⟩
  | _ => exact nomatch h

theorem rank_dispatchAcknowledgement (result : ActionExecutionResult) :
    (dispatchAcknowledgement result).rank ≤ 3 := by
  unfold dispatchAcknowledgement
  split
  · rename_i s hs
    rcases driverAcknowledgementStage_eq_some hs with rfl | rfl <;> decide
  · split <;> decide

/-- Below observed evidence, the reported stage is substantiated exactly when the stage
of the receipt names no observation and, in a foreign domain, stays with the driver and
the dispatch. -/
theorem substantiated_iff_of_not_observed {a : ActionEnvelope}
    (h : reportsObservation a result = false) (he : e.isObserved = false) :
    Substantiated a result ↔ (acknowledgementStageOf result e).rank ≤ 3 ∧
      (domainMatches a result = false →
        (acknowledgementStageOf result e).rank ≤ (dispatchAcknowledgement result).rank) := by
  have hrank := rank_dispatchAcknowledgement result
  rw [acknowledgementStageOf_of_not_observed he, Substantiated, h]
  cases hd : driverAcknowledgementStage result with
  | some s => simpa using hrank
  | none =>
    have hdispatch : dispatchAcknowledgement result =
        if isTrue result.dispatchResult "accepted" then .commandDispatched
        else .requestAccepted := by
      rw [dispatchAcknowledgement, hd]
    cases hs : result.acknowledgementStage with
    | none => simpa using hrank
    | some s =>
      cases s with
      | protocolAcknowledged | deliveryInferred =>
        exact absurd hd (by simp [driverAcknowledgementStage, hs, Option.filter])
      | commandDispatched =>
        cases ha : isTrue result.dispatchResult "accepted" <;>
          cases domainMatches a result <;> simp [hdispatch, ha, AcknowledgementStage.rank]
      | _ => simp [AcknowledgementStage.rank]

/-- **A receipt claims no more than its evidence** exactly when the stage its executor
reported is substantiated. -/
theorem assemble_neverOverclaims_iff (e : Execution) (lease : ResourceLease)
    (result : ActionExecutionResult) (directory : Option PyStr) (r : Readings) :
    NeverOverclaims e.action result (e.assemble lease result directory r) ↔
      Substantiated e.action result := by
  have hlevel := isObserved_normalise e.action result
  have hcompleted := completed_of_normalise e.action result
  have hlevel' := normalise_evidence e.action result
  cases hobs : reportsObservation e.action result with
  | true =>
    have hmatches : domainMatches e.action result = true := by
      simp only [reportsObservation, Bool.and_eq_true] at hobs
      exact hobs.1.2
    have hstage := acknowledgementStageOf_of_observed (hlevel.trans hobs) result
    refine iff_of_true ⟨fun h => ?_, fun h => ?_, fun h => ?_, fun h => ?_⟩ fun _ => ?_
    · exact hstage.elim (·.1) fun hs => nomatch hs.2.symm.trans h
    · exact .inl (hstage.resolve_left fun hs => nomatch hs.2.symm.trans h).1
    · exact ⟨(hcompleted h).1, rfl, (hcompleted h).2⟩
    · simp [hmatches] at h
    · split
      · exact hobs
      · exact hobs
      · exact .inl hmatches
      · trivial
  | false =>
    have hnot := hlevel.trans hobs
    rw [substantiated_iff_of_not_observed hobs hnot]
    constructor
    · intro h
      refine ⟨?_, fun hd => (h.mismatch hd).2.2⟩
      cases hs : acknowledgementStageOf result (normalise e.action result).evidence with
      | taskVerified =>
        rw [show (normalise e.action result).evidence = _ from h.taskVerified hs] at hnot
        exact nomatch hnot
      | effectObserved =>
        rcases h.effectObserved hs with he | he <;>
        · rw [show (normalise e.action result).evidence = _ from he] at hnot
          exact nomatch hnot
      | _ => decide
    · rintro ⟨hrank, hmismatch⟩
      refine ⟨fun h => ?_, fun h => ?_, fun h => ?_, fun hd => ?_⟩
      · rw [show acknowledgementStageOf result _ = _ from h] at hrank
        exact absurd hrank (by decide)
      · rw [show acknowledgementStageOf result _ = _ from h] at hrank
        exact absurd hrank (by decide)
      · exact ⟨(hcompleted h).1, rfl, (hcompleted h).2⟩
      · refine ⟨failed_of_mismatch e.action result hd, ?_, hmismatch hd⟩
        show (normalise e.action result).evidence = _
        rw [hlevel', hd]
        rfl

/-- An executor that claims to have verified the task while its evidence is a
confirmed dispatch. -/
def selfVerified : ActionExecutionResult where
  finalState := .degraded
  evidenceLevel := some .dispatchConfirmed
  dispatchResult := [("accepted", .bool true)]
  acknowledgementStage := some .taskVerified

/-- Its receipt claims `TASK_VERIFIED` over `DISPATCH_CONFIRMED` evidence. -/
theorem selfVerified_overclaims :
    ∃ (e : Execution) (lease : ResourceLease) (r : Readings),
      (e.assemble lease selfVerified none r).acknowledgementStage = .taskVerified ∧
      (e.assemble lease selfVerified none r).evidenceLevel = .dispatchConfirmed ∧
      ¬ NeverOverclaims e.action selfVerified (e.assemble lease selfVerified none r) := by
  refine ⟨⟨.sample "a1" (by decide) .real (.str "p") default, .none, default, []⟩,
    ⟨"l", "b", "a1", default⟩, ⟨fun _ => default, fun _ => "", id⟩, rfl, rfl, fun h => ?_⟩
  exact nomatch h.taskVerified rfl

end Rosclaw
