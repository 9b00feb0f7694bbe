/-
What a step that is completed says (`integrations/lerobot/execution/feedback_verifier.py`,
`integrations/lerobot/execution/executor.py`).

A sample passes exactly if every actuator has a position in the list and no reading speaks against
it (`stepOk_iff`): a reading that is missing does not.

* **`feedback_laws`** — a sample keeps the promises of the verifier and of the executor exactly if
  its positions or the target are too few, or it is complete and passes, or it fails and the
  command was not delivered.
-/
import Rosclaw.Lerobot.FeedbackVerifier

namespace Rosclaw.Lerobot

open RH56

variable {R : Type*} [Field R] [LinearOrder R]

/-! ## The promises and their condition -/

section

variable (v : FeedbackVerifier R) (target : List R) (feedback : Sample R)

/-- The actuator has all four readings, and they are within the limits. -/
structure Proven (name : String) (i : Nat) : Prop where
  position : ∃ t p, target[i]? = some t ∧ reading feedback.position i = some p ∧
    |p - t| ≤ v.tolerance name
  force : ∃ f, reading feedback.forceG i = some f ∧ f ≤ v.hardLimit
  temperature : ∃ c, reading feedback.temperatureC i = some c ∧ c < v.stopC
  status : ∃ s, feedback.statusBits[i]? = some s ∧ Int.land s statusProtectionMask = 0

/-- Some of the readings of `l` are missing in `l'`: the list is shorter, or they are NaN. -/
def FewerReadings (l' l : List (Option R)) : Prop :=
  l'.length ≤ l.length ∧ ∀ i r, reading l' i = some r → reading l i = some r

structure Fewer (feedback' feedback : Sample R) : Prop where
  position : FewerReadings feedback'.position feedback.position
  force : FewerReadings feedback'.forceG feedback.forceG
  current : FewerReadings feedback'.currentMa feedback.currentMa
  temperature : FewerReadings feedback'.temperatureC feedback.temperatureC
  status : ∀ (i : Nat) s, feedback'.statusBits[i]? = some s → feedback.statusBits[i]? = some s

def Completed (forceLimitG : R) (acknowledged : Bool) (last : CommandDelivery) : Prop :=
  (executeCandidate v target forceLimitG none (.done acknowledged feedback) last).status =
    .completed

structure Keeps (forceLimitG : R) (acknowledged : Bool) (last : CommandDelivery) : Prop where
  sound : FeedbackVerifier.isStepOk (v.verify target feedback forceLimitG) = true →
    ∀ (i : Nat) name, v.names[i]? = some name → Proven v target feedback name i
  monotone : FeedbackVerifier.isStepOk (v.verify target feedback forceLimitG) = false →
    ∀ feedback', Fewer feedback' feedback →
      ¬ Completed v target feedback' forceLimitG acknowledged last

/-- The target and the positions reach to every actuator. -/
def Long : Prop := v.names.length ≤ target.length ∧ v.names.length ≤ feedback.position.length

/-- No reading of the actuator is outside the limits. -/
structure Unrefuted (name : String) (i : Nat) : Prop where
  position : ∀ t p, target[i]? = some t → reading feedback.position i = some p →
    |p - t| ≤ v.tolerance name
  force : ∀ f, reading feedback.forceG i = some f → f ≤ v.hardLimit
  temperature : ∀ c, reading feedback.temperatureC i = some c → c < v.stopC
  status : ∀ s, feedback.statusBits[i]? = some s → Int.land s statusProtectionMask = 0

/-- The command arrived, as far as is known. -/
def Delivered (acknowledged : Bool) (last : CommandDelivery) : Prop :=
  acknowledged = true ∨ last = .deliveryInferred

/-- The lists are too short, or all readings are there and within the limits, or one is outside and
the command did not arrive. -/
def Clear (acknowledged : Bool) (last : CommandDelivery) : Prop :=
  ¬ Long v target feedback ∨
    (∀ (i : Nat) name, v.names[i]? = some name → Proven v target feedback name i) ∨
    (¬ Delivered acknowledged last ∧
      ∃ (i : Nat), ∃ name, v.names[i]? = some name ∧ ¬ Unrefuted v target feedback name i)

end

/-! ## When a sample passes -/

variable {v : FeedbackVerifier R} {target : List R} {feedback : Sample R} {forceLimitG : R}
  {acknowledged : Bool} {last : CommandDelivery}

omit [Field R] [LinearOrder R] in
theorem checkAll_fst {names : List String} {check : String → Nat → Check R} :
    (checkAll names check).1 = true ↔
      ∀ (i : Nat) name, names[i]? = some name → (check name i).1 = true := by
  show (names.zipIdx.map fun e => check e.1 e.2).all (·.1) = true ↔ _
  rw [List.all_map, List.all_eq_true]
  constructor
  · intro h i name hname
    exact h (name, i) (List.mem_zipIdx_iff_getElem?.mpr hname)
  · rintro h ⟨name, i⟩ hmem
    exact h i name (List.mem_zipIdx_iff_getElem?.mp hmem)

variable {i : Nat} {name : String}

theorem checkPosition_fst : (v.checkPosition target feedback name i).1 = true ↔
      i < target.length ∧ i < feedback.position.length ∧
        ∀ t p, target[i]? = some t → reading feedback.position i = some p →
          |p - t| ≤ v.tolerance name := by
  unfold FeedbackVerifier.checkPosition reading
  by_cases ht : i < target.length
  · by_cases hp : i < feedback.position.length
    · rw [List.getElem?_eq_getElem ht, List.getElem?_eq_getElem hp]
      cases feedback.position[i] with
      | none => simp [ht, hp]
      | some p =>
        by_cases herror : |p - target[i]| > v.tolerance name
        · simp [ht, hp, herror]
        · have hle := not_lt.mp herror
          simp [ht, hp, hle, not_lt.mpr hle]
    · rw [List.getElem?_eq_none (not_lt.mp hp)]
      cases target[i]? <;> simp [hp]
  · rw [List.getElem?_eq_none (not_lt.mp ht)]
    simp [ht]

theorem checkForce_fst : (v.checkForce feedback forceLimitG name i).1 = true ↔
      ∀ f, reading feedback.forceG i = some f → f ≤ v.hardLimit := by
  unfold FeedbackVerifier.checkForce
  cases reading feedback.forceG i with
  | none => simp
  | some f =>
    by_cases hf : f > v.hardLimit
    · simp [hf]
    · by_cases hl : f > forceLimitG <;> simp [hf, hl, not_lt.mp hf]

theorem checkTemperature_fst : (v.checkTemperature feedback name i).1 = true ↔
      ∀ c, reading feedback.temperatureC i = some c → c < v.stopC := by
  unfold FeedbackVerifier.checkTemperature
  cases reading feedback.temperatureC i with
  | none => simp
  | some c =>
    by_cases hc : c ≥ v.stopC
    · simp [hc]
    · by_cases hw : c ≥ v.warnC <;> simp [hc, hw, not_le.mp hc]

omit [Field R] [LinearOrder R] in
theorem checkStatus_fst : (FeedbackVerifier.checkStatus feedback name i).1 = true ↔
      ∀ s, feedback.statusBits[i]? = some s → Int.land s statusProtectionMask = 0 := by
  unfold FeedbackVerifier.checkStatus
  cases feedback.statusBits[i]? with
  | none => simp
  | some s => by_cases hs : Int.land s statusProtectionMask = 0 <;> simp [hs]

/-- **A sample passes** if it reaches to every actuator and no reading speaks against it. -/
theorem stepOk_iff : FeedbackVerifier.isStepOk (v.verify target feedback forceLimitG) = true ↔
    Long v target feedback ∧
      ∀ (i : Nat) name, v.names[i]? = some name → Unrefuted v target feedback name i := by
  have hlong : Long v target feedback ↔ ∀ (i : Nat) name, v.names[i]? = some name →
      i < target.length ∧ i < feedback.position.length := by
    constructor
    · intro h i name hname
      have hi := (List.getElem?_eq_some_iff.mp hname).1
      exact ⟨lt_of_lt_of_le hi h.1, lt_of_lt_of_le hi h.2⟩
    · intro h
      -- the last actuator needs the longest lists
      rcases Nat.eq_zero_or_pos v.names.length with hzero | hpos
      · exact ⟨by omega, by omega⟩
      · have hlast := h (v.names.length - 1) _ (List.getElem?_eq_getElem (by omega))
        exact ⟨by omega, by omega⟩
  simp only [FeedbackVerifier.isStepOk, FeedbackVerifier.verify, Bool.and_eq_true, checkAll_fst,
    checkPosition_fst, checkForce_fst, checkTemperature_fst, checkStatus_fst, hlong]
  constructor
  · rintro ⟨⟨⟨hp, hf⟩, hc⟩, hs⟩
    exact ⟨fun i name hn => ⟨(hp i name hn).1, (hp i name hn).2.1⟩, fun i name hn =>
      ⟨(hp i name hn).2.2, hf i name hn, hc i name hn, hs i name hn⟩⟩
  · rintro ⟨hl, hu⟩
    exact ⟨⟨⟨fun i name hn => ⟨(hl i name hn).1, (hl i name hn).2, (hu i name hn).position⟩,
      fun i name hn => (hu i name hn).force⟩, fun i name hn => (hu i name hn).temperature⟩,
      fun i name hn => (hu i name hn).status⟩

theorem completed_iff : Completed v target feedback forceLimitG acknowledged last ↔
    FeedbackVerifier.isStepOk (v.verify target feedback forceLimitG) = true ∧
      Delivered acknowledged last := by
  have hdelivered : (acknowledged || decide (commandDelivery acknowledged last =
      .deliveryInferred)) = true ↔ Delivered acknowledged last := by
    cases acknowledged <;> cases last <;> simp [commandDelivery, Delivered]
  rw [Completed, executeCandidate, verifyStep, ← hdelivered, ← Bool.and_eq_true]
  cases FeedbackVerifier.isStepOk (v.verify target feedback forceLimitG) &&
    (acknowledged || decide (commandDelivery acknowledged last = .deliveryInferred)) <;> simp

/-! ## Less evidence -/

/-- A sample of which nothing can be read, but with as many positions. -/
def blind (feedback : Sample R) : Sample R :=
  ⟨List.replicate feedback.position.length none, [], [], [], []⟩

omit [Field R] [LinearOrder R] in
theorem reading_replicate (n i : Nat) : reading (List.replicate n (none : Option R)) i = none := by
  unfold reading
  rw [List.getElem?_replicate]
  split_ifs <;> rfl

omit [Field R] [LinearOrder R] in
theorem fewer_blind (feedback : Sample R) : Fewer (blind feedback) feedback where
  position := ⟨by simp [blind], fun i r h => by simp [blind, reading_replicate] at h⟩
  force := ⟨by simp [blind], fun i r h => by simp [blind, reading] at h⟩
  current := ⟨by simp [blind], fun i r h => by simp [blind, reading] at h⟩
  temperature := ⟨by simp [blind], fun i r h => by simp [blind, reading] at h⟩
  status := fun i s h => by simp [blind] at h

/-- Nothing speaks against a sample that cannot be read. -/
theorem stepOk_blind (h : Long v target feedback) :
    FeedbackVerifier.isStepOk (v.verify target (blind feedback) forceLimitG) = true := by
  refine stepOk_iff.mpr ⟨⟨h.1, by simpa [blind] using h.2⟩, fun i name _ => ⟨?_, ?_, ?_, ?_⟩⟩
  · intro t p _ hp
    simp [blind, reading_replicate] at hp
  · intro f hf
    simp [blind, reading] at hf
  · intro c hc
    simp [blind, reading] at hc
  · intro s hs
    simp [blind] at hs

omit [LinearOrder R] in
theorem long_of_fewer {feedback' : Sample R} (hf : Fewer feedback' feedback)
    (h : Long v target feedback') : Long v target feedback := ⟨h.1, h.2.trans hf.position.1⟩

theorem unrefuted_of_proven (h : Proven v target feedback name i) :
    Unrefuted v target feedback name i := by
  obtain ⟨⟨t, p, ht, hp, hle⟩, ⟨f, hf, hfl⟩, ⟨c, hc, hcl⟩, ⟨s, hs, hsl⟩⟩ := h
  refine ⟨fun t' p' ht' hp' => ?_, fun f' hf' => ?_, fun c' hc' => ?_, fun s' hs' => ?_⟩
  · obtain rfl := Option.some.inj (ht.symm.trans ht')
    obtain rfl := Option.some.inj (hp.symm.trans hp')
    exact hle
  · obtain rfl := Option.some.inj (hf.symm.trans hf')
    exact hfl
  · obtain rfl := Option.some.inj (hc.symm.trans hc')
    exact hcl
  · obtain rfl := Option.some.inj (hs.symm.trans hs')
    exact hsl

/-! ## The theorem -/

/-- A sample keeps the promises if and only if the target or its positions are too few, or all its
readings are there and within the limits, or one is outside them and the command did not arrive. -/
theorem feedback_laws (v : FeedbackVerifier R) (target : List R) (feedback : Sample R)
    (forceLimitG : R) (acknowledged : Bool) (last : CommandDelivery) :
    Keeps v target feedback forceLimitG acknowledged last ↔
      Clear v target feedback acknowledged last := by
  by_cases hlong : Long v target feedback
  · cases hok : FeedbackVerifier.isStepOk (v.verify target feedback forceLimitG) with
    | true =>
      have hun := (stepOk_iff.mp hok).2
      constructor
      · exact fun h => .inr (.inl (h.sound hok))
      · rintro (hshort | hproven | ⟨-, i, name, hname, hno⟩)
        · exact absurd hlong hshort
        · exact ⟨fun _ => hproven, fun hno => absurd (hok.symm.trans hno) (by decide)⟩
        · exact absurd (hun i name hname) hno
    | false =>
      have hfail : ¬ ∀ (i : Nat) name, v.names[i]? = some name →
          Unrefuted v target feedback name i := by
        intro hun
        rw [stepOk_iff.mpr ⟨hlong, hun⟩] at hok
        cases hok
      constructor
      · intro h
        -- the sample that cannot be read would complete the step
        have hno : ¬ Delivered acknowledged last := fun hd =>
          h.monotone hok _ (fewer_blind feedback) (completed_iff.mpr ⟨stepOk_blind hlong, hd⟩)
        push Not at hfail
        exact .inr (.inr ⟨hno, hfail⟩)
      · rintro (hshort | hproven | ⟨hno, -⟩)
        · exact absurd hlong hshort
        · exact absurd (fun i name hname => unrefuted_of_proven (hproven i name hname)) hfail
        · exact ⟨fun h => absurd (hok.symm.trans h) (by decide),
            fun _ feedback' _ hc => hno (completed_iff.mp hc).2⟩
  · -- too short, and so is every sample with less
    refine iff_of_true ⟨fun h => absurd (stepOk_iff.mp h).1 hlong, fun _ feedback' hf hc => ?_⟩
      (.inl hlong)
    exact hlong (long_of_fewer hf (stepOk_iff.mp (completed_iff.mp hc).1).1)

/-! ## A finger of which only the position is known -/

def oneFinger : FeedbackVerifier ℚ where
  profile :=
    { id := "one_finger"
      transport := ⟨.serialModbusRtu, "/dev/ttyUSB0", ""⟩
      command := ⟨1, (0, 1000), ((∅ : Dict String Int).set "closed" 0).set "open" 1000⟩
      actionOrder := ["index"] }
  calibration := none

/-- Overheated, overloaded and under protection. -/
def alarmed : Sample ℚ := ⟨[some 500], [some 400], [some 0], [0x08], [some 90]⟩

def silenced : Sample ℚ := ⟨[some 500], [], [some 0], [], []⟩

/-- A finger that must not go on fails, and without the readings that say so the step is
completed. -/
theorem silenced_completes :
    FeedbackVerifier.isStepOk (oneFinger.verify [500] alarmed 100) = false ∧
      Fewer silenced alarmed ∧ Completed oneFinger [500] silenced 100 true .protocolAcknowledged ∧
      ¬ Keeps oneFinger [500] alarmed 100 true .protocolAcknowledged ∧
      ¬ Keeps oneFinger [500] silenced 100 true .protocolAcknowledged := by
  have hfail : FeedbackVerifier.isStepOk (oneFinger.verify [500] alarmed 100) = false := by
    decide +kernel
  have hpass : FeedbackVerifier.isStepOk (oneFinger.verify [500] silenced 100) = true := by
    decide +kernel
  have hfewer : Fewer silenced alarmed :=
    ⟨⟨le_rfl, fun _ _ h => h⟩, ⟨by decide, fun _ _ h => by simp [silenced, reading] at h⟩,
      ⟨le_rfl, fun _ _ h => h⟩, ⟨by decide, fun _ _ h => by simp [silenced, reading] at h⟩,
      fun _ _ h => by simp [silenced] at h⟩
  have hdone : Completed oneFinger [500] silenced 100 true .protocolAcknowledged :=
    completed_iff.mpr ⟨hpass, .inl rfl⟩
  refine ⟨hfail, hfewer, hdone, fun h => h.monotone hfail _ hfewer hdone, fun h => ?_⟩
  obtain ⟨f, hf, -⟩ := (h.sound hpass 0 "index" rfl).force
  simp [silenced, reading] at hf

end Rosclaw.Lerobot
