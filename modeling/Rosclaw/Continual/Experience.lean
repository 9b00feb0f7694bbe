/-
How a replay batch is divided among the partitions (`continual/experience.py`).

* **`apportion_laws`** — the loops end, and the counts are positive, sum to the batch size and are
  ordered as the weights are.
-/
import Mathlib.Algebra.Order.Floor.Ring
import Mathlib.Data.List.MinMax
import Mathlib.Data.Prod.Lex
import Mathlib.Data.Rat.Floor
import Mathlib.Tactic.Linarith
import Rosclaw.Lib.While

namespace Rosclaw.Continual

open Function List

inductive ExperiencePartition
  | recent | anchor | boundary | self
deriving DecidableEq, Repr

/-- The order of `to_dict()`, which is that of the enumeration. -/
def partitions : List ExperiencePartition := [.recent, .anchor, .boundary, .self]

structure ReplayMix where
  recent : ℚ := 1 / 2
  anchor : ℚ := 1 / 4
  boundary : ℚ := 3 / 20
  self_ : ℚ := 1 / 10
  positive : 0 < recent ∧ 0 < anchor ∧ 0 < boundary ∧ 0 < self_
  sum_one : recent + anchor + boundary + self_ = 1

def ReplayMix.toDict (mix : ReplayMix) : ExperiencePartition → ℚ
  | .recent => mix.recent
  | .anchor => mix.anchor
  | .boundary => mix.boundary
  | .self => mix.self_

abbrev Counts : Type := ExperiencePartition → Int

/-- `sum(counts.values())`. -/
def Counts.total (counts : Counts) : Int := (partitions.map counts).sum

inductive ApportionError
  /-- `batch_size is too small for the configured replay mix` -/
  | tooSmall
  /-- `max()` of no partitions. -/
  | noPartitions
deriving DecidableEq, Repr

/-- The first loop takes one from the partition that is most above its share. -/
def takeOne (raw : ExperiencePartition → ℚ) (counts : Counts) : Except ApportionError Counts :=
  let eligible := partitions.filter fun p => 1 < counts p
  match eligible.argmin fun p => raw p - counts p with
  | none => .error .tooSmall
  | some selected => .ok (Function.update counts selected (counts selected - 1))

/-- The second loop gives one to the partition that is most below its share. -/
def giveOne (raw : ExperiencePartition → ℚ) (counts : Counts) : Except ApportionError Counts :=
  match partitions.argmax fun p => toLex (raw p - counts p, -(partitions.idxOf p : ℚ)) with
  | none => .error .noPartitions
  | some selected => .ok (Function.update counts selected (counts selected + 1))

/-- `_apportion`, if each loop ends within so many rounds. -/
def apportion (fuel : Nat) (batchSize : Int) (weights : ExperiencePartition → ℚ) :
    Option (Except ApportionError Counts) :=
  let raw := fun p => batchSize * weights p
  let counts : Counts := fun p => max 1 ⌊raw p⌋
  (While.loop (fun c : Counts => batchSize < c.total) (takeOne raw) fuel counts).bind fun
    | .error e => some (.error e)
    | .ok counts => While.loop (fun c : Counts => c.total < batchSize) (giveOne raw) fuel counts

/-! ## One correction -/

variable {raw : ExperiencePartition → ℚ} {counts : Counts}

/-- What both loops keep. -/
structure Fair (raw : ExperiencePartition → ℚ) (counts : Counts) : Prop where
  positive : ∀ p, 1 ≤ counts p
  ordered : ∀ p q, raw p < raw q → counts p ≤ counts q

theorem mem_partitions (p : ExperiencePartition) : p ∈ partitions := by
  cases p <;> decide

theorem total_eq (counts : Counts) : counts.total =
    counts .recent + counts .anchor + counts .boundary + counts .self := by
  simp only [Counts.total, partitions, map_cons, map_nil, sum_cons, sum_nil]
  omega

theorem total_update (counts : Counts) (p : ExperiencePartition) (n : Int) :
    Counts.total (Function.update counts p (counts p + n)) = counts.total + n := by
  rw [total_eq, total_eq]
  cases p <;> simp only [update_self, update_of_ne, ne_eq, reduceCtorEq,
    not_false_eq_true] <;> omega

theorem Fair.takeOne (h : Fair raw counts) (hmore : 4 < counts.total) :
    ∃ counts', Continual.takeOne raw counts = .ok counts' ∧ Fair raw counts' ∧
      counts'.total = counts.total - 1 := by
  unfold Continual.takeOne
  cases hsel : (partitions.filter fun p => 1 < counts p).argmin fun p => raw p - counts p with
  | none =>
    -- then all counts are 1
    rw [argmin_eq_none, filter_eq_nil_iff] at hsel
    have hone : ∀ p, counts p ≤ 1 := fun p => by simpa using hsel p (mem_partitions p)
    rw [total_eq] at hmore
    have h₁ := hone .recent
    have h₂ := hone .anchor
    have h₃ := hone .boundary
    have h₄ := hone .self
    omega
  | some selected =>
    have hmem := mem_filter.mp (argmin_mem hsel)
    have habove : 1 < counts selected := of_decide_eq_true hmem.2
    refine ⟨Function.update counts selected (counts selected - 1), by simp only [hsel],
      ⟨fun p => ?_, fun p q hlt => ?_⟩, total_update counts selected (-1)⟩
    · rw [update_apply]
      split_ifs
      · omega
      · exact h.positive p
    · have hle := h.ordered p q hlt
      by_cases hq : q = selected
      · subst hq
        have hne : p ≠ q := by
          rintro rfl
          exact lt_irrefl _ hlt
        rw [update_of_ne hne, update_self]
        -- of two equal counts the one with the smaller share is more above it
        have hdiff : counts p ≠ counts q := by
          intro heq
          have hp : p ∈ partitions.filter fun p => 1 < counts p :=
            mem_filter.mpr ⟨mem_partitions p, by rw [heq]; exact hmem.2⟩
          have hmin := le_of_mem_argmin hp hsel
          rw [heq] at hmin
          linarith
        omega
      · rw [update_of_ne hq, update_apply]
        split_ifs with hp
        · subst hp
          omega
        · exact hle

theorem Fair.giveOne (h : Fair raw counts) :
    ∃ counts', Continual.giveOne raw counts = .ok counts' ∧ Fair raw counts' ∧
      counts'.total = counts.total + 1 := by
  unfold Continual.giveOne
  cases hsel : partitions.argmax fun p =>
      toLex (raw p - counts p, -(partitions.idxOf p : ℚ)) with
  | none =>
    rw [argmax_eq_none] at hsel
    cases hsel
  | some selected =>
    refine ⟨Function.update counts selected (counts selected + 1), by simp only,
      ⟨fun p => ?_, fun p q hlt => ?_⟩, total_update counts selected 1⟩
    · have hp := h.positive p
      rw [update_apply]
      split_ifs with heq
      · subst heq
        omega
      · exact hp
    · have hle := h.ordered p q hlt
      by_cases hp : p = selected
      · subst hp
        have hne : q ≠ p := by
          rintro rfl
          exact lt_irrefl _ hlt
        rw [update_of_ne hne, update_self]
        -- of two equal counts the one with the larger share is more below it
        have hdiff : counts p ≠ counts q := by
          intro heq
          have hmax := le_of_mem_argmax (mem_partitions q) hsel
          have hfst := Prod.Lex.monotone_fst _ _ hmax
          have hfst : raw q - counts q ≤ raw p - counts p := hfst
          rw [heq] at hfst
          linarith
        omega
      · rw [update_of_ne hp, update_apply]
        split_ifs with hq
        · subst hq
          omega
        · exact hle

/-! ## The loops -/

theorem Fair.start (raw : ExperiencePartition → ℚ) : Fair raw fun p => max 1 ⌊raw p⌋ where
  positive := fun _ => le_max_left _ _
  ordered := fun _ _ hlt => max_le_max le_rfl (Int.floor_le_floor hlt.le)

/-- For every mix and every batch that has room for all partitions, the counts are found, and they
are fair. -/
theorem apportion_laws (mix : ReplayMix) (batchSize : Int) (hroom : partitions.length ≤ batchSize) :
    ∃ counts : Counts,
      While.Yields (fun fuel => apportion fuel batchSize mix.toDict) (.ok counts) ∧
      counts.total = batchSize ∧ (∀ p, 1 ≤ counts p) ∧
      ∀ p q, mix.toDict p < mix.toDict q → counts p ≤ counts q := by
  have hroom : 4 ≤ batchSize := hroom
  have hscale : (0 : ℚ) < batchSize := by exact_mod_cast (by omega : 0 < batchSize)
  have horder : ∀ p q, mix.toDict p < mix.toDict q →
      batchSize * mix.toDict p < batchSize * mix.toDict q := fun p q hlt =>
    mul_lt_mul_of_pos_left hlt hscale
  -- the first loop goes down to the batch size, or starts below it
  obtain ⟨c₁, hrun₁, hfair₁, hend₁⟩ := While.loop_spec
    (b := takeOne fun p => batchSize * mix.toDict p)
    (g := fun c : Counts => batchSize < c.total) (I := Fair fun p => batchSize * mix.toDict p)
    (fun c : Counts => (c.total - batchSize).toNat)
    (fun c hfair hguard => by
      have hguard := of_decide_eq_true hguard
      obtain ⟨c', hc', hfair', htotal⟩ := hfair.takeOne (by omega)
      exact ⟨c', hc', hfair', by omega⟩)
    (Fair.start _)
  have hend₁ : c₁.total ≤ batchSize := not_lt.mp (of_decide_eq_false hend₁)
  -- the second goes up to it
  obtain ⟨c₂, hrun₂, ⟨hfair₂, hle⟩, hend₂⟩ := While.loop_spec
    (b := giveOne fun p => batchSize * mix.toDict p)
    (g := fun c : Counts => c.total < batchSize)
    (I := fun c => Fair (fun p => batchSize * mix.toDict p) c ∧ c.total ≤ batchSize)
    (fun c : Counts => (batchSize - c.total).toNat)
    (fun c hI hguard => by
      have hguard := of_decide_eq_true hguard
      obtain ⟨c', hc', hfair', htotal⟩ := hI.1.giveOne
      exact ⟨c', hc', ⟨hfair', by omega⟩, by omega⟩)
    ⟨hfair₁, hend₁⟩
  have hend₂ : batchSize ≤ c₂.total := not_lt.mp (of_decide_eq_false hend₂)
  exact ⟨c₂, hrun₁.bind hrun₂, le_antisymm hle hend₂, hfair₂.positive,
    fun p q hlt => hfair₂.ordered p q (horder p q hlt)⟩

def defaultMix : ReplayMix where
  positive := by norm_num
  sum_one := by norm_num

theorem apportion_laws_default :
    (partitions.length : Int) ≤ 8 ∧ ∃ counts : Counts,
      While.Yields (fun fuel => apportion fuel 8 defaultMix.toDict) (.ok counts) ∧
      counts.total = 8 ∧ (∀ p, 1 ≤ counts p) ∧
      ∀ p q, defaultMix.toDict p < defaultMix.toDict q → counts p ≤ counts q :=
  ⟨by decide, apportion_laws defaultMix 8 (by decide)⟩

end Rosclaw.Continual
