/-
What a confirmed effect says (`twintouch/effect_gate.py`).

An effect is confirmed exactly if the servo channel says yes and the camera says what fits the
command (`verdictOf_confirmed`), and the servo channel says yes for a move if some joint came
toward its target or had nothing to do, for a hold if no joint that can be read has drifted
(`followed_move`, `followed_hold`).

* **`effect_laws`** — the two hands keep the promises of the gate exactly if neither is moved
  on the word of a joint that had nothing to do, and neither is held with a joint that drifted
  or cannot be read.
-/
import Mathlib.Algebra.Field.Rat
import Mathlib.Algebra.Order.Ring.Unbundled.Rat
import Rosclaw.TwinTouch.EffectGate

namespace Rosclaw.EffectGate

open List

variable {R : Type*}

/-! ## What there is to see -/

/-- The commanded joint has the target, and was read before and after. -/
def Trial.Reads (t : Trial R) (joint : String) (target b a : Int) : Prop :=
  t.command.targets.get? joint = some target ∧
    ∃ before after, window t.telemetry = some (before, after) ∧
      before.reading joint = some b ∧ after.reading joint = some a

def Trial.AtTarget (t : Trial R) (joint : String) : Prop := ∃ b a, t.Reads joint b b a

def Trial.Sees (fl : Floats R) (t : Trial R) (d : R) : Prop :=
  ∃ p q, t.visualBefore.seen = some p ∧ t.visualAfter.seen = some q ∧ d = fl.dist p q

/-! ## Less evidence -/

def VisualSample.Fewer (s' s : VisualSample R) : Prop := s'.seen = none ∨ s'.seen = s.seen

def TelemetryPoint.Fewer (p' p : TelemetryPoint R) : Prop :=
  ∀ joint v, p'.reading joint = some v → p.reading joint = some v

/-- The same command, with some of the readings and samples missing. -/
structure Trial.Fewer (t' t : Trial R) : Prop where
  command : t'.command = t.command
  telemetry : List.Forall₂ TelemetryPoint.Fewer t'.telemetry t.telemetry
  before : t'.visualBefore.Fewer t.visualBefore
  after : t'.visualAfter.Fewer t.visualAfter
  otherBefore : t'.otherBefore.Fewer t.otherBefore
  otherAfter : t'.otherAfter.Fewer t.otherAfter

/-! ## What the readings are -/

variable {t : Trial R} {before after : TelemetryPoint R} {joint : String} {target b a : Int}

theorem reads_iff (hw : window t.telemetry = some (before, after)) :
    t.Reads joint target b a ↔ t.command.targets.get? joint = some target ∧
      before.reading joint = some b ∧ after.reading joint = some a := by
  constructor
  · rintro ⟨ht, before', after', hw', hb, ha⟩
    obtain ⟨rfl, rfl⟩ := Prod.mk.inj (Option.some.inj (hw.symm.trans hw'))
    exact ⟨ht, hb, ha⟩
  · rintro ⟨ht, hb, ha⟩
    exact ⟨ht, before, after, hw, hb, ha⟩

theorem no_reads (hw : window t.telemetry = none) : ¬ t.Reads joint target b a := by
  rintro ⟨-, before, after, hw', -⟩
  exact absurd (hw.symm.trans hw') (by simp)

theorem Trial.Reads.unique {target b a target' b' a' : Int}
    (h : t.Reads joint target b a) (h' : t.Reads joint target' b' a') : b' = b ∧ a' = a := by
  obtain ⟨-, before, after, hw, hb, ha⟩ := h
  obtain ⟨-, hb', ha'⟩ := (reads_iff hw).mp h'
  exact ⟨Option.some.inj (hb'.symm.trans hb), Option.some.inj (ha'.symm.trans ha)⟩

theorem mem_deltas {joints : List String} {d : Int} : (joint, d) ∈ deltas joints before after ↔
      joint ∈ joints ∧ ∃ b a, before.reading joint = some b ∧ after.reading joint = some a ∧
        d = a - b := by
  simp only [deltas, mem_filterMap, Option.bind_eq_some_iff, Option.map_eq_some_iff, Prod.mk.injEq]
  constructor
  · rintro ⟨j, hj, b, hb, a, ha, rfl, rfl⟩
    exact ⟨hj, b, a, hb, ha, rfl⟩
  · rintro ⟨hj, b, a, hb, ha, rfl⟩
    exact ⟨joint, hj, b, hb, a, ha, rfl, rfl⟩

/-- The deltas of a trial are the readings of its commanded joints. -/
theorem mem_deltas_reads (hw : window t.telemetry = some (before, after)) {d : Int} :
    (joint, d) ∈ deltas t.command.targets.keys before after ↔
      ∃ target b a, t.Reads joint target b a ∧ d = a - b := by
  simp only [mem_deltas, reads_iff hw, Dict.mem_keys_iff, Option.isSome_iff_exists]
  constructor
  · rintro ⟨⟨target, ht⟩, b, a, hb, ha, rfl⟩
    exact ⟨target, b, a, ⟨ht, hb, ha⟩, rfl⟩
  · rintro ⟨target, b, a, ⟨ht, hb, ha⟩, rfl⟩
    exact ⟨⟨target, ht⟩, b, a, hb, ha, rfl⟩

theorem deltas_ne_nil (hw : window t.telemetry = some (before, after)) :
    deltas t.command.targets.keys before after ≠ [] ↔ ∃ joint target b a, t.Reads joint target b a := by
  constructor
  · intro hne
    obtain ⟨⟨joint, d⟩, hd⟩ := exists_mem_of_ne_nil _ hne
    obtain ⟨target, b, a, hr, -⟩ := (mem_deltas_reads hw).mp hd
    exact ⟨joint, target, b, a, hr⟩
  · rintro ⟨joint, target, b, a, hr⟩
    exact ne_nil_of_mem ((mem_deltas_reads hw).mpr ⟨target, b, a, hr, rfl⟩)

theorem window_fewer {ps' ps : List (TelemetryPoint R)}
    (h : List.Forall₂ TelemetryPoint.Fewer ps' ps) {before' after' : TelemetryPoint R}
    (hw : window ps' = some (before', after')) :
    ∃ before after, window ps = some (before, after) ∧ before'.Fewer before ∧
      after'.Fewer after := by
  have hlast : ∀ {ps' ps : List (TelemetryPoint R)}, List.Forall₂ TelemetryPoint.Fewer ps' ps →
      ∀ hne' hne, (ps'.getLast hne').Fewer (ps.getLast hne) := by
    intro ps' ps h
    induction h with
    | nil => exact fun hne => absurd rfl hne
    | cons hp hps ih =>
      cases hps with
      | nil => exact fun _ _ => hp
      | cons hq hqs => exact fun _ _ => ih (cons_ne_nil _ _) (cons_ne_nil _ _)
  cases h with
  | nil => simp [window] at hw
  | cons hp hps =>
    cases hps with
    | nil => simp [window] at hw
    | cons hq hqs =>
      obtain ⟨rfl, rfl⟩ := Prod.mk.inj (Option.some.inj hw)
      exact ⟨_, _, rfl, hp, hlast (.cons hq hqs) _ _⟩

theorem Trial.Fewer.reads {t' t : Trial R} (h : t'.Fewer t)
    (hr : t'.Reads joint target b a) : t.Reads joint target b a := by
  obtain ⟨ht, before', after', hw', hb, ha⟩ := hr
  obtain ⟨before, after, hw, hbefore, hafter⟩ := window_fewer h.telemetry hw'
  exact ⟨h.command ▸ ht, before, after, hw, hbefore _ _ hb, hafter _ _ ha⟩

theorem VisualSample.Fewer.seen {s' s : VisualSample R} (h : s'.Fewer s) {p : R × R × R}
    (hp : s'.seen = some p) : s.seen = some p := by
  rcases h with h | h
  · exact absurd (h.symm.trans hp) (by simp)
  · exact h.symm.trans hp

theorem Trial.Fewer.sees {t' t : Trial R} (h : t'.Fewer t) {d : R} (hd : t'.Sees fl d) :
    t.Sees fl d := by
  obtain ⟨p, q, hp, hq, rfl⟩ := hd
  exact ⟨p, q, h.before.seen hp, h.after.seen hq, rfl⟩

def TelemetryPoint.only (joint : String) (p : TelemetryPoint R) : TelemetryPoint R :=
  { p with angleActual := p.angleActual.mapVals fun j v => if j = joint then v else none }

def Trial.only (joint : String) (t : Trial R) : Trial R :=
  { t with telemetry := t.telemetry.map (TelemetryPoint.only joint) }

theorem reading_only {joint j : String} {p : TelemetryPoint R} {v : Int} :
    (p.only joint).reading j = some v ↔ j = joint ∧ p.reading j = some v := by
  rcases hw : p.angleActual.get? j with _ | w <;>
    by_cases hj : j = joint <;> simp [TelemetryPoint.reading, TelemetryPoint.only, hw, hj]

theorem only_fewer (joint : String) (t : Trial R) : (t.only joint).Fewer t := by
  refine ⟨rfl, ?_, .inr rfl, .inr rfl, .inr rfl, .inr rfl⟩
  exact forall₂_map_left_iff.mpr (forall₂_same.mpr fun p _ j v hv => (reading_only.mp hv).2)

theorem window_map (f : TelemetryPoint R → TelemetryPoint R) (ps : List (TelemetryPoint R)) :
    window (ps.map f) = (window ps).map (Prod.map f f) := by
  rcases ps with _ | ⟨p, _ | ⟨q, ps⟩⟩
  · rfl
  · rfl
  · have hlast := getLast_map (f := f) (l := q :: ps) (by simp)
    exact congrArg some (Prod.ext rfl hlast)

theorem reads_only {joint j : String} :
    (t.only joint).Reads j target b a ↔ j = joint ∧ t.Reads j target b a := by
  rcases hw : window t.telemetry with _ | ⟨before, after⟩
  · have hw' : window (t.only joint).telemetry = none := by simp [Trial.only, window_map, hw]
    exact ⟨fun h => absurd h (no_reads hw'), fun h => absurd h.2 (no_reads hw)⟩
  · have hw' : window (t.only joint).telemetry = some (before.only joint, after.only joint) := by
      simp [Trial.only, window_map, hw]
    rw [reads_iff hw, reads_iff hw', reading_only, reading_only]
    exact ⟨fun h => ⟨h.2.1.1, h.1, h.2.1.2, h.2.2.2⟩,
      fun h => ⟨h.2.1, ⟨h.1, h.2.2.1⟩, h.1, h.2.2.2⟩⟩

theorem proceed_iff {left right : PhysicalActionEffectReceipt R} :
    (bimanualEffectGate left right).proceed = true ↔
      left.verdict = .confirmed ∧ right.verdict = .confirmed := by
  have hside : ∀ (side : String) (r : PhysicalActionEffectReceipt R),
      sideViolations side r = [] ↔ r.verdict = .confirmed := by
    intro side r
    by_cases hr : r.verdict = .confirmed <;> simp [sideViolations, hr]
  simp [bimanualEffectGate, hside]

/-! ## The servo channel -/

variable [Field R]

/-- The joint came toward its target, by the minimum delta at least. -/
def Trial.Toward (th : EffectThresholds R) (t : Trial R) (joint : String) : Prop :=
  ∃ target b a, t.Reads joint target b a ∧
    (b < target ∧ th.minPositionDeltaRaw ≤ a - b ∨ target < b ∧ th.minPositionDeltaRaw ≤ b - a)

def Trial.Within (th : EffectThresholds R) (t : Trial R) (joint : String) : Prop :=
  ∃ target b a, t.Reads joint target b a ∧ |a - b| ≤ th.holdToleranceRaw

theorem deltaMax_le {ds : List (String × Int)} {n : Int} (hne : ds ≠ []) :
    deltaMax ds ≤ n ↔ ∀ d ∈ ds, |d.2| ≤ n := by
  have hfold : ∀ {ds : List (String × Int)}, 0 ≤ n → (deltaMax ds ≤ n ↔ ∀ d ∈ ds, |d.2| ≤ n) := by
    intro ds hn
    induction ds with
    | nil => simpa [deltaMax] using hn
    | cons d ds ih => simpa [deltaMax] using fun _ => by simpa [deltaMax] using ih
  have hnonneg : 0 ≤ deltaMax ds := by
    cases ds with
    | nil => simp [deltaMax]
    | cons d ds => exact (abs_nonneg d.2).trans (by simp [deltaMax])
  by_cases hn : 0 ≤ n
  · exact hfold hn
  · obtain ⟨d, hd⟩ := exists_mem_of_ne_nil ds hne
    have hd' := abs_nonneg d.2
    exact ⟨fun h => by omega, fun h => by have := h d hd; omega⟩

theorem follows_iff (th : EffectThresholds R) (target b a : Int) :
    follows th target b (a - b) = true ↔ target = b ∨ b < target ∧ th.minPositionDeltaRaw ≤ a - b ∨
        target < b ∧ th.minPositionDeltaRaw ≤ b - a := by
  unfold follows
  rcases lt_trichotomy b target with h | rfl | h
  · simp [h, h.ne', h.not_gt]
  · simp
  · have hneg : (a - b) * (-1 : Int) = b - a := by omega
    simp [h, h.ne, h.not_gt, hneg]

theorem followedJoints_ne_nil (th : EffectThresholds R)
    (hw : window t.telemetry = some (before, after)) :
    followedJoints th t.command.targets before (deltas t.command.targets.keys before after) ≠ [] ↔
      (∃ joint, t.AtTarget joint) ∨ ∃ joint, t.Toward th joint := by
  have hfollows : ∀ {joint target b a}, t.Reads joint target b a →
      ((joint, a - b) ∈ followedJoints th t.command.targets before
        (deltas t.command.targets.keys before after) ↔ follows th target b (a - b) = true) := by
    intro joint target b a hr
    obtain ⟨ht, hb, -⟩ := (reads_iff hw).mp hr
    have hmem := (mem_deltas_reads hw).mpr ⟨target, b, a, hr, rfl⟩
    simp [followedJoints, hmem, ht, hb]
  constructor
  · intro hne
    obtain ⟨⟨joint, d⟩, hd⟩ := exists_mem_of_ne_nil _ hne
    obtain ⟨target, b, a, hr, rfl⟩ := (mem_deltas_reads hw).mp (mem_filter.mp hd).1
    rcases (follows_iff th target b a).mp ((hfollows hr).mp hd) with rfl | h
    · exact .inl ⟨joint, target, a, hr⟩
    · exact .inr ⟨joint, target, b, a, hr, h⟩
  · rintro (⟨joint, b, a, hr⟩ | ⟨joint, target, b, a, hr, h⟩)
    · exact ne_nil_of_mem ((hfollows hr).mpr ((follows_iff th b b a).mpr (.inl rfl)))
    · exact ne_nil_of_mem ((hfollows hr).mpr ((follows_iff th target b a).mpr (.inr h)))

theorem followed_move (th : EffectThresholds R) (hc : t.command.commandType = commandMove) :
    (internal th t.command t.telemetry).2.1 = some true ↔
      (∃ joint, t.AtTarget joint) ∨ ∃ joint, t.Toward th joint := by
  rcases hw : window t.telemetry with _ | ⟨before, after⟩
  · simp [internal, hw, Trial.AtTarget, Trial.Toward, no_reads hw]
  · rw [← followedJoints_ne_nil th hw]
    by_cases hds : deltas t.command.targets.keys before after = []
    · simp [internal, hw, hds, followedJoints]
    · by_cases hf : followedJoints th t.command.targets before
          (deltas t.command.targets.keys before after) = [] <;>
        simp [internal, hw, hds, hc, hf]

theorem followed_hold (th : EffectThresholds R) (hc : t.command.commandType ≠ commandMove) :
    (internal th t.command t.telemetry).2.1 = some true ↔ (∃ joint, t.Within th joint) ∧
        ∀ joint target b a, t.Reads joint target b a → |a - b| ≤ th.holdToleranceRaw := by
  rcases hw : window t.telemetry with _ | ⟨before, after⟩
  · simp [internal, hw, Trial.Within, no_reads hw]
  · by_cases hds : deltas t.command.targets.keys before after = []
    · have hno := (not_congr (deltas_ne_nil hw)).mp (not_not_intro hds)
      simp only [not_exists] at hno
      simp [internal, hw, hds, Trial.Within, hno]
    · have hle := deltaMax_le (n := th.holdToleranceRaw) hds
      have hall : (∀ d ∈ deltas t.command.targets.keys before after,
            |d.2| ≤ th.holdToleranceRaw) ↔
          ∀ joint target b a, t.Reads joint target b a → |a - b| ≤ th.holdToleranceRaw := by
        constructor
        · intro h joint target b a hr
          exact h _ ((mem_deltas_reads hw).mpr ⟨target, b, a, hr, rfl⟩)
        · rintro h ⟨joint, d⟩ hd
          obtain ⟨target, b, a, hr, rfl⟩ := (mem_deltas_reads hw).mp hd
          exact h joint target b a hr
      obtain ⟨joint, target, b, a, hr⟩ := (deltas_ne_nil hw).mp hds
      rw [hall] at hle
      by_cases hmost : deltaMax (deltas t.command.targets.keys before after) ≤ th.holdToleranceRaw
      · have hin := hle.mp hmost
        have hsome : ∃ joint, t.Within th joint := ⟨joint, target, b, a, hr, hin _ _ _ _ hr⟩
        simp only [internal, hw, hds, hc, hmost, if_true, if_false, true_iff]
        exact ⟨hsome, hin⟩
      · simp only [internal, hw, hds, hc, hmost, if_false, Option.some.injEq, Bool.false_eq_true,
          false_iff]
        exact fun h => hmost (hle.mpr h.2)
/-! ## The promises and their condition -/

theorem Trial.Within.of_reads {th : EffectThresholds R}
    (h : t.Within th joint) (hr : t.Reads joint target b a) :
    |a - b| ≤ th.holdToleranceRaw := by
  obtain ⟨_, _, _, hr', hle⟩ := h
  obtain ⟨rfl, rfl⟩ := hr'.unique hr
  exact hle

variable [LinearOrder R]

def Trial.Moved (fl : Floats R) (th : EffectThresholds R) (t : Trial R) : Prop :=
  ∃ d, t.Sees fl d ∧ th.minVisualMoveM ≤ d

def Trial.Still (fl : Floats R) (th : EffectThresholds R) (t : Trial R) : Prop :=
  ∃ d, t.Sees fl d ∧ d < th.minVisualMoveM

structure Trial.Keeps (fl : Floats R) (thresholds : Option (EffectThresholds R)) (t : Trial R) :
    Prop where
  valid : (evaluateEffect fl thresholds t).validate = []
  move : t.command.commandType = commandMove →
    (evaluateEffect fl thresholds t).verdict = .confirmed →
    (∃ joint, t.Toward (thresholds.getD {}) joint) ∧ t.Moved fl (thresholds.getD {})
  hold : t.command.commandType = commandHold →
    (evaluateEffect fl thresholds t).verdict = .confirmed →
    ∀ joint ∈ t.command.targets.keys, t.Within (thresholds.getD {}) joint
  monotone : ∀ t' : Trial R, t'.Fewer t →
    (evaluateEffect fl thresholds t).verdict ≠ .confirmed →
    (evaluateEffect fl thresholds t').verdict ≠ .confirmed

/-- The gate does not let the hands go on with less evidence where it stops them with more. -/
def GateKeeps (fl : Floats R) (thresholds : Option (EffectThresholds R)) (left right : Trial R) :
    Prop :=
  ∀ left' right' : Trial R, left'.Fewer left → right'.Fewer right →
    (bimanualEffectGate (evaluateEffect fl thresholds left)
      (evaluateEffect fl thresholds right)).proceed = false →
    (bimanualEffectGate (evaluateEffect fl thresholds left')
      (evaluateEffect fl thresholds right')).proceed = false

structure Trial.Clear (fl : Floats R) (th : EffectThresholds R) (t : Trial R) : Prop where
  move : t.command.commandType = commandMove → t.Moved fl th →
    (∃ joint, t.AtTarget joint) → ∃ joint, t.Toward th joint
  hold : t.command.commandType = commandHold → t.Still fl th →
    (∃ joint, t.Within th joint) → ∀ joint ∈ t.command.targets.keys, t.Within th joint

/-! ## The verdict -/

theorem verdictOf_confirmed (move : Bool) (followed moved other : Option Bool) :
    (verdictOf move followed moved other).1 = .confirmed ↔
      followed = some true ∧ moved = some move := by
  revert move followed moved other
  decide

theorem verdictOf_noEffect (move : Bool) (followed moved other : Option Bool)
    (h : (verdictOf move followed moved other).1 = .noEffect) : followed ≠ some true := by
  revert move followed moved other
  decide

theorem verdictOf_wrongBody (move : Bool) (followed moved other : Option Bool)
    (h : (verdictOf move followed moved other).1 = .wrongBodyEffect) : other = some true := by
  revert move followed moved other
  decide

theorem commandMove_ne_hold : commandMove ≠ commandHold := by decide

variable {fl : Floats R} {thresholds : Option (EffectThresholds R)}

theorem moved_iff {th : EffectThresholds R} {b : Bool} :
    (displacement fl t.visualBefore t.visualAfter).map (fun d => decide (th.minVisualMoveM ≤ d)) =
      some b ↔ ∃ d, t.Sees fl d ∧ decide (th.minVisualMoveM ≤ d) = b := by
  simp only [displacement, Trial.Sees, Option.map_eq_some_iff, Option.bind_eq_some_iff]
  constructor
  · rintro ⟨d, ⟨p, hp, q, hq, rfl⟩, rfl⟩
    exact ⟨_, ⟨p, q, hp, hq, rfl⟩, rfl⟩
  · rintro ⟨d, ⟨p, q, hp, hq, rfl⟩, rfl⟩
    exact ⟨_, ⟨p, hp, q, hq, rfl⟩, rfl⟩

theorem confirmed_move (hc : t.command.commandType = commandMove) :
    (evaluateEffect fl thresholds t).verdict = .confirmed ↔
      ((∃ joint, t.AtTarget joint) ∨ ∃ joint, t.Toward (thresholds.getD {}) joint) ∧
        t.Moved fl (thresholds.getD {}) := by
  simp only [evaluateEffect, verdictOf_confirmed, moved_iff, followed_move _ hc, hc, decide_true,
    decide_eq_true_eq]
  rfl

theorem confirmed_hold (hc : t.command.commandType = commandHold) :
    (evaluateEffect fl thresholds t).verdict = .confirmed ↔
      ((∃ joint, t.Within (thresholds.getD {}) joint) ∧ ∀ joint target b a,
        t.Reads joint target b a → |a - b| ≤ (thresholds.getD {}).holdToleranceRaw) ∧
        t.Still fl (thresholds.getD {}) := by
  have hne : t.command.commandType ≠ commandMove := by rw [hc]; exact commandMove_ne_hold.symm
  simp only [evaluateEffect, verdictOf_confirmed, moved_iff, followed_hold _ hne, hne,
    decide_false, decide_eq_false_iff_not, not_le]
  rfl

/-- A receipt never breaks its own rules. -/
theorem validate_evaluateEffect (t : Trial R) : (evaluateEffect fl thresholds t).validate = [] := by
  rcases hr : evaluateEffect fl thresholds t with
    ⟨_, _, ctype, _, _, followed, _, moved, _, other, verdict, _⟩
  have hv : verdict = (verdictOf (ctype = commandMove) followed moved other).1 := by
    simp only [evaluateEffect, PhysicalActionEffectReceipt.mk.injEq] at hr
    obtain ⟨-, -, rfl, -, -, rfl, -, rfl, -, rfl, rfl, -⟩ := hr
    rfl
  have hconfirmed := verdictOf_confirmed (ctype = commandMove) followed moved other
  have hno := verdictOf_noEffect (ctype = commandMove) followed moved other
  have hwrong := verdictOf_wrongBody (ctype = commandMove) followed moved other
  rw [← hv] at hconfirmed hno hwrong
  simp only [PhysicalActionEffectReceipt.validate]
  by_cases hc : verdict = .confirmed
  · obtain ⟨rfl, rfl⟩ := hconfirmed.mp hc
    have hhold : ctype = commandHold → ¬ ctype = commandMove := by
      rintro rfl
      exact commandMove_ne_hold.symm
    simp [hc]
    exact hhold
  · by_cases hn : verdict = .noEffect
    · simp [hn, hno hn]
    · by_cases hw : verdict = .wrongBodyEffect
      · simp [hw, hwrong hw]
      · simp [hc, hn, hw]

/-! ## The promises -/

theorem commandType_of_validate {c : JointCommand R} (h : c.validate = []) :
    c.commandType = commandMove ∨ c.commandType = commandHold := by
  by_contra hne
  rw [not_or] at hne
  simp [JointCommand.validate, hne] at h

theorem keeps_of_clear (hvalid : t.command.validate = [])
    (h : t.Clear fl (thresholds.getD {})) : t.Keeps fl thresholds where
  valid := validate_evaluateEffect t
  move := by
    intro hc hv
    obtain ⟨hat | hto, hmoved⟩ := (confirmed_move hc).mp hv
    · exact ⟨h.move hc hmoved hat, hmoved⟩
    · exact ⟨hto, hmoved⟩
  hold := by
    intro hc hv
    obtain ⟨⟨hin, -⟩, hstill⟩ := (confirmed_hold hc).mp hv
    exact h.hold hc hstill hin
  monotone := by
    intro t' hf hno hv
    refine hno ?_
    rcases commandType_of_validate hvalid with hc | hc
    · have hc' : t'.command.commandType = commandMove := hf.command ▸ hc
      obtain ⟨hto, d, hd, hle⟩ := (confirmed_move hc').mp hv
      refine (confirmed_move hc).mpr ⟨?_, d, hf.sees hd, hle⟩
      rcases hto with ⟨joint, b, a, hr⟩ | ⟨joint, target, b, a, hr, hto⟩
      · exact .inl ⟨joint, b, a, hf.reads hr⟩
      · exact .inr ⟨joint, target, b, a, hf.reads hr, hto⟩
    · have hc' : t'.command.commandType = commandHold := hf.command ▸ hc
      obtain ⟨⟨⟨joint, target, b, a, hr, hle⟩, -⟩, d, hd, hlt⟩ := (confirmed_hold hc').mp hv
      have hin : ∃ joint, t.Within (thresholds.getD {}) joint :=
        ⟨joint, target, b, a, hf.reads hr, hle⟩
      have hstill : t.Still fl (thresholds.getD {}) := ⟨d, hf.sees hd, hlt⟩
      -- what is missing could only have been a joint that drifted
      have hall := h.hold hc hstill hin
      refine (confirmed_hold hc).mpr ⟨⟨hin, fun joint target b a hr => ?_⟩, hstill⟩
      have hkey : joint ∈ t.command.targets.keys := by
        rw [Dict.mem_keys_iff, hr.1]
        rfl
      exact (hall joint hkey).of_reads hr

theorem clear_of_keeps (h : t.Keeps fl thresholds) : t.Clear fl (thresholds.getD {}) where
  move := by
    intro hc hmoved hat
    exact (h.move hc ((confirmed_move hc).mpr ⟨.inl hat, hmoved⟩)).1
  hold := by
    rintro hc hstill ⟨joint, hin⟩
    by_cases hv : (evaluateEffect fl thresholds t).verdict = .confirmed
    · exact h.hold hc hv
    -- with the readings of this joint alone the hold is confirmed
    · obtain ⟨target, b, a, hr, hle⟩ := hin
      have hstill' : (t.only joint).Still fl (thresholds.getD {}) := hstill
      refine absurd ((confirmed_hold (t := t.only joint) hc).mpr
        ⟨⟨⟨joint, target, b, a, ?_, hle⟩, ?_⟩, hstill'⟩)
        (h.monotone (t.only joint) (only_fewer joint t) hv)
      · exact reads_only.mpr ⟨rfl, hr⟩
      · intro j target' b' a' hr'
        obtain ⟨rfl, hj⟩ := reads_only.mp hr'
        obtain ⟨rfl, rfl⟩ := hr.unique hj
        exact hle

/-- Two hands with valid commands keep the promises, and so does the gate, if and only if
neither move has only a joint at its target to show, and neither hold a joint that drifted or
cannot be read. -/
theorem effect_laws (fl : Floats R) (thresholds : Option (EffectThresholds R))
    (left right : Trial R) (hleft : left.command.validate = [])
    (hright : right.command.validate = []) :
    (left.Keeps fl thresholds ∧ right.Keeps fl thresholds ∧ GateKeeps fl thresholds left right) ↔
      left.Clear fl (thresholds.getD {}) ∧ right.Clear fl (thresholds.getD {}) := by
  constructor
  · rintro ⟨hl, hr, -⟩
    exact ⟨clear_of_keeps hl, clear_of_keeps hr⟩
  · rintro ⟨hl, hr⟩
    have hl := keeps_of_clear hleft hl
    have hr := keeps_of_clear hright hr
    refine ⟨hl, hr, fun left' right' hfl hfr hstop => ?_⟩
    rw [← Bool.not_eq_true, proceed_iff] at hstop ⊢
    rintro ⟨hvl, hvr⟩
    refine hstop ⟨?_, ?_⟩
    · exact not_not.mp fun hno => hl.monotone left' hfl hno hvl
    · exact not_not.mp fun hno => hr.monotone right' hfr hno hvr

/-! ## A thumb that drifts while the index holds -/

def reading (index : Int) (thumb : Option Int) : TelemetryPoint ℚ :=
  ⟨0, ((∅ : Dict String (Option Int)).set "index" (some index)).set "thumb" thumb⟩

def axisFloats : Floats ℚ := ⟨fun p q => |p.1 - q.1| + |p.2.1 - q.2.1| + |p.2.2 - q.2.2|, id⟩

def holding (thumb : Option Int) : Trial ℚ where
  command := ⟨"act", "left", commandHold,
    ((∅ : Dict String Int).set "index" 1000).set "thumb" 1000, 0, 1⟩
  telemetry := [reading 1000 (some 1000), reading 1000 thumb]
  visualBefore := ⟨true, some (0, 0, 0)⟩
  visualAfter := ⟨true, some (0, 0, 0)⟩
  otherBefore := ⟨true, some (1, 0, 0)⟩
  otherAfter := ⟨true, some (1, 0, 0)⟩

theorem clear_holding {thumb : Int} (h : |thumb - 1000| ≤ 15) :
    (holding (some thumb)).Clear axisFloats {} where
  move := fun hmove => absurd hmove.symm commandMove_ne_hold
  hold := by
    intro _ _ _ joint hjoint
    have hkeys : joint ∈ ["index", "thumb"] := hjoint
    rw [List.mem_cons, List.mem_singleton] at hkeys
    rcases hkeys with rfl | rfl
    · exact ⟨1000, 1000, 1000, ⟨rfl, _, _, rfl, rfl, rfl⟩, by decide⟩
    · exact ⟨1000, 1000, thumb, ⟨rfl, _, _, rfl, rfl, rfl⟩, h⟩

/-- Two hands that hold, one of them with a thumb that trembles. -/
theorem effect_laws_trembling :
    (holding (some 1000)).Keeps axisFloats none ∧ (holding (some 1010)).Keeps axisFloats none ∧
      GateKeeps axisFloats none (holding (some 1000)) (holding (some 1010)) :=
  (effect_laws axisFloats none (holding (some 1000)) (holding (some 1010)) (by decide)
    (by decide)).mpr ⟨clear_holding (by decide), clear_holding (by decide)⟩

/-- The thumb has drifted by 400, and without its last reading the hold is confirmed. -/
theorem drift_forgotten :
    (holding (some 600)).command.validate = [] ∧ (holding none).Fewer (holding (some 600)) ∧
      (evaluateEffect axisFloats none (holding (some 600))).verdict = .internalOnly ∧
      (evaluateEffect axisFloats none (holding none)).verdict = .confirmed ∧
      ¬ (holding (some 600)).Keeps axisFloats none := by
  have hfewer : (holding none).Fewer (holding (some 600)) := by
    refine ⟨rfl, .cons (fun _ _ h => h) (.cons (fun joint v hv => ?_) .nil),
      .inr rfl, .inr rfl, .inr rfl, .inr rfl⟩
    revert hv
    simp only [TelemetryPoint.reading, reading, Dict.get?_set]
    by_cases hj : "thumb" = joint <;> simp [hj]
  have hmore : (evaluateEffect axisFloats none (holding (some 600))).verdict = .internalOnly := by
    decide +kernel
  have hless : (evaluateEffect axisFloats none (holding none)).verdict = .confirmed := by
    decide +kernel
  refine ⟨by decide, hfewer, hmore, hless, fun h => ?_⟩
  exact h.monotone _ hfewer (by rw [hmore]; decide) hless

end Rosclaw.EffectGate
