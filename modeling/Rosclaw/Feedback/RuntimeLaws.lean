/-
The feedback loop is safe as long as no base action is far from its bounds and no frozen residual
meets another base action.

* `abs_bounded_le`, `bounded_within` — the two clamps;
* `attempt_spec` — every command is a fallback without residual, or a projection;
* `Inv` — what is kept between the ticks;
* `tick_safe` — a tick that meets the condition;
* `run_safe` — a run of such ticks, and its receipt;
* `frozen_residual` — a residual that is frozen for another base action, and a phase that is NaN.
-/
import Rosclaw.Feedback.Receipt

namespace Rosclaw.Feedback

open List Option

/-! ### Hashes -/

variable {kvs : List (PyStr × PyVal)} {l : Loop} {t : TickInput} {vs : List PyVal} {α β ε : Type}
  (s : Signals)

theorem isSome_canonEntries (h : ∀ e ∈ kvs, e.2.canon.isSome = true) :
    (PyVal.canonEntries kvs).isSome = true := by
  induction kvs with
  | nil => rfl
  | cons e kvs ih =>
    obtain ⟨v, hv⟩ := isSome_iff_exists.mp (h e mem_cons_self)
    obtain ⟨es, hes⟩ := isSome_iff_exists.mp (ih fun e' he' => h e' (mem_cons_of_mem e he'))
    obtain ⟨k, w⟩ := e
    rw [PyVal.canonEntries, hv, hes]
    rfl

theorem isSome_canonList (h : ∀ v ∈ vs, v.canon.isSome = true) :
    (PyVal.canonList vs).isSome = true := by
  induction vs with
  | nil => rfl
  | cons v vs ih =>
    obtain ⟨w, hw⟩ := isSome_iff_exists.mp (h v mem_cons_self)
    obtain ⟨ws, hws⟩ := isSome_iff_exists.mp (ih fun v' hv' => h v' (mem_cons_of_mem v hv'))
    rw [PyVal.canonList, hw, hws]
    rfl

theorem isSome_canon_dict (h : ∀ e ∈ kvs, e.2.canon.isSome = true) :
    (PyVal.dict kvs).canon.isSome = true := by
  rw [PyVal.canon, isSome_map]
  exact isSome_canonEntries h

theorem isSome_canon_list (h : ∀ v ∈ vs, v.canon.isSome = true) :
    (PyVal.list vs).canon.isSome = true := by
  rw [PyVal.canon, isSome_map]
  exact isSome_canonList h

theorem isSome_canon_strs (xs : List PyStr) : (PyVal.list (xs.map .str)).canon.isSome = true := by
  refine isSome_canon_list fun v hv => ?_
  obtain ⟨s, -, rfl⟩ := mem_map.mp hv
  rfl

theorem isSome_canon_json : s.json.canon.isSome = true := by
  refine isSome_canon_dict fun e he => ?_
  obtain ⟨e', -, rfl⟩ := mem_map.mp he
  rfl

theorem isSome_hash {os : Platform} {v : PyVal} (h : v.canon.isSome = true) :
    ∃ hash, isSha256 hash = true ∧ canonicalHash os v = some hash := by
  obtain ⟨w, hw⟩ := isSome_iff_exists.mp h
  exact ⟨os.digest w, os.hex w, by rw [canonicalHash, hw, map_some]⟩

theorem isSome_commandHash (os : Platform) (c : ResidualCommand) :
    ∃ hash, c.commandHash os = some hash := by
  have hcanon : ∀ fallback : Option FallbackMode,
      (fallback.elim PyVal.none fun mode => .str mode.value).canon.isSome = true := by
    intro fallback
    cases fallback <;> rfl
  have hhash : ∃ hash, isSha256 hash = true ∧ c.commandHash os = some hash := by
    refine isSome_hash (isSome_canon_dict ?_)
    simp only [mem_cons, not_mem_nil, or_false, forall_eq_or_imp, forall_eq]
    exact ⟨rfl, rfl, rfl, rfl, rfl, isSome_canon_json _, isSome_canon_json _,
      isSome_canon_strs _, rfl, rfl, hcanon _⟩
  exact hhash.imp fun hash h => h.2

/-! ### The clamps -/

section Clamps

variable {limit lower upper base value : ℚ}

theorem abs_clamp_le (h : 0 < limit) : |max (-limit) (min limit value)| ≤ limit := by
  rw [abs_le]
  exact ⟨le_max_left _ _, max_le (by linarith) (min_le_left _ _)⟩

theorem abs_bounded_le (h : 0 < limit) (hlow : lower - limit ≤ base)
    (hhigh : base ≤ upper + limit) : |bounded limit (some (lower, upper)) base value| ≤ limit := by
  have hclamp : -limit ≤ max (-limit) (min limit value)
      ∧ max (-limit) (min limit value) ≤ limit := abs_le.mp (abs_clamp_le h)
  rw [bounded, elim_some, abs_le]
  constructor
  · refine le_max_of_le_right (le_min ?_ hclamp.1)
    dsimp only
    linarith
  · refine max_le ?_ ((min_le_right _ _).trans hclamp.2)
    dsimp only
    linarith

theorem bounded_within (hbounds : lower < upper) :
    lower ≤ base + bounded limit (some (lower, upper)) base value
      ∧ base + bounded limit (some (lower, upper)) base value ≤ upper := by
  rw [bounded, elim_some]
  have hleast := le_max_left (lower - base) (min (upper - base) (max (-limit) (min limit value)))
  have hmost : max (lower - base) (min (upper - base) (max (-limit) (min limit value)))
      ≤ upper - base := max_le (by linarith) (min_le_left _ _)
  constructor <;> linarith

end Clamps

/-! ### The condition and the promise -/

def TickInput.valid (t : TickInput) : Bool :=
  allFinite t.reference && allFinite t.actual && allFinite t.baseAction

/-- The base value of an output; the projector takes zero for one that is not there. -/
def TickInput.base (t : TickInput) (key : PyStr) : Option ℚ :=
  (t.baseAction.get? key).elim (some 0) finite?

/-- The condition on a tick, in the state before it. -/
structure Meets (l : Loop) (rt : Runtime) (t : TickInput) : Prop where
  /-- a phase is finite, unless another reading is not -/
  phase : t.valid = true → (finite? t.phase).isSome = true
  timestamp : inInt64 t.timestampNs = true
  /-- when a residual is projected, the base value is no further from its bounds than the limit -/
  near : t.valid = true → t.stale l = false → t.elapsedNs ≤ l.spec.deadlineNs →
    ∀ entries, t.answer = .mapping entries → ∀ key value, (.str key, value) ∈ entries →
      ∀ limit, l.spec.outputLimits.get? key = some limit →
        ∀ lower upper, l.bounds.get? key = some (lower, upper) →
          ∀ base, t.base key = some base → lower - limit ≤ base ∧ base ≤ upper + limit
  /-- when a residual is frozen, it fits the base value -/
  frozen : l.spec.deadlineNs < t.elapsedNs →
    l.spec.fallbackDeadlineMiss = .freezeAndStabilize →
    ∀ key r, rt.lastSafeProjected.get? key = some r →
      ∀ lower upper, l.bounds.get? key = some (lower, upper) →
        ∀ base, t.base key = some base → lower ≤ base → base ≤ upper →
          lower ≤ base + r ∧ base + r ≤ upper

/-- Every residual is for a declared output, and no larger than its limit. -/
def Limited (l : Loop) (residuals : Signals) : Prop :=
  ∀ key r, residuals.get? key = some r →
    ∃ limit, l.spec.outputLimits.get? key = some limit ∧ |r| ≤ limit

structure Safe (l : Loop) (t : TickInput) (c : ResidualCommand) : Prop where
  limited : Limited l c.projected
  absolute : ∀ key lower upper, l.bounds.get? key = some (lower, upper) →
    ∀ base, t.base key = some base → lower ≤ base → base ≤ upper →
      lower ≤ base + (c.projected.get? key).getD 0 ∧ base + (c.projected.get? key).getD 0 ≤ upper

theorem limited_empty (l : Loop) : Limited l ∅ := by
  intro key r h
  cases h

theorem safe_empty {c : ResidualCommand} (h : c.projected = ∅) : Safe l t c where
  limited := by
    rw [h]
    exact limited_empty l
  absolute := by
    intro key lower upper _ base _ hlow hhigh
    rw [h]
    simp [hlow, hhigh]

/-! ### The projector -/

theorem ok_of_map {x : Except ε α} {f : α → β} {b : β} (h : x.map f = .ok b) :
    ∃ a, x = .ok a ∧ f a = b := by
  cases x with
  | error e => cases h
  | ok a =>
    cases h
    exact ⟨a, rfl, rfl⟩

theorem ok_of_bind {x : Except ε α} {f : α → Except ε β} {b : β} (h : x.bind f = .ok b) :
    ∃ a, x = .ok a ∧ f a = .ok b := by
  cases x with
  | error e => cases h
  | ok a => exact ⟨a, rfl, h⟩

section Projector

variable {l : Loop}

variable {raw : List (RawKey × RawValue)}

theorem mem_sift {p : List RawKey × List Entry} (h : sift l.spec raw = .ok p) {e : Entry}
    (he : e ∈ p.2) :
    l.spec.outputLimits.get? e.key = some e.limit ∧ ∃ value, (.str e.key, value) ∈ raw := by
  induction raw generalizing p with
  | nil =>
    cases h
    cases he
  | cons entry rest ih =>
    -- an entry of the rest is an entry of the whole
    have hrest : ∀ q, sift l.spec rest = .ok q → e ∈ q.2 →
        l.spec.outputLimits.get? e.key = some e.limit
          ∧ ∃ value, (RawKey.str e.key, value) ∈ entry :: rest := by
      intro q hq hmem
      obtain ⟨hlimit, value, hvalue⟩ := ih hq hmem
      exact ⟨hlimit, value, mem_cons_of_mem _ hvalue⟩
    obtain ⟨key, value⟩ := entry
    cases key with
    | other text =>
      rw [sift] at h
      obtain ⟨q, hq, rfl⟩ := ok_of_map h
      exact hrest q hq he
    | str key =>
      cases hlimit : l.spec.outputLimits.get? key with
      | none =>
        simp only [sift, hlimit] at h
        obtain ⟨q, hq, rfl⟩ := ok_of_map h
        exact hrest q hq he
      | some limit =>
        cases value with
        | raises e' =>
          simp only [sift, hlimit] at h
          cases h
        | number x =>
          simp only [sift, hlimit] at h
          obtain ⟨q, hq, rfl⟩ := ok_of_map h
          cases hx : finite? x with
          | none =>
            simp only [hx] at he
            exact hrest q hq he
          | some v =>
            simp only [hx, mem_cons] at he
            rcases he with rfl | he
            · exact ⟨hlimit, .number x, mem_cons_self⟩
            · exact hrest q hq he

/-- Every residual is a value of the answer between the limits of its output and of the action. -/
def Fits (l : Loop) (base : Signals) (raw : List (RawKey × RawValue)) (residuals : Signals) :
    Prop :=
  ∀ key r, residuals.get? key = some r →
    (∃ value, (.str key, value) ∈ raw) ∧
      ∃ limit value, l.spec.outputLimits.get? key = some limit
        ∧ r = bounded limit (l.bounds.get? key) (base.at key) value

theorem fits_foldl {base : Signals} {entries : List Entry}
    (h : ∀ e ∈ entries, l.spec.outputLimits.get? e.key = some e.limit
      ∧ ∃ value, (.str e.key, value) ∈ raw) {p : Projecting} (hp : Fits l base raw p.projected) :
    Fits l base raw (entries.foldl (Projecting.step l base) p).projected := by
  induction entries generalizing p with
  | nil => exact hp
  | cons e entries ih =>
    obtain ⟨he, hentries⟩ := forall_mem_cons.mp h
    refine ih hentries ?_
    intro key r hr
    have hset : (p.projected.set e.key
        (bounded e.limit (l.bounds.get? e.key) (base.at e.key) e.value)).get? key = some r := hr
    rw [Dict.get?_set] at hset
    split at hset
    · next hkey =>
      subst hkey
      exact ⟨he.2, e.limit, e.value, he.1, (Option.some.inj hset).symm⟩
    · exact hp key r hset

variable (l) (sequence : Nat) (timestampNs : Int) (base : Signals)

theorem baseActionHash_spec : ∃ hash, isSha256 hash = true ∧ baseActionHash l base = some hash := by
  refine isSome_hash (isSome_canon_dict fun e he => ?_)
  rw [mem_singleton.mp he]
  exact isSome_canon_json base

theorem fallback_spec (raw : Signals) (reason : PyStr) (mode : FallbackMode) (deadlineMet : Bool)
    (projectedOverride : Option Signals) :
    ∃ c, fallback l sequence timestampNs base raw reason mode deadlineMet projectedOverride = some c
      ∧ c.fallback = some mode
      ∧ c.projected = if mode = .freezeAndStabilize then projectedOverride.getD ∅ else ∅ := by
  obtain ⟨hash, hsha, hhash⟩ := baseActionHash_spec l base
  rw [fallback, hhash, bind_some, ResidualCommand.make, if_pos hsha]
  exact ⟨_, rfl, rfl, rfl⟩

variable {l sequence timestampNs base}

theorem project_spec {c : ResidualCommand} (h : project l sequence timestampNs base raw = .ok c) :
    (c.fallback.isSome = true ∧ c.projected = ∅) ∨ (c.fallback = none ∧ Fits l base raw c.projected)
    := by
  obtain ⟨hash, hsha, hhash⟩ := baseActionHash_spec l base
  rw [project, hhash] at h
  obtain ⟨p, hp, h⟩ := ok_of_bind h
  split at h
  · simp only [ResidualCommand.make, if_pos hsha] at h
    cases h
    refine .inr ⟨rfl, fits_foldl (fun e he => mem_sift hp he) ?_⟩
    intro key r hr
    cases hr
  · obtain ⟨keys, -, h⟩ := ok_of_bind h
    obtain ⟨safe, -, h⟩ := ok_of_bind h
    obtain ⟨d, hd, hmode, hprojected⟩ := fallback_spec l sequence timestampNs base safe
      ("unsafe_projection:" ++ commaSeparated (PyStr.sortedSet keys))
      l.spec.fallbackUnsafeProjection true none
    rw [hd] at h
    cases h
    refine .inl ⟨by rw [hmode]; rfl, ?_⟩
    rw [hprojected]
    exact ite_self ∅

end Projector

/-! ### The input of a tick -/

theorem get?_finiteOrZero (values : Readings) (key : PyStr) :
    (finiteOrZero values).get? key = (values.get? key).map fun x => (finite? x).getD 0 :=
  Dict.get?_mapVals _ _ _

theorem allFinite_readings : allFinite s.readings = true := by
  refine all_eq_true.mpr fun e he => ?_
  obtain ⟨e', -, rfl⟩ := mem_map.mp he
  rfl

theorem at_of_base {key : PyStr} {base : ℚ} (h : t.base key = some base) :
    (finiteOrZero t.baseAction).at key = base := by
  rw [Signals.at, get?_finiteOrZero]
  rw [TickInput.base] at h
  cases hx : t.baseAction.get? key with
  | none =>
    rw [hx] at h
    exact Option.some.inj h
  | some x =>
    rw [hx, elim_some] at h
    rw [map_some, getD_some, h, getD_some]

theorem finiteOrZero_readings : finiteOrZero s.readings = s := by
  obtain ⟨entries, hnodup⟩ := s
  simp only [finiteOrZero, Signals.readings, Dict.mapVals, List.map_map]
  congr 1
  exact List.map_id entries

theorem sample_spec (t : TickInput) : ∃ input reason, t.sample = some (input, reason)
      ∧ (reason = none ↔ t.valid = true)
      ∧ input.timestampNs = t.timestampNs
      ∧ input.baseAction = finiteOrZero t.baseAction
      ∧ ((t.valid = true → (finite? t.phase).isSome = true) →
        (finite? input.phase).isSome = true) := by
  have hclean : ∀ text : PyStr, ∃ input reason,
      ((FeedbackInput.make t.timestampNs t.observationTimestampNs
        (.finite ((finite? t.phase).getD 0)) (finiteOrZero t.reference).readings
        (finiteOrZero t.actual).readings (finiteOrZero t.baseAction).readings).toOption.map
          fun input => (input, some ("invalid_input:" ++ text))) = some (input, some reason)
      ∧ input.timestampNs = t.timestampNs
      ∧ input.baseAction = finiteOrZero t.baseAction
      ∧ (finite? input.phase).isSome = true := by
    intro text
    simp only [FeedbackInput.make, immutableFloats, if_pos (allFinite_readings _),
      finiteOrZero_readings]
    exact ⟨_, _, rfl, rfl, rfl, rfl⟩
  cases hvalid : t.valid with
  | true =>
    obtain ⟨⟨hreference, hactual⟩, hbase⟩ : (allFinite t.reference = true
        ∧ allFinite t.actual = true) ∧ allFinite t.baseAction = true := by
      simpa [TickInput.valid] using hvalid
    refine ⟨⟨t.timestampNs, t.observationTimestampNs, t.phase, finiteOrZero t.reference,
      finiteOrZero t.actual, finiteOrZero t.baseAction⟩, none, ?_, by simp, rfl, rfl,
      fun h => h rfl⟩
    rw [TickInput.sample, FeedbackInput.make, immutableFloats, if_pos hreference, immutableFloats,
      if_pos hactual, immutableFloats, if_pos hbase]
    rfl
  | false =>
    -- the first mapping that is not finite is the one that is named
    obtain ⟨text, htext⟩ : ∃ text, FeedbackInput.make t.timestampNs t.observationTimestampNs
        t.phase t.reference t.actual t.baseAction = .error text := by
      rw [FeedbackInput.make, immutableFloats, immutableFloats, immutableFloats]
      rw [TickInput.valid] at hvalid
      by_cases hreference : allFinite t.reference = true
      · rw [if_pos hreference]
        by_cases hactual : allFinite t.actual = true
        · rw [if_pos hactual]
          have hbase : ¬ allFinite t.baseAction = true := by
            simpa [hreference, hactual] using hvalid
          rw [if_neg hbase]
          exact ⟨_, rfl⟩
        · rw [if_neg hactual]
          exact ⟨_, rfl⟩
      · rw [if_neg hreference]
        exact ⟨_, rfl⟩
    obtain ⟨input, reason, hinput, htime, hbase, hphase⟩ := hclean text
    refine ⟨input, some reason, ?_, by simp, htime, hbase, fun _ => hphase⟩
    rw [TickInput.sample, htext]
    exact hinput

/-! ### The command of a tick -/

section Tick

variable {l : Loop} {rt : Runtime} {t : TickInput}

/-- The command has no residual, or those of a projection of the answer. -/
def Sound (l : Loop) (t : TickInput) (c : ResidualCommand) : Prop :=
  c.projected = ∅ ∨ t.valid = true ∧ t.stale l = false ∧
    ∃ raw, t.answer = .mapping raw ∧ Fits l (finiteOrZero t.baseAction) raw c.projected

theorem fallback_sound (sequence : Nat) (base raw : Signals) (reason : PyStr)
    (mode : FallbackMode) :
    ∃ c, fallback l sequence t.timestampNs base raw reason mode true none = some c
      ∧ Sound l t c := by
  obtain ⟨c, hc, -, hprojected⟩ := fallback_spec l sequence t.timestampNs base raw reason mode true
    none
  refine ⟨c, hc, .inl ?_⟩
  rw [hprojected]
  exact ite_self ∅

theorem controllerInvalid_sound (input : FeedbackInput) (e : Exn) (estimator : Estimator)
    (error : Option ErrorState) :
    ∃ a, controllerInvalid l rt t input e estimator error = some a ∧ Sound l t a.command := by
  obtain ⟨c, hc, hsound⟩ := fallback_sound (l := l) (t := t) rt.sequence input.baseAction ∅
    ("controller_invalid:" ++ e.name) l.spec.fallbackUnsafeProjection
  exact ⟨⟨c, estimator, error⟩, by rw [controllerInvalid, hc, map_some], hsound⟩

variable {c : ResidualCommand} {input : FeedbackInput}

theorem consult_spec (hvalid : t.valid = true) (hfresh : t.stale l = false)
    (hbase : input.baseAction = finiteOrZero t.baseAction) :
    ∃ a, consult l rt t input = some a ∧ Sound l t a.command := by
  rw [consult]
  split
  · exact controllerInvalid_sound input .valueError rt.estimator none
  · cases hupdate : rt.estimator.update l.spec input.reference input.actual t.timestampNs with
    | error e => exact controllerInvalid_sound input e rt.estimator none
    | ok p =>
      obtain ⟨error, estimator⟩ := p
      dsimp only
      split
      · cases hanswer : t.answer with
        | raises e => exact controllerInvalid_sound input e estimator (some error)
        | mapping raw =>
          dsimp only
          cases hproject : project l rt.sequence t.timestampNs input.baseAction raw with
          | error e => exact controllerInvalid_sound input e estimator (some error)
          | ok command =>
            refine ⟨_, rfl, ?_⟩
            obtain ⟨-, hempty⟩ | ⟨-, hfits⟩ := project_spec hproject
            · exact .inl hempty
            · exact .inr ⟨hvalid, hfresh, raw, hanswer, hbase ▸ hfits⟩
      · exact controllerInvalid_sound input .valueError estimator (some error)

theorem attempt_spec {reason : Option PyStr} (hreason : reason = none ↔ t.valid = true)
    (hbase : input.baseAction = finiteOrZero t.baseAction) :
    ∃ a, attempt l rt t input reason = some a ∧ Sound l t a.command := by
  cases reason with
  | some reason =>
    obtain ⟨c, hc, hsound⟩ := fallback_sound (l := l) (t := t) rt.sequence input.baseAction ∅ reason
      l.spec.fallbackUnsafeProjection
    exact ⟨⟨c, rt.estimator, none⟩, by simp only [attempt, hc, map_some], hsound⟩
  | none =>
    simp only [attempt]
    split
    · obtain ⟨c, hc, hsound⟩ := fallback_sound (l := l) (t := t) rt.sequence input.baseAction ∅
        ("stale_observation:" ++ PyStr.ofInt t.ageNs) l.spec.fallbackStaleObservation
      exact ⟨⟨c, rt.estimator, none⟩, by rw [hc, map_some], hsound⟩
    · next hfresh =>
      exact consult_spec (hreason.mp rfl) (Bool.eq_false_iff.mpr hfresh) hbase

theorem safe_of_fits {raw : List (RawKey × RawValue)}
    (hfits : Fits l (finiteOrZero t.baseAction) raw c.projected)
    (hfar : ∀ key value, (.str key, value) ∈ raw →
      ∀ limit, l.spec.outputLimits.get? key = some limit →
        ∀ lower upper, l.bounds.get? key = some (lower, upper) →
          ∀ base, t.base key = some base → lower - limit ≤ base ∧ base ≤ upper + limit)
    (hfinite : ∀ key, (t.base key).isSome = true) : Safe l t c where
  limited := by
    intro key r hr
    obtain ⟨⟨v, hmem⟩, limit, value, hlimit, rfl⟩ := hfits key r hr
    have hpos : 0 < limit := l.spec.limits key limit hlimit
    refine ⟨limit, hlimit, ?_⟩
    cases hbounds : l.bounds.get? key with
    | none => exact abs_clamp_le hpos
    | some b =>
      obtain ⟨base, hbase⟩ := isSome_iff_exists.mp (hfinite key)
      obtain ⟨hlow, hhigh⟩ := hfar key v hmem limit hlimit b.1 b.2 hbounds base hbase
      rw [at_of_base hbase]
      exact abs_bounded_le hpos hlow hhigh
  absolute := by
    intro key lower upper hbounds base hbase hlow hhigh
    cases hr : c.projected.get? key with
    | none => simp [hlow, hhigh]
    | some r =>
      obtain ⟨-, limit, value, -, rfl⟩ := hfits key r hr
      rw [getD_some, hbounds, at_of_base hbase]
      exact bounded_within (l.ordered key (lower, upper) hbounds)

theorem isSome_base (h : t.valid = true) (key : PyStr) : (t.base key).isSome = true := by
  rw [TickInput.base]
  cases hx : t.baseAction.get? key with
  | none => rfl
  | some x =>
    have hall : allFinite t.baseAction = true := (Bool.and_eq_true_iff.mp h).2
    exact all_eq_true.mp hall (key, x) (Dict.mem_entries_iff.mpr hx)

theorem safe_of_sound (h : Sound l t c) (hmeets : Meets l rt t)
    (htime : t.elapsedNs ≤ l.spec.deadlineNs) : Safe l t c := by
  rcases h with hempty | ⟨hvalid, hfresh, raw, hanswer, hfits⟩
  · exact safe_empty hempty
  · exact safe_of_fits hfits (hmeets.near hvalid hfresh htime raw hanswer) (isSome_base hvalid)

theorem meetDeadline_spec (h : Sound l t c) (hmeets : Meets l rt t)
    (hlast : Limited l rt.lastSafeProjected) :
    ∃ d last, meetDeadline l rt t input c = some (d, last) ∧ Safe l t d ∧ Limited l last := by
  rw [meetDeadline]
  by_cases hmiss : l.spec.deadlineNs < t.elapsedNs
  · rw [if_pos hmiss]
    obtain ⟨d, hd, -, hprojected⟩ := fallback_spec l rt.sequence t.timestampNs input.baseAction
      c.raw ("deadline_miss:" ++ PyStr.ofInt t.elapsedNs) l.spec.fallbackDeadlineMiss false
      (if l.spec.fallbackDeadlineMiss = .freezeAndStabilize then some rt.lastSafeProjected
        else none)
    refine ⟨d, rt.lastSafeProjected, by rw [hd, map_some], ?_, hlast⟩
    by_cases hmode : l.spec.fallbackDeadlineMiss = .freezeAndStabilize
    · -- the last residual is sent again, to another base action
      rw [if_pos hmode, if_pos hmode, getD_some] at hprojected
      refine ⟨hprojected ▸ hlast, ?_⟩
      intro key lower upper hbounds base hbase hlow hhigh
      rw [hprojected]
      cases hr : rt.lastSafeProjected.get? key with
      | none => simp [hlow, hhigh]
      | some r =>
        exact hmeets.frozen hmiss hmode key r hr lower upper hbounds base hbase hlow hhigh
    · rw [if_neg hmode] at hprojected
      exact safe_empty hprojected
  · rw [if_neg hmiss]
    have hsafe : Safe l t c := safe_of_sound h hmeets (not_lt.mp hmiss)
    split
    · exact ⟨c, c.projected, rfl, hsafe, hsafe.limited⟩
    · exact ⟨c, rt.lastSafeProjected, rfl, hsafe, hlast⟩

/-! ### A tick -/

/-- What is kept between the ticks: the last residual is limited, and every record can be hashed. -/
structure Inv (l : Loop) (rt : Runtime) : Prop where
  limited : Limited l rt.lastSafeProjected
  timestamps : ∀ r ∈ rt.records, inInt64 r.input.timestampNs = true
  phases : ∀ r ∈ rt.records, (finite? r.input.phase).isSome = true

theorem inv_new (l : Loop) : Inv l (.new l) where
  limited := limited_empty l
  timestamps := by simp [Runtime.new]
  phases := by simp [Runtime.new]

theorem mem_retained {records : List TickRecord} {r : TickRecord} (h : r ∈ retained l records) :
    r ∈ records := by
  rw [retained] at h
  split at h
  · exact mem_of_mem_tail h
  · exact h

theorem retained_ne_nil (records : List TickRecord) (r : TickRecord) :
    retained l (records ++ [r]) ≠ [] := by
  rw [retained]
  split
  · next h =>
    have hroom := l.room
    intro hnil
    have hlength := congrArg List.length hnil
    rw [length_tail, length_nil] at hlength
    omega
  · simp

theorem tick_safe (h : Inv l rt) (hmeets : Meets l rt t) :
    ∃ rt' c, tick l rt t = some (rt', c) ∧ Safe l t c ∧ Inv l rt' ∧ rt'.records ≠ [] := by
  obtain ⟨input, reason, hsample, hreason, htime, hbase, hphase⟩ := sample_spec t
  obtain ⟨a, ha, hsound⟩ : ∃ a, attempt l rt t input reason = some a ∧ Sound l t a.command :=
    attempt_spec hreason hbase
  obtain ⟨c, last, hc, hsafe, hlast⟩ : ∃ c last, meetDeadline l rt t input a.command
      = some (c, last) ∧ Safe l t c ∧ Limited l last := meetDeadline_spec hsound hmeets h.limited
  obtain ⟨hash, hhash⟩ := isSome_commandHash l.os c
  obtain ⟨r, hr, hinput⟩ : ∃ r, record l t input c a.error = some r ∧ r.input = input := by
    rw [record, hhash]
    exact ⟨_, rfl, rfl⟩
  refine ⟨⟨rt.sequence + 1, a.estimator, retained l (rt.records ++ [r]), last⟩, c, ?_, hsafe, ?_,
    retained_ne_nil rt.records r⟩
  · rw [tick, hsample, bind_some, ha, bind_some, hc, bind_some, hr, map_some]
  -- a record of before, or the one of this tick
  · have hmem : ∀ r' ∈ retained l (rt.records ++ [r]), r' ∈ rt.records ∨ r' = r := by
      intro r' hr'
      simpa using mem_retained hr'
    refine ⟨hlast, ?_, ?_⟩
    · intro r' hr'
      rcases hmem r' hr' with hold | rfl
      · exact h.timestamps r' hold
      · rw [hinput, htime]
        exact hmeets.timestamp
    · intro r' hr'
      rcases hmem r' hr' with hold | rfl
      · exact h.phases r' hold
      · rw [hinput]
        exact hphase hmeets.phase

end Tick

/-! ### The receipt -/

section Receipt

variable {l : Loop} {rt : Runtime}

theorem isSome_specHash (l : Loop) : ∃ hash, specHash l = some hash := by
  have hhash : ∃ hash, isSha256 hash = true ∧ specHash l = some hash := by
    refine isSome_hash (isSome_canon_dict ?_)
    simp only [mem_cons, not_mem_nil, or_false, forall_eq_or_imp, forall_eq]
    exact ⟨rfl, rfl, rfl, rfl, isSome_canon_strs _, isSome_canon_strs _, isSome_canon_json _,
      rfl, rfl, rfl, rfl, rfl, rfl⟩
  exact hhash.imp fun hash h => h.2

theorem isSome_signalsHash (l : Loop) (records : List TickRecord) (name : String)
    (f : FeedbackInput → Signals) : ∃ hash, signalsHash l records name f = some hash := by
  have hhash : ∃ hash, isSha256 hash = true ∧ signalsHash l records name f = some hash := by
    refine isSome_hash (isSome_canon_dict fun e he => ?_)
    rw [mem_singleton.mp he]
    refine isSome_canon_list fun v hv => ?_
    obtain ⟨r, -, rfl⟩ := mem_map.mp hv
    exact isSome_canon_json (f r.input)
  exact hhash.imp fun hash h => h.2

theorem isSome_snapshotHash (h : l.config.canon.isSome = true) (spec : PyStr) :
    ∃ hash, snapshotHash l spec = some hash := by
  have hhash : ∃ hash, isSha256 hash = true ∧ snapshotHash l spec = some hash := by
    refine isSome_hash (isSome_canon_dict ?_)
    simp only [mem_cons, not_mem_nil, or_false, forall_eq_or_imp, forall_eq]
    exact ⟨rfl, rfl, rfl, rfl, rfl, h⟩
  exact hhash.imp fun hash h => h.2

theorem isSome_canon_record {r : TickRecord} (h : (finite? r.input.phase).isSome = true) :
    r.json.canon.isSome = true := by
  have hphase : (PyVal.float r.input.phase).canon.isSome = true := by
    cases hx : r.input.phase with
    | finite q => rfl
    | inf => simp [hx, finite?] at h
    | negInf => simp [hx, finite?] at h
    | nan => simp [hx, finite?] at h
  have hrms : (r.errorRms.elim PyVal.none fun q => .float (.finite q)).canon.isSome = true := by
    cases r.errorRms <;> rfl
  refine isSome_canon_dict ?_
  simp only [mem_cons, not_mem_nil, or_false, forall_eq_or_imp, forall_eq]
  exact ⟨rfl, rfl, hphase, isSome_canon_json _, isSome_canon_json _, isSome_canon_json _, hrms, rfl⟩

theorem isSome_traceHash {records : List TickRecord}
    (h : ∀ r ∈ records, (finite? r.input.phase).isSome = true) (spec : PyStr) :
    ∃ hash, traceHash l records spec = some hash := by
  have hhash : ∃ hash, isSha256 hash = true ∧ traceHash l records spec = some hash := by
    refine isSome_hash (isSome_canon_dict ?_)
    simp only [mem_cons, not_mem_nil, or_false, forall_eq_or_imp, forall_eq]
    refine ⟨rfl, isSome_canon_list fun v hv => ?_⟩
    obtain ⟨r, hr, rfl⟩ := mem_map.mp hv
    exact isSome_canon_record (h r hr)
  exact hhash.imp fun hash h => h.2

theorem isSome_buildReceipt (h : Inv l rt) (hne : rt.records ≠ [])
    (hconfig : l.config.canon.isSome = true) (actionId : PyStr) (strictReplay : Bool)
    (evidenceDomain : PyStr) :
    (buildReceipt l rt actionId strictReplay evidenceDomain).isSome = true := by
  obtain ⟨spec, hspec⟩ := isSome_specHash l
  obtain ⟨reference, hreference⟩ := isSome_signalsHash l rt.records "reference" (·.reference)
  obtain ⟨actual, hactual⟩ := isSome_signalsHash l rt.records "actual" (·.actual)
  obtain ⟨snapshot, hsnapshot⟩ := isSome_snapshotHash hconfig spec
  obtain ⟨trace, htrace⟩ := isSome_traceHash (l := l) h.phases spec
  have hguard : ¬ ((rt.records.isEmpty
      || !rt.records.all fun r => inInt64 r.input.timestampNs) = true) := by
    have hall : (rt.records.all fun r => inInt64 r.input.timestampNs) = true :=
      all_eq_true.mpr h.timestamps
    simp [hall, hne]
  simp only [buildReceipt]
  rw [if_neg hguard, hspec, bind_some, hreference, bind_some, hactual,
    bind_some, hsnapshot, bind_some, htrace, map_some]
  rfl

end Receipt

/-! ### A run -/

/-- Every tick of the run meets the condition in the state in which it is made. -/
def AllMeet (l : Loop) : Runtime → List TickInput → Prop
  | _, [] => True
  | rt, t :: ts => Meets l rt t ∧ ∀ rt' c, tick l rt t = some (rt', c) → AllMeet l rt' ts

theorem run_spec {rt : Runtime} {ts : List TickInput} (h : Inv l rt) (hmeet : AllMeet l rt ts) :
    ∃ rt' cs, run l rt ts = some (rt', cs) ∧ List.Forall₂ (Safe l) ts cs ∧ Inv l rt'
      ∧ (rt.records ≠ [] ∨ ts ≠ [] → rt'.records ≠ []) := by
  induction ts generalizing rt with
  | nil => exact ⟨rt, [], rfl, .nil, h, fun hne => hne.resolve_right (· rfl)⟩
  | cons t ts ih =>
    obtain ⟨hmeets, hrest⟩ := hmeet
    obtain ⟨rt₁, c, htick, hsafe, hinv, hne⟩ := tick_safe h hmeets
    obtain ⟨rt', cs, hrun, hall, hinv', hne'⟩ := ih hinv (hrest rt₁ c htick)
    refine ⟨rt', c :: cs, ?_, .cons hsafe hall, hinv', fun _ => hne' (.inl hne)⟩
    rw [run, htick, bind_some, hrun, map_some]

/-- In a run whose ticks all meet the condition no tick fails, every command is safe and there is a
receipt. -/
theorem run_safe (l : Loop) (ts : List TickInput) (h : AllMeet l (.new l) ts) :
    ∃ rt cs, run l (.new l) ts = some (rt, cs) ∧ List.Forall₂ (Safe l) ts cs
      ∧ (ts ≠ [] → l.config.canon.isSome = true → ∀ actionId strictReplay evidenceDomain,
        (buildReceipt l rt actionId strictReplay evidenceDomain).isSome = true) := by
  obtain ⟨rt, cs, hrun, hsafe, hinv, hne⟩ := run_spec (inv_new l) h
  exact ⟨rt, cs, hrun, hsafe, fun hts hconfig => isSome_buildReceipt hinv (hne (.inr hts)) hconfig⟩

/-! ### A residual that is frozen for another base action -/

/-- A loop with one output, of limit 1 and bounds -1 and 1, that freezes when it misses a deadline.
-/
def oneJoint : Loop where
  os :=
    { sqrt := id
      digest := fun _ => ⟨(PyStr.ofString "sha256:").codes ++ List.replicate 64 48⟩
      hex := fun _ => by decide }
  spec :=
    { loopId := "loop"
      bodyHash := ⟨(PyStr.ofString "sha256:").codes ++ List.replicate 64 48⟩
      controllerHash := ⟨(PyStr.ofString "sha256:").codes ++ List.replicate 64 48⟩
      referenceSignals := ["x"]
      observationSignals := ["x"]
      outputLimits := (∅ : Signals).set "x" 1
      rateHz := 100
      deadlineMs := 5
      maxObservationAgeMs := 20
      fallbackStaleObservation := .disableResidual
      fallbackDeadlineMiss := .freezeAndStabilize
      fallbackUnsafeProjection := .disableResidual
      schemaVersion := "rosclaw.feedback.loop_spec.v1"
      named := by decide
      hashes := by decide
      rate := by norm_num
      deadline := by norm_num
      age := by norm_num
      references := ⟨List.cons_ne_nil _ _, List.nodup_singleton _⟩
      observations := ⟨List.cons_ne_nil _ _, List.nodup_singleton _⟩
      outputs := List.cons_ne_nil _ _
      limits := by
        intro k limit h
        rw [Dict.get?_set] at h
        split at h
        · cases h
          exact zero_lt_one
        · cases h }
  bounds := (∅ : Dict PyStr (ℚ × ℚ)).set "x" (-1, 1)
  ordered := by
    intro k b h
    rw [Dict.get?_set] at h
    split at h
    · cases h
      norm_num
    · cases h
  capacity := 10
  room := by decide
  controllerType := "Controller"
  config := .dict []

/-- A tick of `oneJoint` at which the controller answers 1. -/
def tickAt (timestampNs : Int) (phase : PyFloat) (base : ℚ) (clockNs : Int) : TickInput where
  timestampNs
  observationTimestampNs := timestampNs
  phase
  reference := (∅ : Readings).set "x" (.finite 1)
  actual := (∅ : Readings).set "x" (.finite 0)
  baseAction := (∅ : Readings).set "x" (.finite base)
  answer := .mapping [(.str "x", .number (.finite 1))]
  clockNs

/-- A tick of `oneJoint` within its bounds meets the condition, if the last residual fits in. -/
theorem meets_tickAt {rt : Runtime} {timestampNs clockNs : Int}
    (htime : inInt64 timestampNs = true)
    (hlast : ∀ r, rt.lastSafeProjected.get? "x" = some r → 0 ≤ r ∧ r ≤ 1 / 2) :
    Meets oneJoint rt (tickAt timestampNs (.finite (1 / 2)) (1 / 2) clockNs) where
  phase := fun _ => rfl
  timestamp := htime
  near := by
    intro _ _ _ entries hanswer key value hmem limit hlimit lower upper hbounds base hbase
    cases hanswer
    cases mem_singleton.mp hmem
    cases hlimit
    cases hbounds
    cases hbase
    norm_num
  frozen := by
    intro _ _ key r hr lower upper hbounds base hbase _ _
    rw [oneJoint, Dict.get?_set] at hbounds
    split at hbounds
    · case isTrue hkey =>
      subst hkey
      cases hbounds
      cases hbase
      obtain ⟨hlow, hhigh⟩ := hlast r hr
      constructor <;> linarith
    · cases hbounds

/-- Two ticks at the base action 1/2: a residual that is projected, and a missed deadline. -/
def steadyTicks : List TickInput :=
  [tickAt 0 (.finite (1 / 2)) (1 / 2) 1000, tickAt 1000000 (.finite (1 / 2)) (1 / 2) 6000000]

/-- The residual that is frozen at the second tick keeps the action within its bounds. -/
theorem run_safe_frozen : ∃ rt cs, run oneJoint (.new oneJoint) steadyTicks = some (rt, cs)
    ∧ List.Forall₂ (Safe oneJoint) steadyTicks cs
    ∧ (buildReceipt oneJoint rt "a" true "SIMULATION").isSome = true := by
  have hfirst : Meets oneJoint (.new oneJoint) (tickAt 0 (.finite (1 / 2)) (1 / 2) 1000) :=
    meets_tickAt (by decide) fun r hr => by cases hr
  -- the residual that the second tick freezes
  have hlast : (tick oneJoint (.new oneJoint) (tickAt 0 (.finite (1 / 2)) (1 / 2) 1000)).map
      (fun p => p.1.lastSafeProjected.get? "x") = some (some (1 / 2)) := by decide +kernel
  have hmeet : AllMeet oneJoint (.new oneJoint) steadyTicks := by
    refine ⟨hfirst, fun rt c htick => ⟨meets_tickAt (by decide) fun r hr => ?_, fun _ _ _ => trivial⟩⟩
    rw [htick] at hlast
    obtain rfl : r = 1 / 2 := Option.some.inj (hr.symm.trans (Option.some.inj hlast))
    norm_num
  obtain ⟨rt, cs, hrun, hsafe, hreceipt⟩ := run_safe oneJoint steadyTicks hmeet
  exact ⟨rt, cs, hrun, hsafe, hreceipt (List.cons_ne_nil _ _) (by decide) "a" true "SIMULATION"⟩

/-- The two ticks of a run: a residual that is made for the base action 0, and a missed deadline at
the base action 1/2. -/
def frozenTicks : List TickInput :=
  [tickAt 0 (.finite (1 / 2)) 0 1000, tickAt 1000000 (.finite (1 / 2)) (1 / 2) 6000000]

theorem frozen_value : (run oneJoint (.new oneJoint) frozenTicks).map
      (fun p => p.2.map fun c => c.projected.get? "x") = some [some 1, some 1] := by
  decide +kernel

/-- The frozen residual takes the action beyond its bound; and with a phase that is NaN there is no
receipt. -/
theorem frozen_residual :
    (∃ rt cs, run oneJoint (.new oneJoint) frozenTicks = some (rt, cs)
      ∧ ¬ List.Forall₂ (Safe oneJoint) frozenTicks cs)
    ∧ ((run oneJoint (.new oneJoint) [tickAt 0 .nan 0 1000]).map fun p =>
        (buildReceipt oneJoint p.1 "a" true "SIMULATION").isSome) = some false := by
  refine ⟨?_, by decide +kernel⟩
  obtain ⟨⟨rt, cs⟩, hrun, hvalues⟩ := Option.map_eq_some_iff.mp frozen_value
  refine ⟨rt, cs, hrun, fun hall => ?_⟩
  obtain ⟨c, cs', -, hrest, rfl⟩ := List.forall₂_cons_left_iff.mp hall
  obtain ⟨c', cs'', hsafe, hnil, rfl⟩ := List.forall₂_cons_left_iff.mp hrest
  cases List.forall₂_nil_left_iff.mp hnil
  have hfrozen : c'.projected.get? "x" = some 1 := by
    simp only [List.map_cons, List.cons.injEq] at hvalues
    exact hvalues.2.1
  have hwithin := (hsafe.absolute "x" (-1) 1 rfl (1 / 2) rfl (by norm_num) (by norm_num)).2
  rw [hfrozen] at hwithin
  norm_num at hwithin

end Rosclaw.Feedback
