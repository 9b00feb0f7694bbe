/-
What a single step may send to an RH56 hand (`body/execution/rh56_executor.py`).

A command is sent exactly if the call gets through its checks (`prepare_eq_ok`), and its values are
then those of the loop, each a clamped target or a kept setpoint (`targetOf_eq_ok`).

* **`hand_step_laws`** — a call keeps the promises of the executor exactly if, once it is through the
  checks, each actuator that is to move has been read, the deadline has not passed, and the
  transport does not raise.
-/
import Rosclaw.Body.RH56Executor

namespace Rosclaw.RH56

variable {R : Type*}

/-! ## The promises and their condition -/

section

variable (profile : ValidProfile) (request : ActionExecutionRequest) (options : StepOptions)
  (bus : Bus R)

/-- The clamped target, at most the step limit away from the position that was read. -/
def Moved (i : Nat) (value : ℚ) (v : Int) : Prop :=
  v = profile.clampPosition value ∧ profile.command.positionRange.1 ≤ v ∧
    v ≤ profile.command.positionRange.2 ∧ ∀ limit, options.maxStepDeltaRaw = some limit →
      ∃ current p, bus.state = .ok current ∧ current.position[i]? = some p ∧
        (PyFloat.finite |((v - p : Int) : ℚ)|).le limit = true

/-- The setpoint that the device has, as the target is in the hold band. -/
def Held (i : Nat) (value : ℚ) (v : Int) : Prop :=
  ∃ current setpoints hold p tolerance, bus.state = .ok current ∧
    options.holdToleranceRaw = some hold ∧ bus.setpoints = .ok setpoints ∧
    setpoints[i]? = some v ∧ current.position[i]? = some p ∧ hold[i]? = some tolerance ∧
    inBand (profile.clampPosition value) p tolerance = some true

structure Keeps : Prop where
  once : (executeStep profile request options bus).2.length ≤ 1
  bounded : ∀ c ∈ (executeStep profile request options bus).2, ∀ (i : Nat) value,
    request.values[i]? = some value → ∃ v, c.positions[i]? = some v ∧
      (Moved profile options bus i value v ∨ Held profile options bus i value v)
  fresh : ∀ c ∈ (executeStep profile request options bus).2,
    c.issuedAt ≤ request.validUntilMonotonicNs
  refused : ∀ e, (executeStep profile request options bus).1 = .safety e →
    (executeStep profile request options bus).2 = []
  reported : ∀ message sent acknowledged,
    (executeStep profile request options bus).1 = .communication message sent acknowledged →
      (executeStep profile request options bus).2 ≠ [] → sent = true

/-- The setpoint that is kept for an actuator, once all has been read. -/
def keptFor (current : RH56Feedback Int R) (setpoints : List Int) (i : Nat) (value : ℚ) :
    Option (Option Int) :=
  kept setpoints[i]? current.position[i]? (options.holdToleranceRaw.bind fun hold => hold[i]?)
    (profile.clampPosition value)

/-- The call gets through the checks, and has read these positions and setpoints. -/
structure Passes (current : RH56Feedback Int R) (setpoints : List Int) : Prop where
  fresh : bus.checkedAt ≤ request.validUntilMonotonicNs
  count : request.values.length = profile.command.actuatorCount
  state : bus.state = .ok current
  read : readSetpoints profile options bus = .ok setpoints
  step : ∀ (i : Nat) value, request.values[i]? = some value →
    exceeds options.maxStepDeltaRaw current.position[i]? (profile.clampPosition value) = none
  band : ∀ (i : Nat) value, request.values[i]? = some value →
    (keptFor profile options current setpoints i value).isSome

/-- There is no step limit, or the actuator keeps its setpoint, or its position was read and the
limit is a number. -/
def Covered (current : RH56Feedback Int R) (setpoints : List Int) (i : Nat) (value : ℚ) : Prop :=
  ∀ limit, options.maxStepDeltaRaw = some limit →
    (∃ s, keptFor profile options current setpoints i value = some (some s)) ∨
      (current.position[i]?).isSome ∧ limit ≠ .nan

def Clear : Prop :=
  ∀ current setpoints, Passes profile request options bus current setpoints →
    (∀ (i : Nat) value, request.values[i]? = some value →
      Covered profile options current setpoints i value) ∧
    bus.writtenAt ≤ request.validUntilMonotonicNs ∧ ∃ acknowledged, bus.write = .ok acknowledged

end

/-! ## What is sent -/

variable {profile : ValidProfile} {request : ActionExecutionRequest} {options : StepOptions}
  {bus : Bus R} {current : RH56Feedback Int R} {setpoints : List Int} {targets : List Int}

variable {i j : Nat} {k position setpoint : Option Int} {p s t target v : Int} {value : ℚ}
  {values : List ℚ}

theorem targetOf_eq_ok : targetOf profile options current setpoints i value = .ok t ↔
      exceeds options.maxStepDeltaRaw current.position[i]? (profile.clampPosition value) = none ∧
        ∃ k, keptFor profile options current setpoints i value = some k ∧
          t = k.getD (profile.clampPosition value) := by
  simp only [targetOf, keptFor]
  cases exceeds options.maxStepDeltaRaw current.position[i]? (profile.clampPosition value) with
  | some d => simp
  | none =>
    cases kept setpoints[i]? current.position[i]?
        (options.holdToleranceRaw.bind fun hold => hold[i]?) (profile.clampPosition value) with
    | none => simp
    | some k => simp [eq_comm]

theorem exists_targets (h : ∀ (j : Nat) value, values[j]? = some value →
      ∃ t, targetOf profile options current setpoints (i + j) value = .ok t) :
    ∃ targets, targetsFrom profile options current setpoints i values = .ok targets := by
  induction values generalizing i with
  | nil => exact ⟨[], rfl⟩
  | cons value values ih =>
    obtain ⟨t, ht⟩ := h 0 value rfl
    obtain ⟨rest, hrest⟩ := @ih (i + 1) fun j v hv => by
      have hj := h (j + 1) v hv
      rwa [show i + (j + 1) = i + 1 + j by omega] at hj
    rw [Nat.add_zero] at ht
    exact ⟨t :: rest, by simp [targetsFrom, ht, hrest, Except.bind, Except.map]⟩

theorem target_of_targetsFrom
    (h : targetsFrom profile options current setpoints i values = .ok targets)
    (hv : values[j]? = some value) :
    ∃ t, targets[j]? = some t ∧ targetOf profile options current setpoints (i + j) value = .ok t := by
  induction values generalizing i j targets with
  | nil => simp at hv
  | cons v values ih =>
    rw [targetsFrom] at h
    cases htarget : targetOf profile options current setpoints i v with
    | error o =>
      rw [htarget] at h
      cases h
    | ok t =>
      rw [htarget] at h
      cases hrest : targetsFrom profile options current setpoints (i + 1) values with
      | error o =>
        rw [hrest] at h
        cases h
      | ok rest =>
        rw [hrest] at h
        obtain rfl : t :: rest = targets := Except.ok.inj h
        cases j with
        | zero =>
          obtain rfl : v = value := Option.some.inj hv
          exact ⟨t, rfl, htarget⟩
        | succ j =>
          obtain ⟨t', ht', htarget'⟩ := ih hrest hv
          exact ⟨t', ht', by rwa [show i + (j + 1) = i + 1 + j by omega]⟩

/-- What the loop gives for each actuator: the kept setpoint, or else the target. -/
def Prepared (profile : ValidProfile) (request : ActionExecutionRequest) (options : StepOptions)
    (current : RH56Feedback Int R) (setpoints targets : List Int) : Prop :=
  ∀ (i : Nat) value, request.values[i]? = some value →
    ∃ k, keptFor profile options current setpoints i value = some k ∧
      targets[i]? = some (k.getD (profile.clampPosition value))

theorem prepare_eq (hfresh : bus.checkedAt ≤ request.validUntilMonotonicNs)
    (hcount : request.values.length = profile.command.actuatorCount)
    (hstate : bus.state = .ok current)
    (hread : readSetpoints profile options bus = .ok setpoints) :
    prepare profile request options bus =
      targetsFrom profile options current setpoints 0 request.values := by
  rw [prepare, if_neg (not_lt.mpr hfresh), if_neg (not_not.mpr hcount), hstate, hread]
  rfl

/-- **A call that gets through the checks** has a command. -/
theorem prepare_of_passes (hp : Passes profile request options bus current setpoints) :
    ∃ targets, prepare profile request options bus = .ok targets ∧
      Prepared profile request options current setpoints targets := by
  have htargets : ∃ targets,
      targetsFrom profile options current setpoints 0 request.values = .ok targets := by
    refine exists_targets fun j value hv => ?_
    obtain ⟨k, hk⟩ := Option.isSome_iff_exists.mp (hp.band j value hv)
    rw [Nat.zero_add]
    exact ⟨_, targetOf_eq_ok.mpr ⟨hp.step j value hv, k, hk, rfl⟩⟩
  obtain ⟨targets, htargets⟩ := htargets
  refine ⟨targets, (prepare_eq hp.fresh hp.count hp.state hp.read).trans htargets,
    fun i value hv => ?_⟩
  obtain ⟨t, ht, htarget⟩ := target_of_targetsFrom htargets hv
  rw [Nat.zero_add] at htarget
  obtain ⟨-, k, hk, rfl⟩ := targetOf_eq_ok.mp htarget
  exact ⟨k, hk, ht⟩

/-- **Only such a call** has one. -/
theorem passes_of_prepare (h : prepare profile request options bus = .ok targets) :
    ∃ current setpoints, Passes profile request options bus current setpoints ∧
      Prepared profile request options current setpoints targets := by
  by_cases hstale : bus.checkedAt > request.validUntilMonotonicNs
  · rw [prepare, if_pos hstale] at h
    cases h
  · by_cases hcount : request.values.length = profile.command.actuatorCount
    · cases hstate : bus.state with
      | error exc =>
        rw [prepare, if_neg hstale, if_neg (not_not.mpr hcount), hstate] at h
        cases h
      | ok current =>
        cases hread : readSetpoints profile options bus with
        | error o =>
          rw [prepare, if_neg hstale, if_neg (not_not.mpr hcount), hstate, hread] at h
          cases h
        | ok setpoints =>
          rw [prepare_eq (not_lt.mp hstale) hcount hstate hread] at h
          have htarget : ∀ (i : Nat) value, request.values[i]? = some value →
              exceeds options.maxStepDeltaRaw current.position[i]? (profile.clampPosition value) =
                none ∧ ∃ k, keptFor profile options current setpoints i value = some k ∧
                  targets[i]? = some (k.getD (profile.clampPosition value)) := by
            intro i value hv
            obtain ⟨t, ht, htarget⟩ := target_of_targetsFrom h hv
            rw [Nat.zero_add] at htarget
            obtain ⟨hstep, k, hk, rfl⟩ := targetOf_eq_ok.mp htarget
            exact ⟨hstep, k, hk, ht⟩
          refine ⟨current, setpoints, ⟨not_lt.mp hstale, hcount, hstate, hread,
            fun i value hv => (htarget i value hv).1, fun i value hv => ?_⟩,
            fun i value hv => (htarget i value hv).2⟩
          obtain ⟨-, k, hk, -⟩ := htarget i value hv
          rw [hk]
          rfl
    · rw [prepare, if_neg hstale, if_pos hcount] at h
      cases h

/-- A call without a command has sent nothing. -/
theorem executeStep_error {o : Outcome R} (h : prepare profile request options bus = .error o) :
    executeStep profile request options bus = (o, []) := by
  rw [executeStep, h]

theorem executeStep_ok (h : prepare profile request options bus = .ok targets) :
    (executeStep profile request options bus).2 =
        [⟨targets, request.speed, PyFloat.truncate request.forceLimitG, bus.writtenAt⟩] ∧
      (∀ e, (executeStep profile request options bus).1 ≠ .safety e) ∧
      ((∀ message sent acknowledged, (executeStep profile request options bus).1 =
          .communication message sent acknowledged → sent = true) ↔
        ∃ acknowledged, bus.write = .ok acknowledged) := by
  rw [executeStep, h]
  cases bus.write with
  | error exc => simp
  | ok acknowledged => cases readFeedback bus.after <;> simp

theorem executeStep_write_error {exc : String} (h : bus.write = .error exc)
    (hsent : (executeStep profile request options bus).2 ≠ []) :
    (executeStep profile request options bus).1 =
      .communication ("command_send_failed: " ++ exc) false false := by
  cases hprepare : prepare profile request options bus with
  | error o =>
    rw [executeStep_error hprepare] at hsent
    exact absurd rfl hsent
  | ok targets => rw [executeStep, hprepare, h]

/-! ## The value of one actuator -/

theorem exceeds_eq_none {limit : PyFloat} (h : exceeds (some limit) (some p) target = none)
    (hlimit : limit ≠ .nan) : (PyFloat.finite |((target - p : Int) : ℚ)|).le limit = true := by
  refine PyFloat.le_of_not_lt (by simp) hlimit ?_
  by_contra hlt
  rw [Bool.not_eq_false] at hlt
  rw [exceeds, Option.bind_some, Option.bind_some, if_pos hlt] at h
  cases h

theorem kept_eq_some {tolerance : Option PyFloat} :
    kept setpoint position tolerance target = some (some s) ↔
      ∃ p t, setpoint = some s ∧ position = some p ∧ tolerance = some t ∧
        inBand target p t = some true := by
  constructor
  · intro h
    unfold kept at h
    split at h
    · next s' p t =>
      obtain ⟨inside, hinside, hs⟩ := Option.map_eq_some_iff.mp h
      split_ifs at hs with htrue
      cases hs
      exact ⟨p, t, rfl, rfl, rfl, htrue ▸ hinside⟩
    · cases h
  · rintro ⟨p, t, rfl, rfl, rfl, hband⟩
    simp [kept, hband]

theorem held_iff (hp : Passes profile request options bus current setpoints) :
    Held profile options bus i value v ↔
      keptFor profile options current setpoints i value = some (some v) := by
  have hstate := hp.state
  have hread := hp.read
  rw [keptFor, kept_eq_some]
  constructor
  · rintro ⟨current', setpoints', hold, p, t, hstate', hhold, hset, hs, hpos, ht, hband⟩
    obtain rfl := Except.ok.inj (hstate.symm.trans hstate')
    rw [readSetpoints, hhold] at hread
    simp only [hset] at hread
    split_ifs at hread
    obtain rfl : setpoints' = setpoints := Except.ok.inj hread
    exact ⟨p, t, hs, hpos, by rw [hhold]; exact ht, hband⟩
  · rintro ⟨p, t, hs, hpos, ht, hband⟩
    obtain ⟨hold, hhold, ht⟩ := Option.bind_eq_some_iff.mp ht
    rw [readSetpoints, hhold] at hread
    simp only at hread
    split_ifs at hread
    cases hset : bus.setpoints with
    | error exc =>
      rw [hset] at hread
      cases hread
    | ok setpoints' =>
      rw [hset] at hread
      obtain rfl : setpoints' = setpoints := Except.ok.inj hread
      exact ⟨current, setpoints', hold, p, t, hstate, hhold, hset, hs, hpos, ht, hband⟩

/-- The value that is sent for an actuator is one of the two exactly if the actuator is covered. -/
theorem bounded_iff (hp : Passes profile request options bus current setpoints)
    (hv : request.values[i]? = some value)
    (hk : keptFor profile options current setpoints i value = some k) :
    (Moved profile options bus i value (k.getD (profile.clampPosition value)) ∨
        Held profile options bus i value (k.getD (profile.clampPosition value))) ↔
      Covered profile options current setpoints i value := by
  rw [held_iff hp, hk]
  cases k with
  | some s =>
    -- a kept setpoint
    exact iff_of_true (.inr rfl) fun limit _ => .inl ⟨s, hk⟩
  | none =>
    rw [Option.getD_none]
    constructor
    · rintro (⟨-, -, -, hlimit⟩ | hno)
      · intro limit hl
        obtain ⟨current', p, hstate, hpos, hle⟩ := hlimit limit hl
        obtain rfl := Except.ok.inj (hp.state.symm.trans hstate)
        refine .inr ⟨by rw [hpos]; rfl, ?_⟩
        rintro rfl
        cases hle
      · cases hno
    · intro hcovered
      have hrange := profile.clampPosition_mem value
      refine .inl ⟨rfl, hrange.1, hrange.2, fun limit hl => ?_⟩
      rcases hcovered limit hl with ⟨s, hs⟩ | ⟨hpos, hlimit⟩
      · rw [hk] at hs
        cases hs
      · obtain ⟨p, hpos⟩ := Option.isSome_iff_exists.mp hpos
        have hstep := hp.step i value hv
        rw [hl, hpos] at hstep
        exact ⟨current, p, hp.state, hpos, exceeds_eq_none hstep hlimit⟩

/-! ## The theorem -/

/-- A call keeps the promises of the executor if and only if, once it is through the checks, every
actuator is covered, the deadline has not passed when the command is handed over, and the transport
does not raise there. -/
theorem hand_step_laws (profile : ValidProfile) (request : ActionExecutionRequest)
    (options : StepOptions) (bus : Bus R) :
    Keeps profile request options bus ↔ Clear profile request options bus := by
  cases hprepare : prepare profile request options bus with
  | error o =>
    -- nothing is sent
    have hrun := executeStep_error hprepare
    refine iff_of_true ⟨by simp [hrun], by simp [hrun], by simp [hrun], fun _ _ => by rw [hrun],
      by simp [hrun]⟩ fun current setpoints hp => ?_
    obtain ⟨targets, htargets, -⟩ := prepare_of_passes hp
    rw [hprepare] at htargets
    cases htargets
  | ok targets =>
    obtain ⟨hsent, hno, hreported⟩ := executeStep_ok hprepare
    constructor
    · intro h current setpoints hp
      obtain ⟨targets', htargets', hvalues⟩ := prepare_of_passes hp
      obtain rfl := Except.ok.inj (hprepare.symm.trans htargets')
      have hmem : (⟨targets, request.speed, PyFloat.truncate request.forceLimitG, bus.writtenAt⟩ :
          Command) ∈ (executeStep profile request options bus).2 := by simp [hsent]
      refine ⟨fun i value hv => ?_, h.fresh _ hmem, hreported.mp fun message sent ack hout =>
        h.reported message sent ack hout (by simp [hsent])⟩
      obtain ⟨k, hk, ht⟩ := hvalues i value hv
      obtain ⟨v, hv', hbound⟩ := h.bounded _ hmem i value hv
      obtain rfl := Option.some.inj (ht.symm.trans hv')
      exact (bounded_iff hp hv hk).mp hbound
    · intro h
      obtain ⟨current, setpoints, hp, hvalues⟩ := passes_of_prepare hprepare
      obtain ⟨hcovered, hfresh, hwrite⟩ := h current setpoints hp
      refine ⟨by simp [hsent], fun c hc i value hv => ?_, fun c hc => ?_,
        fun e he => absurd he (hno e), fun message sent ack hout _ =>
          hreported.mpr hwrite message sent ack hout⟩
      · obtain rfl := List.mem_singleton.mp (hsent ▸ hc)
        obtain ⟨k, hk, ht⟩ := hvalues i value hv
        exact ⟨_, ht, (bounded_iff hp hv hk).mpr (hcovered i value hv)⟩
      · obtain rfl := List.mem_singleton.mp (hsent ▸ hc)
        exact hfresh

/-! ## A hand that is read short, late, or not at all -/

def twoFingers : ValidProfile where
  id := "two_fingers"
  transport := ⟨.serialModbusRtu, "/dev/ttyUSB0", ""⟩
  command := ⟨2, (0, 1000), ((∅ : Dict String Int).set "closed" 0).set "open" 1000⟩
  actionOrder := ["index", "thumb"]
  valid := by decide

def sampleFeedback (position : List Int) : RH56Feedback Int ℚ := ⟨position, [], [], [], []⟩

def sampleBus (position : List Int) (writtenAt : Nat) (write : Except String Bool) : Bus ℚ where
  checkedAt := 0
  state := .ok (sampleFeedback position)
  setpoints := .ok position
  writtenAt := writtenAt
  write := write
  after := .ok (sampleFeedback position)
  forward := Int.natCast_nonneg _

def openFingers : ActionExecutionRequest := ⟨[510, 1000], 100, 100, 300⟩

def stepOf30 : StepOptions := { maxStepDeltaRaw := some (.finite 30) }

/-- The position of the thumb is missing, and it is sent from anywhere to 1000; a command is sent
when the deadline has passed; and one that the transport has is reported as not sent. -/
theorem unread_thumb_moves :
    (executeStep twoFingers openFingers stepOf30 (sampleBus [500] 0 (.ok true))).2 =
        [⟨[510, 1000], 100, 100, 0⟩] ∧
      ¬ Keeps twoFingers openFingers stepOf30 (sampleBus [500] 0 (.ok true)) ∧
      ¬ Keeps twoFingers openFingers stepOf30 (sampleBus [500, 990] 301 (.ok true)) ∧
      ¬ Keeps twoFingers openFingers stepOf30 (sampleBus [500, 990] 0 (.error "io_error")) := by
  refine ⟨by decide +kernel, fun h => ?_, fun h => ?_, fun h => ?_⟩
  · obtain ⟨v, -, ⟨-, -, -, hlimit⟩ | ⟨_, _, hold, _, _, -, hhold, -⟩⟩ :=
      h.bounded ⟨[510, 1000], 100, 100, 0⟩ (by decide +kernel) 1 1000 rfl
    · obtain ⟨current, p, hstate, hpos, -⟩ := hlimit _ rfl
      obtain rfl := Except.ok.inj hstate
      cases hpos
    · cases hhold
  · exact absurd (h.fresh ⟨[510, 1000], 100, 100, 301⟩ (by decide +kernel)) (by decide)
  · have hsent : (executeStep twoFingers openFingers stepOf30
        (sampleBus [500, 990] 0 (.error "io_error"))).2 ≠ [] := by decide +kernel
    exact absurd (h.reported _ _ _ (executeStep_write_error rfl hsent) hsent) (by decide)

end Rosclaw.RH56
