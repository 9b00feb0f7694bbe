/-
The transport profile of an RH56 hand, and what a transport reads (`body/rh56/transport_profile.py`,
`body/rh56/transport.py`).

* `TransportProfile.validateInternal` — the checks of `validate_internal`, in their order;
* `ValidProfile` — a profile that passes them.
-/
import Rosclaw.Lib.Dict
import Rosclaw.Lib.FloatArith

namespace Rosclaw.RH56

inductive TransportType
  | serialModbusRtu | can20b
deriving DecidableEq, Repr

structure TransportConfig where
  type : TransportType
  device : String := ""
  channel : String := ""

structure CommandConfig where
  actuatorCount : Nat
  /-- `lo, hi = position_range`. -/
  positionRange : Int × Int
  positionConvention : Dict String Int

structure TransportProfile where
  id : String
  transport : TransportConfig
  command : CommandConfig
  actionOrder : List String

inductive TransportBindingError
  /-- `transport_profile_mismatch: profile id is empty` -/
  | idEmpty
  /-- `actuator_count_mismatch: action_order has ... entries but ...` -/
  | actuatorCount (entries count : Nat)
  /-- `command_scale_mismatch: invalid position_range ...` -/
  | positionRange (range : Int × Int)
  /-- `command_scale_mismatch: position_convention missing ...` -/
  | conventionMissing (key : String)
  /-- `transport_profile_mismatch: serial_modbus_rtu requires transport.device` -/
  | deviceRequired
  /-- `transport_profile_mismatch: can_2_0b requires transport.channel` -/
  | channelRequired
deriving DecidableEq, Repr

def TransportProfile.validateInternal (p : TransportProfile) : Except TransportBindingError Unit :=
  if p.id = "" then .error .idEmpty
  else if p.actionOrder.length ≠ p.command.actuatorCount then
    .error (.actuatorCount p.actionOrder.length p.command.actuatorCount)
  else if ¬ (0 ≤ p.command.positionRange.1 ∧
      p.command.positionRange.1 < p.command.positionRange.2) then
    .error (.positionRange p.command.positionRange)
  else
    match ["closed", "open"].find? fun key => !p.command.positionConvention.contains key with
    | some key => .error (.conventionMissing key)
    | none =>
      if p.transport.type = .serialModbusRtu ∧ p.transport.device = "" then
        .error .deviceRequired
      else if p.transport.type = .can20b ∧ p.transport.channel = "" then
        .error .channelRequired
      else .ok ()

structure ValidProfile extends TransportProfile where
  valid : toTransportProfile.validateInternal = .ok ()

theorem TransportProfile.of_validateInternal {p : TransportProfile}
    (h : p.validateInternal = .ok ()) :
    p.actionOrder.length = p.command.actuatorCount ∧ 0 ≤ p.command.positionRange.1 ∧
      p.command.positionRange.1 < p.command.positionRange.2 := by
  unfold validateInternal at h
  by_cases hid : p.id = ""
  · rw [if_pos hid] at h
    cases h
  · by_cases hcount : p.actionOrder.length ≠ p.command.actuatorCount
    · rw [if_neg hid, if_pos hcount] at h
      cases h
    · by_cases hrange : ¬ (0 ≤ p.command.positionRange.1 ∧
          p.command.positionRange.1 < p.command.positionRange.2)
      · rw [if_neg hid, if_neg hcount, if_pos hrange] at h
        cases h
      · exact ⟨not_not.mp hcount, not_not.mp hrange⟩

def TransportProfile.clampPosition (p : TransportProfile) (value : ℚ) : Int :=
  max p.command.positionRange.1 (min p.command.positionRange.2 (PyFloat.roundInt value))

/-- A target that is clamped is in the position range. -/
theorem ValidProfile.clampPosition_mem (p : ValidProfile) (value : ℚ) :
    p.command.positionRange.1 ≤ p.clampPosition value ∧
      p.clampPosition value ≤ p.command.positionRange.2 := by
  have hrange := (TransportProfile.of_validateInternal p.valid).2.2
  unfold TransportProfile.clampPosition
  omega

/-- The positions that a transport reads are of type `P`, the other readings of type `R`. -/
structure RH56Feedback (P R : Type*) where
  position : List P
  forceG : List R
  currentMa : List R
  statusBits : List Int
  temperatureC : List R

end Rosclaw.RH56
