/-
What the parser of a response makes of a frame.

* `crcValid_iff` — a CRC fits just when the whole frame leaves nothing in the register;
* `parse_readResponse` — the response to a read request is read as its registers;
* `parse_corrupted` — **no registers are read from a frame that a burst of at most 16 bits has
  changed**;
* `parse_laws` — the three together.
-/
import Rosclaw.Body.Modbus

namespace Rosclaw.Modbus

open BitVec List

/-! ### The register -/

def bits (b : Byte) : List Bool := List.ofFn fun i : Fin 8 => b.getLsbD i

def serial (data : List Byte) : List Bool := data.flatMap bits

variable {error frame pre tail : List Byte} {i n : Nat} (body : List Byte) (crc : BitVec 16)
  (data : List Byte) (b : Byte) (response : List Byte) (slaveId : Nat)

@[simp] theorem length_bits : (bits b).length = 8 := length_ofFn

theorem length_serial : (serial data).length = 8 * data.length := by
  induction data with
  | nil => rfl
  | cons b data ih =>
    rw [serial, flatMap_cons, length_append, length_bits, ← serial, ih, length_cons]
    omega

theorem getD_bits (i : Nat) : (bits b).getD i false = b.getLsbD i := by
  by_cases hi : i < 8
  · rw [List.getD_eq_getElem _ _ ((length_bits b).symm ▸ hi)]
    exact List.getElem_ofFn _
  · rw [List.getD_eq_default _ _ (by simpa using hi), BitVec.getLsbD_of_ge b i (by omega)]

theorem word_bits : (Crc.word (bits b) : BitVec 16) = b.setWidth 16 := by
  refine eq_of_getLsbD_eq fun i hi => ?_
  rw [Crc.getLsbD_word _ hi, getD_bits, getLsbD_setWidth, decide_eq_true hi, Bool.true_and]

theorem word_bits_append (lo hi : Byte) :
    (Crc.word (bits lo ++ bits hi) : BitVec 16) = hi ++ lo := by
  refine eq_of_getLsbD_eq fun i hlt => ?_
  rw [Crc.getLsbD_word _ hlt, getLsbD_append]
  by_cases h : i < 8
  · rw [getD_append _ _ _ _ (by simpa using h), getD_bits]
    simp [h]
  · rw [getD_append_right _ _ _ _ (by simpa using h), getD_bits, length_bits]
    simp [h]

theorem crcByte_eq : crcByte crc b = Crc.run polynomial crc (bits b) := by
  rw [Crc.run_eq crc (by rw [length_bits]; decide), length_bits, word_bits, crcByte]

theorem foldl_crcByte : data.foldl crcByte crc = Crc.run polynomial crc (serial data) := by
  induction data generalizing crc with
  | nil => rfl
  | cons b data ih =>
    rw [foldl_cons, ih, crcByte_eq, ← Crc.run_append]
    rfl

theorem polynomial_msb : polynomial.msb = true := by decide

theorem crc_eq_iff (lo hi : Byte) :
    hi ++ lo = crc16Modbus body ↔ Crc.run polynomial 0xFFFF (serial (body ++ [lo, hi])) = 0#16 := by
  have hserial : serial (body ++ [lo, hi]) = serial body ++ (bits lo ++ bits hi) := by
    simp [serial]
  rw [hserial, Crc.run_append, crc16Modbus, foldl_crcByte,
    Crc.run_eq _ (by simp : (bits lo ++ bits hi).length ≤ 16), word_bits_append]
  constructor
  · intro h
    rw [h, BitVec.xor_self]
    exact Function.iterate_fixed Crc.shift_zero _
  · intro h
    exact (BitVec.xor_eq_zero_iff.mp (Crc.iterate_shift_eq_zero polynomial_msb h)).symm

/-! ### The checks -/

def crcValid (response : List Byte) : Bool :=
  (unpackLittle (response.drop (response.length - 2))).toOption
    = some (crc16Modbus response.dropLast.dropLast)

theorem exists_body {response : List Byte} (h : 2 ≤ response.length) :
    ∃ body lo hi, response = body ++ [lo, hi] := by
  obtain rfl | ⟨init, hi, rfl⟩ := eq_nil_or_concat response
  · cases h
  obtain rfl | ⟨body, lo, rfl⟩ := eq_nil_or_concat init
  · simp at h
  exact ⟨body, lo, hi, by simp⟩

theorem unpack_trailer (lo hi : Byte) :
    unpackLittle ((body ++ [lo, hi]).drop ((body ++ [lo, hi]).length - 2)) = .ok (hi ++ lo) := by
  have hlen : (body ++ [lo, hi]).length - 2 = body.length := by simp
  rw [hlen, drop_left]
  rfl

theorem crcValid_iff {response : List Byte} (h : 2 ≤ response.length) :
    crcValid response = true ↔ Crc.run polynomial 0xFFFF (serial response) = 0#16 := by
  obtain ⟨body, lo, hi, rfl⟩ := exists_body h
  rw [← crc_eq_iff, crcValid, unpack_trailer, decide_eq_true_iff]
  have hbody : (body ++ [lo, hi]).dropLast.dropLast = body := by simp
  rw [hbody]
  exact Option.some_inj

theorem check_cases : (checkResponseHeader response slaveId 3 = .ok () ∧ 5 ≤ response.length
        ∧ (at' response 1).toNat = 3 ∧ crcValid response = true)
      ∨ (checkResponseHeader response slaveId 3 = .error (.exception 3 (at' response 2))
        ∧ 5 ≤ response.length ∧ (at' response 0).toNat = slaveId
        ∧ (at' response 1).toNat = 0x83)
      ∨ (∃ e, checkResponseHeader response slaveId 3 = .error e ∧ e.isRuntimeError = true
        ∧ (∀ fc code, e ≠ .exception fc code)
        ∧ (response.length < 5 ∨ (at' response 0).toNat ≠ slaveId ∨ (at' response 1).toNat ≠ 0x83
            ∧ ((at' response 1).toNat ≠ 3 ∨ crcValid response = false))) := by
  rw [checkResponseHeader]
  split
  · next hshort => exact .inr (.inr ⟨_, rfl, rfl, by simp, .inl hshort⟩)
  next hlen =>
  split
  · next hslave => exact .inr (.inr ⟨_, rfl, rfl, by simp, .inr (.inl hslave)⟩)
  next hslave =>
  split
  · next hexc => exact .inr (.inl ⟨rfl, Nat.le_of_not_lt hlen, not_not.mp hslave, hexc⟩)
  next hexc =>
  split
  · next hfc => exact .inr (.inr ⟨_, rfl, rfl, by simp, .inr (.inr ⟨hexc, .inl hfc⟩)⟩)
  next hfc =>
  have htwo : 2 ≤ response.length := by omega
  obtain ⟨body, lo, hi, hbody⟩ := exists_body htwo
  have htrailer : unpackLittle (response.drop (response.length - 2)) = .ok (hi ++ lo) := by
    rw [hbody, unpack_trailer]
  rw [crcValid, htrailer]
  by_cases hcrc : hi ++ lo = crc16Modbus response.dropLast.dropLast
  · refine .inl ⟨?_, Nat.le_of_not_lt hlen, not_not.mp hfc, decide_eq_true (congrArg some hcrc)⟩
    simp only [bind, Except.bind]
    exact if_neg (not_not.mpr hcrc)
  · refine .inr (.inr ⟨_, if_pos hcrc, rfl, by simp, .inr (.inr ⟨hexc, .inr ?_⟩)⟩)
    exact decide_eq_false fun h => hcrc (Option.some_inj.mp h)

theorem exists_values {response : List Byte} (h : 5 + n ≤ response.length) (i : Nat) :
    ∃ vs, values response n i = .ok vs := by
  induction i using values.induct n with
  | case1 i hi ih =>
    obtain ⟨vs, hvs⟩ := ih
    have hlen : ((response.drop (3 + i)).take 2).length = 2 := by
      rw [length_take, length_drop]
      omega
    obtain ⟨hi', lo, hpair⟩ := length_eq_two.mp hlen
    rw [values, if_pos hi, hpair, hvs]
    exact ⟨_, rfl⟩
  | case2 i hi =>
    rw [values, if_neg hi]
    exact ⟨_, rfl⟩

theorem halves_append (v : BitVec 16) : v.extractLsb' 8 8 ++ v.extractLsb' 0 8 = v := by
  refine eq_of_getLsbD_eq fun i hi => ?_
  rw [getLsbD_append, getLsbD_extractLsb', getLsbD_extractLsb']
  by_cases h : i < 8
  · simp [h]
  · have hhigh : i - 8 < 8 := by omega
    simp [h, hhigh, Nat.add_sub_cancel' (Nat.le_of_not_lt h)]

theorem values_eq (registers : List (BitVec 16)) (hpre : pre.length = 3 + i) :
    values (pre ++ registers.flatMap packBig ++ tail) (i + 2 * registers.length) i
      = .ok registers := by
  induction registers generalizing pre i with
  | nil => rw [values, if_neg (by simp)]
  | cons v registers ih =>
    have hpair : ((pre ++ (v :: registers).flatMap packBig ++ tail).drop (3 + i)).take 2
        = packBig v := by
      rw [← hpre, List.append_assoc, List.drop_left]
      rfl
    have hrest : pre ++ (v :: registers).flatMap packBig ++ tail
        = (pre ++ packBig v) ++ registers.flatMap packBig ++ tail := by
      simp only [List.flatMap_cons, List.append_assoc]
    have hcount : i + 2 * (v :: registers).length = (i + 2) + 2 * registers.length := by
      rw [List.length_cons]
      omega
    have hunpack : unpackBig (packBig v) = .ok v := congrArg Except.ok (halves_append v)
    have hnext : values ((pre ++ packBig v) ++ registers.flatMap packBig ++ tail)
        (i + 2 + 2 * registers.length) (i + 2) = .ok registers :=
      ih (by rw [List.length_append, hpre]; rfl)
    rw [values, if_pos (by rw [List.length_cons]; omega), hpair, hrest, hcount, hnext, hunpack]
    rfl

/-! ### The promises -/

section
variable {registers : List (BitVec 16)} (slave : Byte)

theorem length_flatMap_packBig : (registers.flatMap packBig).length = 2 * registers.length := by
  induction registers with
  | nil => rfl
  | cons v registers ih =>
    rw [flatMap_cons, length_append, ih, length_cons, packBig]
    show 2 + _ = _
    omega

theorem length_readResponse : (readResponse slave registers).length = 5 + 2 * registers.length := by
  rw [readResponse, frame, length_append, length_append, length_flatMap_packBig]
  simp only [length_cons, length_nil]
  omega

theorem crcValid_readResponse : crcValid (readResponse slave registers) = true := by
  rw [crcValid_iff (by rw [length_readResponse]; omega), readResponse, frame, ← crc_eq_iff]
  exact halves_append _

/-- **The response to a read request is read as its registers.** -/
theorem parse_readResponse (hlen : registers.length ≤ 125) :
    parseReadResponse (readResponse slave registers) slave.toNat = .ok registers := by
  have hcount : (BitVec.ofNat 8 (2 * registers.length)).toNat = 2 * registers.length := by
    rw [toNat_ofNat]
    omega
  obtain ⟨hok, -, -, -⟩ | ⟨-, -, -, hfc⟩ | ⟨e, -, -, -, hwhy⟩ :=
    check_cases (readResponse slave registers) slave.toNat
  · have hthird : at' (readResponse slave registers) 2 = BitVec.ofNat 8 (2 * registers.length) := rfl
    have hvalues : ∀ tail, values ([slave, 3, BitVec.ofNat 8 (2 * registers.length)]
        ++ registers.flatMap packBig ++ tail) (0 + 2 * registers.length) 0 = .ok registers :=
      fun tail => values_eq registers rfl
    rw [parseReadResponse, hok]
    show (if _ then _ else _) = _
    rw [hthird, hcount, if_neg (not_not.mpr (length_readResponse slave)), readResponse, frame]
    simp only [Nat.zero_add] at hvalues
    exact hvalues _
  · cases hfc
  · have hvalid : crcValid (readResponse slave registers) = true := crcValid_readResponse slave
    obtain hshort | hslave | ⟨-, hfc | hcrc⟩ := hwhy
    · rw [length_readResponse] at hshort
      omega
    · exact absurd rfl hslave
    · exact absurd rfl hfc
    · rw [hvalid] at hcrc
      cases hcrc

end

/-- An error is a burst: its bits, in serial order, stand in 16 that follow each other. -/
def Burst (error : List Byte) : Prop :=
  ∃ m n bits, serial error = List.replicate m false ++ bits ++ List.replicate n false
    ∧ bits.length ≤ 16 ∧ true ∈ bits

def corrupted (frame error : List Byte) : List Byte := List.zipWith (· ^^^ ·) frame error

theorem bits_xor (a b : Byte) : bits (a ^^^ b) = List.zipWith xor (bits a) (bits b) := by
  refine List.ext_getElem (by simp) fun i h h' => ?_
  rw [List.getElem_zipWith]
  simp only [bits, List.getElem_ofFn, BitVec.getLsbD_xor]

theorem serial_corrupted (h : frame.length = error.length) :
    serial (corrupted frame error) = List.zipWith xor (serial frame) (serial error) := by
  induction frame generalizing error with
  | nil => rfl
  | cons a frame ih =>
    cases error with
    | nil => cases h
    | cons b error =>
      have hrest := ih (Nat.succ.inj h)
      show bits (a ^^^ b) ++ serial (corrupted frame error) = _
      rw [bits_xor, hrest]
      exact (zipWith_append (by simp)).symm

/-- **No registers are read from a frame that a burst has changed.** -/
theorem parse_corrupted {response : List Byte} (hvalid : crcValid response = true)
    (hlong : 2 ≤ response.length) (hlen : response.length = error.length) (h : Burst error)
    (slaveId : Nat) (vs : List (BitVec 16)) :
    parseReadResponse (corrupted response error) slaveId ≠ .ok vs := by
  intro hok
  obtain ⟨m, n, burst, hburst, hfits, htrue⟩ := h
  have hlong' : 2 ≤ (corrupted response error).length := by
    rw [corrupted, length_zipWith, ← hlen, Nat.min_self]
    exact hlong
  obtain ⟨-, -, -, hcrc⟩ | ⟨hbad, -⟩ | ⟨e, hbad, -⟩ :=
    check_cases (corrupted response error) slaveId
  · -- the register of the error alone would be empty
    have hlens : (serial response).length = (serial error).length := by
      rw [length_serial, length_serial, hlen]
    have hrun := Crc.run_xor (p := polynomial) hlens 0xFFFF 0#16
    rw [xor_zero, ← serial_corrupted hlen, (crcValid_iff hlong).mp hvalid,
      (crcValid_iff hlong').mp hcrc, zero_xor, hburst] at hrun
    exact Crc.run_burst polynomial_msb hfits htrue m n hrun.symm
  · rw [parseReadResponse, hbad] at hok
    cases hok
  · rw [parseReadResponse, hbad] at hok
    cases hok

/-- What is promised of every frame: the errors are the module's, and an exception is reported
only if the CRC is valid. -/
structure Honest (response : List Byte) (slaveId : Nat) : Prop where
  runtime : ∀ e, parseReadResponse response slaveId = .error e → e.isRuntimeError = true
  exception : ∀ fc code, parseReadResponse response slaveId = .error (.exception fc code) →
    crcValid response = true

def Forged (response : List Byte) (slaveId : Nat) : Prop :=
  5 ≤ response.length ∧ (at' response 0).toNat = slaveId ∧ (at' response 1).toNat = 0x83
    ∧ crcValid response = false

theorem honest_iff : Honest response slaveId ↔ ¬ Forged response slaveId := by
  obtain ⟨hok, hlen, hfc, hcrc⟩ | ⟨hexc, hlen, hslave, hfc⟩ | ⟨e, he, hruntime, hother, hwhy⟩ :=
    check_cases response slaveId
  · have hparse : parseReadResponse response slaveId
        = if response.length ≠ 5 + (at' response 2).toNat then
            .error (.lengthMismatch (at' response 2).toNat (response.length - 5))
          else values response (at' response 2).toNat 0 := by
      rw [parseReadResponse, hok]
      rfl
    refine ⟨fun _ hforged => ?_, fun _ => ⟨fun e he => ?_, fun _ _ _ => hcrc⟩⟩
    · cases hcrc.symm.trans hforged.2.2.2
    · rw [hparse] at he
      split at he
      · cases he
        rfl
      · next hlength =>
        obtain ⟨vs, hvs⟩ := exists_values (Nat.le_of_eq (not_not.mp hlength).symm) 0
        rw [hvs] at he
        cases he
  · have hparse : parseReadResponse response slaveId = .error (.exception 3 (at' response 2)) := by
      rw [parseReadResponse, hexc]
      rfl
    refine ⟨fun h hforged => ?_, fun h => ⟨fun e he => ?_, fun _ _ _ => ?_⟩⟩
    · cases (h.exception _ _ hparse).symm.trans hforged.2.2.2
    · rw [hparse] at he
      cases he
      rfl
    · cases hcrc : crcValid response with
      | true => rfl
      | false => exact absurd ⟨hlen, hslave, hfc, hcrc⟩ h
  · have hparse : parseReadResponse response slaveId = .error e := by
      rw [parseReadResponse, he]
      rfl
    refine ⟨fun _ hforged => ?_, fun _ => ⟨fun e' he' => ?_, fun fc code he' => ?_⟩⟩
    · obtain ⟨hlen, hslave, hfc, -⟩ := hforged
      obtain hshort | hslave' | ⟨hfc', -⟩ := hwhy
      · omega
      · exact hslave' hslave
      · exact hfc' hfc
    · rw [hparse] at he'
      cases he'
      exact hruntime
    · rw [hparse] at he'
      cases he'
      exact absurd rfl (hother fc code)

/-- **What is read from a response, from one with an error, and from any frame.** -/
theorem parse_laws (slave : Byte) {registers : List (BitVec 16)} (hpos : 1 ≤ registers.length)
    (hlen : registers.length ≤ 125) (response : List Byte) (slaveId : Nat) :
    parseReadResponse (readResponse slave registers) slave.toNat = .ok registers
      ∧ (∀ error, error.length = (readResponse slave registers).length → Burst error →
        ∀ vs, parseReadResponse (corrupted (readResponse slave registers) error) slave.toNat
          ≠ .ok vs)
      ∧ (Honest response slaveId ↔ ¬ Forged response slaveId) := by
  refine ⟨parse_readResponse slave hlen, fun error herror hburst vs => ?_,
    honest_iff response slaveId⟩
  exact parse_corrupted (crcValid_readResponse slave) (by rw [length_readResponse]; omega)
    herror.symm hburst _ vs

theorem parse_laws_first :
    parseReadResponse (readResponse 1 [1500]) 1 = .ok [1500]
      ∧ Burst [0, 0, 0, 0, 16, 0, 0]
      ∧ ∀ vs, parseReadResponse (corrupted (readResponse 1 [1500]) [0, 0, 0, 0, 16, 0, 0]) 1
          ≠ .ok vs := by
  have hburst : Burst [0, 0, 0, 0, 16, 0, 0] := 
    ⟨36, 19, [true], by decide +kernel, by decide, by decide⟩
  have h := @parse_laws 1 [1500] (by decide) (by decide) [] 0
  exact ⟨h.1, hburst, h.2.1 _ (by rw [length_readResponse]; rfl) hburst⟩

theorem forged_exception : ¬ ∀ (response : List Byte) (slaveId : Nat),
    Honest response slaveId := by
  intro h
  have hvalid := (h [1, 0x83, 2, 0, 0] 1).exception 3 2 rfl
  revert hvalid
  decide +kernel

end Rosclaw.Modbus
