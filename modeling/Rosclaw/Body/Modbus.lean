/-
The Modbus-RTU frame layer of the RH56 hand (`body/rh56/modbus.py`).

* `Failure` — the errors of the module, and the two that only Python could raise;
* `crc16Modbus`, `checkResponseHeader`, `parseReadResponse` — the functions.
-/
import Mathlib.Data.List.Basic
import Rosclaw.Lib.Crc

namespace Rosclaw.Modbus

abbrev Byte := BitVec 8

inductive Failure
  /-- `ModbusExceptionError` -/
  | exception (functionCode : Nat) (exceptionCode : Byte)
  /-- `modbus_short_frame` -/
  | shortFrame (length : Nat)
  /-- `modbus_slave_mismatch` -/
  | slaveMismatch (expected : Nat) (got : Byte)
  /-- `modbus_fc_mismatch` -/
  | fcMismatch (expected : Nat) (got : Byte)
  /-- `modbus_crc_failure` -/
  | crcFailure (received computed : BitVec 16)
  /-- `modbus_length_mismatch` -/
  | lengthMismatch (header frame : Nat)
  /-- `struct.error` -/
  | struct
deriving DecidableEq, Repr

/-- The errors of the module: `RuntimeError`, of which `ModbusExceptionError` is one. -/
def Failure.isRuntimeError : Failure → Bool
  | .struct => false
  | _ => true

def polynomial : BitVec 16 := 0xA001

/-- A byte of the loop of `crc16_modbus`. -/
def crcByte (crc : BitVec 16) (byte : Byte) : BitVec 16 :=
  (Crc.shift polynomial)^[8] (crc ^^^ byte.setWidth 16)

def crc16Modbus (data : List Byte) : BitVec 16 := data.foldl crcByte 0xFFFF

/-- `struct.unpack("<H", ...)`. -/
def unpackLittle : List Byte → Except Failure (BitVec 16)
  | [lo, hi] => .ok (hi ++ lo)
  | _ => .error .struct

/-- `struct.unpack(">H", ...)`. -/
def unpackBig : List Byte → Except Failure (BitVec 16)
  | [hi, lo] => .ok (hi ++ lo)
  | _ => .error .struct

def at' (response : List Byte) (i : Nat) : Byte := response.getD i 0

def checkResponseHeader (response : List Byte) (slaveId functionCode : Nat) :
    Except Failure Unit :=
  if response.length < 5 then .error (.shortFrame response.length)
  else if (at' response 0).toNat ≠ slaveId then .error (.slaveMismatch slaveId (at' response 0))
  else if (at' response 1).toNat = functionCode ||| 0x80 then
    .error (.exception functionCode (at' response 2))
  else if (at' response 1).toNat ≠ functionCode then
    .error (.fcMismatch functionCode (at' response 1))
  else do
    let received ← unpackLittle (response.drop (response.length - 2))
    let computed := crc16Modbus response.dropLast.dropLast
    if received ≠ computed then .error (.crcFailure received computed) else .ok ()

/-- The values from an index on, as long as the index is below the byte count. -/
def values (response : List Byte) (byteCount : Nat) (i : Nat) : Except Failure (List (BitVec 16)) :=
  if i < byteCount then do
    let value ← unpackBig ((response.drop (3 + i)).take 2)
    let rest ← values response byteCount (i + 2)
    .ok (value :: rest)
  else .ok []
termination_by byteCount - i

def parseReadResponse (response : List Byte) (slaveId : Nat) :
    Except Failure (List (BitVec 16)) := do
  checkResponseHeader response slaveId 0x03
  let byteCount := (at' response 2).toNat
  if response.length ≠ 5 + byteCount then
    .error (.lengthMismatch byteCount (response.length - 5))
  else values response byteCount 0

def packBig (v : BitVec 16) : List Byte := [v.extractLsb' 8 8, v.extractLsb' 0 8]

def frame (body : List Byte) : List Byte :=
  body ++ [(crc16Modbus body).extractLsb' 0 8, (crc16Modbus body).extractLsb' 8 8]

/-- The response to a read request: slave, function code, byte count, registers, CRC. -/
def readResponse (slaveId : Byte) (registers : List (BitVec 16)) : List Byte :=
  frame ([slaveId, 0x03, BitVec.ofNat 8 (2 * registers.length)] ++ registers.flatMap packBig)

end Rosclaw.Modbus
