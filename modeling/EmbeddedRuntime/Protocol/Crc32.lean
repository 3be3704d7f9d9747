import EmbeddedRuntime.Lib.Crc
import Mathlib.Logic.Function.Iterate

/-!
# The CRC of `protocol/embedded_protocol.c`

`mlrt_crc32_update` feeds a byte into the low end of the state and shifts eight
times; the mask `-(state & 1)` is all ones exactly when the bit shifted out is
set.
-/

set_option autoImplicit false

namespace EmbeddedRuntime.Protocol.Crc32

open EmbeddedRuntime.Lib.Crc

def polynomial : UInt32 := 0xEDB88320

/-- One turn of the inner loop. -/
def crcBit (state : UInt32) : UInt32 :=
  (state >>> 1) ^^^ (polynomial &&& (0 - (state &&& 1)))

/-- One turn of the outer loop. -/
def crcByte (state : UInt32) (byte : UInt8) : UInt32 :=
  crcBit^[8] (state ^^^ byte.toUInt32)

def mlrtCrc32Begin : UInt32 := 0xFFFFFFFF

def mlrtCrc32Update (state : UInt32) (data : List UInt8) : UInt32 :=
  data.foldl crcByte state

def mlrtCrc32End (state : UInt32) : UInt32 := state ^^^ 0xFFFFFFFF

def mlrtCrc32 (data : List UInt8) : UInt32 :=
  mlrtCrc32End (mlrtCrc32Update mlrtCrc32Begin data)

theorem crcBit_toBitVec (state : UInt32) :
    (crcBit state).toBitVec = shift ieeePolynomial state.toBitVec := by
  rw [crcBit, and_one, shift]
  cases state.toBitVec.getLsbD 0
  · simp
  · have mask : polynomial &&& (0 - 1) = polynomial := by decide
    simp only [if_true, mask]
    rfl

theorem mlrtCrc32_eq_ieee (data : List UInt8) : mlrtCrc32 data = ieee data :=
  (ieee_eq_foldl (feedByte_of_shift crcBit_toBitVec) data).symm

/-- Data fed in two pieces. -/
theorem mlrtCrc32Update_append (state : UInt32) (first second : List UInt8) :
    mlrtCrc32Update state (first ++ second) =
      mlrtCrc32Update (mlrtCrc32Update state first) second :=
  List.foldl_append

/-- The check value of the test: the digits 1 to 9. -/
example : mlrtCrc32 [0x31, 0x32, 0x33, 0x34, 0x35, 0x36, 0x37, 0x38, 0x39] = 0xcbf43926 := by
  decide +kernel

end EmbeddedRuntime.Protocol.Crc32
