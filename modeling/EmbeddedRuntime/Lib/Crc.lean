import Mathlib.Data.List.GetD
import Mathlib.Logic.Function.Iterate

/-!
# Reflected cyclic redundancy checks

A register of `w` bits divides the message by a polynomial, one bit at a time
and the low bit first.  `feedByte` is the form programs use: the byte goes into
the low end of the register, which then shifts eight times.

The shift is linear for exclusive or, and it loses nothing when the top bit of
the polynomial is set.  Both arguments of `feedByte` can then be recovered from
the other one and the result, so a message with one byte replaced has another
check value.
-/

set_option autoImplicit false

namespace EmbeddedRuntime.Lib.Crc

section Register
variable {w : Nat} (poly : BitVec w)

/-- One shift of the register. -/
def shift (register : BitVec w) : BitVec w :=
  (register >>> 1) ^^^ (if register.getLsbD 0 then poly else 0#w)

/-- A single bit, at the low end of the register. -/
def low (bit : Bool) : BitVec w := (BitVec.ofBool bit).setWidth w

/-- One bit of the message. -/
def feed (register : BitVec w) (bit : Bool) : BitVec w := shift poly (register ^^^ low bit)

/-- The bits of a number, the low one first. -/
def bits (value : BitVec w) : Nat → List Bool
  | 0 => []
  | count + 1 => value.getLsbD 0 :: bits (value >>> 1) count

/-- The bits of a message in the order they are sent. -/
def messageBits (message : List UInt8) : List Bool :=
  message.flatMap fun byte => bits byte.toBitVec 8

/-- The check value of a message. -/
def check (initial final : BitVec w) (message : List UInt8) : BitVec w :=
  (messageBits message).foldl (feed poly) initial ^^^ final

/-- A whole byte at once. -/
def feedByte (register : BitVec w) (byte : UInt8) : BitVec w :=
  (shift poly)^[8] (register ^^^ byte.toBitVec.setWidth w)

/-! ## Linearity -/

theorem shift_xor (a b : BitVec w) : shift poly (a ^^^ b) = shift poly a ^^^ shift poly b := by
  unfold shift
  rw [BitVec.ushiftRight_xor_distrib, BitVec.getLsbD_xor]
  cases a.getLsbD 0 <;> cases b.getLsbD 0
  · simp
  · simp [BitVec.xor_assoc]
  · simp only [Bool.xor_false, if_true, Bool.false_eq_true, if_false, BitVec.xor_zero]
    ac_rfl
  · have cancel : poly ^^^ poly = 0#w := BitVec.xor_self
    simp only [Bool.xor_true, Bool.not_true, Bool.false_eq_true, if_false, if_true,
      BitVec.xor_zero]
    calc a >>> 1 ^^^ b >>> 1 = (a >>> 1 ^^^ b >>> 1) ^^^ (poly ^^^ poly) := by
          rw [cancel, BitVec.xor_zero]
      _ = a >>> 1 ^^^ poly ^^^ (b >>> 1 ^^^ poly) := by ac_rfl

/-- A register with a clear low bit only moves down. -/
theorem shift_even (a : BitVec w) (even : a.getLsbD 0 = false) : shift poly a = a >>> 1 := by
  simp [shift, even]

/-! ## The byte at once and its bits one by one -/

theorem low_ushiftRight (bit : Bool) : (low bit : BitVec w) >>> 1 = 0#w := by
  apply BitVec.eq_of_getLsbD_eq
  intro i _
  simp [low, BitVec.getLsbD_ushiftRight, BitVec.getLsbD_setWidth]

theorem getLsbD_low (positive : 0 < w) (bit : Bool) : (low bit : BitVec w).getLsbD 0 = bit := by
  simp [low, positive]

/-- What remains of a number after its low bit was fed. -/
theorem shift_eq_feed (positive : 0 < w) (register value : BitVec w) :
    shift poly (register ^^^ value) = feed poly register (value.getLsbD 0) ^^^ value >>> 1 := by
  have rest : (value ^^^ low (value.getLsbD 0)).getLsbD 0 = false := by
    rw [BitVec.getLsbD_xor, getLsbD_low positive, Bool.xor_self]
  have apart : register ^^^ value =
      (register ^^^ low (value.getLsbD 0)) ^^^ (value ^^^ low (value.getLsbD 0)) := by
    have cancel : (low (value.getLsbD 0) : BitVec w) ^^^ low (value.getLsbD 0) = 0#w :=
      BitVec.xor_self
    calc register ^^^ value =
          (register ^^^ value) ^^^ (low (value.getLsbD 0) ^^^ low (value.getLsbD 0)) := by
          rw [cancel, BitVec.xor_zero]
      _ = _ := by ac_rfl
  rw [apart, shift_xor, shift_even poly _ rest, BitVec.ushiftRight_xor_distrib,
    low_ushiftRight, BitVec.xor_zero]
  rfl

theorem foldl_feed_bits (positive : 0 < w) (count : Nat) (register value : BitVec w)
    (small : ∀ i, count ≤ i → value.getLsbD i = false) :
    (bits value count).foldl (feed poly) register = (shift poly)^[count] (register ^^^ value) := by
  induction count generalizing register value with
  | zero =>
      have zero : value = 0#w := by
        apply BitVec.eq_of_getLsbD_eq
        intro i _
        simpa using small i (Nat.zero_le i)
      simp [bits, zero]
  | succ count ih =>
      rw [bits, List.foldl_cons, Function.iterate_succ_apply, shift_eq_feed poly positive]
      apply ih
      intro i above
      rw [BitVec.getLsbD_ushiftRight]
      exact small (1 + i) (by omega)

theorem bits_setWidth {v : Nat} (value : BitVec v) (count : Nat) (fits : v ≤ w) :
    bits (value.setWidth w) count = bits value count := by
  have bit (i : Nat) : (value.setWidth w).getLsbD i = value.getLsbD i := by
    rw [BitVec.getLsbD_setWidth]
    by_cases inside : i < w
    · simp [inside]
    · have beyond : value.getLsbD i = false := BitVec.getLsbD_of_ge value i (by omega)
      simp [inside, beyond]
  have same : ∀ (a : BitVec w) (b : BitVec v), (∀ i, a.getLsbD i = b.getLsbD i) →
      bits a count = bits b count := by
    induction count with
    | zero => intro a b _; rfl
    | succ count ih =>
        intro a b agree
        rw [bits, bits, agree 0]
        congr 1
        apply ih
        intro i
        rw [BitVec.getLsbD_ushiftRight, BitVec.getLsbD_ushiftRight]
        exact agree (1 + i)
  exact same _ _ bit

theorem foldl_feed_byte (wide : 8 ≤ w) (register : BitVec w) (byte : UInt8) :
    (bits byte.toBitVec 8).foldl (feed poly) register = feedByte poly register byte := by
  rw [← bits_setWidth byte.toBitVec 8 wide, foldl_feed_bits poly (by omega)]
  · rfl
  · intro i above
    rw [BitVec.getLsbD_setWidth, BitVec.getLsbD_of_ge byte.toBitVec i above, Bool.and_false]

/-- The check value, a byte at a time. -/
theorem check_eq_foldl (wide : 8 ≤ w) (initial final : BitVec w) (message : List UInt8) :
    check poly initial final message = message.foldl (feedByte poly) initial ^^^ final := by
  have bytes : (messageBits message).foldl (feed poly) initial =
      message.foldl (feedByte poly) initial := by
    induction message generalizing initial with
    | nil => rfl
    | cons byte rest ih =>
        rw [messageBits, List.flatMap_cons, List.foldl_append, foldl_feed_byte poly wide,
          List.foldl_cons]
        exact ih _
  rw [check, bytes]

/-! ## Nothing is lost -/

/-- The bit shifted out is the top bit of the result. -/
theorem shift_eq_zero (top : poly.msb = true) (a : BitVec w) (zero : shift poly a = 0#w) :
    a = 0#w := by
  have positive : 0 < w := by
    rcases Nat.eq_zero_or_pos w with empty | positive
    · subst empty
      simp [BitVec.msb_eq_getLsbD_last] at top
    · exact positive
  have even : a.getLsbD 0 = false := by
    by_contra odd
    have high := congrArg (fun r : BitVec w => r.getLsbD (w - 1)) zero
    rw [BitVec.msb_eq_getLsbD_last] at top
    simp only [shift, Bool.not_eq_false] at odd high
    rw [odd, if_pos rfl, BitVec.getLsbD_xor, BitVec.getLsbD_ushiftRight, top,
      BitVec.getLsbD_of_ge a (1 + (w - 1)) (by omega)] at high
    simp at high
  rw [shift_even poly a even] at zero
  apply BitVec.eq_of_getLsbD_eq
  intro i inside
  cases i with
  | zero => simpa using even
  | succ i =>
      have below := congrArg (fun r : BitVec w => r.getLsbD i) zero
      simp only [BitVec.getLsbD_ushiftRight] at below
      rw [Nat.add_comm 1 i] at below
      simpa using below

theorem shift_injective (top : poly.msb = true) : Function.Injective (shift poly) := by
  intro a b same
  have difference : shift poly (a ^^^ b) = 0#w := by rw [shift_xor, same, BitVec.xor_self]
  exact BitVec.xor_eq_zero_iff.mp (shift_eq_zero poly top _ difference)

theorem feedByte_left_injective (top : poly.msb = true) (byte : UInt8) :
    Function.Injective fun register => feedByte poly register byte := by
  intro a b same
  have whole := (shift_injective poly top).iterate 8 same
  exact (BitVec.xor_left_inj _).mp whole

theorem feedByte_right_injective (top : poly.msb = true) (wide : 8 ≤ w) (register : BitVec w) :
    Function.Injective (feedByte poly register) := by
  intro a b same
  have whole := (shift_injective poly top).iterate 8 same
  have widened : a.toBitVec.setWidth w = b.toBitVec.setWidth w := (BitVec.xor_right_inj _).mp whole
  have narrow := congrArg (BitVec.setWidth 8) widened
  rw [BitVec.setWidth_setWidth_of_le _ wide, BitVec.setWidth_setWidth_of_le _ wide,
    BitVec.setWidth_eq, BitVec.setWidth_eq] at narrow
  exact UInt8.toBitVec_inj.mp narrow

theorem foldl_feedByte_injective (top : poly.msb = true) (message : List UInt8) :
    Function.Injective fun register => message.foldl (feedByte poly) register := by
  induction message with
  | nil => intro a b same; exact same
  | cons byte rest ih =>
      intro a b same
      apply feedByte_left_injective poly top byte
      exact ih same

/-- A message with one byte replaced leaves another register. -/
theorem foldl_feedByte_replace (top : poly.msb = true) (wide : 8 ≤ w) (register : BitVec w)
    (before after : List UInt8) {byte other : UInt8} (differ : byte ≠ other) :
    (before ++ byte :: after).foldl (feedByte poly) register ≠
      (before ++ other :: after).foldl (feedByte poly) register := by
  intro same
  rw [List.foldl_append, List.foldl_append, List.foldl_cons, List.foldl_cons] at same
  have atByte := foldl_feedByte_injective poly top after same
  exact differ (feedByte_right_injective poly top wide _ atByte)

end Register

/-! ## The IEEE 802.3 check -/

/-- The polynomial of IEEE 802.3 with its coefficients reversed. -/
def ieeePolynomial : BitVec 32 := 0xEDB88320#32

/-- CRC-32 of IEEE 802.3: the register starts with all ones and is complemented at the end. -/
def ieee (message : List UInt8) : UInt32 :=
  UInt32.ofBitVec (check ieeePolynomial (BitVec.allOnes 32) (BitVec.allOnes 32) message)

/-- The bit a program tests before it shifts. -/
theorem and_one (register : UInt32) :
    register &&& 1 = if register.toBitVec.getLsbD 0 then 1 else 0 := by
  apply UInt32.toBitVec_inj.mp
  rw [UInt32.toBitVec_and]
  calc register.toBitVec &&& 1#32 =
        BitVec.setWidth 32 (BitVec.ofBool (register.toBitVec.getLsbD 0)) :=
        BitVec.and_one_eq_setWidth_ofBool_getLsbD
    _ = (if register.toBitVec.getLsbD 0 then (1 : UInt32) else 0).toBitVec := by
        cases register.toBitVec.getLsbD 0 <;> rfl

/-- A program that shifts 32-bit words feeds bytes to the register. -/
theorem feedByte_of_shift {step : UInt32 → UInt32}
    (agrees : ∀ register, (step register).toBitVec = shift ieeePolynomial register.toBitVec)
    (register : UInt32) (byte : UInt8) :
    (step^[8] (register ^^^ byte.toUInt32)).toBitVec =
      feedByte ieeePolynomial register.toBitVec byte := by
  have iterated (count : Nat) (value : UInt32) :
      (step^[count] value).toBitVec = (shift ieeePolynomial)^[count] value.toBitVec := by
    induction count generalizing value with
    | zero => rfl
    | succ count ih => rw [Function.iterate_succ_apply, ih, agrees, Function.iterate_succ_apply]
  rw [iterated, UInt32.toBitVec_xor, UInt8.toBitVec_toUInt32, feedByte]

/-- A byte-wise loop of a program on 32-bit words. -/
theorem foldl_toBitVec {step : UInt32 → UInt8 → UInt32}
    (agrees : ∀ register byte,
      (step register byte).toBitVec = feedByte ieeePolynomial register.toBitVec byte)
    (register : UInt32) (message : List UInt8) :
    (message.foldl step register).toBitVec =
      message.foldl (feedByte ieeePolynomial) register.toBitVec := by
  induction message generalizing register with
  | nil => rfl
  | cons byte rest ih => rw [List.foldl_cons, ih, agrees, List.foldl_cons]

theorem ieee_eq_foldl {step : UInt32 → UInt8 → UInt32}
    (agrees : ∀ register byte,
      (step register byte).toBitVec = feedByte ieeePolynomial register.toBitVec byte)
    (message : List UInt8) :
    ieee message = message.foldl step 0xFFFFFFFF ^^^ 0xFFFFFFFF := by
  apply UInt32.toBitVec_inj.mp
  rw [UInt32.toBitVec_xor, foldl_toBitVec agrees]
  exact check_eq_foldl ieeePolynomial (by decide) _ _ message

/-- The check value shows every replacement of a single byte. -/
theorem ieee_replace (before after : List UInt8) {byte other : UInt8} (differ : byte ≠ other) :
    ieee (before ++ byte :: after) ≠ ieee (before ++ other :: after) := by
  intro same
  have registers := congrArg UInt32.toBitVec same
  simp only [ieee, check_eq_foldl ieeePolynomial (by decide : 8 ≤ 32)] at registers
  exact foldl_feedByte_replace ieeePolynomial (by decide) (by decide) _ before after differ
    ((BitVec.xor_left_inj _).mp registers)

theorem ieee_set {message : List UInt8} {index : Nat} (inside : index < message.length)
    {other : UInt8} (differ : message[index] ≠ other) :
    ieee (message.set index other) ≠ ieee message := by
  have apart : message = message.take index ++ message[index] :: message.drop (index + 1) := by
    rw [List.getElem_cons_drop, List.take_append_drop]
  rw [List.set_eq_take_append_cons_drop, if_pos inside]
  intro same
  apply ieee_replace (message.take index) (message.drop (index + 1)) differ
  rw [← apart, same]

/-! ## Single bits -/

/-- A byte with one of its eight bits inverted. -/
def flip (byte : UInt8) (bit : Fin 8) : UInt8 := byte ^^^ (1 <<< UInt8.ofNat bit)

/-- A message with one bit inverted. -/
def flipBit (message : List UInt8) (index : Nat) (bit : Fin 8) : List UInt8 :=
  message.set index (flip (message.getD index 0) bit)

theorem flip_ne (byte : UInt8) (bit : Fin 8) : byte ≠ flip byte bit := by
  have mask : ∀ bit : Fin 8, (1 : UInt8) <<< UInt8.ofNat bit ≠ 0 := by decide
  intro same
  apply mask bit
  have both : byte ^^^ byte = byte ^^^ (byte ^^^ (1 <<< UInt8.ofNat bit)) :=
    congrArg (byte ^^^ ·) same
  rw [UInt8.xor_self, ← UInt8.xor_assoc, UInt8.xor_self, UInt8.zero_xor] at both
  exact both.symm

theorem getElem_ne_flip {message : List UInt8} {index : Nat} (inside : index < message.length)
    (bit : Fin 8) : message[index] ≠ flip (message.getD index 0) bit := by
  rw [← List.getD_eq_getElem message 0 inside]
  exact flip_ne _ bit

end EmbeddedRuntime.Lib.Crc
