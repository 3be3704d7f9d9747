import EmbeddedRuntime.Lib.CrcDistance
import EmbeddedRuntime.Protocol.PacketCodec

/-!
# Damaged frames are refused

A frame carries the CRC of its header and payload in its last four bytes, most
significant byte first.  Two frames of one length that both do so differ in
more than two bits, and not within 32 consecutive bits of header and payload.
-/

set_option autoImplicit false

namespace EmbeddedRuntime.Protocol.ErrorDetection

open EmbeddedRuntime.Lib.ByteOrder
open EmbeddedRuntime.Lib.Crc
open EmbeddedRuntime.Lib.CrcDistance
open EmbeddedRuntime.Protocol.Crc32
open EmbeddedRuntime.Protocol.Packet
open EmbeddedRuntime.Protocol.PacketCodec

/-- The last four bytes are the CRC of the first `covered`. -/
structure Checked (frame : List UInt8) (covered : Nat) : Prop where
  size : frame.length = covered + protoCrcSize
  crc : getU32Be frame covered = mlrtCrc32 (frame.take covered)

/-- At most 32 consecutive bits of header and payload. -/
def BurstBeforeCrc (frame damaged : List UInt8) : Prop :=
  Within 32 (differences frame damaged) ∧
    ∀ position ∈ differences frame damaged, position < 8 * (frame.length - protoCrcSize)

/-- One or two bits anywhere. -/
def OneOrTwoBits (frame damaged : List UInt8) : Prop :=
  (differences frame damaged).length = 1 ∨ (differences frame damaged).length = 2

/-! ## Whole frames -/

section Frames
variable {frame damaged : List UInt8} {covered : Nat}

/-- A position of the frame as a power of the shift: the bits of the field come last. -/
def exponent (covered position : Nat) : Nat :=
  if position < 8 * covered then 31 + (8 * covered - position)
  else 31 - place (position - 8 * covered)

theorem exponent_le (covered position : Nat) : exponent covered position ≤ 31 + 8 * covered := by
  unfold exponent
  split_ifs <;> omega

theorem exponent_injective {first second : Nat} (inside : first < 8 * covered + 32)
    (inside' : second < 8 * covered + 32) (same : exponent covered first = exponent covered second) :
    first = second := by
  unfold exponent at same
  split_ifs at same with low low' low'
  · omega
  · omega
  · omega
  · have bound : place (first - 8 * covered) < 32 := place_lt (by omega)
    have bound' : place (second - 8 * covered) < 32 := place_lt (by omega)
    have field : first - 8 * covered = second - 8 * covered :=
      place_injective (by omega) (by omega) (by omega)
    omega

theorem bitAt_take (message : List UInt8) {count position : Nat} (inside : position < 8 * count) :
    bitAt (message.take count) position = bitAt message position := by
  have early : position / 8 < count := by omega
  rw [bitAt, bitAt, List.getD_eq_getElem?_getD, List.getD_eq_getElem?_getD,
    List.getElem?_take_of_lt early]

theorem differences_split (lengths : frame.length = covered + 4) :
    differences frame damaged = differences (frame.take covered) (damaged.take covered) ++
      ((List.range 32).filter fun position =>
        bitAt frame (8 * covered + position) ≠ bitAt damaged (8 * covered + position)).map
          (8 * covered + ·) := by
  have size : (frame.take covered).length = covered := by
    rw [List.length_take]
    omega
  have parts : 8 * frame.length = 8 * covered + 32 := by omega
  rw [differences, differences, parts, size, List.range_add, List.filter_append, List.filter_map]
  congr 1
  apply List.filter_congr
  intro position member
  have inside := List.mem_range.mp member
  rw [bitAt_take frame inside, bitAt_take damaged inside]

/-- Two checked frames of one length: the weights of their differences cancel. -/
theorem total_differences (checked : Checked frame covered) (checked' : Checked damaged covered) :
    total (fun position => power ieeePolynomial (exponent covered position))
      (differences frame damaged) = 0#32 := by
  have size : (frame.take covered).length = covered := by
    rw [List.length_take, checked.size]
    omega
  have lengths : (frame.take covered).length = (damaged.take covered).length := by
    rw [List.length_take, List.length_take, checked.size, checked'.size]
  have body := ieee_xor lengths
  have field : (getU32Be frame covered).toBitVec ^^^ (getU32Be damaged covered).toBitVec = _ :=
    beWord_xor frame damaged covered
  rw [checked.crc, checked'.crc, mlrtCrc32_eq_ieee, mlrtCrc32_eq_ieee, body] at field
  rw [differences_split checked.size, total_append, total_map]
  have first : total (fun position => power ieeePolynomial (exponent covered position))
      (differences (frame.take covered) (damaged.take covered)) =
      total (weight ieeePolynomial (frame.take covered).length)
        (differences (frame.take covered) (damaged.take covered)) := by
    apply total_congr
    intro position member
    have inside := (mem_differences.mp member).1
    rw [size] at inside
    rw [exponent, if_pos inside, weight, size]
  rw [first, field, BitVec.xor_eq_zero_iff]
  apply total_congr
  intro position _
  have behind : ¬ 8 * covered + position < 8 * covered := by omega
  rw [exponent, if_neg behind, Nat.add_sub_cancel_left]

/-- The first return of the shift lies beyond the longest frame. -/
theorem ieee_noReturn :
    NoReturn ieeePolynomial (31 + 8 * (protoHeaderSize + protoMaxPayload)) :=
  noReturn_of_avoids (by decide +kernel)

theorem few_bits_detected (checked : Checked frame covered) (checked' : Checked damaged covered)
    (bound : covered ≤ protoHeaderSize + protoMaxPayload) : ¬ OneOrTwoBits frame damaged := by
  intro few
  refine total_few_ne_zero ieee_msb (by decide) ieee_noReturn (exponent covered) few ?_ ?_
    (total_differences checked checked')
  · refine List.Pairwise.imp_of_mem ?_ (differences_nodup frame damaged)
    intro first second member member' distinct same
    have size := checked.size
    have crcSize : protoCrcSize = 4 := rfl
    have inside := (mem_differences.mp member).1
    have inside' := (mem_differences.mp member').1
    exact distinct (exponent_injective (by omega) (by omega) same)
  · intro position _
    have small := exponent_le covered position
    omega

theorem burst_detected (checked : Checked frame covered) (checked' : Checked damaged covered)
    (differ : frame ≠ damaged) : ¬ BurstBeforeCrc frame damaged := by
  rintro ⟨within, early⟩
  have size := checked.size
  have crcSize : protoCrcSize = 4 := rfl
  have sameField : ∀ position, position < 32 →
      bitAt frame (8 * covered + position) = bitAt damaged (8 * covered + position) := by
    intro position inside
    by_contra other
    have beforeCrc := early (8 * covered + position) (mem_differences.mpr ⟨by omega, other⟩)
    omega
  have inBody : differences frame damaged =
      differences (frame.take covered) (damaged.take covered) := by
    have none : (List.range 32).filter (fun position =>
        bitAt frame (8 * covered + position) ≠ bitAt damaged (8 * covered + position)) = [] :=
      List.filter_eq_nil_iff.mpr fun position member => by
        simpa using sameField position (List.mem_range.mp member)
    rw [differences_split size, none, List.map_nil, List.append_nil]
  have lengths : (frame.take covered).length = (damaged.take covered).length := by
    rw [List.length_take, List.length_take, checked.size, checked'.size]
  have otherBody : frame.take covered ≠ damaged.take covered := by
    intro same
    apply differences_ne_nil (checked.size.trans checked'.size.symm) differ
    rw [inBody, same]
    exact List.filter_eq_nil_iff.mpr fun position _ => by simp
  rw [inBody] at within
  apply ieee_burst lengths within otherBody
  rw [← mlrtCrc32_eq_ieee, ← mlrtCrc32_eq_ieee, ← checked.crc, ← checked'.crc]
  exact (beWord_eq_iff frame damaged covered).mpr sameField

end Frames

/-! ## The codec -/

theorem frameOf_checked (packet : MlrtPacket) (lengthLe : packet.length.toNat ≤ protoMaxPayload) :
    Checked (frameOf packet) (protoHeaderSize + packet.length.toNat) where
  size := length_frameOf packet lengthLe
  crc := by
    rw [← length_bodyOf packet lengthLe, frameOf, getU32Be_append, List.take_left]

/-- What the encoder has written when it returns OK. -/
theorem mlrtPacketEncode_frame {packet : Option MlrtPacket} {out : Option (List UInt8)}
    {outLen : Option Nat} {written : List UInt8} {size : Nat}
    (encoded : mlrtPacketEncode packet out outLen = (.ok, some written, some size)) :
    ∃ packet : MlrtPacket, packet.length.toNat ≤ protoMaxPayload ∧
      written.take size = frameOf packet ∧ size = frameSize packet := by
  rcases packet with _ | packet
  · cases encoded
  rcases out with _ | buffer
  · cases encoded
  rcases outLen with _ | old
  · cases encoded
  simp only [mlrtPacketEncode] at encoded
  split_ifs at encoded with long short
  · cases encoded
  · cases encoded
  · obtain ⟨-, rest⟩ := Prod.mk.inj encoded
    obtain ⟨stored, same⟩ := Prod.mk.inj rest
    obtain rfl := Option.some.inj stored
    obtain rfl := Option.some.inj same
    have lengthLe : packet.length.toNat ≤ protoMaxPayload := by omega
    refine ⟨packet, lengthLe, ?_, rfl⟩
    rw [encodeInto_eq packet buffer lengthLe]
    exact List.take_left' (length_frameOf packet lengthLe)

theorem decode_checked {frame : List UInt8} {packet : Option MlrtPacket}
    (decoded : (mlrtPacketDecode (some frame) packet).1 = .ok) :
    ∃ covered, Checked frame covered := by
  cases packet with
  | none => cases decoded
  | some old =>
      obtain ⟨result, success⟩ := mlrtPacketDecode_ok frame old decoded
      obtain ⟨accepted, -⟩ := (mlrtPacketDecode_ok_iff frame old result).mp success
      exact ⟨_, accepted.size, accepted.crc⟩

/-- No frame of the encoder is accepted after an error of at most 32 consecutive bits in its
header and payload, or of one or two bits anywhere. -/
theorem damaged_frame_refused (packet : Option MlrtPacket) (out : Option (List UInt8))
    (outLen : Option Nat) (written : List UInt8) (size : Nat)
    (encoded : mlrtPacketEncode packet out outLen = (.ok, some written, some size))
    (damaged : List UInt8) (sameLength : damaged.length = (written.take size).length)
    (differ : damaged ≠ written.take size)
    (error : BurstBeforeCrc (written.take size) damaged ∨ OneOrTwoBits (written.take size) damaged)
    (old : Option MlrtPacket) : (mlrtPacketDecode (some damaged) old).1 ≠ .ok := by
  intro accepted
  obtain ⟨sent, lengthLe, isFrame, -⟩ := mlrtPacketEncode_frame encoded
  obtain ⟨covered, checked'⟩ := decode_checked accepted
  have checked := frameOf_checked sent lengthLe
  rw [isFrame] at sameLength differ error
  have sameCovered : covered = protoHeaderSize + sent.length.toNat := by
    have size := checked.size
    have size' := checked'.size
    omega
  subst sameCovered
  rcases error with burst | few
  · exact burst_detected checked checked' differ.symm burst
  · exact few_bits_detected checked checked' (by omega) few

/-- An empty packet with its type and sequence number damaged, and with one bit of its CRC and
one of its length. -/
theorem damaged_frame_refused_empty :
    mlrtPacketEncode (some ⟨1, 1, 0, 42, Vector.replicate 512 0⟩) (some (List.replicate 14 0))
        (some 0) = (.ok, some [165, 90, 1, 1, 0, 0, 0, 0, 0, 42, 250, 225, 160, 247], some 14) ∧
      (mlrtPacketDecode (some [165, 90, 1, 129, 0, 0, 3, 0, 0, 42, 250, 225, 160, 247])
        (some MlrtPacket.zero)).1 ≠ .ok ∧
      (mlrtPacketDecode (some [165, 90, 1, 1, 0, 1, 0, 0, 0, 42, 250, 225, 160, 246])
        (some MlrtPacket.zero)).1 ≠ .ok := by
  have encoded : mlrtPacketEncode (some ⟨1, 1, 0, 42, Vector.replicate 512 0⟩)
      (some (List.replicate 14 0)) (some 0) =
        (.ok, some [165, 90, 1, 1, 0, 0, 0, 0, 0, 42, 250, 225, 160, 247], some 14) := by
    decide +kernel
  refine ⟨encoded, ?_, ?_⟩
  · refine damaged_frame_refused _ _ _ _ _ encoded
      [165, 90, 1, 129, 0, 0, 3, 0, 0, 42, 250, 225, 160, 247] rfl (by decide)
      (Or.inl ⟨⟨31, ?_⟩, ?_⟩) _
    · decide +kernel
    · decide +kernel
  · exact damaged_frame_refused _ _ _ _ _ encoded
      [165, 90, 1, 1, 0, 1, 0, 0, 0, 42, 250, 225, 160, 246] rfl (by decide)
      (Or.inr (Or.inr (by decide +kernel))) _

end EmbeddedRuntime.Protocol.ErrorDetection
