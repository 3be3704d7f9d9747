import EmbeddedRuntime.Protocol.Packet

/-!
# The codec is a bijection on its image

`frameOf` is the frame of a packet as one list.  The encoder stores exactly
these bytes at the front of its buffer; the decoder accepts exactly the lists
of this form and reads the fields back.
-/

set_option autoImplicit false

namespace EmbeddedRuntime.Protocol.PacketCodec

open EmbeddedRuntime.Lib.Buffer
open EmbeddedRuntime.Lib.ByteOrder
open EmbeddedRuntime.Protocol.Crc32
open EmbeddedRuntime.Protocol.Packet

/-- The version byte on the wire: zero stands for the current version. -/
def wireVersion (packet : MlrtPacket) : UInt8 :=
  if packet.version ≠ 0 then packet.version else protoVersion

/-- The ten header bytes. -/
def headerOf (packet : MlrtPacket) : List UInt8 :=
  be16 protoMagic ++ [wireVersion packet] ++ [packet.type] ++ be16 packet.length ++
    be32 packet.seq

def payloadOf (packet : MlrtPacket) : List UInt8 :=
  packet.payload.toList.take packet.length.toNat

/-- The bytes under the CRC. -/
def bodyOf (packet : MlrtPacket) : List UInt8 := headerOf packet ++ payloadOf packet

def frameOf (packet : MlrtPacket) : List UInt8 :=
  bodyOf packet ++ be32 (mlrtCrc32 (bodyOf packet))

def frameSize (packet : MlrtPacket) : Nat :=
  protoHeaderSize + packet.length.toNat + protoCrcSize

/-- A packet the encoder accepts and the decoder understands. -/
structure Sendable (packet : MlrtPacket) : Prop where
  lengthLe : packet.length.toNat ≤ protoMaxPayload
  versionKnown : packet.version = 0 ∨ packet.version = protoVersion

theorem length_headerOf (packet : MlrtPacket) : (headerOf packet).length = protoHeaderSize := by
  simp [headerOf, protoHeaderSize]

theorem length_payloadOf (packet : MlrtPacket)
    (lengthLe : packet.length.toNat ≤ protoMaxPayload) :
    (payloadOf packet).length = packet.length.toNat := by
  simp only [payloadOf, List.length_take, Vector.length_toList]
  exact Nat.min_eq_left lengthLe

theorem length_bodyOf (packet : MlrtPacket)
    (lengthLe : packet.length.toNat ≤ protoMaxPayload) :
    (bodyOf packet).length = protoHeaderSize + packet.length.toNat := by
  rw [bodyOf, List.length_append, length_headerOf, length_payloadOf packet lengthLe]

theorem length_frameOf (packet : MlrtPacket)
    (lengthLe : packet.length.toNat ≤ protoMaxPayload) :
    (frameOf packet).length = frameSize packet := by
  rw [frameOf, List.length_append, length_bodyOf packet lengthLe]
  rfl

theorem wireVersion_sendable (packet : MlrtPacket) (sendable : Sendable packet) :
    wireVersion packet = protoVersion := by
  rcases sendable.versionKnown with zero | one
  · simp [wireVersion, zero]
  · simp [wireVersion, one, protoVersion]

/-! ## The encoder -/

/-- The header stores fill the first ten bytes, the payload copy the next. -/
theorem bodyStores (packet : MlrtPacket) (out : List UInt8) :
    (let out := putU16Be out 0 protoMagic
     let out := writeAt out 2 [if packet.version ≠ 0 then packet.version else protoVersion]
     let out := writeAt out 3 [packet.type]
     let out := putU16Be out 4 packet.length
     let out := putU32Be out 6 packet.seq
     if packet.length ≠ 0 then
       writeAt out protoHeaderSize (packet.payload.toList.take packet.length.toNat)
     else out) =
      bodyOf packet ++ out.drop (protoHeaderSize + (payloadOf packet).length) := by
  have magic := writeAt_append [] out 0 (be16 protoMagic) rfl
  simp only [List.nil_append, length_be16] at magic
  simp only [putU16Be, putU32Be, magic]
  rw [writeAt_append _ _ 2 _ (by simp), writeAt_append _ _ 3 _ (by simp),
    writeAt_append _ _ 4 _ (by simp), writeAt_append _ _ 6 _ (by simp)]
  simp only [List.drop_drop, List.length_singleton, length_be16, length_be32]
  have header : be16 protoMagic ++ [if packet.version ≠ 0 then packet.version else protoVersion] ++
      [packet.type] ++ be16 packet.length ++ be32 packet.seq = headerOf packet := rfl
  rw [header]
  by_cases none : packet.length = 0
  · have noPayload : payloadOf packet = [] := by simp [payloadOf, none]
    simp [none, bodyOf, noPayload, protoHeaderSize]
  · rw [if_pos none, writeAt_append _ _ _ _ (length_headerOf packet)]
    simp only [List.drop_drop]
    rfl

theorem encodeInto_eq (packet : MlrtPacket) (out : List UInt8)
    (lengthLe : packet.length.toNat ≤ protoMaxPayload) :
    encodeInto packet out = frameOf packet ++ out.drop (frameSize packet) := by
  have bodyLength := length_bodyOf packet lengthLe
  have stores := bodyStores packet out
  simp only at stores
  simp only [encodeInto, stores]
  rw [← bodyLength, List.take_left, putU32Be, writeAt_append _ _ _ _ rfl,
    length_payloadOf packet lengthLe]
  simp only [List.drop_drop, length_be32]
  rfl

/-- The encoder succeeds exactly on a short payload and a large buffer. -/
theorem mlrtPacketEncode_ok (packet : MlrtPacket) (out : List UInt8) (outLen : Nat)
    (lengthLe : packet.length.toNat ≤ protoMaxPayload)
    (room : frameSize packet ≤ out.length) :
    mlrtPacketEncode (some packet) (some out) (some outLen) =
      (.ok, some (frameOf packet ++ out.drop (frameSize packet)), some (frameSize packet)) := by
  simp only [mlrtPacketEncode]
  rw [if_neg (by omega), if_neg (by simp only [frameSize] at room; omega),
    encodeInto_eq packet out lengthLe]
  rfl

theorem mlrtPacketEncode_error (packet : Option MlrtPacket) (out : Option (List UInt8))
    (outLen : Option Nat) (failed : (mlrtPacketEncode packet out outLen).1 ≠ .ok) :
    (mlrtPacketEncode packet out outLen).2 = (out, outLen) := by
  revert failed
  unfold mlrtPacketEncode
  split
  · simp only
    split
    · exact fun _ => rfl
    · split
      · exact fun _ => rfl
      · exact fun failed => absurd rfl failed
  · exact fun _ => rfl

/-! ## The decoder -/

/-- The packet a receiver sees: current version, zeros after the payload. -/
def received (packet : MlrtPacket) : MlrtPacket :=
  { packet with
    version := protoVersion
    payload := Vector.ofFn fun index : Fin 512 =>
      if index.val < packet.length.toNat then packet.payload.get index else 0 }

theorem received_payload (packet : MlrtPacket) (index : Fin 512) :
    (received packet).payload.get index =
      if index.val < packet.length.toNat then packet.payload.get index else 0 := by
  have read : (received packet).payload.get index = (received packet).payload[index.val] := rfl
  rw [read, received]
  simp only [Vector.getElem_ofFn]

/-- A big-endian word written at the end is read back there. -/
theorem getU32Be_append (filled : List UInt8) (value : UInt32) :
    getU32Be (filled ++ be32 value) filled.length = value := by
  simp [getU32Be, be32, ofBe32_be32]

theorem mlrtPacketDecode_error (frame : Option (List UInt8)) (packet : Option MlrtPacket)
    (failed : (mlrtPacketDecode frame packet).1 ≠ .ok) :
    (mlrtPacketDecode frame packet).2 = packet := by
  revert failed
  unfold mlrtPacketDecode
  split
  · simp only
    split_ifs <;> intro failed
    all_goals first | rfl | exact absurd rfl failed
  · exact fun _ => rfl

/-- The header fields of a frame, read where the decoder reads them. -/
theorem header_fields (packet : MlrtPacket) (rest : List UInt8) :
    getU16Be (headerOf packet ++ rest) 0 = protoMagic ∧
      (headerOf packet ++ rest).getD 2 0 = wireVersion packet ∧
      (headerOf packet ++ rest).getD 3 0 = packet.type ∧
      getU16Be (headerOf packet ++ rest) 4 = packet.length ∧
      getU32Be (headerOf packet ++ rest) 6 = packet.seq := by
  refine ⟨?_, rfl, rfl, ?_, ?_⟩
  · exact ofBe16_be16 protoMagic
  · exact ofBe16_be16 packet.length
  · exact ofBe32_be32 packet.seq

theorem payload_byte (packet : MlrtPacket) (lengthLe : packet.length.toNat ≤ protoMaxPayload)
    (index : Nat) (inside : index < packet.length.toNat) (inArray : index < 512) :
    (frameOf packet).getD (protoHeaderSize + index) 0 = packet.payload[index] := by
  have bodyLength := length_bodyOf packet lengthLe
  have payloadLength := length_payloadOf packet lengthLe
  rw [frameOf, List.getD_append _ _ _ _ (by omega), bodyOf,
    List.getD_append_right _ _ _ _ (by rw [length_headerOf]; omega), length_headerOf,
    Nat.add_sub_cancel_left, List.getD_eq_getElem _ _ (by omega)]
  simp [payloadOf]

theorem decodeFields_frameOf (packet : MlrtPacket) (sendable : Sendable packet) :
    decodeFields (frameOf packet) packet.length = received packet := by
  have fields := header_fields packet (payloadOf packet ++ be32 (mlrtCrc32 (bodyOf packet)))
  have shape : frameOf packet =
      headerOf packet ++ (payloadOf packet ++ be32 (mlrtCrc32 (bodyOf packet))) := by
    rw [frameOf, bodyOf, List.append_assoc]
  rw [← shape] at fields
  obtain ⟨-, version, type, -, seq⟩ := fields
  have payload : (fun index : Fin 512 =>
      if index.val < packet.length.toNat then
        (frameOf packet).getD (protoHeaderSize + index.val) 0
      else MlrtPacket.zero.payload.get index) = fun index : Fin 512 =>
      if index.val < packet.length.toNat then packet.payload.get index else 0 := by
    funext index
    by_cases inside : index.val < packet.length.toNat
    · rw [if_pos inside, if_pos inside]
      exact payload_byte packet sendable.lengthLe index.val inside index.isLt
    · rw [if_neg inside, if_neg inside]
      simp [MlrtPacket.zero, Vector.get]
  rw [decodeFields, received, payload, version, type, seq, wireVersion_sendable packet sendable]

/-- The decoder accepts the frame of every sendable packet. -/
theorem mlrtPacketDecode_frameOf (packet old : MlrtPacket) (sendable : Sendable packet) :
    mlrtPacketDecode (some (frameOf packet)) (some old) = (.ok, some (received packet)) := by
  have size := length_frameOf packet sendable.lengthLe
  have fields := header_fields packet (payloadOf packet ++ be32 (mlrtCrc32 (bodyOf packet)))
  rw [← List.append_assoc] at fields
  change getU16Be (frameOf packet) 0 = _ ∧ (frameOf packet).getD 2 0 = _ ∧
    _ ∧ getU16Be (frameOf packet) 4 = _ ∧ _ at fields
  obtain ⟨magic, version, -, length, -⟩ := fields
  have bodyLength := length_bodyOf packet sendable.lengthLe
  have crc : getU32Be (frameOf packet) (protoHeaderSize + packet.length.toNat) =
      mlrtCrc32 (bodyOf packet) := by
    rw [← bodyLength]
    exact getU32Be_append (bodyOf packet) _
  have body : (frameOf packet).take (protoHeaderSize + packet.length.toNat) = bodyOf packet := by
    rw [← bodyLength]
    exact List.take_left
  simp only [mlrtPacketDecode, magic, version, length, crc, body,
    wireVersion_sendable packet sendable, ne_eq, not_true_eq_false, if_false]
  have lengthLe := sendable.lengthLe
  rw [if_neg (by rw [size]; simp only [frameSize]; omega), if_neg (by omega),
    if_neg (by rw [size]; exact fun different => different rfl),
    decodeFields_frameOf packet sendable]

/-! ## Accepted frames are encodings -/

/-- What the decoder has checked when it returns OK. -/
structure Accepted (frame : List UInt8) : Prop where
  magic : getU16Be frame 0 = protoMagic
  version : frame.getD 2 0 = protoVersion
  lengthLe : (getU16Be frame 4).toNat ≤ protoMaxPayload
  size : frame.length = protoHeaderSize + (getU16Be frame 4).toNat + protoCrcSize
  crc : getU32Be frame (protoHeaderSize + (getU16Be frame 4).toNat) =
    mlrtCrc32 (frame.take (protoHeaderSize + (getU16Be frame 4).toNat))

theorem mlrtPacketDecode_ok_iff (frame : List UInt8) (old decoded : MlrtPacket) :
    mlrtPacketDecode (some frame) (some old) = (.ok, some decoded) ↔
      Accepted frame ∧ decoded = decodeFields frame (getU16Be frame 4) := by
  constructor
  · intro success
    simp only [mlrtPacketDecode] at success
    split_ifs at success with short magic version long size crc
    all_goals simp only [Prod.mk.injEq, reduceCtorEq, false_and, true_and,
      Option.some.injEq] at success
    exact ⟨⟨by simpa using magic, by simpa using version, by omega, by simpa using size,
      by simpa using crc⟩, success.symm⟩
  · rintro ⟨accepted, rfl⟩
    have size := accepted.size
    have lengthLe := accepted.lengthLe
    simp only [mlrtPacketDecode]
    rw [if_neg (by omega), if_neg (by simp [accepted.magic]),
      if_neg (not_not.mpr accepted.version), if_neg (by omega), if_neg (by simp [size]), if_neg (by simp [accepted.crc])]

/-- The decoder returns OK only with a packet. -/
theorem mlrtPacketDecode_ok (frame : List UInt8) (old : MlrtPacket)
    (success : (mlrtPacketDecode (some frame) (some old)).1 = .ok) :
    ∃ decoded, mlrtPacketDecode (some frame) (some old) = (.ok, some decoded) := by
  simp only [mlrtPacketDecode] at success ⊢
  split_ifs at success ⊢
  exact ⟨_, rfl⟩

theorem headerOf_decodeFields (frame : List UInt8) (accepted : Accepted frame) :
    headerOf (decodeFields frame (getU16Be frame 4)) = readAt frame 0 protoHeaderSize := by
  have size := accepted.size
  have cells := readAt_eq_map frame 0 protoHeaderSize 0 (by omega)
  have magic : be16 protoMagic = [frame.getD 0 0, frame.getD 1 0] := by
    rw [← accepted.magic, getU16Be, be16_ofBe16]
  have length : be16 (getU16Be frame 4) = [frame.getD 4 0, frame.getD 5 0] := be16_ofBe16 _ _
  have seq : be32 (getU32Be frame 6) =
      [frame.getD 6 0, frame.getD 7 0, frame.getD 8 0, frame.getD 9 0] := be32_ofBe32 _ _ _ _
  have version : wireVersion (decodeFields frame (getU16Be frame 4)) = frame.getD 2 0 := by
    simp only [wireVersion, decodeFields, accepted.version]
    rfl
  rw [cells, headerOf, version, magic]
  simp only [decodeFields, length, seq]
  simp [protoHeaderSize, List.range_succ]

theorem payloadOf_decodeFields (frame : List UInt8) (accepted : Accepted frame) :
    payloadOf (decodeFields frame (getU16Be frame 4)) =
      readAt frame protoHeaderSize (getU16Be frame 4).toNat := by
  have size := accepted.size
  have lengthLe := accepted.lengthLe
  rw [readAt_eq_map frame _ _ 0 (by omega)]
  apply List.ext_getElem
  · rw [length_payloadOf _ lengthLe]
    simp [decodeFields]
  · intro index inPayload inRead
    rw [length_payloadOf _ lengthLe] at inPayload
    change index < (getU16Be frame 4).toNat at inPayload
    simp [payloadOf, decodeFields, inPayload]

/-- An accepted frame is the frame of the packet read from it. -/
theorem frameOf_decodeFields (frame : List UInt8) (accepted : Accepted frame) :
    frameOf (decodeFields frame (getU16Be frame 4)) = frame := by
  have size := accepted.size
  have lengthLe := accepted.lengthLe
  have body : bodyOf (decodeFields frame (getU16Be frame 4)) =
      readAt frame 0 (protoHeaderSize + (getU16Be frame 4).toNat) := by
    rw [bodyOf, headerOf_decodeFields frame accepted, payloadOf_decodeFields frame accepted,
      readAt_add, Nat.zero_add]
  have crc : be32 (mlrtCrc32 (readAt frame 0 (protoHeaderSize + (getU16Be frame 4).toNat))) =
      readAt frame (protoHeaderSize + (getU16Be frame 4).toNat) protoCrcSize := by
    have prefixed : readAt frame 0 (protoHeaderSize + (getU16Be frame 4).toNat) =
        frame.take (protoHeaderSize + (getU16Be frame 4).toNat) := rfl
    rw [prefixed, ← accepted.crc, getU32Be, be32_ofBe32, readAt_eq_map frame _ _ 0 (by omega)]
    simp [protoCrcSize, List.range_succ]
  rw [frameOf, body, crc]
  calc readAt frame 0 (protoHeaderSize + (getU16Be frame 4).toNat) ++
        readAt frame (protoHeaderSize + (getU16Be frame 4).toNat) protoCrcSize
      = readAt frame 0 (protoHeaderSize + (getU16Be frame 4).toNat + protoCrcSize) := by
        rw [readAt_add frame 0 (protoHeaderSize + _), Nat.zero_add]
    _ = frame := by rw [← size, readAt_all]

theorem sendable_decodeFields (frame : List UInt8) (accepted : Accepted frame) :
    Sendable (decodeFields frame (getU16Be frame 4)) :=
  ⟨accepted.lengthLe, Or.inr accepted.version⟩

/-- Into every buffer with room, the encoder stores exactly `frame`. -/
def Encodes (packet : MlrtPacket) (frame : List UInt8) : Prop :=
  ∀ (out : List UInt8) (outLen : Nat), frame.length ≤ out.length →
    ∃ written,
      mlrtPacketEncode (some packet) (some out) (some outLen) =
        (.ok, some written, some frame.length) ∧
      written.take frame.length = frame

theorem encodes_frameOf (packet : MlrtPacket)
    (lengthLe : packet.length.toNat ≤ protoMaxPayload) : Encodes packet (frameOf packet) := by
  intro out outLen room
  have size := length_frameOf packet lengthLe
  refine ⟨frameOf packet ++ out.drop (frameSize packet), ?_, List.take_left⟩
  rw [size] at room ⊢
  exact mlrtPacketEncode_ok packet out outLen lengthLe room

/-- A buffer with exactly the room needed shows the encoding is unique. -/
theorem Encodes.eq_frameOf {packet : MlrtPacket} {frame : List UInt8}
    (lengthLe : packet.length.toNat ≤ protoMaxPayload) (encodes : Encodes packet frame) :
    frame = frameOf packet := by
  have size := length_frameOf packet lengthLe
  let out := List.replicate (max frame.length (frameSize packet)) (0 : UInt8)
  have roomFrame : frame.length ≤ out.length := by
    rw [List.length_replicate]
    exact Nat.le_max_left ..
  have roomSize : frameSize packet ≤ out.length := by
    rw [List.length_replicate]
    exact Nat.le_max_right ..
  obtain ⟨written, encoded, exact⟩ := encodes out 0 roomFrame
  rw [mlrtPacketEncode_ok packet out 0 lengthLe roomSize] at encoded
  simp only [Prod.mk.injEq, Option.some.injEq, true_and] at encoded
  obtain ⟨rfl, same⟩ := encoded
  rw [← exact, ← same, ← size, List.take_left]

/-- The codec on all inputs: encode then decode gives the packet back with the
current version and zeros after its payload; a frame decodes exactly when it is
the encoding of a sendable packet, and then re-encodes to itself; an error
leaves every output object as it was. -/
theorem packet_codec_bijective :
    (∀ (packet old : MlrtPacket) (out : List UInt8) (outLen : Nat), Sendable packet →
      frameSize packet ≤ out.length →
      ∃ written decoded,
        mlrtPacketEncode (some packet) (some out) (some outLen) =
          (.ok, some written, some (frameSize packet)) ∧
        mlrtPacketDecode (some (written.take (frameSize packet))) (some old) =
          (.ok, some decoded) ∧
        decoded.version = protoVersion ∧ decoded.type = packet.type ∧
        decoded.length = packet.length ∧ decoded.seq = packet.seq ∧
        ∀ index : Fin 512, decoded.payload.get index =
          if index.val < packet.length.toNat then packet.payload.get index else 0) ∧
    (∀ (frame : List UInt8) (old decoded : MlrtPacket),
      mlrtPacketDecode (some frame) (some old) = (.ok, some decoded) →
        Sendable decoded ∧ Encodes decoded frame) ∧
    (∀ (frame : List UInt8) (old : MlrtPacket),
      (mlrtPacketDecode (some frame) (some old)).1 = .ok ↔
        ∃ packet, Sendable packet ∧ Encodes packet frame) ∧
    (∀ (packet : Option MlrtPacket) (out : Option (List UInt8)) (outLen : Option Nat),
      (mlrtPacketEncode packet out outLen).1 ≠ .ok →
        (mlrtPacketEncode packet out outLen).2 = (out, outLen)) ∧
    (∀ (frame : Option (List UInt8)) (packet : Option MlrtPacket),
      (mlrtPacketDecode frame packet).1 ≠ .ok → (mlrtPacketDecode frame packet).2 = packet) := by
  have backward : ∀ (frame : List UInt8) (old decoded : MlrtPacket),
      mlrtPacketDecode (some frame) (some old) = (.ok, some decoded) →
        Sendable decoded ∧ Encodes decoded frame := by
    intro frame old decoded success
    obtain ⟨accepted, rfl⟩ := (mlrtPacketDecode_ok_iff frame old decoded).mp success
    have sendable := sendable_decodeFields frame accepted
    have encodes := encodes_frameOf _ sendable.lengthLe
    rw [frameOf_decodeFields frame accepted] at encodes
    exact ⟨sendable, encodes⟩
  refine ⟨?_, backward, ?_, mlrtPacketEncode_error, mlrtPacketDecode_error⟩
  · intro packet old out outLen sendable room
    refine ⟨_, received packet, mlrtPacketEncode_ok packet out outLen sendable.lengthLe room,
      ?_, rfl, rfl, rfl, rfl, ?_⟩
    · rw [← length_frameOf packet sendable.lengthLe, List.take_left]
      exact mlrtPacketDecode_frameOf packet old sendable
    · exact received_payload packet
  · intro frame old
    constructor
    · intro success
      obtain ⟨decoded, decodedOk⟩ := mlrtPacketDecode_ok frame old success
      exact ⟨decoded, backward frame old decoded decodedOk⟩
    · rintro ⟨packet, sendable, encodes⟩
      rw [encodes.eq_frameOf sendable.lengthLe, mlrtPacketDecode_frameOf packet old sendable]

/-- The packet of the protocol test: a three-byte configuration message. -/
theorem packet_codec_bijective_three_bytes :
    let packet : MlrtPacket := ⟨1, 5, 3, 42, Vector.ofFn fun index : Fin 512 =>
      if index.val < 3 then UInt8.ofNat (index.val + 1) else 0⟩
    Sendable packet ∧ ∃ written decoded,
      mlrtPacketEncode (some packet) (some (List.replicate 526 0)) (some 0) =
        (.ok, some written, some 17) ∧
      mlrtPacketDecode (some (written.take 17)) (some MlrtPacket.zero) = (.ok, some decoded) ∧
      decoded.seq = 42 := by
  intro packet
  have sendable : Sendable packet := ⟨by decide, Or.inr rfl⟩
  obtain ⟨written, decoded, encoded, decodedOk, -, -, -, seq, -⟩ :=
    packet_codec_bijective.1 packet MlrtPacket.zero (List.replicate 526 0) 0 sendable (by
      rw [List.length_replicate]
      decide)
  exact ⟨sendable, written, decoded, encoded, decodedOk, seq⟩

end EmbeddedRuntime.Protocol.PacketCodec
