import EmbeddedRuntime.Lib.Buffer
import EmbeddedRuntime.Lib.ByteOrder
import EmbeddedRuntime.Protocol.Crc32

/-!
# The embedded frame codec of `protocol/embedded_protocol.c`

A frame is magic, version, type, payload length, sequence number, payload and
CRC, all words most significant byte first.  Buffers are the bytes they hold: a
buffer of capacity `n` is a list of length `n`, and a null pointer is `none`.
Both functions return the output objects they were given, so that what an error
leaves behind is part of the model.
-/

set_option autoImplicit false

namespace EmbeddedRuntime.Protocol.Packet

open EmbeddedRuntime.Lib.Buffer
open EmbeddedRuntime.Lib.ByteOrder
open EmbeddedRuntime.Protocol.Crc32

def protoMagic : UInt16 := 0xA55A
def protoVersion : UInt8 := 1
def protoMaxPayload : Nat := 512
def protoHeaderSize : Nat := 10
def protoCrcSize : Nat := 4
def protoMaxFrame : Nat := protoHeaderSize + protoMaxPayload + protoCrcSize

/-- `mlrt_packet`. -/
structure MlrtPacket where
  version : UInt8
  type : UInt8
  length : UInt16
  seq : UInt32
  payload : Vector UInt8 512
  deriving DecidableEq, Repr

/-- `memset(packet, 0, sizeof(*packet))`. -/
def MlrtPacket.zero : MlrtPacket := ⟨0, 0, 0, 0, Vector.replicate 512 0⟩

/-- `mlrt_proto_status`. -/
inductive ProtoStatus where
  | ok
  | einval
  | etoobig
  | eformat
  | ecrc
  | eio
  | eof
  deriving DecidableEq, Repr

def putU16Be (buffer : List UInt8) (offset : Nat) (value : UInt16) : List UInt8 :=
  writeAt buffer offset (be16 value)

def putU32Be (buffer : List UInt8) (offset : Nat) (value : UInt32) : List UInt8 :=
  writeAt buffer offset (be32 value)

def getU16Be (buffer : List UInt8) (offset : Nat) : UInt16 :=
  ofBe16 (buffer.getD offset 0) (buffer.getD (offset + 1) 0)

def getU32Be (buffer : List UInt8) (offset : Nat) : UInt32 :=
  ofBe32 (buffer.getD offset 0) (buffer.getD (offset + 1) 0) (buffer.getD (offset + 2) 0)
    (buffer.getD (offset + 3) 0)

/-- The stores of `mlrt_packet_encode` after its checks, in program order. -/
def encodeInto (packet : MlrtPacket) (out : List UInt8) : List UInt8 :=
  let out := putU16Be out 0 protoMagic
  let out := writeAt out 2 [if packet.version ≠ 0 then packet.version else protoVersion]
  let out := writeAt out 3 [packet.type]
  let out := putU16Be out 4 packet.length
  let out := putU32Be out 6 packet.seq
  let out :=
    if packet.length ≠ 0 then
      writeAt out protoHeaderSize (packet.payload.toList.take packet.length.toNat)
    else out
  let crc := mlrtCrc32 (out.take (protoHeaderSize + packet.length.toNat))
  putU32Be out (protoHeaderSize + packet.length.toNat) crc

/-- `mlrt_packet_encode`: the status, the buffer and `*out_len`. -/
def mlrtPacketEncode (packet : Option MlrtPacket) (out : Option (List UInt8))
    (outLen : Option Nat) : ProtoStatus × Option (List UInt8) × Option Nat :=
  match packet, out, outLen with
  | some packet, some buffer, some _ =>
      if packet.length.toNat > protoMaxPayload then (.etoobig, out, outLen)
      else
        let total := protoHeaderSize + packet.length.toNat + protoCrcSize
        if buffer.length < total then (.etoobig, out, outLen)
        else (.ok, some (encodeInto packet buffer), some total)
  | _, _, _ => (.einval, out, outLen)

/-- The packet `mlrt_packet_decode` fills in once every check has passed: the
zeroed record, its header fields, and the payload copied over the zeros. -/
def decodeFields (frame : List UInt8) (payloadLen : UInt16) : MlrtPacket :=
  { MlrtPacket.zero with
    version := frame.getD 2 0
    type := frame.getD 3 0
    length := payloadLen
    seq := getU32Be frame 6
    payload := Vector.ofFn fun index : Fin 512 =>
      if index.val < payloadLen.toNat then frame.getD (protoHeaderSize + index.val) 0
      else MlrtPacket.zero.payload.get index }

/-- `mlrt_packet_decode`: the status and `*packet`. -/
def mlrtPacketDecode (frame : Option (List UInt8)) (packet : Option MlrtPacket) :
    ProtoStatus × Option MlrtPacket :=
  match frame, packet with
  | some frame, some _ =>
      if frame.length < protoHeaderSize + protoCrcSize then (.einval, packet)
      else if getU16Be frame 0 ≠ protoMagic then (.eformat, packet)
      else if frame.getD 2 0 ≠ protoVersion then (.eformat, packet)
      else
        let payloadLen := getU16Be frame 4
        if payloadLen.toNat > protoMaxPayload then (.etoobig, packet)
        else if frame.length ≠ protoHeaderSize + payloadLen.toNat + protoCrcSize then
          (.eformat, packet)
        else
          let expectedCrc := getU32Be frame (protoHeaderSize + payloadLen.toNat)
          let actualCrc := mlrtCrc32 (frame.take (protoHeaderSize + payloadLen.toNat))
          if expectedCrc ≠ actualCrc then (.ecrc, packet)
          else (.ok, some (decodeFields frame payloadLen))
  | _, _ => (.einval, packet)

end EmbeddedRuntime.Protocol.Packet
