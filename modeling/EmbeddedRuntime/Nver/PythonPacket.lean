import Mathlib.Algebra.Group.Int.Defs
import EmbeddedRuntime.Lib.Crc
import EmbeddedRuntime.Nver.Process

/-!
# `Packet` of `network-verification-lab/python/nver_protocol.py`

The traffic generator has its own codec.  Its fields are Python integers, which
`struct.pack` refuses when they do not fit; `zlib.crc32` is a parameter.  Under
the assumption that it is the IEEE check the two codecs agree in both
directions.
-/

set_option autoImplicit false

namespace EmbeddedRuntime.Nver.PythonPacket

open EmbeddedRuntime.Lib.ByteOrder
open EmbeddedRuntime.Lib.Crc
open EmbeddedRuntime.Nver.Process

/-- What the functions raise. -/
inductive PyError where
  | valueError (text : String)
  | structError
  deriving DecidableEq, Repr

def MAGIC : Int := 0x4E564552
def VERSION : Int := 1
def HEADER_SIZE : Nat := 24

/-- `DATA, ACK, STATS_REQUEST, STATS_REPLY, RESET_REQUEST, RESET_REPLY = range(1, 7)`. -/
def number : Kind → Int
  | .data => 1
  | .ack => 2
  | .statsRequest => 3
  | .statsReply => 4
  | .resetRequest => 5
  | .resetReply => 6

structure Packet where
  kind : Int
  session : Int
  sequence : Int
  payload : List UInt8 := []
  flags : Int := 0
  reserved : Int := 0
  version : Int := VERSION
  magic : Int := MAGIC
  deriving DecidableEq, Repr

/-- One argument of `struct.pack`, of an unsigned format of `size` bytes. -/
def packArgument (size : Nat) (bytes : Nat → List UInt8) (value : Int) :
    Except PyError (List UInt8) :=
  if 0 ≤ value ∧ value < 256 ^ size then .ok (bytes value.toNat) else .error .structError

/-- The format `B`. -/
def packB : Int → Except PyError (List UInt8) := packArgument 1 fun n => [UInt8.ofNat n]
/-- The format `H`. -/
def packH : Int → Except PyError (List UInt8) := packArgument 2 fun n => be16 (UInt16.ofNat n)
/-- The format `I`. -/
def packI : Int → Except PyError (List UInt8) := packArgument 4 fun n => be32 (UInt32.ofNat n)

/-- The header fields of `HEADER.unpack_from`. -/
structure Fields where
  magic : Int
  version : Int
  kind : Int
  flags : Int
  session : Int
  sequence : Int
  length : Nat
  reserved : Int
  crc : Nat
  deriving DecidableEq, Repr

def unpackFrom (wire : List UInt8) : Fields where
  magic := (u32 wire 0).toNat
  version := (wire.getD 4 0).toNat
  kind := (wire.getD 5 0).toNat
  flags := (u16 wire 6).toNat
  session := (u32 wire 8).toNat
  sequence := (u32 wire 12).toNat
  length := (u16 wire 16).toNat
  reserved := (u16 wire 18).toNat
  crc := (u32 wire 20).toNat

section Codec
variable (zlibCrc32 : List UInt8 → Nat)

def Packet.encode (self : Packet) : Except PyError (List UInt8) :=
  if 65535 < self.payload.length then .error (.valueError "payload size does not fit uint16")
  else do
    let magic ← packI self.magic
    let version ← packB self.version
    let kind ← packB self.kind
    let flags ← packH self.flags
    let session ← packI self.session
    let sequence ← packI self.sequence
    let length ← packH self.payload.length
    let reserved ← packH self.reserved
    let head := magic ++ version ++ kind ++ flags ++ session ++ sequence ++ length ++ reserved
    let crc ← packI ((zlibCrc32 (head ++ self.payload) &&& 0xFFFFFFFF : Nat) : Int)
    return head ++ crc ++ self.payload

def decode (wire : List UInt8) : Except PyError Packet :=
  if wire.length < HEADER_SIZE then .error (.valueError "truncated header")
  else
    let h := unpackFrom wire
    if wire.length ≠ HEADER_SIZE + h.length then .error (.valueError "length mismatch")
    else if zlibCrc32 (wire.take 20 ++ wire.drop HEADER_SIZE) &&& 0xFFFFFFFF ≠ h.crc then
      .error (.valueError "CRC mismatch")
    else if h.magic ≠ MAGIC ∨ h.version ≠ VERSION then
      .error (.valueError "unexpected protocol version/magic")
    else
      .ok { kind := h.kind, session := h.session, sequence := h.sequence,
            payload := wire.drop HEADER_SIZE, flags := h.flags, reserved := h.reserved,
            version := h.version, magic := h.magic }

end Codec

/-- `Packet(kind, session, sequence, payload)`, the other fields at their defaults. -/
def packetOf (kind : Kind) (session sequence : UInt32) (payload : List UInt8) : Packet :=
  { kind := number kind, session := session.toNat, sequence := sequence.toNat, payload := payload }

/-! ## The checksums -/

theorem crcBit_toBitVec (value : UInt32) :
    (crcBit value).toBitVec = shift ieeePolynomial value.toBitVec := by
  rw [crcBit, and_one, shift]
  cases value.toBitVec.getLsbD 0 <;> rfl

theorem crc32_eq_ieee (input : List UInt8) : crc32 input allOnes ^^^ allOnes = ieee input :=
  (ieee_eq_foldl (feedByte_of_shift crcBit_toBitVec) input).symm

/-- The second segment continues the checksum of the first one. -/
theorem crc32_append (first second : List UInt8) (value : UInt32) :
    crc32 (first ++ second) value = crc32 second (crc32 first value) :=
  List.foldl_append

theorem mask_toNat (value : UInt32) : value.toNat &&& 0xFFFFFFFF = value.toNat := by
  have below : value.toNat < 2 ^ 32 := value.toNat_lt
  exact Nat.and_two_pow_sub_one_of_lt_two_pow below

/-! ## Encoding -/

/-- The twenty bytes before the checksum. -/
def headOf (kind : Kind) (session sequence : UInt32) (payload : List UInt8) : List UInt8 :=
  be32 magic ++ [version, kind.code] ++ be16 0 ++ be32 session ++ be32 sequence ++
    be16 (UInt16.ofNat payload.length) ++ be16 0

theorem length_headOf (kind : Kind) (session sequence : UInt32) (payload : List UInt8) :
    (headOf kind session sequence payload).length = 20 := by
  simp [headOf]

/-- The datagram with the checksum over head and payload. -/
theorem encode_eq (kind : Kind) (session sequence : UInt32) (payload : List UInt8) :
    encode kind session sequence payload =
      headOf kind session sequence payload ++
        be32 (ieee (headOf kind session sequence payload ++ payload)) ++ payload := by
  have both : (if payload ≠ [] then
      crc32 payload (crc32 (headOf kind session sequence payload) allOnes)
      else crc32 (headOf kind session sequence payload) allOnes) =
      crc32 (headOf kind session sequence payload ++ payload) allOnes := by
    rw [crc32_append]
    cases payload with
    | nil => rfl
    | cons byte rest => simp
  rw [← crc32_eq_ieee, ← both]
  rfl

theorem length_encode (kind : Kind) (session sequence : UInt32) (payload : List UInt8) :
    (encode kind session sequence payload).length = headerBytes + payload.length := by
  rw [encode_eq]
  simp only [List.length_append, length_headOf, length_be32, headerBytes]

theorem take_encode (kind : Kind) (session sequence : UInt32) (payload : List UInt8) :
    (encode kind session sequence payload).take 20 = headOf kind session sequence payload := by
  rw [encode_eq, List.append_assoc]
  exact List.take_left' (length_headOf ..)

theorem drop_encode (kind : Kind) (session sequence : UInt32) (payload : List UInt8) :
    (encode kind session sequence payload).drop headerBytes = payload := by
  rw [encode_eq]
  apply List.drop_left'
  simp only [List.length_append, length_headOf, length_be32, headerBytes]

theorem u32_encode_crc (kind : Kind) (session sequence : UInt32) (payload : List UInt8) :
    u32 (encode kind session sequence payload) 20 =
      ieee (headOf kind session sequence payload ++ payload) := by
  rw [encode_eq]
  exact ofBe32_be32 _

/-- The fields `process` reads from an encoded datagram. -/
theorem header_encode (kind : Kind) (session sequence : UInt32) (payload : List UInt8) :
    header (encode kind session sequence payload) =
      { kind := kind.code, flags := 0, session := session, sequence := sequence,
        length := UInt16.ofNat payload.length, reserved := 0 } := by
  rw [encode_eq]
  have sessionOk := ofBe32_be32 session
  have sequenceOk := ofBe32_be32 sequence
  have lengthOk := ofBe16_be16 (UInt16.ofNat payload.length)
  simp only [header, Header.mk.injEq]
  exact ⟨rfl, ofBe16_be16 0, sessionOk, sequenceOk, lengthOk, ofBe16_be16 0⟩

theorem toNat_length {payload : List UInt8} (short : payload.length ≤ maxPayload) :
    (UInt16.ofNat payload.length).toNat = payload.length := by
  simp only [maxPayload] at short
  exact UInt16.toNat_ofNat_of_lt' (by simp only [UInt16.size]; omega)

/-- The two segments `process` checks are the whole datagram without the checksum. -/
theorem checksum_eq_ieee (bytes : List UInt8) (length : UInt16)
    (size : bytes.length = headerBytes + length.toNat) :
    checksum bytes length = ieee (bytes.take 20 ++ bytes.drop headerBytes) := by
  have payloadLength : (bytes.drop headerBytes).length = length.toNat := by
    rw [List.length_drop, size]
    omega
  rw [← crc32_eq_ieee, crc32_append, checksum]
  by_cases none : length = 0
  · have empty : bytes.drop headerBytes = [] := by
      apply List.eq_nil_of_length_eq_zero
      rw [payloadLength, none]
      rfl
    simp [none, empty, crc32]
  · have whole : (bytes.drop headerBytes).take length.toNat = bytes.drop headerBytes := by
      rw [← payloadLength, List.take_length]
    simp [none, whole]

/-- `process` accepts what `encode` makes. -/
theorem wellFormed_encode (kind : Kind) (session sequence : UInt32) (payload : List UInt8)
    (short : payload.length ≤ maxPayload) :
    WellFormed (encode kind session sequence payload) := by
  have size : (encode kind session sequence payload).length =
      headerBytes + (header (encode kind session sequence payload)).length.toNat := by
    rw [header_encode, length_encode, toNat_length short]
  refine ⟨?_, ?_, ?_, ?_, ?_, ?_, size, ?_⟩
  · rw [length_encode]
    exact Nat.le_add_right _ _
  · rw [encode_eq]
    exact ofBe32_be32 magic
  · rw [encode_eq]
    rfl
  · rw [header_encode]
  · rw [header_encode]
  · rw [header_encode]
    simpa only [toNat_length short] using short
  · rw [checksum_eq_ieee _ _ size, take_encode, drop_encode, u32_encode_crc]

/-! ## The Python side -/

theorem packI_toNat (value : UInt32) : packI (value.toNat : Int) = .ok (be32 value) := by
  have below : value.toNat < 2 ^ 32 := value.toNat_lt
  rw [packI, packArgument, if_pos (by omega), Int.toNat_natCast, UInt32.ofNat_toNat]

theorem packH_natCast {value : Nat} (below : value < 2 ^ 16) :
    packH (value : Int) = .ok (be16 (UInt16.ofNat value)) := by
  rw [packH, packArgument, if_pos (by omega), Int.toNat_natCast]

theorem packI_magic : packI MAGIC = .ok (be32 magic) := by
  have number : MAGIC = (magic.toNat : Int) := rfl
  rw [number, packI_toNat]

theorem packB_number (kind : Kind) : packB (number kind) = .ok [kind.code] := by
  cases kind <;> decide

theorem ok_bind {α β : Type} (value : α) (next : α → Except PyError β) :
    (Except.ok value >>= next) = next value := by
  simp only [bind, Except.bind]

section Agreement
variable {zlibCrc32 : List UInt8 → Nat} (isIeee : ∀ data, zlibCrc32 data = (ieee data).toNat)
include isIeee

theorem packetOf_encode (kind : Kind) (session sequence : UInt32) (payload : List UInt8)
    (short : payload.length ≤ maxPayload) :
    (packetOf kind session sequence payload).encode zlibCrc32 =
      .ok (encode kind session sequence payload) := by
  have small : payload.length < 2 ^ 16 := by simp only [maxPayload] at short; omega
  have versionOk : packB VERSION = .ok [version] := by decide
  have zeroOk : packH 0 = .ok (be16 0) := by decide
  have head : be32 magic ++ [version] ++ [kind.code] ++ be16 0 ++ be32 session ++
      be32 sequence ++ be16 (UInt16.ofNat payload.length) ++ be16 0 =
      headOf kind session sequence payload := by
    simp [headOf]
  rw [Packet.encode, if_neg (by simp only [packetOf]; omega)]
  simp only [packetOf, packI_magic, versionOk, zeroOk, packB_number, packI_toNat,
    packH_natCast small, ok_bind]
  rw [head, isIeee, mask_toNat, packI_toNat, ok_bind, encode_eq]
  rfl

theorem decode_encode (kind : Kind) (session sequence : UInt32) (payload : List UInt8)
    (short : payload.length ≤ maxPayload) :
    decode zlibCrc32 (encode kind session sequence payload) =
      .ok (packetOf kind session sequence payload) := by
  have formed := wellFormed_encode kind session sequence payload short
  have fields := header_encode kind session sequence payload
  simp only [header, Header.mk.injEq] at fields
  obtain ⟨kindOk, flagsOk, sessionOk, sequenceOk, lengthOk, reservedOk⟩ := fields
  have kindNumber : ((kind.code).toNat : Int) = number kind := by cases kind <;> rfl
  have magicNumber : ((magic.toNat : Nat) : Int) = MAGIC := rfl
  have versionNumber : ((version.toNat : Nat) : Int) = VERSION := rfl
  have size := length_encode kind session sequence payload
  have magicOk := formed.magicOk
  have versionOk := formed.versionOk
  have payloadOk : (encode kind session sequence payload).drop HEADER_SIZE = payload :=
    drop_encode kind session sequence payload
  rw [decode, if_neg (by rw [size, headerBytes, HEADER_SIZE]; omega)]
  simp only [unpackFrom, kindOk, flagsOk, sessionOk, sequenceOk, lengthOk, reservedOk, magicOk,
    versionOk, payloadOk, kindNumber, magicNumber, versionNumber, toNat_length short,
    take_encode, u32_encode_crc, isIeee, mask_toNat]
  rw [if_neg (by rw [size]; simp [headerBytes, HEADER_SIZE]), if_neg (by simp), if_neg (by simp)]
  rfl

/-- What `decode` accepts passes the checks of `process`. -/
theorem wellFormed_of_decode {wire : List UInt8} {packet : Packet}
    (bounded : wire.length ≤ headerBytes + maxPayload)
    (accepted : decode zlibCrc32 wire = .ok packet) (flags : packet.flags = 0)
    (reserved : packet.reserved = 0) : WellFormed wire := by
  unfold decode at accepted
  simp only at accepted
  split_ifs at accepted with truncated mismatch crc other
  simp only [not_not, not_or, Nat.not_lt] at truncated mismatch crc other
  have read := Except.ok.inj accepted
  have flagsOk : u16 wire 6 = 0 := by
    rw [← read] at flags
    exact UInt16.toNat_inj.mp (Int.ofNat_inj.mp flags)
  have reservedOk : u16 wire 18 = 0 := by
    rw [← read] at reserved
    exact UInt16.toNat_inj.mp (Int.ofNat_inj.mp reserved)
  have magicOk : u32 wire 0 = magic := UInt32.toNat_inj.mp (Int.ofNat_inj.mp other.1)
  have versionOk : wire.getD 4 0 = version := UInt8.toNat_inj.mp (Int.ofNat_inj.mp other.2)
  have size : wire.length = headerBytes + (header wire).length.toNat := mismatch
  rw [isIeee, mask_toNat] at crc
  refine ⟨truncated, magicOk, versionOk, flagsOk, reservedOk, ?_, size, ?_⟩
  · omega
  · rw [checksum_eq_ieee _ _ size]
    exact UInt32.toNat_inj.mp crc

end Agreement

/-- `process` acknowledges an acceptable datagram. -/
theorem process_accepted (dp : Datapath) (bytes : List UInt8) (isData : IsData bytes)
    (room : Room dp.lastSeq (header bytes)) (fresh : Fresh dp.lastSeq (header bytes)) :
    (process dp bytes).1 =
      encode .ack (header bytes).session (header bytes).sequence (bytes.drop headerBytes) := by
  have verdict := process_verdict dp bytes
  generalize process dp bytes = result at verdict ⊢
  cases verdict with
  | malformed error bad => exact absurd isData.toWellFormed bad
  | full _ none => exact absurd room none
  | replay _ _ stale => exact absurd fresh stale
  | accepted _ _ _ => rfl
  | stats isStats => exact absurd isStats (not_request_of_data isData (by decide))
  | reset isReset => exact absurd isReset (not_request_of_data isData (by decide))
  | unknown _ notData _ _ => exact absurd isData notData

/-- The two codecs of the protocol agree. -/
theorem codecs_agree (zlibCrc32 : List UInt8 → Nat)
    (isIeee : ∀ data, zlibCrc32 data = (ieee data).toNat) :
    (∀ (kind : Kind) (session sequence : UInt32) (payload : List UInt8),
      payload.length ≤ maxPayload →
        (packetOf kind session sequence payload).encode zlibCrc32 =
            .ok (encode kind session sequence payload) ∧
          decode zlibCrc32 (encode kind session sequence payload) =
            .ok (packetOf kind session sequence payload)) ∧
    (∀ (dp : Datapath) (session sequence : UInt32) (payload wire : List UInt8),
      payload.length ≤ maxPayload →
        (packetOf .data session sequence payload).encode zlibCrc32 = .ok wire →
        Room dp.lastSeq (header wire) → Fresh dp.lastSeq (header wire) →
          decode zlibCrc32 (process dp wire).1 =
            .ok (packetOf .ack session sequence payload)) ∧
    (∀ (wire : List UInt8) (packet : Packet),
      wire.length ≤ 1424 → decode zlibCrc32 wire = .ok packet → packet.flags = 0 →
        packet.reserved = 0 →
          WellFormed wire ∧ ∀ (dp : Datapath) (error : ErrorCounter),
            process dp wire = dp.received.reject error →
              error = .replay ∨ error = .type ∨ error = .session) := by
  refine ⟨?_, ?_, ?_⟩
  · intro kind session sequence payload short
    exact ⟨packetOf_encode isIeee kind session sequence payload short,
      decode_encode isIeee kind session sequence payload short⟩
  · intro dp session sequence payload wire short encoded room fresh
    rw [packetOf_encode isIeee .data session sequence payload short] at encoded
    have wireOk : encode .data session sequence payload = wire := Except.ok.inj encoded
    subst wireOk
    have isData : IsData (encode .data session sequence payload) :=
      ⟨wellFormed_encode .data session sequence payload short, by rw [header_encode]⟩
    rw [process_accepted dp _ isData room fresh, header_encode, drop_encode]
    exact decode_encode isIeee .ack session sequence payload short
  · intro wire packet bounded accepted flags reserved
    have formed : WellFormed wire :=
      wellFormed_of_decode isIeee bounded accepted flags reserved
    exact ⟨formed, fun dp error dropped => drop_of_wellFormed formed dropped⟩

theorem codecs_agree_first_datagram :
    (packetOf .data 7 1 [65]).encode (fun data => (ieee data).toNat) =
        .ok (encode .data 7 1 [65]) ∧
      decode (fun data => (ieee data).toNat) (process {} (encode .data 7 1 [65])).1 =
        .ok (packetOf .ack 7 1 [65]) ∧
      WellFormed (encode .data 7 1 [65]) := by
  obtain ⟨same, echoed, accepted⟩ :=
    codecs_agree (fun data => (ieee data).toNat) (fun _ => rfl)
  have codec := same .data 7 1 [65] (by decide)
  refine ⟨codec.1, ?_, ?_⟩
  · apply echoed {} 7 1 [65] _ (by decide) codec.1
    · exact Or.inr (by decide)
    · intro last known
      cases known
  · exact (accepted _ _ (by rw [length_encode]; decide) codec.2 rfl rfl).1

end EmbeddedRuntime.Nver.PythonPacket
