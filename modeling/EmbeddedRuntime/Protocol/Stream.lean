import EmbeddedRuntime.Protocol.PacketCodec

/-!
# Frames over a byte stream, `mlrt_packet_read_fd` and `mlrt_packet_write_fd`

The socket holds what the peer has sent and the server has not read, after which
the peer has closed its end.  Each `read` or `write` call moves some of the bytes
it is asked for, is interrupted, or fails, as the socket's schedule says; a call
beyond the schedule moves all it can.

`receive` reads one frame off the whole stream at once.  Without failing calls
the incremental reader does the same however the bytes are delivered.
-/

set_option autoImplicit false

namespace EmbeddedRuntime.Protocol.Stream

open EmbeddedRuntime.Lib.Buffer
open EmbeddedRuntime.Protocol.Packet
open EmbeddedRuntime.Protocol.PacketCodec

/-- What a system call on the socket does: move up to `count` bytes, return -1
with `EINTR`, or return -1 with another error. -/
inductive Transfer where
  | moved (count : Nat)
  | interrupted
  | failed
  deriving DecidableEq, Repr

/-- `requests` records the place in the frame buffer and the length of every
`read` call. -/
structure Socket where
  incoming : List UInt8
  outgoing : List UInt8
  reads : List Transfer
  writes : List Transfer
  requests : List (Nat × Nat)
  deriving DecidableEq, Repr

/-- A `read` call that stores `count` bytes of the `len` it asks for. -/
def Socket.read (socket : Socket) (offset len count : Nat) : Socket :=
  { socket with
    incoming := socket.incoming.drop count
    requests := socket.requests ++ [(offset, len)] }

/-- The loop of `read_all` over the calls still scheduled.  A `read` returns 0
only at the end of the stream; after the schedule one call reads what there is
and, if that is too little, the next returns 0. -/
def readLoop (frame : List UInt8) (offset len : Nat) (socket : Socket) :
    List Transfer → ProtoStatus × List UInt8 × Socket
  | [] =>
      if len = 0 then (.ok, frame, { socket with reads := [] })
      else
        let n := min len socket.incoming.length
        (if n < len then .eof else .ok, writeAt frame offset (socket.incoming.take n),
          { socket.read offset len n with reads := [] })
  | call :: reads =>
      if len = 0 then (.ok, frame, { socket with reads := call :: reads })
      else
        match call with
        | .interrupted => readLoop frame offset len (socket.read offset len 0) reads
        | .failed => (.eio, frame, { socket.read offset len 0 with reads })
        | .moved count =>
            let n := min (max count 1) (min len socket.incoming.length)
            if n = 0 then (.eof, frame, { socket.read offset len 0 with reads })
            else
              readLoop (writeAt frame offset (socket.incoming.take n)) (offset + n) (len - n)
                (socket.read offset len n) reads

/-- `read_all` into the frame buffer at an offset. -/
def readAll (socket : Socket) (frame : List UInt8) (offset len : Nat) :
    ProtoStatus × List UInt8 × Socket :=
  readLoop frame offset len socket socket.reads

/-- The loop of `write_all` over the calls still scheduled. -/
def writeLoop (bytes : List UInt8) (socket : Socket) : List Transfer → ProtoStatus × Socket
  | [] => (.ok, { socket with outgoing := socket.outgoing ++ bytes, writes := [] })
  | call :: writes =>
      if bytes = [] then (.ok, { socket with writes := call :: writes })
      else
        match call with
        | .interrupted => writeLoop bytes socket writes
        | .failed => (.eio, { socket with writes })
        | .moved count =>
            let n := min count bytes.length
            if n = 0 then (.eio, { socket with writes })
            else
              writeLoop (bytes.drop n)
                { socket with outgoing := socket.outgoing ++ bytes.take n } writes

def writeAll (socket : Socket) (bytes : List UInt8) : ProtoStatus × Socket :=
  writeLoop bytes socket socket.writes

/-- `mlrt_packet_write_fd`. -/
def mlrtPacketWriteFd (socket : Socket) (packet : MlrtPacket) : ProtoStatus × Socket :=
  match mlrtPacketEncode (some packet) (some (List.replicate protoMaxFrame 0)) (some 0) with
  | (.ok, some frame, some frameLen) => writeAll socket (frame.take frameLen)
  | (rc, _, _) => (rc, socket)

/-- `mlrt_packet_read_fd` after it has accepted the header in `frame`: the rest
of the frame and its decoding. -/
def readPayload (socket : Socket) (frame : List UInt8) (packet : MlrtPacket)
    (payloadLen : UInt16) : ProtoStatus × MlrtPacket × Socket :=
  let tail := payloadLen.toNat + protoCrcSize
  match readAll socket frame protoHeaderSize tail with
  | (.ok, frame, socket) =>
      let decoded := mlrtPacketDecode (some (frame.take (protoHeaderSize + tail))) (some packet)
      (decoded.1, decoded.2.getD packet, socket)
  | (rc, _, socket) => (rc, packet, socket)

/-- `mlrt_packet_read_fd`; the packet is left alone unless the frame decodes. -/
def mlrtPacketReadFd (socket : Socket) (packet : MlrtPacket) :
    ProtoStatus × MlrtPacket × Socket :=
  match readAll socket (List.replicate protoMaxFrame 0) 0 protoHeaderSize with
  | (.ok, frame, socket) =>
      if getU16Be frame 0 ≠ protoMagic ∨ frame.getD 2 0 ≠ protoVersion then
        (.eformat, packet, socket)
      else
        let payloadLen := getU16Be frame 4
        if payloadLen.toNat > protoMaxPayload then (.etoobig, packet, socket)
        else readPayload socket frame packet payloadLen
  | (rc, _, socket) => (rc, packet, socket)

/-! ## Any delivery of the bytes -/

/-- No call fails; a write moves at least one byte. -/
def Delivers (calls : List Transfer) : Prop :=
  ∀ call ∈ calls, call = .interrupted ∨ ∃ count, 0 < count ∧ call = .moved count

/-- The effect of a reader that took `count` bytes and never asked for a byte
beyond `limit` in the buffer. -/
structure Took (before after : Socket) (count limit : Nat) : Prop where
  incoming : after.incoming = before.incoming.drop count
  outgoing : after.outgoing = before.outgoing
  writes : after.writes = before.writes
  reads : Delivers after.reads
  requests : ∃ calls, after.requests = before.requests ++ calls ∧
    ∀ call ∈ calls, call.1 + call.2 ≤ limit

theorem took_refl {socket : Socket} {reads : List Transfer} (delivers : Delivers reads)
    (limit : Nat) : Took socket { socket with reads } 0 limit :=
  ⟨rfl, rfl, rfl, delivers, [], (List.append_nil _).symm, by simp⟩

/-- One more call before the rest. -/
theorem took_read {socket after : Socket} {offset len count rest : Nat}
    (took : Took (socket.read offset len count) after rest (offset + len)) :
    Took socket after (count + rest) (offset + len) := by
  obtain ⟨calls, recorded, bounded⟩ := took.requests
  refine ⟨?_, took.outgoing, took.writes, took.reads, (offset, len) :: calls, ?_, ?_⟩
  · rw [took.incoming, Socket.read, List.drop_drop]
  · rw [recorded, Socket.read, List.append_assoc]
    rfl
  · intro call here
    rcases List.mem_cons.mp here with rfl | later
    · exact Nat.le_refl _
    · exact bounded call later

theorem took_trans {first second third : Socket} {count more limit : Nat}
    (took : Took first second count limit) (next : Took second third more limit) :
    Took first third (count + more) limit := by
  obtain ⟨calls, recorded, bounded⟩ := took.requests
  obtain ⟨later, recordedLater, boundedLater⟩ := next.requests
  refine ⟨?_, next.outgoing.trans took.outgoing, next.writes.trans took.writes, next.reads,
    calls ++ later, ?_, ?_⟩
  · rw [next.incoming, took.incoming, List.drop_drop]
  · rw [recordedLater, recorded, List.append_assoc]
  · intro call here
    rcases List.mem_append.mp here with early | late
    · exact bounded call early
    · exact boundedLater call late

theorem took_mono {before after : Socket} {count limit : Nat}
    (took : Took before after count limit) (larger : Nat) (le : limit ≤ larger) :
    Took before after count larger := by
  obtain ⟨calls, recorded, bounded⟩ := took.requests
  exact { took with requests := ⟨calls, recorded, fun call here =>
    Nat.le_trans (bounded call here) le⟩ }

/-- Two counts that both exceed what there is. -/
theorem took_all {before after : Socket} {count other limit : Nat}
    (took : Took before after count limit) (short : before.incoming.length ≤ count)
    (alsoShort : before.incoming.length ≤ other) : Took before after other limit :=
  { took with
    incoming := by
      rw [took.incoming, List.drop_eq_nil_of_le short, List.drop_eq_nil_of_le alsoShort] }

theorem readLoop_delivers (calls : List Transfer) (delivers : Delivers calls)
    (frame : List UInt8) (offset len : Nat) (socket : Socket)
    (inside : offset + len ≤ frame.length) :
    ∃ after, readLoop frame offset len socket calls =
        (if len ≤ socket.incoming.length then .ok else .eof,
          writeAt frame offset (socket.incoming.take len), after) ∧
      Took socket after len (offset + len) := by
  induction calls generalizing frame offset len socket with
  | nil =>
      by_cases done : len = 0
      · subst done
        refine ⟨_, ?_, took_refl delivers _⟩
        simp [readLoop, writeAt_nil]
      · have read : Took socket { socket.read offset len (min len socket.incoming.length) with
            reads := [] } (min len socket.incoming.length) (offset + len) :=
          @took_read _ _ _ _ _ 0 (took_refl delivers _)
        rcases Nat.lt_or_ge socket.incoming.length len with short | enough
        · rw [Nat.min_eq_right (Nat.le_of_lt short)] at read
          refine ⟨_, ?_, took_all read (Nat.le_refl _) (Nat.le_of_lt short)⟩
          simp [readLoop, done, Nat.min_eq_right (Nat.le_of_lt short), short, Nat.not_le.mpr short,
            List.take_of_length_le (Nat.le_of_lt short)]
        · rw [Nat.min_eq_left enough] at read
          refine ⟨_, ?_, read⟩
          simp [readLoop, done, enough]
  | cons call calls ih =>
      have rest : Delivers calls := fun other here => delivers other (List.mem_cons_of_mem _ here)
      by_cases done : len = 0
      · subst done
        refine ⟨_, ?_, took_refl delivers _⟩
        simp [readLoop, writeAt_nil]
      · rcases delivers call List.mem_cons_self with rfl | ⟨count, positive, rfl⟩
        · obtain ⟨after, equal, took⟩ :=
            ih rest frame offset len (socket.read offset len 0) inside
          refine ⟨after, ?_, ?_⟩
          · simp only [readLoop, if_neg done, equal]
            rfl
          · have whole := took_read took
            rwa [Nat.zero_add] at whole
        · have bound : min (max count 1) (min len socket.incoming.length) ≤ len := by omega
          by_cases empty : socket.incoming = []
          · refine ⟨_, ?_, took_all (@took_read _ _ _ _ 0 0 (took_refl rest _)) (by simp [empty])
              (by simp [empty])⟩
            have short : ¬ len ≤ 0 := by omega
            simp [readLoop, done, empty, short, writeAt_nil]
          · have some : 0 < socket.incoming.length := List.length_pos_iff.mpr empty
            generalize amount : min (max count 1) (min len socket.incoming.length) = n at bound
            have moves : n ≠ 0 ∧ n ≤ socket.incoming.length := by omega
            have taken : (socket.incoming.take n).length = n := by
              rw [List.length_take, Nat.min_eq_left moves.2]
            obtain ⟨after, equal, took⟩ := ih rest
              (writeAt frame offset (socket.incoming.take n)) (offset + n) (len - n)
              (socket.read offset len n) (by
                rw [length_writeAt _ _ _ (by omega)]
                omega)
            rw [show offset + n + (len - n) = offset + len by omega] at took
            refine ⟨after, ?_, ?_⟩
            · have status : (len - n ≤ (socket.read offset len n).incoming.length) =
                  (len ≤ socket.incoming.length) := by
                rw [Socket.read, List.length_drop, eq_iff_iff]
                omega
              have bytes : writeAt (writeAt frame offset (socket.incoming.take n)) (offset + n)
                  ((socket.incoming.drop n).take (len - n)) =
                    writeAt frame offset (socket.incoming.take len) := by
                have joined := writeAt_adjacent frame (socket.incoming.take n)
                  ((socket.incoming.drop n).take (len - n)) offset (by omega)
                rw [taken, ← List.take_add, show n + (len - n) = len by omega] at joined
                exact joined
              simp only [readLoop, if_neg done, amount, if_neg moves.1, equal, status]
              rw [← bytes]
              rfl
            · have whole := took_read took
              rwa [show n + (len - n) = len by omega] at whole

theorem writeLoop_delivers (calls : List Transfer) (delivers : Delivers calls)
    (bytes : List UInt8) (socket : Socket) :
    ∃ writes, Delivers writes ∧ writeLoop bytes socket calls =
      (.ok, { socket with outgoing := socket.outgoing ++ bytes, writes }) := by
  induction calls generalizing bytes socket with
  | nil => exact ⟨[], delivers, rfl⟩
  | cons call calls ih =>
      have rest : Delivers calls := fun other here => delivers other (List.mem_cons_of_mem _ here)
      by_cases done : bytes = []
      · exact ⟨call :: calls, delivers, by simp [writeLoop, done]⟩
      · rcases delivers call List.mem_cons_self with rfl | ⟨count, positive, rfl⟩
        · obtain ⟨writes, left, equal⟩ := ih rest bytes socket
          exact ⟨writes, left, by simp only [writeLoop, if_neg done, equal]⟩
        · have some := List.length_pos_iff.mpr done
          have moves : min count bytes.length ≠ 0 := by omega
          obtain ⟨writes, left, equal⟩ := ih rest (bytes.drop (min count bytes.length))
            { socket with outgoing := socket.outgoing ++ bytes.take (min count bytes.length) }
          refine ⟨writes, left, ?_⟩
          simp only [writeLoop, if_neg done, if_neg moves, equal, List.append_assoc,
            List.take_append_drop]

/-- The writer sends the frame of its packet whole. -/
theorem mlrtPacketWriteFd_delivers (socket : Socket) (packet : MlrtPacket)
    (lengthLe : packet.length.toNat ≤ protoMaxPayload) (delivers : Delivers socket.writes) :
    ∃ writes, Delivers writes ∧ mlrtPacketWriteFd socket packet =
      (.ok, { socket with outgoing := socket.outgoing ++ frameOf packet, writes }) := by
  have room : frameSize packet ≤ (List.replicate protoMaxFrame (0 : UInt8)).length := by
    rw [List.length_replicate, frameSize, protoMaxFrame]
    omega
  have front : (frameOf packet ++
      (List.replicate protoMaxFrame 0).drop (frameSize packet)).take (frameSize packet) =
        frameOf packet := by
    rw [← length_frameOf packet lengthLe, List.take_left]
  unfold mlrtPacketWriteFd writeAll
  rw [mlrtPacketEncode_ok packet _ 0 lengthLe room]
  simp only [front]
  exact writeLoop_delivers socket.writes delivers (frameOf packet) socket

/-! ## One frame -/

/-- The size the header at the front of a stream declares. -/
def frameLength (stream : List UInt8) : Nat :=
  protoHeaderSize + (getU16Be stream 4).toNat + protoCrcSize

/-- The frame at the front of a stream whose header is accepted. -/
def receivePayload (stream : List UInt8) (packet : MlrtPacket) :
    ProtoStatus × MlrtPacket × Nat :=
  if stream.length < frameLength stream then (.eof, packet, stream.length)
  else
    let decoded := mlrtPacketDecode (some (stream.take (frameLength stream))) (some packet)
    (decoded.1, decoded.2.getD packet, frameLength stream)

/-- One frame read off the stream: the status, the packet, and how many bytes
are taken. -/
def receive (stream : List UInt8) (packet : MlrtPacket) : ProtoStatus × MlrtPacket × Nat :=
  if stream.length < protoHeaderSize then (.eof, packet, stream.length)
  else if getU16Be stream 0 ≠ protoMagic ∨ stream.getD 2 0 ≠ protoVersion then
    (.eformat, packet, protoHeaderSize)
  else if (getU16Be stream 4).toNat > protoMaxPayload then (.etoobig, packet, protoHeaderSize)
  else receivePayload stream packet

theorem getD_front (stream rest : List UInt8) (index count : Nat) (inside : index < count)
    (enough : count ≤ stream.length) :
    (stream.take count ++ rest).getD index 0 = stream.getD index 0 := by
  have taken : (stream.take count).length = count := by
    rw [List.length_take, Nat.min_eq_left enough]
  rw [List.getD_append _ _ _ _ (by omega), List.getD_eq_getElem _ _ (by omega),
    List.getD_eq_getElem _ _ (by omega), List.getElem_take]

/-- The header fields of a buffer that begins with the front of the stream. -/
theorem header_front (stream rest : List UInt8) (enough : protoHeaderSize ≤ stream.length) :
    getU16Be (stream.take protoHeaderSize ++ rest) 0 = getU16Be stream 0 ∧
      (stream.take protoHeaderSize ++ rest).getD 2 0 = stream.getD 2 0 ∧
      getU16Be (stream.take protoHeaderSize ++ rest) 4 = getU16Be stream 4 := by
  have front := fun index inside => getD_front stream rest index protoHeaderSize inside enough
  refine ⟨?_, front 2 (by decide), ?_⟩
  · rw [getU16Be, getU16Be, front 0 (by decide), front 1 (by decide)]
  · rw [getU16Be, getU16Be, front 4 (by decide), front 5 (by decide)]

theorem readPayload_receive (socket header : Socket) (packet : MlrtPacket)
    (enough : protoHeaderSize ≤ socket.incoming.length)
    (lengthLe : (getU16Be socket.incoming 4).toNat ≤ protoMaxPayload)
    (headerTook : Took socket header protoHeaderSize protoMaxFrame) :
    ∃ after, readPayload header
        (writeAt (List.replicate protoMaxFrame 0) 0 (socket.incoming.take protoHeaderSize)) packet
        (getU16Be socket.incoming 4) =
          ((receivePayload socket.incoming packet).1, (receivePayload socket.incoming packet).2.1,
            after) ∧
      Took socket after (receivePayload socket.incoming packet).2.2 protoMaxFrame := by
  have maxFrame : protoMaxFrame = protoHeaderSize + protoMaxPayload + protoCrcSize := rfl
  generalize payloadLen : (getU16Be socket.incoming 4).toNat = length at lengthLe
  have declared : frameLength socket.incoming = protoHeaderSize + (length + protoCrcSize) := by
    rw [frameLength, payloadLen, Nat.add_assoc]
  have bufferLength : (writeAt (List.replicate protoMaxFrame (0 : UInt8)) 0
      (socket.incoming.take protoHeaderSize)).length = protoMaxFrame := by
    rw [length_writeAt _ _ _ (by simp; omega), List.length_replicate]
  obtain ⟨after, bodyRead, bodyTook⟩ := readLoop_delivers header.reads headerTook.reads
    (writeAt (List.replicate protoMaxFrame 0) 0 (socket.incoming.take protoHeaderSize))
    protoHeaderSize (length + protoCrcSize) header (by rw [bufferLength]; omega)
  have took := took_trans headerTook (took_mono bodyTook protoMaxFrame (by omega))
  rw [← declared] at took
  have left : header.incoming.length = socket.incoming.length - protoHeaderSize := by
    rw [headerTook.incoming, List.length_drop]
  unfold readPayload readAll receivePayload
  simp only [payloadLen, bodyRead]
  rcases Nat.lt_or_ge socket.incoming.length (frameLength socket.incoming) with short | whole
  · rw [if_neg (by omega), if_pos short]
    exact ⟨after, rfl, took_all took (Nat.le_of_lt short) (Nat.le_refl _)⟩
  · have bytes : (writeAt (writeAt (List.replicate protoMaxFrame 0) 0
        (socket.incoming.take protoHeaderSize)) protoHeaderSize
          (header.incoming.take (length + protoCrcSize))).take
            (protoHeaderSize + (length + protoCrcSize)) =
        socket.incoming.take (frameLength socket.incoming) := by
      have first : (socket.incoming.take protoHeaderSize).length = protoHeaderSize := by
        rw [List.length_take, Nat.min_eq_left enough]
      have joined := writeAt_adjacent (List.replicate protoMaxFrame 0)
        (socket.incoming.take protoHeaderSize)
        ((socket.incoming.drop protoHeaderSize).take (length + protoCrcSize)) 0 (Nat.zero_le _)
      rw [first, Nat.zero_add, ← List.take_add] at joined
      rw [headerTook.incoming, joined, declared, writeAt, List.take_zero, List.nil_append]
      exact List.take_left' (by rw [List.length_take]; omega)
    rw [if_pos (by omega), if_neg (by omega)]
    simp only [bytes]
    exact ⟨after, rfl, took⟩

/-- However the bytes are delivered, the reader takes one frame off the stream
and stays inside its buffer. -/
theorem mlrtPacketReadFd_receive (socket : Socket) (packet : MlrtPacket)
    (delivers : Delivers socket.reads) :
    ∃ after, mlrtPacketReadFd socket packet =
        ((receive socket.incoming packet).1, (receive socket.incoming packet).2.1, after) ∧
      Took socket after (receive socket.incoming packet).2.2 protoMaxFrame := by
  obtain ⟨header, headerRead, headerTook⟩ := readLoop_delivers socket.reads delivers
    (List.replicate protoMaxFrame 0) 0 protoHeaderSize socket (by simp; decide)
  have headerTook := took_mono headerTook protoMaxFrame (by decide)
  unfold mlrtPacketReadFd readAll
  rw [headerRead]
  unfold receive
  by_cases short : socket.incoming.length < protoHeaderSize
  · rw [if_neg (by omega), if_pos short]
    exact ⟨header, rfl, took_all headerTook (Nat.le_of_lt short) (Nat.le_refl _)⟩
  · have enough : protoHeaderSize ≤ socket.incoming.length := Nat.le_of_not_lt short
    have buffer : writeAt (List.replicate protoMaxFrame 0) 0
        (socket.incoming.take protoHeaderSize) = socket.incoming.take protoHeaderSize ++
          (List.replicate protoMaxFrame 0).drop protoHeaderSize := by
      rw [writeAt, List.take_zero, List.nil_append, List.length_take, Nat.min_eq_left enough,
        Nat.zero_add]
    obtain ⟨magic, version, length⟩ := header_front socket.incoming
      ((List.replicate protoMaxFrame 0).drop protoHeaderSize) enough
    rw [if_pos enough, if_neg short, buffer]
    simp only [magic, version, length]
    by_cases bad : getU16Be socket.incoming 0 ≠ protoMagic ∨
        socket.incoming.getD 2 0 ≠ protoVersion
    · rw [if_pos bad, if_pos bad]
      exact ⟨header, rfl, headerTook⟩
    · rw [if_neg bad, if_neg bad]
      by_cases long : (getU16Be socket.incoming 4).toNat > protoMaxPayload
      · rw [if_pos long, if_pos long]
        exact ⟨header, rfl, headerTook⟩
      · rw [if_neg long, if_neg long, ← buffer]
        exact readPayload_receive socket header packet enough (Nat.le_of_not_lt long) headerTook

/-! ## Streams of frames -/

/-- The bytes are one frame, and the decoder reads `packet` from it. -/
def Decodes (frame : List UInt8) (packet : MlrtPacket) : Prop :=
  mlrtPacketDecode (some frame) (some .zero) = (.ok, some packet)

/-- The bytes begin with a whole frame that only its CRC spoils. -/
def CrcFault (stream : List UInt8) : Prop :=
  ∃ frame rest, stream = frame ++ rest ∧ (mlrtPacketDecode (some frame) (some .zero)).1 = .ecrc

/-- The leading frames of a stream, as many as decode. -/
structure Leading (frames : List (List UInt8)) (rest stream : List UInt8) : Prop where
  stream : stream = frames.flatten ++ rest
  decode : ∀ frame ∈ frames, ∃ packet, Decodes frame packet
  maximal : ∀ frame more packet, rest = frame ++ more → ¬ Decodes frame packet

/-- What the decoder's checks before the CRC say about a frame. -/
structure Framed (frame : List UInt8) : Prop where
  magic : getU16Be frame 0 = protoMagic
  version : frame.getD 2 0 = protoVersion
  lengthLe : (getU16Be frame 4).toNat ≤ protoMaxPayload
  size : frame.length = frameLength frame

theorem framed_of_status {frame : List UInt8} {packet : MlrtPacket}
    (known : (mlrtPacketDecode (some frame) (some packet)).1 = .ok ∨
      (mlrtPacketDecode (some frame) (some packet)).1 = .ecrc) : Framed frame := by
  simp only [mlrtPacketDecode] at known
  split_ifs at known with short magic version long size crc
  all_goals first
    | simp at known; done
    | exact ⟨by simpa using magic, by simpa using version, by omega, by simpa [frameLength] using size⟩

/-- The fields of a frame are those of any stream that begins with it. -/
theorem framed_append {frame : List UInt8} (framed : Framed frame) (rest : List UInt8) :
    protoHeaderSize ≤ (frame ++ rest).length ∧
      getU16Be (frame ++ rest) 0 = protoMagic ∧ (frame ++ rest).getD 2 0 = protoVersion ∧
      (getU16Be (frame ++ rest) 4).toNat ≤ protoMaxPayload ∧
      frameLength (frame ++ rest) = frame.length ∧
      (frame ++ rest).take (frameLength (frame ++ rest)) = frame := by
  have size := framed.size
  have enough : protoHeaderSize ≤ frame.length := by
    rw [size, frameLength]
    omega
  obtain ⟨magic, version, length⟩ := header_front frame (frame.drop protoHeaderSize ++ rest) enough
  rw [← List.append_assoc, List.take_append_drop] at magic version length
  have declared : frameLength (frame ++ rest) = frame.length := by
    rw [size, frameLength, frameLength, length]
  refine ⟨by rw [List.length_append]; omega, by rw [magic, framed.magic],
    by rw [version, framed.version], by rw [length]; exact framed.lengthLe, declared, ?_⟩
  rw [declared]
  exact List.take_left

theorem receive_framed {frame : List UInt8} (framed : Framed frame) (rest : List UInt8)
    (packet : MlrtPacket) :
    receive (frame ++ rest) packet =
      ((mlrtPacketDecode (some frame) (some packet)).1,
        (mlrtPacketDecode (some frame) (some packet)).2.getD packet, frame.length) := by
  obtain ⟨enough, magic, version, lengthLe, declared, front⟩ := framed_append framed rest
  unfold receive receivePayload
  rw [if_neg (by omega), if_neg (by simp only [magic, version]; simp), if_neg (by omega),
    if_neg (by rw [declared, List.length_append]; omega), front, declared]

/-- A stream on which `receive` gets to the decoder begins with a frame. -/
theorem receive_status {stream : List UInt8} {packet : MlrtPacket}
    (known : (receive stream packet).1 = .ok ∨ (receive stream packet).1 = .ecrc) :
    ∃ frame rest, stream = frame ++ rest ∧
      (mlrtPacketDecode (some frame) (some packet)).1 = (receive stream packet).1 := by
  unfold receive receivePayload at known ⊢
  split_ifs at known ⊢
  all_goals first
    | (simp at known; done)
    | exact ⟨stream.take (frameLength stream), stream.drop (frameLength stream),
        (List.take_append_drop ..).symm, rfl⟩

theorem decodes_length {frame : List UInt8} {packet : MlrtPacket} (decodes : Decodes frame packet) :
    0 < frame.length := by
  have size := (framed_of_status (Or.inl (congrArg Prod.fst decodes))).size
  rw [size, frameLength, protoHeaderSize]
  omega

/-- Every stream has its leading frames. -/
theorem leading_exists (stream : List UInt8) : ∃ frames rest, Leading frames rest stream := by
  induction size : stream.length using Nat.strongRecOn generalizing stream with
  | _ count ih =>
      by_cases next : ∃ frame more packet, stream = frame ++ more ∧ Decodes frame packet
      · obtain ⟨frame, more, packet, rfl, decodes⟩ := next
        have positive := decodes_length decodes
        obtain ⟨frames, rest, leading⟩ :=
          ih more.length (by rw [← size, List.length_append]; omega) more rfl
        refine ⟨frame :: frames, rest, ?_, ?_, leading.maximal⟩
        · rw [leading.stream, List.flatten_cons, List.append_assoc]
        · intro other here
          rcases List.mem_cons.mp here with rfl | later
          · exact ⟨packet, decodes⟩
          · exact leading.decode other later
      · exact ⟨[], stream, rfl, by simp, fun frame more packet equal decodes =>
          next ⟨frame, more, packet, equal, decodes⟩⟩

theorem leading_length {frames : List (List UInt8)} {rest stream : List UInt8}
    (leading : Leading frames rest stream) : frames.length ≤ stream.length := by
  obtain ⟨rfl, decode, -⟩ := leading
  induction frames with
  | nil => exact Nat.zero_le _
  | cons frame frames ih =>
      obtain ⟨packet, decodes⟩ := decode frame List.mem_cons_self
      have positive := decodes_length decodes
      have others := ih fun other here => decode other (List.mem_cons_of_mem _ here)
      simp only [List.flatten_cons, List.length_cons, List.length_append] at others ⊢
      omega

/-- The reader takes a decodable frame and leaves what follows. -/
theorem receive_decodes {frame : List UInt8} {packet : MlrtPacket}
    (decodes : Decodes frame packet) (rest : List UInt8) :
    receive (frame ++ rest) .zero = (.ok, packet, frame.length) := by
  have framed := framed_of_status (Or.inl (congrArg Prod.fst decodes))
  rw [receive_framed framed rest, decodes]
  rfl

/-- Where no leading frame decodes the reader stops, with ECRC exactly on a
whole frame with a wrong CRC. -/
theorem receive_stops {rest : List UInt8}
    (maximal : ∀ frame more packet, rest = frame ++ more → ¬ Decodes frame packet) :
    (receive rest .zero).1 ≠ .ok ∧ ((receive rest .zero).1 = .ecrc ↔ CrcFault rest) := by
  constructor
  · intro ok
    obtain ⟨frame, more, equal, status⟩ := receive_status (Or.inl ok)
    obtain ⟨packet, decodes⟩ := mlrtPacketDecode_ok frame .zero (status.trans ok)
    exact maximal frame more packet equal decodes
  · constructor
    · intro ecrc
      obtain ⟨frame, more, equal, status⟩ := receive_status (Or.inr ecrc)
      exact ⟨frame, more, equal, status.trans ecrc⟩
    · rintro ⟨frame, more, rfl, ecrc⟩
      rw [receive_framed (framed_of_status (Or.inr ecrc))]
      exact ecrc

end EmbeddedRuntime.Protocol.Stream
