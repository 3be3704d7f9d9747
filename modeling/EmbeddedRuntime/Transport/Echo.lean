import EmbeddedRuntime.Protocol.Stream
import EmbeddedRuntime.Transport.Frames

/-!
# `serve_connection` of `ai-networking-benchmark-lab/src/transport.cpp`

The server answers every frame it reads with a frame, corrupted in its last byte
when the fault injection asks for it, and stops at the first bytes that are not
a frame.  The delay between the two has no effect on the bytes.
-/

set_option autoImplicit false

namespace EmbeddedRuntime.Transport.Echo

open EmbeddedRuntime.Lib.ByteOrder
open EmbeddedRuntime.Lib.Crc
open EmbeddedRuntime.Lib.Deliveries
open EmbeddedRuntime.Protocol.Stream (Transfer Delivers)
open EmbeddedRuntime.Transport.Frames

/-- What one `write_all` sent, the calls left, and whether it returns. -/
structure Written where
  sent : List UInt8
  rest : List Transfer
  ok : Bool
  deriving DecidableEq, Repr

/-- `write_all`; a `send` beyond the schedule takes all bytes. -/
def writeAll (bytes : List UInt8) : List Transfer → Written
  | [] => ⟨bytes, [], true⟩
  | call :: calls =>
      if bytes = [] then ⟨[], call :: calls, true⟩
      else
        match call with
        | .interrupted => writeAll bytes calls
        | .failed => ⟨[], calls, false⟩
        | .moved count =>
            let n := min count bytes.length
            if n = 0 then ⟨[], calls, false⟩
            else
              let later := writeAll (bytes.drop n) calls
              { later with sent := bytes.take n ++ later.sent }

/-- `outgoing.back() ^= 0x01`. -/
def corrupt (outgoing : List UInt8) : List UInt8 :=
  outgoing.set (outgoing.length - 1) (outgoing.getD (outgoing.length - 1) 0 ^^^ 1)

/-- The answer to the `n`-th frame. -/
def reply (corruptEvery : UInt32) (n : UInt64) (incoming : Frame) : Except String (List UInt8) :=
  match encode incoming.seq incoming.payload with
  | .error text => .error text
  | .ok outgoing =>
      if corruptEvery ≠ 0 ∧ n % corruptEvery.toUInt64 = 0 ∧ incoming.payload ≠ [] then
        .ok (corrupt outgoing)
      else .ok outgoing

/-- The bytes sent on a connection, and the message of the exception that closed it. -/
structure Served where
  sent : List UInt8
  closed : Option String
  deriving DecidableEq, Repr

theorem weight_readAll {input rest : List (Delivery UInt8)} {len : Nat} {bytes : List UInt8}
    (read : readAll input len = .ok (some (bytes, rest))) :
    weight rest ≤ weight input ∧ (0 < len → weight rest < weight input) := by
  unfold readAll at read
  split at read
  next got left filled =>
    simp only [Except.ok.injEq, Option.some.injEq, Prod.mk.injEq] at read
    rw [← read.2]
    exact weight_fillLoop filled
  next => split_ifs at read; cases Except.ok.inj read
  next => cases read

theorem weight_readPayload {input rest : List (Delivery UInt8)} {len : Nat} {bytes : List UInt8}
    (read : readPayload input len = .ok (some (bytes, rest))) : weight rest ≤ weight input := by
  unfold readPayload at read
  split_ifs at read with empty
  · simp only [Except.ok.injEq, Option.some.injEq, Prod.mk.injEq] at read
    exact Nat.le_of_eq (congrArg weight read.2.symm)
  · exact (weight_readAll read).1

/-- Every frame takes at least its header off the connection. -/
theorem weight_readFrame {input rest : List (Delivery UInt8)} {frame : Frame}
    (read : readFrame input = .ok (some (frame, rest))) : weight rest < weight input := by
  unfold readFrame at read
  split at read
  next => cases read
  next => cases Except.ok.inj read
  next h left header =>
    have less := (weight_readAll header).2 (by decide)
    unfold readBody at read
    simp only at read
    split_ifs at read with bad large
    split at read
    next => cases read
    next => cases read
    next payload last body =>
      split_ifs at read with crc
      simp only [Except.ok.injEq, Option.some.injEq, Prod.mk.injEq] at read
      rw [← read.2]
      exact Nat.lt_of_le_of_lt (weight_readPayload body) less

/-- The loop after `n` frames. -/
def serveLoop (corruptEvery : UInt32) (n : UInt64) (writes : List Transfer)
    (input : List (Delivery UInt8)) : Served :=
  match result : readFrame input with
  | .error text => ⟨[], some text⟩
  | .ok none => ⟨[], none⟩
  | .ok (some (incoming, rest)) =>
      match reply corruptEvery (n + 1) incoming with
      | .error text => ⟨[], some text⟩
      | .ok outgoing =>
          let written := writeAll outgoing writes
          if written.ok then
            let later := serveLoop corruptEvery (n + 1) written.rest rest
            { later with sent := written.sent ++ later.sent }
          else ⟨written.sent, some "send error/closed"⟩
termination_by weight input
decreasing_by exact weight_readFrame result

def serveConnection (corruptEvery : UInt32) (writes : List Transfer)
    (input : List (Delivery UInt8)) : Served :=
  serveLoop corruptEvery 0 writes input

/-! ## One answer -/

theorem writeAll_delivers (calls : List Transfer) (delivers : Delivers calls)
    (bytes : List UInt8) : ∃ rest, Delivers rest ∧ writeAll bytes calls = ⟨bytes, rest, true⟩ := by
  induction calls generalizing bytes with
  | nil => exact ⟨[], delivers, rfl⟩
  | cons call calls ih =>
      have rest : Delivers calls := fun other here => delivers other (List.mem_cons_of_mem _ here)
      by_cases done : bytes = []
      · exact ⟨call :: calls, delivers, by simp [writeAll, done]⟩
      · rcases delivers call List.mem_cons_self with rfl | ⟨count, positive, rfl⟩
        · obtain ⟨left, delivered, equal⟩ := ih rest bytes
          exact ⟨left, delivered, by simp only [writeAll, if_neg done, equal]⟩
        · have some := List.length_pos_iff.mpr done
          have moves : min count bytes.length ≠ 0 := by omega
          obtain ⟨left, delivered, equal⟩ := ih rest (bytes.drop (min count bytes.length))
          refine ⟨left, delivered, ?_⟩
          simp only [writeAll, if_neg done, if_neg moves, equal, List.take_append_drop]

/-- The server corrupts its answer to the `n`-th frame; it counts frames in 64 bits. -/
def Corrupts (corruptEvery : UInt32) (n : Nat) (frame : Frame) : Prop :=
  0 < corruptEvery.toNat ∧ corruptEvery.toNat ∣ n % 2 ^ 64 ∧ frame.payload ≠ []

instance (corruptEvery : UInt32) (n : Nat) (frame : Frame) :
    Decidable (Corrupts corruptEvery n frame) :=
  inferInstanceAs (Decidable (_ ∧ _ ∧ _))

/-- The bytes the server sends for the `n`-th frame. -/
def replyBytes (corruptEvery : UInt32) (n : Nat) (frame : Frame) : List UInt8 :=
  if Corrupts corruptEvery n frame then corrupt (frameBytes frame) else frameBytes frame

theorem reply_eq (corruptEvery : UInt32) (n : Nat) (frame : Frame)
    (small : frame.payload.length ≤ MAX_BODY) :
    reply corruptEvery (UInt64.ofNat n) frame = .ok (replyBytes corruptEvery n frame) := by
  have same : (corruptEvery ≠ 0 ∧ UInt64.ofNat n % corruptEvery.toUInt64 = 0 ∧
      frame.payload ≠ []) ↔ Corrupts corruptEvery n frame := by
    have zero : corruptEvery ≠ 0 ↔ 0 < corruptEvery.toNat := by
      rw [Nat.pos_iff_ne_zero, ne_eq, ne_eq, ← UInt32.toNat_inj]
      rfl
    have divides : UInt64.ofNat n % corruptEvery.toUInt64 = 0 ↔
        corruptEvery.toNat ∣ n % 2 ^ 64 := by
      rw [Nat.dvd_iff_mod_eq_zero, ← UInt64.toNat_inj, UInt64.toNat_mod, UInt64.toNat_ofNat,
        UInt32.toNat_toUInt64]
      rfl
    rw [zero, divides, Corrupts]
  unfold reply replyBytes
  rw [encode_eq frame small]
  simp only [same]
  split_ifs
  · rfl
  · rfl

/-- A corrupted answer has the header of the frame and another payload. -/
theorem corrupt_frameBytes (frame : Frame) (some : frame.payload ≠ []) :
    ∃ payload, payload.length = frame.payload.length ∧ crc32 payload ≠ crc32 frame.payload ∧
      corrupt (frameBytes frame) =
        headerOf frame.seq (UInt32.ofNat frame.payload.length) (crc32 frame.payload) ++ payload := by
  have positive := List.length_pos_iff.mpr some
  have inside : frame.payload.length - 1 < frame.payload.length := by omega
  have last : (frameBytes frame).length - 1 = HEADER_SIZE + (frame.payload.length - 1) := by
    rw [length_frameBytes]
    omega
  refine ⟨flipBit frame.payload (frame.payload.length - 1) 0, List.length_set, ?_, ?_⟩
  · rw [crc32_eq_ieee, crc32_eq_ieee]
    exact ieee_set inside (getElem_ne_flip inside 0)
  · rw [corrupt, last, frameBytes, List.set_append_right _ _ (by rw [length_headerOf]; omega),
      List.getD_append_right _ _ _ _ (by rw [length_headerOf]; omega), length_headerOf,
      Nat.add_sub_cancel_left]
    rfl

/-- What a reader makes of an answer. -/
theorem readFrame_replyBytes (corruptEvery : UInt32) (n : Nat) (frame : Frame)
    (small : frame.payload.length ≤ MAX_BODY) (more : List UInt8)
    {back : List (Delivery UInt8)} (steady : Steady back)
    (bytes : contents back = replyBytes corruptEvery n frame ++ more) :
    if Corrupts corruptEvery n frame then readFrame back = .error "bad payload CRC"
    else ∃ rest, Steady rest ∧ contents rest = more ∧
      readFrame back = .ok (some (frame, rest)) := by
  have agrees := readFrame_agrees steady
  rw [bytes, replyBytes] at agrees
  split_ifs with corrupts
  · obtain ⟨payload, length, differ, same⟩ := corrupt_frameBytes frame corrupts.2.2
    rw [if_pos corrupts, same, ← length, receive_headerOf _ _ _ _ (by omega),
      if_pos differ] at agrees
    generalize readFrame back = result at agrees
    cases agrees
    rfl
  · rw [if_neg corrupts, receive_frameBytes frame small] at agrees
    generalize result_eq : readFrame back = result at agrees
    cases agrees with
    | frame _ steadyRest => exact ⟨_, steadyRest, rfl, rfl⟩

/-! ## A whole connection -/

/-- No frame is at the front of the stream. -/
def NoFrame (stream : List UInt8) : Prop :=
  ∀ frame : Frame, frame.payload.length ≤ MAX_BODY → ¬ frameBytes frame <+: stream

/-- The messages of `read_frame`. -/
def readErrors : List String :=
  ["truncated TCP frame or recv failed", "bad magic/version", "oversized packet",
    "truncated payload", "bad payload CRC"]

theorem receive_error {stream : List UInt8} {text : String}
    (thrown : receive stream = .error text) : text ∈ readErrors := by
  unfold receive at thrown
  simp only at thrown
  split_ifs at thrown
  all_goals
    obtain rfl := Except.error.inj thrown
    decide

theorem receive_none {stream : List UInt8} : receive stream = .ok none ↔ stream = [] := by
  constructor
  · intro closed
    by_contra some
    unfold receive at closed
    simp only [if_neg some] at closed
    split_ifs at closed
    cases Except.ok.inj closed
  · intro none
    rw [receive, if_pos none]

/-- `read_frame` reports the end at a frame boundary only. -/
theorem readFrame_closed_iff {input : List (Delivery UInt8)} (steady : Steady input) :
    readFrame input = .ok none ↔ contents input = [] := by
  have agrees := readFrame_agrees steady
  rw [← receive_none]
  constructor
  · intro closed
    rw [closed] at agrees
    generalize receive (contents input) = received at agrees
    cases agrees
    rfl
  · intro closed
    rw [closed] at agrees
    generalize readFrame input = result at agrees
    cases agrees
    rfl

/-- Where no frame begins, before the end, it throws. -/
theorem readFrame_throws {input : List (Delivery UInt8)} (steady : Steady input)
    (some : contents input ≠ []) (noFrame : NoFrame (contents input)) :
    ∃ text ∈ readErrors, readFrame input = .error text := by
  have agrees := readFrame_agrees steady
  generalize received_eq : receive (contents input) = received at agrees
  generalize result_eq : readFrame input = result at agrees
  cases agrees with
  | thrown text => exact ⟨text, receive_error received_eq, rfl⟩
  | closed => exact absurd (receive_none.mp received_eq) some
  | frame frame _ =>
      obtain ⟨same, small⟩ := frameBytes_of_receive received_eq
      exact absurd ⟨_, same.symm⟩ (noFrame frame small)

theorem readFrame_noFrame {input : List (Delivery UInt8)} (steady : Steady input)
    (noFrame : NoFrame (contents input)) :
    readFrame input = .ok none ∨ ∃ text, readFrame input = .error text := by
  by_cases empty : contents input = []
  · exact Or.inl ((readFrame_closed_iff steady).mpr empty)
  · obtain ⟨text, -, thrown⟩ := readFrame_throws steady empty noFrame
    exact Or.inr ⟨text, thrown⟩

theorem serveLoop_noFrame (corruptEvery : UInt32) (n : UInt64) (writes : List Transfer)
    {input : List (Delivery UInt8)}
    (stops : readFrame input = .ok none ∨ ∃ text, readFrame input = .error text) :
    (serveLoop corruptEvery n writes input).sent = [] := by
  rw [serveLoop]
  split
  next => rfl
  next => rfl
  next incoming rest other =>
    rcases stops with closed | ⟨text, thrown⟩
    · rw [closed] at other
      cases Except.ok.inj other
    · rw [thrown] at other
      cases other

/-- One turn of the loop. -/
theorem serveLoop_frame (corruptEvery : UInt32) (n : UInt64) (writes : List Transfer)
    {input rest : List (Delivery UInt8)} {incoming : Frame}
    (read : readFrame input = .ok (some (incoming, rest))) :
    serveLoop corruptEvery n writes input =
      match reply corruptEvery (n + 1) incoming with
      | .error text => ⟨[], some text⟩
      | .ok outgoing =>
          let written := writeAll outgoing writes
          if written.ok then
            let later := serveLoop corruptEvery (n + 1) written.rest rest
            { later with sent := written.sent ++ later.sent }
          else ⟨written.sent, some "send error/closed"⟩ := by
  rw [serveLoop]
  split
  next text other =>
    rw [read] at other
    cases other
  next other =>
    rw [read] at other
    cases Except.ok.inj other
  next incoming' rest' other =>
    rw [read] at other
    simp only [Except.ok.injEq, Option.some.injEq, Prod.mk.injEq] at other
    obtain ⟨rfl, rfl⟩ := other
    rfl

theorem serveLoop_sent (corruptEvery : UInt32) (frames : List Frame)
    (sizes : ∀ frame ∈ frames, frame.payload.length ≤ MAX_BODY) (suffix : List UInt8)
    (noFrame : NoFrame suffix) (n : Nat) (writes : List Transfer) (delivers : Delivers writes)
    (input : List (Delivery UInt8)) (steady : Steady input)
    (stream : contents input = (frames.map frameBytes).flatten ++ suffix) :
    (serveLoop corruptEvery (UInt64.ofNat n) writes input).sent =
      (frames.mapIdx fun i frame => replyBytes corruptEvery (n + i + 1) frame).flatten := by
  induction frames generalizing n writes input with
  | nil =>
      have last : contents input = suffix := stream
      rw [← last] at noFrame
      rw [serveLoop_noFrame corruptEvery _ writes (readFrame_noFrame steady noFrame)]
      rfl
  | cons frame frames ih =>
      have small := sizes frame List.mem_cons_self
      have agrees := readFrame_agrees steady
      rw [stream, List.map_cons, List.flatten_cons, List.append_assoc,
        receive_frameBytes frame small] at agrees
      obtain ⟨rest, steadyRest, left, read⟩ : ∃ rest, Steady rest ∧
          contents rest = (frames.map frameBytes).flatten ++ suffix ∧
          readFrame input = .ok (some (frame, rest)) := by
        generalize result_eq : readFrame input = result at agrees
        generalize later_eq : (frames.map frameBytes).flatten ++ suffix = later at agrees
        cases agrees with
        | frame _ steadyRest => exact ⟨_, steadyRest, rfl, rfl⟩
      obtain ⟨calls, deliversLeft, written⟩ :=
        writeAll_delivers writes delivers (replyBytes corruptEvery (n + 1) frame)
      have next := ih (fun other here => sizes other (List.mem_cons_of_mem _ here)) (n + 1) calls
        deliversLeft rest steadyRest left
      have count : UInt64.ofNat n + 1 = UInt64.ofNat (n + 1) := (UInt64.ofNat_add n 1).symm
      have shift : (fun i frame => replyBytes corruptEvery (n + (i + 1) + 1) frame) =
          fun i frame => replyBytes corruptEvery (n + 1 + i + 1) frame := by
        funext i frame
        rw [Nat.add_comm i 1, ← Nat.add_assoc]
      rw [serveLoop_frame corruptEvery _ writes read, count,
        reply_eq corruptEvery (n + 1) frame small]
      simp only [written, if_true, next, List.mapIdx_cons, List.flatten_cons, Nat.add_zero, shift]

/-- The contract of the echo server and of `read_frame`. -/
theorem serve_connection_contract (corruptEvery : UInt32) (frames : List Frame)
    (sizes : ∀ frame ∈ frames, frame.payload.length ≤ MAX_BODY) (suffix : List UInt8)
    (noFrame : NoFrame suffix) (writes : List Transfer) (delivers : Delivers writes)
    (input : List (Delivery UInt8)) (steady : Steady input)
    (stream : contents input = (frames.map frameBytes).flatten ++ suffix) :
    (∃ replies : List (List UInt8), replies.length = frames.length ∧
      (serveConnection corruptEvery writes input).sent = replies.flatten ∧
      ∀ n frame reply, frames[n]? = some frame → replies[n]? = some reply →
        ∀ more back, Steady back → contents back = reply ++ more →
          if Corrupts corruptEvery (n + 1) frame then readFrame back = .error "bad payload CRC"
          else ∃ rest, Steady rest ∧ contents rest = more ∧
            readFrame back = .ok (some (frame, rest))) ∧
    (∀ back, Steady back →
      (readFrame back = .ok none ↔ contents back = []) ∧
      (contents back ≠ [] → NoFrame (contents back) →
        ∃ text ∈ readErrors, readFrame back = .error text)) := by
  refine ⟨⟨frames.mapIdx fun i frame => replyBytes corruptEvery (i + 1) frame,
    List.length_mapIdx, ?_, ?_⟩, ?_⟩
  · have sent := serveLoop_sent corruptEvery frames sizes suffix noFrame 0 writes delivers input
      steady stream
    simp only [Nat.zero_add] at sent
    exact sent
  · intro n frame reply here answered more back steadyBack bytes
    rw [List.getElem?_mapIdx, here, Option.map_some, Option.some.injEq] at answered
    rw [← answered] at bytes
    exact readFrame_replyBytes corruptEvery (n + 1) frame
      (sizes frame (List.mem_of_getElem? here)) more steadyBack bytes
  · intro back steadyBack
    exact ⟨readFrame_closed_iff steadyBack, readFrame_throws steadyBack⟩

theorem noFrame_nil : NoFrame [] := by
  intro frame _ front
  have none := List.prefix_nil.mp front
  have length := length_frameBytes frame
  rw [none, List.length_nil] at length
  simp only [HEADER_SIZE] at length
  omega

/-- Two frames in two deliveries, every answer corrupted: the one without a payload stays. -/
theorem serve_connection_contract_two_frames :
    let first : Frame := ⟨1, [104, 105]⟩
    let second : Frame := ⟨2, []⟩
    let input := [.data (frameBytes first), .interrupted, .data (frameBytes second)]
    ∃ replies : List (List UInt8), replies.length = 2 ∧
      (serveConnection 1 [.moved 3, .interrupted] input).sent = replies.flatten := by
  have steady : Steady [.data (frameBytes ⟨1, [104, 105]⟩), .interrupted,
      .data (frameBytes ⟨2, []⟩)] := by
    constructor
    · intro here
      simp [frameBytes, headerOf, be32] at here
    · intro here
      simp at here
  have contract := serve_connection_contract 1 [⟨1, [104, 105]⟩, ⟨2, []⟩] (by decide) []
    noFrame_nil [.moved 3, .interrupted] (by simp [Delivers]) _ steady (by
      simp [contents])
  obtain ⟨replies, length, sent, -⟩ := contract.1
  exact ⟨replies, length, sent⟩

end EmbeddedRuntime.Transport.Echo
