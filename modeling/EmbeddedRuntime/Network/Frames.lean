import EmbeddedRuntime.Lib.ByteOrder

/-!
# Frames of `network/protocol.c` one system call at a time

`net_send_frame` sends its buffers one after the other, each `send` taking some
bytes of the first one; `net_recv_frame` is at a point of its two `recv_all`
loops.  `InTransit` says where the bytes of a frame are between the two ends.
-/

set_option autoImplicit false

namespace EmbeddedRuntime.Network.Frames

open EmbeddedRuntime.Lib.ByteOrder

/-- The buffers `net_send_frame` gives to `send_all`. -/
def sendBuffers (data : List UInt8) : List (List UInt8) :=
  be32 (UInt32.ofNat data.length) :: if data = [] then [] else [data]

/-- One `send` that takes `n` bytes: these bytes and the buffers left. -/
def send (n : Nat) : List (List UInt8) → Option (List UInt8 × List (List UInt8))
  | [] => none
  | buffer :: rest =>
      if 0 < n ∧ n ≤ buffer.length then
        some (buffer.take n, if n = buffer.length then rest else buffer.drop n :: rest)
      else none

/-- The point of `net_recv_frame`, with the bytes its loop has stored. -/
inductive Receiving where
  | header (got : List UInt8)
  | body (length : Nat) (got : List UInt8)
  deriving DecidableEq, Repr

/-- How many bytes the next `recv` asks for. -/
def Receiving.want : Receiving → Nat
  | .header got => 4 - got.length
  | .body length got => length - got.length

/-- What `net_recv_frame` does with the bytes of a `recv`. -/
inductive Received where
  | more (receiving : Receiving)
  | frame (data : List UInt8)
  | tooBig
  deriving DecidableEq, Repr

def hostLength (bytes : List UInt8) : Nat :=
  (ofBe32 (bytes.getD 0 0) (bytes.getD 1 0) (bytes.getD 2 0) (bytes.getD 3 0)).toNat

def Receiving.store (maxLength : Nat) (bytes : List UInt8) : Receiving → Received
  | .header got =>
      let got := got ++ bytes
      if got.length < 4 then .more (.header got)
      else if hostLength got > maxLength then .tooBig
      else if hostLength got = 0 then .frame []
      else .more (.body (hostLength got) [])
  | .body length got =>
      let got := got ++ bytes
      if got.length < length then .more (.body length got) else .frame got

/-! ## A frame on its way -/

/-- The bytes a receiver has taken. -/
def Receiving.taken : Receiving → List UInt8
  | .header got => got
  | .body length got => be32 (UInt32.ofNat length) ++ got

/-- The point of a receiver that has not read all of `data`. -/
def Receiving.Partial (data : List UInt8) : Receiving → Prop
  | .header got => got.length < 4
  | .body length got => length = data.length ∧ got.length < data.length

/-- The frame of `data` is partly taken, partly on the channel, partly still to be sent. -/
structure InTransit (maxLength : Nat) (data : List UInt8) (receiving : Receiving)
    (channel : List UInt8) (pending : List (List UInt8)) : Prop where
  fits : data.length ≤ maxLength
  small : maxLength < 2 ^ 32
  buffers : ∀ buffer ∈ pending, buffer ≠ []
  stream : receiving.taken ++ channel ++ pending.flatten =
    be32 (UInt32.ofNat data.length) ++ data
  point : receiving.Partial data

section Transit
variable {maxLength : Nat} {data : List UInt8} {receiving : Receiving} {channel : List UInt8}
  {pending : List (List UInt8)}

theorem inTransit_start (fits : data.length ≤ maxLength) (small : maxLength < 2 ^ 32) :
    InTransit maxLength data (.header []) [] (sendBuffers data) := by
  refine ⟨fits, small, ?_, ?_, Nat.zero_lt_succ 3⟩
  · intro buffer here
    unfold sendBuffers at here
    split_ifs at here with empty
    · rw [List.mem_singleton.mp here]
      simp [be32]
    · rcases List.mem_cons.mp here with rfl | later
      · simp [be32]
      · rw [List.mem_singleton.mp later]
        exact empty
  · unfold sendBuffers
    split_ifs with empty
    · simp [Receiving.taken, empty]
    · simp [Receiving.taken]

theorem send_some {n : Nat} {bytes : List UInt8} {left : List (List UInt8)}
    (sent : send n pending = some (bytes, left)) :
    bytes ≠ [] ∧ bytes ++ left.flatten = pending.flatten ∧
      ((∀ buffer ∈ pending, buffer ≠ []) → ∀ buffer ∈ left, buffer ≠ []) := by
  cases pending with
  | nil => simp [send] at sent
  | cons buffer rest =>
      simp only [send] at sent
      split_ifs at sent with taken whole
      · obtain ⟨rfl, rfl⟩ := Prod.mk.inj (Option.some.inj sent)
        rw [whole]
        refine ⟨?_, by rw [List.take_length, List.flatten_cons], fun all other here =>
          all other (List.mem_cons_of_mem _ here)⟩
        rw [List.take_length, ← List.length_pos_iff]
        omega
      · obtain ⟨rfl, rfl⟩ := Prod.mk.inj (Option.some.inj sent)
        refine ⟨?_, ?_, ?_⟩
        · rw [← List.length_pos_iff, List.length_take]
          omega
        · rw [List.flatten_cons, List.flatten_cons, ← List.append_assoc, List.take_append_drop]
        · intro all other here
          rcases List.mem_cons.mp here with rfl | later
          · rw [← List.length_pos_iff, List.length_drop]
            omega
          · exact all other (List.mem_cons_of_mem _ later)

/-- A `send` moves bytes to the channel. -/
theorem InTransit.send (transit : InTransit maxLength data receiving channel pending) {n : Nat}
    {bytes : List UInt8} {left : List (List UInt8)}
    (sent : Frames.send n pending = some (bytes, left)) :
    InTransit maxLength data receiving (channel ++ bytes) left := by
  obtain ⟨-, same, kept⟩ := send_some sent
  refine ⟨transit.fits, transit.small, kept transit.buffers, ?_, transit.point⟩
  rw [← transit.stream, ← same]
  simp only [List.append_assoc]

theorem length_ofNat (fits : data.length ≤ maxLength) (small : maxLength < 2 ^ 32) :
    (UInt32.ofNat data.length).toNat = data.length :=
  UInt32.toNat_ofNat_of_lt' (by simp only [UInt32.size]; omega)

theorem hostLength_be32 (value : UInt32) : hostLength (be32 value) = value.toNat :=
  congrArg UInt32.toNat (ofBe32_be32 value)

/-- Bytes in front of the channel, taken by a `recv`. -/
theorem InTransit.front (transit : InTransit maxLength data receiving channel pending) (n : Nat) :
    receiving.taken ++ channel.take n ++ (channel.drop n ++ pending.flatten) =
      be32 (UInt32.ofNat data.length) ++ data := by
  rw [← transit.stream, List.append_assoc, List.append_assoc, ← List.append_assoc (channel.take n),
    List.take_append_drop]

/-- Nothing is left to send or to receive. -/
theorem nothing_left (buffers : ∀ buffer ∈ pending, buffer ≠ [])
    (none : channel ++ pending.flatten = []) : channel = [] ∧ pending = [] := by
  obtain ⟨empty, flat⟩ := List.append_eq_nil_iff.mp none
  refine ⟨empty, ?_⟩
  cases pending with
  | nil => rfl
  | cons buffer rest =>
      rw [List.flatten_cons] at flat
      exact absurd (List.append_eq_nil_iff.mp flat).1 (buffers buffer List.mem_cons_self)

/-- A `recv` either brings the receiver on or completes exactly the frame. -/
theorem InTransit.recv (transit : InTransit maxLength data receiving channel pending) {n : Nat}
    (want : n ≤ receiving.want) (here : n ≤ channel.length) :
    (∃ next, receiving.store maxLength (channel.take n) = .more next ∧
      InTransit maxLength data next (channel.drop n) pending) ∨
    (receiving.store maxLength (channel.take n) = .frame data ∧ channel.drop n = [] ∧
      pending = []) := by
  have front := transit.front n
  have point := transit.point
  have taken : (channel.take n).length = n := by
    rw [List.length_take, Nat.min_eq_left here]
  have fits := transit.fits
  cases receiving with
  | header got =>
      simp only [Receiving.Partial, Receiving.want, Receiving.taken] at point want front
      have count : (got ++ channel.take n).length = got.length + n := by
        rw [List.length_append, taken]
      simp only [Receiving.store]
      by_cases short : (got ++ channel.take n).length < 4
      · rw [if_pos short]
        refine Or.inl ⟨_, rfl, transit.fits, transit.small, transit.buffers, ?_, short⟩
        rw [List.append_assoc]
        exact front
      · rw [if_neg short]
        obtain ⟨header, rest⟩ := List.append_inj front (by rw [count, length_be32]; omega)
        have host : hostLength (got ++ channel.take n) = data.length := by
          rw [header, hostLength_be32, length_ofNat transit.fits transit.small]
        rw [host, if_neg (Nat.not_lt.mpr fits)]
        by_cases empty : data.length = 0
        · have none : data = [] := List.eq_nil_of_length_eq_zero empty
          rw [if_pos empty, none]
          rw [none] at rest
          exact Or.inr ⟨rfl, nothing_left transit.buffers rest⟩
        · rw [if_neg empty]
          refine Or.inl ⟨_, rfl, transit.fits, transit.small, transit.buffers, ?_, rfl, ?_⟩
          · rw [Receiving.taken, List.append_nil, List.append_assoc, rest]
          · exact Nat.pos_of_ne_zero empty
  | body length got =>
      simp only [Receiving.Partial, Receiving.want, Receiving.taken] at point want front
      obtain ⟨rfl, partial_⟩ := point
      have rest : got ++ channel.take n ++ (channel.drop n ++ pending.flatten) = data := by
        simp only [List.append_assoc] at front ⊢
        exact List.append_cancel_left front
      have count : (got ++ channel.take n).length = got.length + n := by
        rw [List.length_append, taken]
      simp only [Receiving.store]
      by_cases short : (got ++ channel.take n).length < data.length
      · rw [if_pos short]
        refine Or.inl ⟨_, rfl, transit.fits, transit.small, transit.buffers, ?_, rfl, short⟩
        rw [← front]
        simp only [Receiving.taken, List.append_assoc]
      · rw [if_neg short]
        have lengths := congrArg List.length rest
        rw [List.length_append, count] at lengths
        have none : channel.drop n ++ pending.flatten = [] := by
          apply List.eq_nil_of_length_eq_zero
          omega
        refine Or.inr ⟨?_, nothing_left transit.buffers none⟩
        rw [none, List.append_nil] at rest
        rw [rest]

/-- A sender with something left can send. -/
theorem send_one (buffers : ∀ buffer ∈ pending, buffer ≠ []) (some : pending ≠ []) :
    ∃ sent, send 1 pending = .some sent := by
  cases pending with
  | nil => exact absurd rfl some
  | cons buffer rest =>
      have positive := List.length_pos_iff.mpr (buffers buffer List.mem_cons_self)
      exact ⟨_, if_pos ⟨Nat.one_pos, positive⟩⟩

theorem InTransit.canSend (transit : InTransit maxLength data receiving channel pending)
    (some : pending ≠ []) : ∃ sent, Frames.send 1 pending = .some sent :=
  send_one transit.buffers some

/-- When all is sent there is a byte to receive. -/
theorem InTransit.canRecv (transit : InTransit maxLength data receiving channel []) :
    1 ≤ receiving.want ∧ 1 ≤ channel.length := by
  have stream := congrArg List.length transit.stream
  simp only [List.length_append, List.flatten_nil, List.length_nil, length_be32] at stream
  have point := transit.point
  cases receiving with
  | header got =>
      simp only [Receiving.Partial, Receiving.taken, Receiving.want] at *
      omega
  | body length got =>
      simp only [Receiving.Partial, Receiving.taken, Receiving.want, List.length_append,
        length_be32] at *
      omega

end Transit

end EmbeddedRuntime.Network.Frames
