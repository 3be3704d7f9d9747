import Mathlib.Data.List.Basic
import EmbeddedRuntime.Lib.Machine
import EmbeddedRuntime.Transport.Bench

/-!
# The benchmark over sockets with bounded buffers

The client of `ai-networking-benchmark-lab/src/transport.cpp` sends a whole batch
before it reads the first response, and the server answers a frame before it reads
the next one.  A `send` moves bytes only while the buffers on their way have room.
Here the two move in any order, by any number of bytes at a time; only the number of
bytes matters, so a buffer is its length.

The test plan warns that pipelined clients with large messages may exert
backpressure.  This is the exact bound.
-/

set_option autoImplicit false

namespace EmbeddedRuntime.Transport.Backpressure

open EmbeddedRuntime.Lib.Machine
open EmbeddedRuntime.Transport.Frames
open EmbeddedRuntime.Transport.Bench

/-- Where the client is: in the `write_all` of the `j`-th request of a batch with `left` bytes to
go, or in the `read_frame` of its `j`-th response with `got` bytes read. -/
inductive Client where
  | sending (offset j left : Nat)
  | reading (offset j got : Nat)
  | done
  deriving DecidableEq, Repr

/-- Where the server is, with the number of frames it has answered. -/
inductive Server where
  | reading (answered got : Nat)
  | writing (answered left : Nat)
  deriving DecidableEq, Repr

/-- The two parties, and the bytes on their way to the server and back. -/
structure State where
  client : Client
  server : Server
  up : Nat
  down : Nat
  deriving DecidableEq, Repr

/-- One successful `send` or `recv` of the client or the server. -/
inductive Action where
  | clientSend (n : Nat)
  | clientRecv (n : Nat)
  | serverRecv (n : Nat)
  | serverSend (n : Nat)
  deriving DecidableEq, Repr

/-- The bytes that the sockets and the network hold in each direction. -/
structure Capacity where
  up : Nat
  down : Nat
  up_pos : 0 < up
  down_pos : 0 < down

variable (options : Options) (capacity : Capacity)

def frameSize : Nat := HEADER_SIZE + options.bytes

/-- The bytes a `recv` of `read_frame` asks for: the rest of the header, then of the payload. -/
def want (got : Nat) : Nat :=
  if got < HEADER_SIZE then HEADER_SIZE - got else frameSize options - got

/-- The top of the loop over the batches. -/
def beginBatch (offset : Nat) : Client :=
  if offset < options.total then .sending offset 0 (frameSize options) else .done

def nextRequest (offset j : Nat) : Client :=
  if j + 1 < options.batch offset then .sending offset (j + 1) (frameSize options)
  else .reading offset 0 0

def nextResponse (offset j : Nat) : Client :=
  if j + 1 < options.batch offset then .reading offset (j + 1) 0
  else beginBatch options (offset + options.batch offset)

def step (state : State) : Action → Option State
  | .clientSend n =>
      match state.client with
      | .sending offset j left =>
          if 0 < n ∧ n ≤ left ∧ state.up + n ≤ capacity.up then
            some { state with
              client := if n = left then nextRequest options offset j
                else .sending offset j (left - n)
              up := state.up + n }
          else none
      | _ => none
  | .clientRecv n =>
      match state.client with
      | .reading offset j got =>
          if 0 < n ∧ n ≤ want options got ∧ n ≤ state.down then
            some { state with
              client := if got + n = frameSize options then nextResponse options offset j
                else .reading offset j (got + n)
              down := state.down - n }
          else none
      | _ => none
  | .serverRecv n =>
      match state.server with
      | .reading answered got =>
          if 0 < n ∧ n ≤ want options got ∧ n ≤ state.up then
            some { state with
              server := if got + n = frameSize options then .writing answered (frameSize options)
                else .reading answered (got + n)
              up := state.up - n }
          else none
      | _ => none
  | .serverSend n =>
      match state.server with
      | .writing answered left =>
          if 0 < n ∧ n ≤ left ∧ state.down + n ≤ capacity.down then
            some { state with
              server := if n = left then .reading (answered + 1) 0 else .writing answered (left - n)
              down := state.down + n }
          else none
      | _ => none

def start : State := ⟨beginBatch options 0, .reading 0 0, 0, 0⟩

/-! ## Positions in the two streams -/

def Client.written : Client → Nat
  | .sending offset j left => (offset + j) * frameSize options + (frameSize options - left)
  | .reading offset _ _ => (offset + options.batch offset) * frameSize options
  | .done => options.total * frameSize options

def Client.read : Client → Nat
  | .sending offset _ _ => offset * frameSize options
  | .reading offset j got => (offset + j) * frameSize options + got
  | .done => options.total * frameSize options

def Server.read : Server → Nat
  | .reading answered got => answered * frameSize options + got
  | .writing answered _ => answered * frameSize options + frameSize options

def Server.written : Server → Nat
  | .reading answered _ => answered * frameSize options
  | .writing answered left => answered * frameSize options + (frameSize options - left)

def Client.Ok : Client → Prop
  | .sending offset j left =>
      offset < options.total ∧ j < options.batch offset ∧ 0 < left ∧ left ≤ frameSize options
  | .reading offset j got =>
      offset < options.total ∧ j < options.batch offset ∧ got < frameSize options
  | .done => True

def Server.Ok : Server → Prop
  | .reading _ got => got < frameSize options
  | .writing _ left => 0 < left ∧ left ≤ frameSize options

/-- What is on its way is what one party has written and the other has not read. -/
structure Flow (state : State) : Prop where
  client : state.client.Ok options
  server : state.server.Ok options
  up : state.client.written options = state.server.read options + state.up
  down : state.server.written options = state.client.read options + state.down
  up_le : state.up ≤ capacity.up
  down_le : state.down ≤ capacity.down

theorem frameSize_pos : 0 < frameSize options := by
  simp only [frameSize, HEADER_SIZE]
  omega

theorem batch_pos {offset : Nat} (inside : offset < options.total) :
    0 < options.batch offset := by
  have window := options.window_range
  simp only [Options.batch]
  omega

theorem batch_le (offset : Nat) : options.batch offset ≤ options.total - offset :=
  Nat.min_le_right ..

theorem beginBatch_spec {offset : Nat} (within : offset ≤ options.total) :
    (beginBatch options offset).Ok options ∧
      (beginBatch options offset).written options = offset * frameSize options ∧
      (beginBatch options offset).read options = offset * frameSize options := by
  have positive := frameSize_pos options
  unfold beginBatch
  split_ifs with inside
  · simp [Client.Ok, Client.written, Client.read, inside, batch_pos options inside, positive]
  · obtain rfl : offset = options.total := by omega
    simp [Client.Ok, Client.written, Client.read]

theorem nextRequest_spec {offset j : Nat} (inside : offset < options.total)
    (early : j < options.batch offset) :
    (nextRequest options offset j).Ok options ∧
      (nextRequest options offset j).written options =
        (offset + j) * frameSize options + frameSize options ∧
      (nextRequest options offset j).read options = offset * frameSize options := by
  have positive := frameSize_pos options
  unfold nextRequest
  split_ifs with more
  · refine ⟨⟨inside, more, positive, Nat.le_refl _⟩, ?_, rfl⟩
    rw [Client.written, Nat.sub_self, Nat.add_zero, ← Nat.add_assoc, Nat.succ_mul]
  · obtain last : options.batch offset = j + 1 := by omega
    refine ⟨⟨inside, batch_pos options inside, positive⟩, ?_, by simp [Client.read]⟩
    rw [Client.written, last, ← Nat.add_assoc, Nat.succ_mul]

theorem nextResponse_spec {offset j : Nat} (inside : offset < options.total)
    (early : j < options.batch offset) :
    (nextResponse options offset j).Ok options ∧
      (nextResponse options offset j).written options =
        (offset + options.batch offset) * frameSize options ∧
      (nextResponse options offset j).read options =
        (offset + j) * frameSize options + frameSize options := by
  have positive := frameSize_pos options
  unfold nextResponse
  split_ifs with more
  · refine ⟨⟨inside, more, positive⟩, rfl, ?_⟩
    rw [Client.read, Nat.add_zero, ← Nat.add_assoc, Nat.succ_mul]
  · obtain last : options.batch offset = j + 1 := by omega
    have within := batch_le options offset
    obtain ⟨ok, written, read⟩ := beginBatch_spec options
      (show offset + options.batch offset ≤ options.total by omega)
    refine ⟨ok, written, ?_⟩
    rw [read, last, ← Nat.add_assoc, Nat.succ_mul]

theorem flow_start : Flow options capacity (start options) := by
  obtain ⟨ok, written, read⟩ := beginBatch_spec options (Nat.zero_le options.total)
  exact ⟨ok, frameSize_pos options, by simp [start, written, Server.read],
    by simp [start, read, Server.written], Nat.zero_le _, Nat.zero_le _⟩

/-- The bytes moved so far, by both parties. -/
def State.moved (state : State) : Nat :=
  state.client.written options + state.client.read options +
    (state.server.read options + state.server.written options)

def Action.bytes : Action → Nat
  | .clientSend n => n
  | .clientRecv n => n
  | .serverRecv n => n
  | .serverSend n => n

theorem want_le {got : Nat} (short : got < frameSize options) :
    want options got ≤ frameSize options - got := by
  unfold want
  simp only [frameSize] at short ⊢
  split_ifs <;> omega

theorem want_pos {got : Nat} (short : got < frameSize options) : 0 < want options got := by
  unfold want
  simp only [frameSize] at short ⊢
  split_ifs <;> omega

/-! ## One move -/

/-- The client has written some bytes more. -/
theorem Flow.client_wrote {state : State} (flow : Flow options capacity state) {client : Client}
    {n : Nat} (ok : client.Ok options)
    (written : client.written options = state.client.written options + n)
    (read : client.read options = state.client.read options) (room : state.up + n ≤ capacity.up) :
    Flow options capacity { state with client, up := state.up + n } ∧
      State.moved options { state with client, up := state.up + n } = state.moved options + n := by
  have up := flow.up
  refine ⟨⟨ok, flow.server, ?_, ?_, room, flow.down_le⟩, ?_⟩
  · simp only [written]
    omega
  · simp only [read]
    exact flow.down
  · simp only [State.moved, written, read]
    omega

/-- The client has read some bytes more. -/
theorem Flow.client_read {state : State} (flow : Flow options capacity state) {client : Client}
    {n : Nat} (ok : client.Ok options)
    (written : client.written options = state.client.written options)
    (read : client.read options = state.client.read options + n) (there : n ≤ state.down) :
    Flow options capacity { state with client, down := state.down - n } ∧
      State.moved options { state with client, down := state.down - n } =
        state.moved options + n := by
  have down := flow.down
  have bound := flow.down_le
  refine ⟨⟨ok, flow.server, ?_, ?_, flow.up_le, ?_⟩, ?_⟩
  · simp only [written]
    exact flow.up
  · simp only [read]
    omega
  · simp only
    omega
  · simp only [State.moved, written, read]
    omega

/-- The server has read some bytes more. -/
theorem Flow.server_read {state : State} (flow : Flow options capacity state) {server : Server}
    {n : Nat} (ok : server.Ok options)
    (read : server.read options = state.server.read options + n)
    (written : server.written options = state.server.written options) (there : n ≤ state.up) :
    Flow options capacity { state with server, up := state.up - n } ∧
      State.moved options { state with server, up := state.up - n } = state.moved options + n := by
  have up := flow.up
  have bound := flow.up_le
  refine ⟨⟨flow.client, ok, ?_, ?_, ?_, flow.down_le⟩, ?_⟩
  · simp only [read]
    omega
  · simp only [written]
    exact flow.down
  · simp only
    omega
  · simp only [State.moved, written, read]
    omega

/-- The server has written some bytes more. -/
theorem Flow.server_wrote {state : State} (flow : Flow options capacity state) {server : Server}
    {n : Nat} (ok : server.Ok options) (read : server.read options = state.server.read options)
    (written : server.written options = state.server.written options + n)
    (room : state.down + n ≤ capacity.down) :
    Flow options capacity { state with server, down := state.down + n } ∧
      State.moved options { state with server, down := state.down + n } =
        state.moved options + n := by
  have down := flow.down
  refine ⟨⟨flow.client, ok, ?_, ?_, flow.up_le, room⟩, ?_⟩
  · simp only [read]
    exact flow.up
  · simp only [written]
    omega
  · simp only [State.moved, written, read]
    omega

theorem clientSend_flow {state next : State} {n : Nat} (flow : Flow options capacity state)
    (taken : step options capacity state (.clientSend n) = some next) :
    Flow options capacity next ∧ 0 < n ∧ next.moved options = state.moved options + n := by
  have ok := flow.client
  have wrote (client : Client) := @Flow.client_wrote _ _ _ flow client n
  simp only [step] at taken
  split at taken
  next offset j left here =>
    rw [here] at ok wrote
    obtain ⟨inside, early, positive, fits⟩ := ok
    obtain ⟨nextOk, written, read⟩ := nextRequest_spec options inside early
    split_ifs at taken with moves last
    · obtain rfl := Option.some.inj taken
      obtain ⟨kept, more⟩ := wrote _ nextOk (by rw [written, Client.written]; omega) read moves.2.2
      exact ⟨kept, moves.1, more⟩
    · obtain rfl := Option.some.inj taken
      obtain ⟨kept, more⟩ := wrote (.sending offset j (left - n))
        ⟨inside, early, by omega, by omega⟩ (by simp only [Client.written]; omega) rfl moves.2.2
      exact ⟨kept, moves.1, more⟩
  next => cases taken

theorem clientRecv_flow {state next : State} {n : Nat} (flow : Flow options capacity state)
    (taken : step options capacity state (.clientRecv n) = some next) :
    Flow options capacity next ∧ 0 < n ∧ next.moved options = state.moved options + n := by
  have ok := flow.client
  have readMore (client : Client) := @Flow.client_read _ _ _ flow client n
  simp only [step] at taken
  split at taken
  next offset j got here =>
    rw [here] at ok readMore
    obtain ⟨inside, early, short⟩ := ok
    obtain ⟨nextOk, written, read⟩ := nextResponse_spec options inside early
    have bound := want_le options short
    split_ifs at taken with moves last
    · obtain rfl := Option.some.inj taken
      obtain ⟨kept, more⟩ := readMore _ nextOk written (by rw [read, Client.read]; omega)
        moves.2.2
      exact ⟨kept, moves.1, more⟩
    · obtain rfl := Option.some.inj taken
      obtain ⟨kept, more⟩ := readMore (.reading offset j (got + n))
        ⟨inside, early, by omega⟩ rfl (by simp only [Client.read]; omega) moves.2.2
      exact ⟨kept, moves.1, more⟩
  next => cases taken

theorem serverRecv_flow {state next : State} {n : Nat} (flow : Flow options capacity state)
    (taken : step options capacity state (.serverRecv n) = some next) :
    Flow options capacity next ∧ 0 < n ∧ next.moved options = state.moved options + n := by
  have positive := frameSize_pos options
  have ok := flow.server
  have readMore (server : Server) := @Flow.server_read _ _ _ flow server n
  simp only [step] at taken
  split at taken
  next answered got here =>
    rw [here] at ok readMore
    simp only [Server.Ok] at ok
    have bound := want_le options ok
    split_ifs at taken with moves last
    · obtain rfl := Option.some.inj taken
      obtain ⟨kept, more⟩ := readMore (.writing answered (frameSize options))
        ⟨positive, Nat.le_refl _⟩ (by simp only [Server.read]; omega)
        (by simp only [Server.written]; omega) moves.2.2
      exact ⟨kept, moves.1, more⟩
    · obtain rfl := Option.some.inj taken
      obtain ⟨kept, more⟩ := readMore (.reading answered (got + n))
        (by simp only [Server.Ok]; omega) (by simp only [Server.read]; omega) rfl moves.2.2
      exact ⟨kept, moves.1, more⟩
  next => cases taken

theorem serverSend_flow {state next : State} {n : Nat} (flow : Flow options capacity state)
    (taken : step options capacity state (.serverSend n) = some next) :
    Flow options capacity next ∧ 0 < n ∧ next.moved options = state.moved options + n := by
  have positive := frameSize_pos options
  have ok := flow.server
  have wrote (server : Server) := @Flow.server_wrote _ _ _ flow server n
  simp only [step] at taken
  split at taken
  next answered left here =>
    rw [here] at ok wrote
    obtain ⟨some, fits⟩ := ok
    split_ifs at taken with moves last
    · obtain rfl := Option.some.inj taken
      obtain ⟨kept, more⟩ := wrote (.reading (answered + 1) 0) positive
        (by simp only [Server.read, Nat.succ_mul]; omega)
        (by simp only [Server.written, Nat.succ_mul]; omega) moves.2.2
      exact ⟨kept, moves.1, more⟩
    · obtain rfl := Option.some.inj taken
      obtain ⟨kept, more⟩ := wrote (.writing answered (left - n)) ⟨by omega, by omega⟩ rfl
        (by simp only [Server.written]; omega) moves.2.2
      exact ⟨kept, moves.1, more⟩
  next => cases taken

theorem step_flow {state next : State} {action : Action} (flow : Flow options capacity state)
    (taken : step options capacity state action = some next) :
    Flow options capacity next ∧ 0 < action.bytes ∧
      next.moved options = state.moved options + action.bytes := by
  cases action with
  | clientSend n => exact clientSend_flow options capacity flow taken
  | clientRecv n => exact clientRecv_flow options capacity flow taken
  | serverRecv n => exact serverRecv_flow options capacity flow taken
  | serverSend n => exact serverSend_flow options capacity flow taken

/-! ## Runs end -/

theorem Client.written_le {client : Client} (ok : client.Ok options) :
    client.written options ≤ options.total * frameSize options := by
  cases client with
  | sending offset j left =>
      obtain ⟨inside, early, -, fits⟩ := ok
      have within := batch_le options offset
      calc (offset + j) * frameSize options + (frameSize options - left)
          ≤ (offset + j) * frameSize options + frameSize options :=
            Nat.add_le_add_left (Nat.sub_le ..) _
        _ = (offset + j + 1) * frameSize options := (Nat.succ_mul ..).symm
        _ ≤ options.total * frameSize options := Nat.mul_le_mul_right _ (by omega)
  | reading offset j got =>
      have within := batch_le options offset
      exact Nat.mul_le_mul_right _ (by have inside := ok.1; omega)
  | done => exact Nat.le_refl _

theorem Server.written_le_read (server : Server) :
    server.written options ≤ server.read options := by
  cases server with
  | reading answered got => exact Nat.le_add_right ..
  | writing answered left => exact Nat.add_le_add_left (Nat.sub_le ..) _

theorem moved_le {state : State} (flow : Flow options capacity state) :
    state.moved options ≤ 4 * (options.total * frameSize options) := by
  have bound := Client.written_le options flow.client
  have order := Server.written_le_read options state.server
  have up := flow.up
  have down := flow.down
  simp only [State.moved]
  omega

/-- The bytes that are still to be moved bound the moves of a run. -/
theorem step_bounds : Bounds (step options capacity) (fun _ => true) fun work state =>
    Flow options capacity state ∧
      state.moved options + work = 4 * (options.total * frameSize options) where
  kept := by
    rintro work state action next ⟨flow, left⟩ taken
    obtain ⟨kept, positive, moved⟩ := step_flow options capacity flow taken
    have bound := moved_le options capacity kept
    refine ⟨4 * (options.total * frameSize options) - next.moved options, ?_, kept, by omega⟩
    simp only [if_true]
    omega

theorem run_flow {schedule : List Action} {final : State}
    (ran : runPartial (step options capacity) (start options) schedule = some final) :
    Flow options capacity final ∧
      schedule.length ≤ 4 * (options.total * frameSize options) := by
  have first := flow_start options capacity
  have bound := moved_le options capacity first
  have begun : Flow options capacity (start options) ∧ (start options).moved options +
      (4 * (options.total * frameSize options) - (start options).moved options) =
        4 * (options.total * frameSize options) := ⟨first, by omega⟩
  obtain ⟨less, count, flow, -⟩ := (step_bounds options capacity).run schedule begun ran
  rw [List.countP_true] at count
  exact ⟨flow, by omega⟩

/-! ## Where a run can end -/

/-- Both parties are in a `send` and the buffers of both directions are full. -/
def Blocked (state : State) : Prop :=
  (∃ offset j left, state.client = .sending offset j left) ∧
    (∃ answered left, state.server = .writing answered left) ∧
    state.up = capacity.up ∧ state.down = capacity.down

/-- Nobody can move only when the client is done or both parties are blocked in `send`. -/
theorem done_or_blocked {state : State} (flow : Flow options capacity state)
    (stuck : ∀ action, step options capacity state action = none) :
    state.client = .done ∨ Blocked capacity state := by
  obtain ⟨client, server, up, down⟩ := state
  obtain ⟨clientOk, serverOk, upFlow, downFlow, upLe, downLe⟩ := flow
  have upPos := capacity.up_pos
  have downPos := capacity.down_pos
  have send := stuck (.clientSend 1)
  have recv := stuck (.clientRecv 1)
  have serverRecv := stuck (.serverRecv 1)
  have serverSend := stuck (.serverSend 1)
  simp only [step] at send recv serverRecv serverSend clientOk serverOk upFlow downFlow upLe downLe
  cases client with
  | done => exact Or.inl rfl
  | sending offset j left =>
      simp only [ite_eq_right_iff, reduceCtorEq, imp_false] at send
      have full : up = capacity.up := by
        have positive := clientOk.2.2.1
        omega
      cases server with
      | reading answered got =>
          simp only [ite_eq_right_iff, reduceCtorEq, imp_false] at serverRecv
          have wanted := want_pos options serverOk
          omega
      | writing answered rest =>
          simp only [ite_eq_right_iff, reduceCtorEq, imp_false] at serverSend
          have positive := serverOk.1
          exact Or.inr ⟨⟨offset, j, left, rfl⟩, ⟨answered, rest, rfl⟩, full, by simp only; omega⟩
  | reading offset j got =>
      simp only [ite_eq_right_iff, reduceCtorEq, imp_false] at recv
      obtain ⟨inside, early, short⟩ := clientOk
      have wanted := want_pos options short
      cases server with
      | writing answered rest =>
          simp only [ite_eq_right_iff, reduceCtorEq, imp_false] at serverSend
          have positive := serverOk.1
          omega
      | reading answered rest =>
          simp only [ite_eq_right_iff, reduceCtorEq, imp_false] at serverRecv
          have wantedToo := want_pos options serverOk
          -- Nothing is on its way, so the server has answered the whole batch.
          have later : (offset + j + 1) * frameSize options ≤
              (offset + options.batch offset) * frameSize options :=
            Nat.mul_le_mul_right _ (by omega)
          rw [Nat.succ_mul] at later
          simp only [Client.written, Client.read, Server.read, Server.written,
            Server.Ok] at upFlow downFlow serverOk
          have few : answered < offset + j + 1 := by
            refine Nat.lt_of_mul_lt_mul_right (a := frameSize options) ?_
            rw [Nat.succ_mul]
            omega
          have whole := Nat.mul_le_mul_right (frameSize options) (Nat.le_of_lt_succ few)
          omega

/-- The exact bound: what the buffers and the server take before anything is read covers the
largest batch. -/
def Fits : Prop :=
  min options.window options.total * frameSize options ≤
    (capacity.down / frameSize options + 1) * frameSize options + capacity.up

instance : Decidable (Fits options capacity) := inferInstanceAs (Decidable (_ ≤ _))

theorem blocked_not_fits {state : State} (flow : Flow options capacity state)
    (blocked : Blocked capacity state) : ¬ Fits options capacity := by
  obtain ⟨client, server, up, down⟩ := state
  obtain ⟨⟨offset, j, left, rfl⟩, ⟨answered, rest, rfl⟩, rfl, rfl⟩ := blocked
  obtain ⟨⟨inside, early, positive, fits⟩, ⟨some, -⟩, upFlow, downFlow, -, -⟩ := flow
  simp only [Client.written, Client.read, Server.read, Server.written] at upFlow downFlow
  have whole := Nat.div_mul_le_self capacity.down (frameSize options)
  have served : offset + capacity.down / frameSize options < answered + 1 := by
    refine Nat.lt_of_mul_lt_mul_right (a := frameSize options) ?_
    rw [Nat.add_mul, Nat.succ_mul]
    omega
  have taken := Nat.mul_le_mul_right (frameSize options) (Nat.succ_le_of_lt served)
  have sent := Nat.mul_le_mul_right (frameSize options) (Nat.succ_le_of_lt early)
  have batch : options.batch offset ≤ min options.window options.total := by
    simp only [Options.batch]
    omega
  have largest := Nat.mul_le_mul_right (frameSize options) batch
  simp only [Nat.succ_mul, Nat.add_mul] at taken sent upFlow
  simp only [Fits, Nat.succ_mul]
  omega

/-- The frames that the server can have taken before its answers are read. -/
theorem Server.read_le {server : Server} (ok : server.Ok options) {room : Nat}
    (written : server.written options ≤ room) :
    server.read options ≤ (room / frameSize options + 1) * frameSize options := by
  have positive := frameSize_pos options
  cases server with
  | reading answered got =>
      have answeredLe := (Nat.le_div_iff_mul_le positive).mpr written
      have frames := Nat.mul_le_mul_right (frameSize options) answeredLe
      simp only [Server.Ok, Server.read, Nat.succ_mul] at ok ⊢
      omega
  | writing answered left =>
      have answeredLe := (Nat.le_div_iff_mul_le positive).mpr
        (Nat.le_trans (Nat.le_add_right ..) written)
      have frames := Nat.mul_le_mul_right (frameSize options) answeredLe
      simp only [Server.read, Nat.succ_mul]
      omega

/-- Beyond the bound the client stays in its first batch of requests. -/
theorem step_first_batch (large : ¬ Fits options capacity) {state next : State} {action : Action}
    (flow : Flow options capacity state)
    (first : ∃ j left, state.client = .sending 0 j left)
    (taken : step options capacity state action = some next) :
    ∃ j left, next.client = .sending 0 j left := by
  obtain ⟨j, left, here⟩ := first
  obtain ⟨kept, -⟩ := step_flow options capacity flow taken
  cases action with
  | clientSend n =>
      simp only [step, here] at taken
      split_ifs at taken with moves last
      · obtain rfl := Option.some.inj taken
        by_cases more : j + 1 < options.batch 0
        · exact ⟨j + 1, frameSize options, by simp only [nextRequest, if_pos more]⟩
        · -- The batch would be sent, but it does not fit.
          have up := kept.up
          have down := kept.down
          have upLe := kept.up_le
          have downLe := kept.down_le
          have size : options.batch 0 = min options.window options.total := rfl
          have sent : nextRequest options 0 j = .reading 0 0 0 := if_neg more
          simp only [sent, Client.written, Client.read, Nat.zero_add, Nat.zero_mul, size] at up down
          simp only at up down upLe downLe
          have served := Server.read_le options kept.server
            (show state.server.written options ≤ capacity.down by omega)
          simp only [Fits] at large
          simp only at served
          omega
      · obtain rfl := Option.some.inj taken
        exact ⟨j, left - n, rfl⟩
  | clientRecv n => simp only [step, here, reduceCtorEq] at taken
  | serverRecv n =>
      simp only [step] at taken
      split at taken
      next =>
        split_ifs at taken
        all_goals
          obtain rfl := Option.some.inj taken
          exact ⟨j, left, here⟩
      next => cases taken
  | serverSend n =>
      simp only [step] at taken
      split at taken
      next =>
        split_ifs at taken
        all_goals
          obtain rfl := Option.some.inj taken
          exact ⟨j, left, here⟩
      next => cases taken

theorem run_first_batch (large : ¬ Fits options capacity) {schedule : List Action} {final : State}
    (ran : runPartial (step options capacity) (start options) schedule = some final) :
    ∃ j left, final.client = .sending 0 j left := by
  have count := options.count_range
  have nonempty : 0 < options.total := by
    simp only [Options.total]
    omega
  have begun : ∃ j left, (start options).client = .sending 0 j left :=
    ⟨0, frameSize options, by rw [start, beginBatch, if_pos nonempty]⟩
  exact (@runPartial_keeps State Action (step options capacity) (fun _ _ => True)
    (fun state => Flow options capacity state ∧ ∃ j left, state.client = .sending 0 j left)
    (fun both _ taken => ⟨(step_flow options capacity both.1 taken).1,
      step_first_batch options capacity large both.1 both.2 taken⟩)
    _ _ schedule ⟨flow_start options capacity, begun⟩ (admitsPartial_true ..) ran).2

/-- A client that is done has every answer, and nothing is left on the way. -/
theorem done_drained {state : State} (flow : Flow options capacity state)
    (done : state.client = .done) :
    state = ⟨.done, .reading options.total 0, 0, 0⟩ := by
  obtain ⟨client, server, up, down⟩ := state
  obtain rfl : client = .done := done
  have order := Server.written_le_read options server
  obtain ⟨-, serverOk, upFlow, downFlow, -, -⟩ := flow
  have positive := frameSize_pos options
  simp only [Client.written, Client.read] at upFlow downFlow
  cases server with
  | reading answered got =>
      simp only [Server.read, Server.written] at upFlow downFlow order
      have all : answered * frameSize options = options.total * frameSize options := by omega
      obtain rfl := Nat.eq_of_mul_eq_mul_right positive all
      simp only [State.mk.injEq, Server.reading.injEq, true_and]
      omega
  | writing answered left =>
      obtain ⟨some, fits⟩ := serverOk
      simp only [Server.read, Server.written] at upFlow downFlow
      omega

/-- Every run of the benchmark over bounded buffers ends.  When the bound covers the largest batch,
it ends with every request answered; beyond it every run ends in the first batch, with both
parties blocked in `send`. -/
theorem bench_deadlock_iff (schedule : List Action) (final : State)
    (ran : runPartial (step options capacity) (start options) schedule = some final) :
    schedule.length ≤ 4 * (options.total * frameSize options) ∧
    ((∀ action, step options capacity final action = none) →
      if Fits options capacity then final = ⟨.done, .reading options.total 0, 0, 0⟩
      else Blocked capacity final ∧ ∃ j left, final.client = .sending 0 j left) := by
  obtain ⟨flow, bound⟩ := run_flow options capacity ran
  refine ⟨bound, fun stuck => ?_⟩
  rcases done_or_blocked options capacity flow stuck with done | blocked
  · split_ifs with fits
    · exact done_drained options capacity flow done
    · obtain ⟨j, left, sending⟩ := run_first_batch options capacity fits ran
      rw [done] at sending
      cases sending
  · have large := blocked_not_fits options capacity flow blocked
    rw [if_neg large]
    exact ⟨blocked, run_first_batch options capacity large ran⟩

/-- The default window is safe with any buffers. -/
theorem fits_of_window_one (one : options.window = 1) : Fits options capacity := by
  have least := Nat.mul_le_mul_right (frameSize options) (Nat.min_le_left 1 options.total)
  simp only [Fits, one, Nat.succ_mul, Nat.zero_mul] at least ⊢
  omega

/-- Two requests of 20 bytes over buffers of one byte each block each other after 22 moves. -/
theorem bench_deadlock_two_requests :
    let options : Options := ⟨2, 0, 2, 0, by decide, by decide, by decide, by decide⟩
    let capacity : Capacity := ⟨1, 1, by decide, by decide⟩
    let schedule := (List.range 20).flatMap (fun _ => [.clientSend 1, .serverRecv 1]) ++
      [.clientSend 1, .serverSend 1]
    ∃ final, runPartial (step options capacity) (start options) schedule = some final ∧
      schedule.length ≤ 160 ∧ Blocked capacity final := by
  intro options capacity schedule
  refine ⟨⟨.sending 0 1 19, .writing 0 19, 1, 1⟩, by decide, ?_⟩
  have ends := bench_deadlock_iff options capacity schedule ⟨.sending 0 1 19, .writing 0 19, 1, 1⟩
    (by decide)
  refine ⟨ends.1, ?_⟩
  have blocked := ends.2 (by
    intro action
    cases action <;> simp [step, capacity] <;> omega)
  rw [if_neg (by decide)] at blocked
  exact blocked.1

end EmbeddedRuntime.Transport.Backpressure
