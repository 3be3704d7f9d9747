import EmbeddedRuntime.Lib.Machine
import EmbeddedRuntime.Nver.Replay
import EmbeddedRuntime.Nver.StatsReply

/-!
# `network-verification-lab/python/traffic_lab.py` against the datapath

The generator sends a transaction for each sequence number, and beside it corrupted
copies and replays from a second socket, which nobody waits for.  These datagrams are
on their way for as long as they like: each of them reaches the datapath at any later
moment, or is lost.  A transaction is one step, since the generator waits for its
answer; it can end in a timeout, whether the request was processed or not.
-/

set_option autoImplicit false

namespace EmbeddedRuntime.Nver.TrafficLab

open EmbeddedRuntime.Lib.ByteOrder
open EmbeddedRuntime.Lib.Crc
open EmbeddedRuntime.Lib.Machine
open EmbeddedRuntime.Lib.SerialNumber
open EmbeddedRuntime.Nver.Process
open EmbeddedRuntime.Nver.Replay
open EmbeddedRuntime.Nver.PythonPacket
open EmbeddedRuntime.Nver.StatsReply

/-- The options that `main` accepts. -/
structure Args where
  count : Nat
  corruptEvery : Nat
  replayEvery : Nat
  count_pos : 1 ≤ count

/-- What ends the run without a report. -/
inductive Failure where
  | python (error : PyError)
  | timeout
  | keyError
  | mismatch (seq : Nat)
  | notConverged (observed : List (String × Nat))
  deriving DecidableEq, Repr

structure Report where
  framesVerified : Nat
  crcFaultsInjected : Nat
  replaysInjected : Nat
  counters : List (String × Nat)
  pass : Bool
  deriving DecidableEq, Repr

/-- Where `main` is: at the head of the loop body for a sequence number, at its transaction, in
the loop that polls the counters, or at an end. -/
inductive Phase where
  | sending (seq : Nat)
  | asking (seq : Nat)
  | polling
  | reported (report : Report)
  | raised (failure : Failure)
  deriving DecidableEq, Repr

/-- Which fault a datagram of the second socket is; the network does not see this. -/
inductive Fault where
  | corrupt
  | replay
  deriving DecidableEq, Repr

structure State where
  phase : Phase
  accepted : Nat
  injectedCrc : Nat
  injectedReplay : Nat
  flight : List (Fault × List UInt8)
  dp : Datapath

/-- `answer late` is a transaction that is answered, after the deadline of the polling loop or
before; `timeout` one that is not; `deliver` and `lose` are about one datagram on its way. -/
inductive Action where
  | send
  | answer (late : Bool)
  | timeout (processed : Bool)
  | deliver (index : Nat)
  | lose (index : Nat)
  deriving DecidableEq, Repr

/-- Nothing is lost and no time runs out. -/
def Action.Smooth : Action → Prop
  | .send => True
  | .answer late => late = false
  | .timeout _ => False
  | .deliver _ => True
  | .lose _ => False

section Model
variable (zlibCrc32 : List UInt8 → Nat) (args : Args)

def payloadOf (seq : Nat) : List UInt8 :=
  asciiBytes ("network-traffic-" ++ toString seq ++ ":" ++ String.ofList (List.replicate 64 'x'))

def packet (seq : Nat) : Packet :=
  { kind := number .data, session := 10, sequence := seq, payload := payloadOf seq }

/-- `if every and seq % every == 0`. -/
def Due (every seq : Nat) : Prop := every ≠ 0 ∧ seq % every = 0

instance (every seq : Nat) : Decidable (Due every seq) := inferInstanceAs (Decidable (_ ∧ _))

/-- `bad[-1] ^= 0x80`. -/
def spoil (wire : List UInt8) : List UInt8 :=
  wire.set (wire.length - 1) (wire.getD (wire.length - 1) 0 ^^^ 0x80)

def State.raise (state : State) (failure : Failure) : State :=
  { state with phase := .raised failure }

/-- The loop body up to the transaction. -/
def sendStep (state : State) (seq : Nat) : State :=
  if Due args.corruptEvery seq then
    match (packet seq).encode zlibCrc32 with
    | .error error => state.raise (.python error)
    | .ok wire =>
        { state with
          phase := .asking seq
          flight := state.flight ++ [(.corrupt, spoil wire)]
          injectedCrc := state.injectedCrc + 1 }
  else { state with phase := .asking seq }

/-- The loop body after the transaction. -/
def verified (state : State) (seq : Nat) (wire : List UInt8) : State :=
  let phase := if seq < args.count then Phase.sending (seq + 1) else .polling
  if Due args.replayEvery seq then
    { state with
      phase
      accepted := state.accepted + 1
      flight := state.flight ++ [(.replay, wire)]
      injectedReplay := state.injectedReplay + 1 }
  else { state with phase, accepted := state.accepted + 1 }

/-- The transaction of a sequence number, when it is answered. -/
def askStep (state : State) (seq : Nat) : Option State :=
  match (packet seq).encode zlibCrc32 with
  | .error error => some (state.raise (.python error))
  | .ok wire =>
      let (response, dp) := process state.dp wire
      let state := { state with dp }
      if response = [] then none
      else
        match decode zlibCrc32 response with
        | .error error => some (state.raise (.python error))
        | .ok reply =>
            if reply.kind ≠ number .ack ∨ reply.sequence ≠ seq ∨ reply.payload ≠ payloadOf seq then
              some (state.raise (.mismatch seq))
            else some (verified args state seq wire)

/-- The report over the observed counters. -/
def report (state : State) (observed : List (String × Nat)) : Report where
  framesVerified := state.accepted
  crcFaultsInjected := state.injectedCrc
  replaysInjected := state.injectedReplay
  counters := observed
  pass := observed.lookup "accepted" = some state.accepted ∧
    observed.lookup "crc_errors" = some state.injectedCrc ∧
    observed.lookup "replay_errors" = some state.injectedReplay

/-- One round of the polling loop, when its request is answered. -/
def pollStep (request : Packet) (state : State) (late : Bool) : Option State :=
  match request.encode zlibCrc32 with
  | .error error => some (state.raise (.python error))
  | .ok wire =>
      let (response, dp) := process state.dp wire
      let state := { state with dp }
      if response = [] then none
      else
        match stats zlibCrc32 response with
        | .error error => some (state.raise (.python error))
        | .ok none => some (state.raise .keyError)
        | .ok (some observed) =>
            match observed.lookup "crc_errors", observed.lookup "replay_errors" with
            | some crc, some replay =>
                if state.injectedCrc ≤ crc ∧ state.injectedReplay ≤ replay then
                  some { state with phase := .reported (report state observed) }
                else if late then some (state.raise (.notConverged observed))
                else some state
            | _, _ => some (state.raise .keyError)

/-- `Packet(kind=STATS_REQUEST, session=0, sequence=0)`. -/
def statsPacket : Packet := packetOf .statsRequest 0 0 []

/-- The request that the generator is waiting for. -/
def requestOf : Phase → Option Packet
  | .asking seq => some (packet seq)
  | .polling => some statsPacket
  | _ => none

/-- No response within the timeout. -/
def timeoutStep (state : State) (processed : Bool) : Option State :=
  match requestOf state.phase with
  | none => none
  | some request =>
      match request.encode zlibCrc32 with
      | .error error => some (state.raise (.python error))
      | .ok wire =>
          let dp := if processed then (process state.dp wire).2 else state.dp
          some { state with phase := .raised .timeout, dp }

def step (state : State) : Action → Option State
  | .send =>
      match state.phase with
      | .sending seq => some (sendStep zlibCrc32 args state seq)
      | _ => none
  | .answer late =>
      match state.phase with
      | .asking seq => askStep zlibCrc32 args state seq
      | .polling => pollStep zlibCrc32 statsPacket state late
      | _ => none
  | .timeout processed => timeoutStep zlibCrc32 state processed
  | .deliver index =>
      match state.flight[index]? with
      | none => none
      | some (_, bytes) =>
          some { state with
            flight := state.flight.eraseIdx index
            dp := (process state.dp bytes).2 }
  | .lose index =>
      if index < state.flight.length then
        some { state with flight := state.flight.eraseIdx index }
      else none

/-- A datapath that was just started, and the first sequence number. -/
def start : State := ⟨.sending 1, 0, 0, 0, [], {}⟩

end Model

/-! ## The datagrams of the generator -/

theorem length_payloadOf {seq : Nat} (small : seq ≤ 2 ^ 31) :
    (payloadOf seq).length ≤ 100 := by
  have digits : (Nat.toDigits 10 seq).length ≤ 10 := by
    rw [Nat.length_toDigits_le_iff (by decide) (by decide)]
    omega
  have opening : "network-traffic-".toList.length = 16 := by decide
  have colon : ":".toList.length = 1 := by decide
  rw [payloadOf, asciiBytes, List.length_map]
  simp only [String.toList_append, List.length_append, toList_number, String.toList_ofList,
    List.length_replicate, opening, colon]
  omega

theorem payloadOf_small {seq : Nat} (small : seq ≤ 2 ^ 31) :
    (payloadOf seq).length ≤ maxPayload :=
  Nat.le_trans (length_payloadOf small) (by decide)

theorem payloadOf_pos (seq : Nat) : 0 < (payloadOf seq).length := by
  have colon : ":".toList.length = 1 := by decide
  rw [payloadOf, asciiBytes, List.length_map]
  simp only [String.toList_append, List.length_append, colon]
  omega

/-- The wire form of a transaction. -/
def wireOf (seq : Nat) : List UInt8 := encode .data 10 (UInt32.ofNat seq) (payloadOf seq)

theorem packet_encode {zlibCrc32 : List UInt8 → Nat}
    (isIeee : ∀ data, zlibCrc32 data = (ieee data).toNat) {seq : Nat} (small : seq ≤ 2 ^ 31) :
    (packet seq).encode zlibCrc32 = .ok (wireOf seq) := by
  have fits : (UInt32.ofNat seq).toNat = seq :=
    UInt32.toNat_ofNat_of_lt' (by simp only [UInt32.size]; omega)
  have same : packet seq = packetOf .data 10 (UInt32.ofNat seq) (payloadOf seq) := by
    rw [packetOf, fits]
    rfl
  rw [same]
  exact packetOf_encode isIeee .data 10 _ _ (payloadOf_small small)

theorem header_wireOf (seq : Nat) : header (wireOf seq) =
    { kind := Kind.data.code, flags := 0, session := 10, sequence := UInt32.ofNat seq,
      length := UInt16.ofNat (payloadOf seq).length, reserved := 0 } :=
  header_encode ..

theorem isData_wireOf {seq : Nat} (small : seq ≤ 2 ^ 31) : IsData (wireOf seq) :=
  ⟨wellFormed_encode .data 10 _ _ (payloadOf_small small), by rw [header_wireOf]⟩

/-! ## What the datapath makes of them -/

/-- A datagram whose fields are right and whose checksum is not. -/
theorem process_badCrc (dp : Datapath) (kind : Kind) (session sequence crc : UInt32)
    (payload other : List UInt8) (short : payload.length ≤ maxPayload)
    (same : other.length = payload.length)
    (bad : ieee (headOf kind session sequence payload ++ other) ≠ crc) :
    process dp (headOf kind session sequence payload ++ be32 crc ++ other) =
      dp.received.reject .crc := by
  generalize wire_eq : headOf kind session sequence payload ++ be32 crc ++ other = wire
  have size : wire.length = headerBytes + payload.length := by
    rw [← wire_eq, List.length_append, List.length_append, length_headOf, length_be32, same]
    rfl
  have magicOk : u32 wire 0 = magic := by
    rw [← wire_eq]
    exact ofBe32_be32 magic
  have versionOk : wire.getD 4 0 = version := by
    rw [← wire_eq]
    rfl
  have flagsOk : (header wire).flags = 0 := by
    rw [← wire_eq]
    exact ofBe16_be16 0
  have reservedOk : (header wire).reserved = 0 := by
    rw [← wire_eq]
    exact ofBe16_be16 0
  have lengthOk : (header wire).length.toNat = payload.length := by
    rw [← toNat_length short, ← wire_eq]
    exact congrArg UInt16.toNat (ofBe16_be16 _)
  have crcOk : u32 wire 20 = crc := by
    rw [← wire_eq]
    exact ofBe32_be32 crc
  have covered : wire.take 20 ++ wire.drop headerBytes =
      headOf kind session sequence payload ++ other := by
    have head : wire.take 20 = headOf kind session sequence payload := by
      rw [← wire_eq, List.append_assoc]
      exact List.take_left' (length_headOf ..)
    have rest : wire.drop headerBytes = other := by
      rw [← wire_eq]
      apply List.drop_left'
      simp only [List.length_append, length_headOf, length_be32, headerBytes]
    rw [head, rest]
  have differs : checksum wire (header wire).length ≠ u32 wire 20 := by
    rw [checksum_eq_ieee wire _ (by rw [size, lengthOk]), covered, crcOk]
    exact bad
  unfold process
  simp only
  have fields : ¬ (u32 wire 0 ≠ magic ∨ wire.getD 4 0 ≠ version ∨ (header wire).flags ≠ 0 ∨
      (header wire).reserved ≠ 0) := by
    simp only [magicOk, versionOk, flagsOk, reservedOk, ne_eq, not_true, or_self, not_false_eq_true]
  rw [if_neg (by omega), if_neg fields, if_neg (by rw [lengthOk]; omega), if_pos differs]

/-- A spoilt copy is counted as a CRC error. -/
theorem process_spoil (dp : Datapath) {seq : Nat} (small : seq ≤ 2 ^ 31) :
    process dp (spoil (wireOf seq)) = dp.received.reject .crc := by
  have positive := payloadOf_pos seq
  generalize payload_eq : payloadOf seq = payload at positive
  have short : payload.length ≤ maxPayload := payload_eq ▸ payloadOf_small small
  have inside : payload.length - 1 < payload.length := by omega
  have wire : wireOf seq = (headOf .data 10 (UInt32.ofNat seq) payload ++
      be32 (ieee (headOf .data 10 (UInt32.ofNat seq) payload ++ payload))) ++ payload := by
    rw [wireOf, encode_eq, payload_eq]
  have front : (headOf .data 10 (UInt32.ofNat seq) payload ++
      be32 (ieee (headOf .data 10 (UInt32.ofNat seq) payload ++ payload))).length = 24 := by
    rw [List.length_append, length_headOf, length_be32]
  have last : (wireOf seq).length - 1 = 24 + (payload.length - 1) := by
    rw [wire, List.length_append, front]
    omega
  have spoilt : spoil (wireOf seq) = (headOf .data 10 (UInt32.ofNat seq) payload ++
      be32 (ieee (headOf .data 10 (UInt32.ofNat seq) payload ++ payload))) ++
        payload.set (payload.length - 1) (payload.getD (payload.length - 1) 0 ^^^ 0x80) := by
    rw [spoil, last, wire, List.set_append_right _ _ (by omega),
      List.getD_append_right _ _ _ _ (by omega), front, Nat.add_sub_cancel_left]
  rw [spoilt]
  refine process_badCrc dp .data 10 (UInt32.ofNat seq) _ payload _ short List.length_set ?_
  have moved : (headOf .data 10 (UInt32.ofNat seq) payload ++ payload).set (20 + (payload.length - 1))
      (payload.getD (payload.length - 1) 0 ^^^ 0x80) =
        headOf .data 10 (UInt32.ofNat seq) payload ++
          payload.set (payload.length - 1) (payload.getD (payload.length - 1) 0 ^^^ 0x80) := by
    rw [List.set_append_right _ _ (by rw [length_headOf]; omega), length_headOf,
      Nat.add_sub_cancel_left]
  rw [← moved]
  have flipped (byte : UInt8) : byte ≠ byte ^^^ 0x80 := by
    intro same
    have bits := congrArg (fun b : UInt8 => b.toBitVec.getLsbD 7) same
    simp at bits
  refine ieee_set (by rw [List.length_append, length_headOf]; omega) ?_
  rw [List.getElem_append_right (by rw [length_headOf]; omega),
    List.getD_eq_getElem _ _ inside]
  simp only [length_headOf, Nat.add_sub_cancel_left]
  exact flipped _

/-- The session table while the generator has had some transactions accepted. -/
def tableOf : Nat → SessionTable
  | 0 => ∅
  | accepted + 1 => (∅ : SessionTable).insert 10 (UInt32.ofNat (accepted + 1))

theorem insert_tableOf (accepted : Nat) (next : UInt32) :
    (tableOf accepted).insert 10 next = (∅ : SessionTable).insert 10 next := by
  cases accepted with
  | zero => rfl
  | succ accepted => exact AList.insert_insert _

theorem length_tableOf (accepted : Nat) : (tableOf accepted).entries.length ≤ 1 := by
  cases accepted with
  | zero => exact Nat.zero_le _
  | succ accepted => exact Nat.le_refl _

/-- The next sequence number is accepted. -/
theorem process_next (dp : Datapath) {accepted : Nat} (table : dp.lastSeq = tableOf accepted)
    (small : accepted + 1 ≤ 2 ^ 31) :
    process dp (wireOf (accepted + 1)) =
      (encode .ack 10 (UInt32.ofNat (accepted + 1)) (payloadOf (accepted + 1)),
        { counts :=
            { dp.received.counts with
              accepted := dp.counts.accepted + 1
              bytesAccepted := dp.counts.bytesAccepted +
                UInt64.ofNat (payloadOf (accepted + 1)).length }
          lastSeq := tableOf (accepted + 1) }) := by
  have isData := isData_wireOf small
  have room : Room dp.lastSeq (header (wireOf (accepted + 1))) := by
    refine Or.inr fun full => ?_
    have few := length_tableOf accepted
    rw [← table, full] at few
    simp [maxSessions] at few
  have fresh : Fresh dp.lastSeq (header (wireOf (accepted + 1))) := by
    intro last known
    rw [header_wireOf] at known ⊢
    rw [table] at known
    cases accepted with
    | zero => cases known
    | succ accepted =>
        rw [tableOf, AList.lookup_insert] at known
        obtain rfl := Option.some.inj known
        have ahead : UInt32.ofNat (accepted + 1 + 1) - UInt32.ofNat (accepted + 1) = 1 := by
          rw [UInt32.ofNat_add (accepted + 1) 1]
          grind
        simp only [ahead]
        decide
  have verdict := process_verdict dp (wireOf (accepted + 1))
  generalize process dp (wireOf (accepted + 1)) = result at verdict ⊢
  cases verdict with
  | accepted =>
      have payload : (wireOf (accepted + 1)).drop headerBytes = payloadOf (accepted + 1) :=
        drop_encode ..
      have length : (UInt16.ofNat (payloadOf (accepted + 1)).length).toUInt64 =
          UInt64.ofNat (payloadOf (accepted + 1)).length := by
        apply UInt64.toNat_inj.mp
        have short := length_payloadOf small
        rw [UInt16.toNat_toUInt64, UInt16.toNat_ofNat_of_lt' (by simp only [UInt16.size]; omega),
          UInt64.toNat_ofNat_of_lt' (by simp only [UInt64.size]; omega)]
      simp only [header_wireOf, payload, length, table, insert_tableOf]
      rfl
  | malformed _ bad => exact absurd isData.toWellFormed bad
  | full _ none => exact absurd room none
  | replay _ _ stale => exact absurd fresh stale
  | stats isStats => exact absurd isStats (not_request_of_data isData (by decide))
  | reset isReset => exact absurd isReset (not_request_of_data isData (by decide))
  | unknown _ notData => exact absurd isData notData

/-- A sequence number that was accepted before is a replay. -/
theorem process_again (dp : Datapath) {accepted seq : Nat} (table : dp.lastSeq = tableOf accepted)
    (small : accepted ≤ 2 ^ 31) (old : seq ≤ accepted) (positive : 1 ≤ seq) :
    process dp (wireOf seq) = dp.received.reject .replay := by
  obtain ⟨before, rfl⟩ : ∃ before, accepted = before + 1 := ⟨accepted - 1, by omega⟩
  have known : dp.lastSeq.lookup (header (wireOf seq)).session =
      some (UInt32.ofNat (before + 1)) := by
    rw [header_wireOf, table, tableOf, AList.lookup_insert]
  refine process_replayed (isData_wireOf (by omega)) known ?_
  rintro ⟨moved, ahead⟩
  rw [header_wireOf] at moved ahead
  have distance := UInt32.toNat_sub (UInt32.ofNat seq) (UInt32.ofNat (before + 1))
  have seqValue : (UInt32.ofNat seq).toNat = seq :=
    UInt32.toNat_ofNat_of_lt' (by simp only [UInt32.size]; omega)
  have lastValue : (UInt32.ofNat (before + 1)).toNat = before + 1 :=
    UInt32.toNat_ofNat_of_lt' (by simp only [UInt32.size]; omega)
  have half : (0x80000000 : UInt32).toNat = 2 ^ 31 := rfl
  rw [UInt32.lt_iff_toNat_lt, half] at ahead
  have apart : (UInt32.ofNat seq - UInt32.ofNat (before + 1)).toNat ≠ 0 := fun zero =>
    moved (UInt32.toNat_inj.mp zero)
  simp only at ahead apart
  omega

end EmbeddedRuntime.Nver.TrafficLab
