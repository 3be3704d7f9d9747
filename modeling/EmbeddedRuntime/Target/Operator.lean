import EmbeddedRuntime.Target.StatusReading

/-!
# What an operator is told by `mlrt target`

An operator runs one command after the other against a target that has started.
What the target will answer depends on a `Ledger` of the commands so far, apart
from the values the workers change; of those the status response reports what
the context held at successive moments of the request.
-/

set_option autoImplicit false

namespace EmbeddedRuntime.Target.Operator

open EmbeddedRuntime.Lib.ByteOrder
open EmbeddedRuntime.Lib.Machine
open EmbeddedRuntime.Protocol.Packet
open EmbeddedRuntime.Protocol.PacketCodec
open EmbeddedRuntime.Protocol.Stream
open EmbeddedRuntime.Realtime.RingBuffer
open EmbeddedRuntime.Target.Client
open EmbeddedRuntime.Target.Context
open EmbeddedRuntime.Target.Handler
open EmbeddedRuntime.Target.Model
open EmbeddedRuntime.Target.Requests
open EmbeddedRuntime.Target.Server
open EmbeddedRuntime.Target.Session
open EmbeddedRuntime.Target.StatusReading
open EmbeddedRuntime.Target.Steps

/-! ## The operator's view -/

/-- The rate last set, and the frames rejected since the last reset. -/
structure Ledger where
  rateHz : UInt16
  crcErrors : UInt64
  deriving DecidableEq, Repr

def Ledger.boot : Ledger := ⟨100, 0⟩

def Ledger.after (ledger : Ledger) : Command → Ledger
  | .setRate rate => { ledger with rateHz := rate }
  | .corruptCrc => { ledger with crcErrors := ledger.crcErrors + 1 }
  | .reset => { ledger with crcErrors := 0 }
  | .status | .freezeWorker | .fwInfo => ledger

/-- The command that reaches a target listening on a path, if one does. -/
def reaches (listening : Bytes) (args : List Bytes) : Option Command :=
  match commandLine args with
  | .exits _ => none
  | .runs path command => if path.length < sunPath ∧ path = listening then some command else none

def Ledger.heard (listening : Bytes) (ledger : Ledger) (invocation : Invocation) : Ledger :=
  match reaches listening invocation.args with
  | some command => ledger.after command
  | none => ledger

def Ledger.run (listening : Bytes) (history : List Invocation) : Ledger :=
  history.foldl (Ledger.heard listening) .boot

/-- The number a 32-bit field of the status response shows. -/
def shown (value : Nat) : UInt32 := UInt32.ofNat (min value (2 ^ 32 - 1))

/-- A status made of values the context held at successive moments. -/
def Snapshot (ledger : Ledger) (before after : World) (status : Status) : Prop :=
  ∃ clock queue state produced processed recoveries : World,
    List.IsChain Precedes [before, clock, queue, state, produced, processed, recoveries, after] ∧
    before.ctx.startedNs ≤ clock.clock ∧
    status =
      { state := state.ctx.state.code
        rateHz := ledger.rateHz
        uptimeMs := shown ((clock.clock.toNat - before.ctx.startedNs.toNat) / 1000000)
        produced := shown produced.ctx.produced.toNat
        processed := shown processed.ctx.processed.toNat
        dropped := shown (mlrtRingGetStats queue.ctx.queue).dropped.toNat
        crcErrors := shown ledger.crcErrors.toNat
        watchdogRecoveries := shown recoveries.ctx.watchdogRecoveries.toNat }

/-- What a command that reaches the target ends with. -/
def Told (ledger : Ledger) (before after : World) (result : Finished) : Command → Prop
  | .status => ∃ status, Snapshot ledger before after status ∧
      result = ⟨0, asciiBytes status.text, []⟩
  | .setRate rate => result =
      ⟨0, asciiBytes ("Target acknowledged rate_hz=" ++ toString rate.toNat ++ "\n"), []⟩
  | .freezeWorker => result =
      ⟨0, asciiBytes "Target accepted fault injection: freeze-worker\n", []⟩
  | .corruptCrc => result =
      ⟨0, asciiBytes "Injected protocol fault: corrupted CRC frame sent\n", []⟩
  | .reset => result = ⟨0, asciiBytes "Target reset acknowledged\n", []⟩
  | .fwInfo => result =
      ⟨0, asciiBytes ("Firmware info: target-sim/1.0 arch=" ++ before.arch.name ++ "\n"), []⟩

/-- Every call on the connection gets on. -/
structure Delivered (invocation : Invocation) : Prop where
  clientReads : Delivers invocation.clientReads
  clientWrites : Delivers invocation.clientWrites
  serverReads : Delivers invocation.serverReads
  serverWrites : Delivers invocation.serverWrites

/-! ## One connection -/

/-- A packet in the current version with zeros behind its payload. -/
theorem received_self {packet : MlrtPacket} (version : packet.version = protoVersion)
    (zeros : ∀ index : Fin 512, packet.length.toNat ≤ index.val → packet.payload.get index = 0) :
    received packet = packet := by
  have payload : (received packet).payload = packet.payload := by
    refine Vector.ext fun index inside => ?_
    have asGet : ∀ bytes : Vector UInt8 512, bytes[index] = bytes.get ⟨index, inside⟩ :=
      fun _ => rfl
    rw [asGet, asGet, received_payload]
    split_ifs with early
    · rfl
    · exact (zeros ⟨index, inside⟩ (Nat.le_of_not_lt early)).symm
  have shape : received packet =
      { packet with version := protoVersion, payload := (received packet).payload } := rfl
  rw [shape, payload, ← version]

/-- Zeros stay where nothing is put. -/
theorem get_putBytes_zero (bytes : List UInt8) (index : Fin 512) (behind : bytes.length ≤ index.val) :
    (putBytes MlrtPacket.zero.payload 0 bytes).get index = 0 := by
  rw [← getD_payload _ index.isLt, getD_putBytes _ _ _ index.isLt, if_neg (by omega),
    getD_payload _ index.isLt]
  simp [MlrtPacket.zero, Vector.get]

theorem received_request (command : Command) : received command.request = command.request := by
  cases command with
  | status | corruptCrc | reset | fwInfo =>
      exact received_self rfl fun index _ => by
        simp [Command.request, request, MlrtPacket.zero, Vector.get]
  | setRate rate => exact received_self rfl fun index behind => get_putBytes_zero _ index behind
  | freezeWorker => exact received_self rfl fun index behind => get_putBytes_zero _ index behind

theorem sendable_request (command : Command) : Sendable command.request := by
  cases command with
  | setRate rate => exact ⟨(by decide : 2 ≤ protoMaxPayload), Or.inr rfl⟩
  | status | freezeWorker | corruptCrc | reset | fwInfo => exact ⟨by decide, Or.inr rfl⟩

theorem decodes_request (command : Command) :
    Decodes (frameOf command.request) command.request := by
  have decoded := mlrtPacketDecode_frameOf command.request .zero (sendable_request command)
  rw [received_request] at decoded
  exact decoded

/-- The server handles the one request, answers it and sees the end of the
stream. -/
theorem serveSent_request {world : World} (serving : world.main = .serving) (command : Command)
    {invocation : Invocation} (delivered : Delivered invocation) :
    ∃ served, serveSent world (frameOf command.request) invocation = some served ∧
      served.world = (handleRequest world command.request invocation.turns).1 ∧
      served.socket.outgoing =
        frameOf (handleRequest world command.request invocation.turns).1.rsp := by
  have decodes := decodes_request command
  have positive := decodes_length decodes
  obtain ⟨count, more⟩ : ∃ count, (frameOf command.request).length = count + 1 :=
    ⟨(frameOf command.request).length - 1, by omega⟩
  have responded := handleRequest_responds world command.request invocation.turns serving
  obtain ⟨after, readEq, took⟩ := mlrtPacketReadFd_receive
    ⟨frameOf command.request, [], invocation.serverReads, invocation.serverWrites, []⟩ .zero
    delivered.serverReads
  have whole := receive_decodes decodes []
  rw [List.append_nil] at whole
  simp only [whole] at readEq took
  obtain ⟨writes, -, writeEq⟩ := mlrtPacketWriteFd_delivers after
    (handleRequest world command.request invocation.turns).1.rsp responded.addressed.lengthLe
    (by rw [took.writes]; exact delivered.serverWrites)
  have left : after.incoming = [] := by
    rw [took.incoming]
    exact List.drop_length
  obtain ⟨last, endEq, tookEnd⟩ := mlrtPacketReadFd_receive
    { after with
      outgoing := after.outgoing ++
        frameOf (handleRequest world command.request invocation.turns).1.rsp, writes }
    .zero took.reads
  have ended : receive ([] : List UInt8) .zero = (.eof, .zero, 0) := rfl
  simp only [left, ended] at endEq tookEnd
  unfold serveSent
  rw [more]
  simp only [serveClient, readEq, writeEq, left, endEq, Option.map_some]
  refine ⟨_, rfl, rfl, ?_⟩
  rw [tookEnd.outgoing, took.outgoing]
  rfl

/-- The client concludes from the response the server has made. -/
theorem transactWith_request {world : World} (serving : world.main = .serving) (command : Command)
    {invocation : Invocation} (delivered : Delivered invocation) :
    transactWith world command.request invocation =
      some (conclude command.request .ok
          (received (handleRequest world command.request invocation.turns).1.rsp),
        (handleRequest world command.request invocation.turns).1) := by
  obtain ⟨served, servedEq, worldEq, outgoing⟩ := serveSent_request serving command delivered
  have responded := handleRequest_responds world command.request invocation.turns serving
  obtain ⟨writes, -, writeEq⟩ := mlrtPacketWriteFd_delivers
    ⟨[], [], [], invocation.clientWrites, []⟩ command.request (sendable_request command).lengthLe
    delivered.clientWrites
  have sendable : Sendable (handleRequest world command.request invocation.turns).1.rsp :=
    ⟨responded.addressed.lengthLe, Or.inr responded.addressed.version⟩
  have decodes : Decodes (frameOf (handleRequest world command.request invocation.turns).1.rsp)
      (received (handleRequest world command.request invocation.turns).1.rsp) :=
    mlrtPacketDecode_frameOf _ .zero sendable
  obtain ⟨after, readEq, -⟩ := mlrtPacketReadFd_receive
    ⟨served.socket.outgoing, [], invocation.clientReads, [], []⟩ .zero delivered.clientReads
  have whole := receive_decodes decodes []
  rw [List.append_nil, ← outgoing] at whole
  simp only [whole] at readEq
  unfold transactWith
  simp only [writeEq, List.nil_append, servedEq, Option.map_some, readEq, worldEq]

/-! ## The commands -/

/-- The target stands where the ledger says, and serves. -/
structure Agrees (arch : Arch) (ledger : Ledger) (world : World) : Prop where
  serving : world.main = .serving
  arch : world.arch = arch
  rate : world.ctx.sampleRateHz = ledger.rateHz.toUInt32
  crcErrors : world.ctx.crcErrors = ledger.crcErrors
  started : StartedBefore world

/-- After any request but CONFIG_SET. -/
theorem agrees_request {arch : Arch} {ledger next : Ledger} {world : World}
    (agrees : Agrees arch ledger world) (req : MlrtPacket) (turns : List Turn)
    (rate : (handleRequest world req turns).1.ctx.sampleRateHz = next.rateHz.toUInt32)
    (reset : req.type = msgReset → next.crcErrors = 0)
    (other : req.type ≠ msgReset → next.crcErrors = ledger.crcErrors) :
    Agrees arch next (handleRequest world req turns).1 := by
  have responded := handleRequest_responds world req turns agrees.serving
  refine ⟨responded.serving, (arch_precedes responded.reached).trans agrees.arch, rate, ?_,
    startedBefore_precedes agrees.started responded.reached⟩
  by_cases isReset : req.type = msgReset
  · rw [responded.crcErrors.1 isReset, reset isReset]
  · rw [responded.crcErrors.2 isReset, other isReset, agrees.crcErrors]

theorem clampU64U32_shown (value : UInt64) : clampU64U32 value = shown value.toNat := by
  unfold clampU64U32 shown
  split_ifs with large
  · have above : 2 ^ 32 - 1 ≤ value.toNat := by
      have bound : 4294967295 < value.toNat := UInt64.lt_iff_toNat_lt.mp large
      omega
    rw [Nat.min_eq_right above]
    rfl
  · have below : value.toNat ≤ 2 ^ 32 - 1 := by
      rw [gt_iff_lt, UInt64.lt_iff_toNat_lt] at large
      exact Nat.le_of_not_lt large
    rw [Nat.min_eq_left below]
    apply UInt32.toNat_inj.mp
    rw [UInt64.toNat_toUInt32, UInt32.toNat_ofNat']

theorem uptime_shown {started clock : UInt64} (before : started ≤ clock) :
    clampU64U32 ((clock - started) / nsPerMs) =
      shown ((clock.toNat - started.toNat) / 1000000) := by
  rw [clampU64U32_shown, UInt64.toNat_div, UInt64.toNat_sub_of_le _ _ before]
  rfl

theorem told_status {arch : Arch} {ledger : Ledger} {world : World}
    (agrees : Agrees arch ledger world) (turns : List Turn) :
    Agrees arch ledger (handleRequest world Command.status.request turns).1 ∧
      Told ledger world (handleRequest world Command.status.request turns).1
        (conclude Command.status.request .ok
          (received (handleRequest world Command.status.request turns).1.rsp)) .status := by
  have goes : handlePacket world.arch Command.status.request =
      .goes (.status ⟨response Command.status.request msgStatusRsp 27, 0, 0⟩ .uptime) := rfl
  obtain ⟨-, rate⟩ := request_goes agrees.serving goes (by rintro rate ⟨⟩) turns
  have after := agrees_request agrees Command.status.request turns (rate.trans agrees.rate)
    (by rintro ⟨⟩) (fun _ => rfl)
  refine ⟨after, ?_⟩
  obtain ⟨clock, queue, state, produced, processed, recoveries, chain, held, -, -, rsp⟩ :=
    status_request { world with main := .handling Command.status.request _ }
      Command.status.request turns rfl
  have early : world.ctx.startedNs ≤ clock.clock := UInt64.le_trans agrees.started.started held.clock
  rw [handleRequest_goes agrees.serving goes]
  refine ⟨_, ⟨clock, queue, state, produced, processed, recoveries, ?_, early, rfl⟩, ?_⟩
  · cases chain with
    | cons_cons first rest =>
        exact .cons_cons (precedes_trans (precedes_request agrees.serving goes) first) rest
  · have shownRate : world.ctx.sampleRateHz.toUInt16 = ledger.rateHz := by
      rw [agrees.rate, UInt16.toUInt16_toUInt32]
    rw [rsp, conclude_status]
    simp only [uptime_shown early, shownRate, agrees.crcErrors, clampU64U32_shown]

theorem setRate_goes (arch : Arch) {rate : UInt16} (positive : 1 ≤ rate.toNat)
    (bounded : rate.toNat ≤ 1000) :
    handlePacket arch (Command.setRate rate).request = .goes (.configSet rate) := by
  have read : ofBe16 (Command.setRate rate).request.payload[0]
      (Command.setRate rate).request.payload[1] = rate :=
    (ofBe16_payload _ (by omega) (by omega)).trans (getU16Be_putBytes rate (by omega))
  have nonzero : rate ≠ 0 := by
    rintro rfl
    exact absurd positive (by decide)
  have below : ¬ rate > 1000 := by
    rw [gt_iff_lt, UInt16.lt_iff_toNat_lt]
    exact Nat.not_lt.mpr bounded
  have type : (Command.setRate rate).request.type = msgConfigSet := rfl
  have length : (Command.setRate rate).request.length = 2 := rfl
  unfold handlePacket
  rw [if_neg (by rw [type]; decide), if_pos type, if_neg (not_not.mpr length)]
  simp only [read]
  rw [if_neg (not_or.mpr ⟨nonzero, below⟩)]

/-- CONFIG_SET makes one access, the store of the rate. -/
theorem setRate_request {world : World} (serving : world.main = .serving) {rate : UInt16}
    (positive : 1 ≤ rate.toNat) (bounded : rate.toNat ≤ 1000) (turns : List Turn) :
    (handleRequest world (Command.setRate rate).request turns).1.ctx.sampleRateHz =
        rate.toUInt32 ∧
      (handleRequest world (Command.setRate rate).request turns).1.rsp =
        configAck (Command.setRate rate).request rate := by
  have goes := setRate_goes world.arch positive bounded
  rw [handleRequest_goes serving goes]
  have handling : (World.mk world.arch world.ctx world.clock world.sensor world.processing
      world.watchdog (.handling (Command.setRate rate).request (.configSet rate)) world.rsp
      world.events).main = .handling (Command.setRate rate).request (.configSet rate) := rfl
  generalize World.mk world.arch world.ctx world.clock world.sensor world.processing world.watchdog
    (.handling (Command.setRate rate).request (.configSet rate)) world.rsp world.events = here
    at handling ⊢
  have there : (takeTurn here turns).1.main =
      .handling (Command.setRate rate).request (.configSet rate) :=
    (takeTurn_untouched here turns).1.main.trans handling
  have stepped := mainStep_handling (takeTurn here turns).1 (takeTurn here turns).2.1 true _ _ there
  have unfolded : handleAccesses here turns maxAccesses =
      handleAccesses (mainStep (takeTurn here turns).1 (takeTurn here turns).2.1 true)
        (takeTurn here turns).2.2 12 := by
    rw [show maxAccesses = 12 + 1 from rfl]
    simp only [handleAccesses, handling]
    rfl
  rw [unfolded, handleAccesses_serving _ _ _ (by rw [stepped]; rfl), stepped]
  exact ⟨rfl, rfl⟩

theorem told_setRate {arch : Arch} {ledger : Ledger} {world : World}
    (agrees : Agrees arch ledger world) {rate : UInt16} (positive : 1 ≤ rate.toNat)
    (bounded : rate.toNat ≤ 1000) (turns : List Turn) :
    Agrees arch (ledger.after (.setRate rate))
        (handleRequest world (Command.setRate rate).request turns).1 ∧
      Told ledger world (handleRequest world (Command.setRate rate).request turns).1
        (conclude (Command.setRate rate).request .ok
          (received (handleRequest world (Command.setRate rate).request turns).1.rsp))
        (.setRate rate) := by
  obtain ⟨stored, rsp⟩ := setRate_request agrees.serving positive bounded turns
  refine ⟨agrees_request agrees _ turns stored (by rintro ⟨⟩) (fun _ => rfl), ?_⟩
  rw [rsp]
  have acknowledged : getU16Be (received (configAck (Command.setRate rate).request rate)).payload.toList
      0 = rate := by
    have length : (configAck (Command.setRate rate).request rate).length.toNat = 2 := rfl
    rw [getU16Be_received (by omega) (by rw [length]; decide)]
    exact getU16Be_putBytes rate (by omega)
  generalize sent : configAck (Command.setRate rate).request rate = ack at acknowledged ⊢
  have type : (received ack).type = msgConfigAck := by rw [← sent]; rfl
  have length : (received ack).length = 2 := by rw [← sent]; rfl
  show conclude _ _ _ = _
  rw [conclude, if_neg (not_not.mpr rfl), if_neg (by rw [type]; decide), report,
    if_neg (by rw [type]; decide), if_pos type, if_pos ⟨rfl, length⟩, acknowledged]

theorem freezeWorker_goes (arch : Arch) :
    handlePacket arch Command.freezeWorker.request = .goes .injectClock := by
  have first : Command.freezeWorker.request.payload[0] = 1 := by
    rw [show Command.freezeWorker.request.payload[0] =
      Command.freezeWorker.request.payload.get ⟨0, by omega⟩ from rfl, ← getD_payload]
    exact getD_putBytes _ 0 [1] (by omega)
  have type : Command.freezeWorker.request.type = msgFaultInject := rfl
  have length : Command.freezeWorker.request.length = 1 := rfl
  unfold handlePacket
  rw [if_neg (by rw [type]; decide), if_neg (by rw [type]; decide), if_pos type,
    if_neg (by simp [first, length])]

theorem told_freezeWorker {arch : Arch} {ledger : Ledger} {world : World}
    (agrees : Agrees arch ledger world) (turns : List Turn) :
    Agrees arch ledger (handleRequest world Command.freezeWorker.request turns).1 ∧
      Told ledger world (handleRequest world Command.freezeWorker.request turns).1
        (conclude Command.freezeWorker.request .ok
          (received (handleRequest world Command.freezeWorker.request turns).1.rsp))
        .freezeWorker := by
  obtain ⟨answer, rate⟩ := request_goes agrees.serving (freezeWorker_goes world.arch)
    (by rintro rate ⟨⟩) turns
  refine ⟨agrees_request agrees _ turns (rate.trans agrees.rate) (by rintro ⟨⟩) (fun _ => rfl), ?_⟩
  generalize (handleRequest world Command.freezeWorker.request turns).1.rsp = rsp at answer ⊢
  have type : (received rsp).type = msgConfigAck := (Option.some.inj answer.type).symm
  show conclude _ _ _ = _
  rw [conclude, if_neg (not_not.mpr rfl), if_neg (by rw [type]; decide), report,
    if_neg (by rw [type]; decide), if_pos type, if_neg (by rintro ⟨⟨⟩, -⟩)]

theorem told_reset {arch : Arch} {ledger : Ledger} {world : World}
    (agrees : Agrees arch ledger world) (turns : List Turn) :
    Agrees arch (ledger.after .reset) (handleRequest world Command.reset.request turns).1 ∧
      Told ledger world (handleRequest world Command.reset.request turns).1
        (conclude Command.reset.request .ok
          (received (handleRequest world Command.reset.request turns).1.rsp)) .reset := by
  obtain ⟨answer, rate⟩ := request_goes agrees.serving
    (handlePacket_reset world.arch Command.reset.request rfl) (by rintro rate ⟨⟩) turns
  refine ⟨agrees_request agrees _ turns (rate.trans agrees.rate) (fun _ => rfl)
    (fun other => absurd rfl other), ?_⟩
  generalize (handleRequest world Command.reset.request turns).1.rsp = rsp at answer ⊢
  have type : (received rsp).type = msgResetAck := (Option.some.inj answer.type).symm
  show conclude _ _ _ = _
  rw [conclude, if_neg (not_not.mpr rfl), if_neg (by rw [type]; decide), report,
    if_neg (by rw [type]; decide), if_neg (by rw [type]; decide), if_pos type]

/-- A text put at the front of a payload is printed whole. -/
theorem payloadText_putBytes (req : MlrtPacket) (type : UInt8) (bytes : List UInt8)
    (fits : bytes.length ≤ 512) (noNul : ∀ byte ∈ bytes, byte ≠ 0) :
    payloadText (received { response req type (UInt16.ofNat bytes.length) with
      payload := putBytes MlrtPacket.zero.payload 0 bytes }) = bytes := by
  have length : (UInt16.ofNat bytes.length).toNat = bytes.length :=
    UInt16.toNat_ofNat_of_lt' (by have : UInt16.size = 65536 := rfl; omega)
  generalize packet : ({ response req type (UInt16.ofNat bytes.length) with
    payload := putBytes MlrtPacket.zero.payload 0 bytes } : MlrtPacket) = rsp
  have lengthEq : rsp.length.toNat = bytes.length := by rw [← packet]; exact length
  have front : (received rsp).payload.toList.take bytes.length = bytes := by
    apply List.ext_getElem
    · simpa using fits
    · intro index inside within
      have early : index < rsp.length.toNat := by rw [lengthEq]; exact within
      rw [List.getElem_take, ← List.getD_eq_getElem _ 0, getD_received early (by
          rw [lengthEq]; exact fits), ← packet, getD_putBytes _ _ _ (by omega),
        if_pos (by omega), Nat.sub_zero, List.getD_eq_getElem]
  unfold payloadText
  rw [show (received rsp).length.toNat = bytes.length from lengthEq, front]
  exact List.takeWhile_eq_self_iff.mpr fun byte here => by simpa using noNul byte here

def fwText (arch : Arch) : List UInt8 := asciiBytes ("target-sim/1.0 arch=" ++ arch.name)

theorem fwText_fits (arch : Arch) : (fwText arch).length ≤ protoMaxPayload - 1 := by
  cases arch <;> decide

theorem fwText_noNul (arch : Arch) : ∀ byte ∈ fwText arch, byte ≠ 0 := by
  have checked : ((fwText arch).all fun byte => byte != 0) = true := by
    cases arch <;> decide
  simpa only [List.all_eq_true, bne_iff_ne] using checked

/-- The text is shorter than the array, so `snprintf` has not cut it. -/
theorem fwInfo_whole (arch : Arch) (req : MlrtPacket) :
    fwInfo arch req = { response req msgFwInfoRsp (UInt16.ofNat (fwText arch).length) with
      payload := putBytes MlrtPacket.zero.payload 0 (fwText arch) } := by
  have fits := fwText_fits arch
  have short : ¬ (fwText arch).length > protoMaxPayload := by omega
  show ({ response req msgFwInfoRsp (UInt16.ofNat (if (fwText arch).length > protoMaxPayload then
      protoMaxPayload else (fwText arch).length)) with
    payload := putBytes MlrtPacket.zero.payload 0 ((fwText arch).take (protoMaxPayload - 1)) } :
      MlrtPacket) = _
  rw [if_neg short, List.take_of_length_le fits]

theorem told_fwInfo {arch : Arch} {ledger : Ledger} {world : World}
    (agrees : Agrees arch ledger world) (turns : List Turn) :
    Agrees arch ledger (handleRequest world Command.fwInfo.request turns).1 ∧
      Told ledger world (handleRequest world Command.fwInfo.request turns).1
        (conclude Command.fwInfo.request .ok
          (received (handleRequest world Command.fwInfo.request turns).1.rsp)) .fwInfo := by
  have answers : handlePacket world.arch Command.fwInfo.request =
      .answers (fwInfo world.arch Command.fwInfo.request) := rfl
  have handled : (handleRequest world Command.fwInfo.request turns).1 =
      world.handled Command.fwInfo.request
        (.answers (fwInfo world.arch Command.fwInfo.request)) := by
    unfold handleRequest
    simp only [step, requestStep, agrees.serving, mlrtTargetHandlePacket, answers]
    rw [handleAccesses_serving _ _ _ rfl]
  refine ⟨agrees_request agrees _ turns ?_ (by rintro ⟨⟩) (fun _ => rfl), ?_⟩
  · rw [handled]
    exact agrees.rate
  · have text : payloadText (received (fwInfo world.arch Command.fwInfo.request)) =
        fwText world.arch := by
      rw [fwInfo_whole]
      exact payloadText_putBytes _ _ _
        (Nat.le_trans (fwText_fits world.arch) (Nat.sub_le ..)) (fwText_noNul world.arch)
    have printed : asciiBytes "Firmware info: " ++ fwText world.arch ++ asciiBytes "\n" =
        asciiBytes ("Firmware info: target-sim/1.0 arch=" ++ world.arch.name ++ "\n") := by
      cases world.arch <;> decide
    rw [handled]
    show conclude _ .ok (received (fwInfo world.arch Command.fwInfo.request)) = _
    generalize sent : fwInfo world.arch Command.fwInfo.request = rsp at text ⊢
    have type : (received rsp).type = msgFwInfoRsp := by rw [← sent]; rfl
    rw [conclude, if_neg (not_not.mpr rfl), if_neg (by rw [type]; decide), report,
      if_neg (by rw [type]; decide), if_neg (by rw [type]; decide), if_neg (by rw [type]; decide),
      if_pos type, text, printed]

/-! ## The injected CRC error -/

theorem corruptFrame_eq : corruptFrame =
    some [165, 90, 1, 3, 0, 0, 0, 0, 11, 173, 253, 86, 126, 151] := by
  decide +kernel

theorem corruptFrame_ecrc :
    (mlrtPacketDecode (some [165, 90, 1, 3, 0, 0, 0, 0, 11, 173, 253, 86, 126, 151])
      (some .zero)).1 = .ecrc := by
  decide +kernel

/-- The server counts the frame and answers nothing. -/
theorem sendCorruptCrc_rejected (world : World) {invocation : Invocation}
    (delivered : Delivered invocation) :
    sendCorruptCrc world invocation =
      some (⟨0, asciiBytes "Injected protocol fault: corrupted CRC frame sent\n", []⟩,
        step (takeTurn world invocation.turns).1 .rejectCrc) := by
  have ecrc := corruptFrame_ecrc
  unfold sendCorruptCrc
  rw [corruptFrame_eq]
  generalize ([165, 90, 1, 3, 0, 0, 0, 0, 11, 173, 253, 86, 126, 151] : List UInt8) = frame
    at ecrc ⊢
  obtain ⟨writes, -, writeEq⟩ := writeLoop_delivers invocation.clientWrites
    delivered.clientWrites frame ⟨[], [], [], invocation.clientWrites, []⟩
  have whole := receive_framed (framed_of_status (Or.inr ecrc)) [] .zero
  rw [List.append_nil, ecrc] at whole
  obtain ⟨after, readEq, -⟩ := mlrtPacketReadFd_receive
    ⟨frame, [], invocation.serverReads, invocation.serverWrites, []⟩ .zero delivered.serverReads
  simp only [whole] at readEq
  simp only [writeAll, writeEq, List.nil_append, serveSent, serveClient, readEq, Option.map_some,
    if_true]

theorem agrees_corruptCrc {arch : Arch} {ledger : Ledger} {world : World}
    (agrees : Agrees arch ledger world) (turns : List Turn) :
    Agrees arch (ledger.after .corruptCrc) (step (takeTurn world turns).1 .rejectCrc) := by
  have held := takeTurn_held world turns
  have serving : (takeTurn world turns).1.main = .serving :=
    (takeTurn_untouched world turns).1.main.trans agrees.serving
  have started := startedBefore_step _ .rejectCrc
    (startedBefore_precedes agrees.started held.precedes) trivial
  have stepped : step (takeTurn world turns).1 .rejectCrc =
      { (takeTurn world turns).1 with
        ctx := { (takeTurn world turns).1.ctx with
          crcErrors := (takeTurn world turns).1.ctx.crcErrors + 1 } } := by
    simp only [step, rejectCrc, serving]
  rw [stepped] at started ⊢
  refine ⟨serving, held.arch.trans agrees.arch, held.rate.trans agrees.rate, ?_, started⟩
  show (takeTurn world turns).1.ctx.crcErrors + 1 = ledger.crcErrors + 1
  rw [held.crcErrors, agrees.crcErrors]

/-! ## Any history of commands -/

theorem commandLine_setRate {args : List Bytes} {path : Bytes} {rate : UInt16}
    (runs : commandLine args = .runs path (.setRate rate)) :
    1 ≤ rate.toNat ∧ rate.toNat ≤ 1000 := by
  have word : UInt16.size = 65536 := rfl
  rcases args with _ | ⟨command, _ | ⟨text, rest⟩⟩
  · cases runs
  · simp only [commandLine] at runs
    split_ifs at runs <;> cases runs
  · simp only [commandLine] at runs
    split_ifs at runs with _ _ outside
    all_goals cases runs
    obtain ⟨-, inside⟩ := not_or.mp outside
    obtain ⟨above, below⟩ := not_or.mp inside
    rw [UInt16.toNat_ofNat_of_lt' (by omega)]
    omega

/-- What the process of a command line ends with, and where it leaves the
target. -/
def Answered (listening : Bytes) (ledger : Ledger) (world : World) (args : List Bytes)
    (result : Finished) (after : World) : Prop :=
  match commandLine args, reaches listening args with
  | .exits early, _ => result = early ∧ after = world
  | .runs _ _, none => result = ⟨1, [], []⟩ ∧ after = world
  | .runs _ _, some command => Told ledger world after result command

/-- One process, whatever it was asked for. -/
theorem invoke_answered {arch : Arch} {ledger : Ledger} {world : World} (listening : Bytes)
    (agrees : Agrees arch ledger world) {invocation : Invocation}
    (delivered : Delivered invocation) :
    ∃ result after, invoke listening world invocation = some (result, after) ∧
      Answered listening ledger world invocation.args result after ∧
      Agrees arch (ledger.heard listening invocation) after := by
  unfold invoke Answered Ledger.heard reaches
  cases line : commandLine invocation.args with
  | exits early => exact ⟨early, world, rfl, ⟨rfl, rfl⟩, agrees⟩
  | runs path command =>
      by_cases here : path.length < sunPath ∧ path = listening
      · have connects : ¬ (path.length ≥ sunPath ∨ path ≠ listening) := by
          rintro (long | other)
          · exact absurd here.1 (Nat.not_lt.mpr long)
          · exact other here.2
        simp only [if_neg connects, if_pos here]
        cases command with
        | corruptCrc =>
            exact ⟨_, _, sendCorruptCrc_rejected world delivered, rfl,
              agrees_corruptCrc agrees invocation.turns⟩
        | status =>
            obtain ⟨next, told⟩ := told_status agrees invocation.turns
            exact ⟨_, _, transactWith_request agrees.serving .status delivered, told, next⟩
        | setRate rate =>
            obtain ⟨positive, bounded⟩ := commandLine_setRate line
            obtain ⟨next, told⟩ := told_setRate agrees positive bounded invocation.turns
            exact ⟨_, _, transactWith_request agrees.serving (.setRate rate) delivered, told, next⟩
        | freezeWorker =>
            obtain ⟨next, told⟩ := told_freezeWorker agrees invocation.turns
            exact ⟨_, _, transactWith_request agrees.serving .freezeWorker delivered, told, next⟩
        | reset =>
            obtain ⟨next, told⟩ := told_reset agrees invocation.turns
            exact ⟨_, _, transactWith_request agrees.serving .reset delivered, told, next⟩
        | fwInfo =>
            obtain ⟨next, told⟩ := told_fwInfo agrees invocation.turns
            exact ⟨_, _, transactWith_request agrees.serving .fwInfo delivered, told, next⟩
      · have refused : path.length ≥ sunPath ∨ path ≠ listening := by
          by_cases short : path.length < sunPath
          · exact Or.inr fun same => here ⟨short, same⟩
          · exact Or.inl (Nat.le_of_not_lt short)
        simp only [if_pos refused, if_neg here]
        exact ⟨_, _, rfl, ⟨rfl, rfl⟩, agrees⟩

/-- The target after a history of processes, one after the other. -/
def session (listening : Bytes) (world : World) (history : List Invocation) : Option World :=
  history.foldlM (fun world invocation => (invoke listening world invocation).map Prod.snd) world

theorem session_agrees {arch : Arch} {ledger : Ledger} {world : World} (listening : Bytes)
    (agrees : Agrees arch ledger world) (history : List Invocation)
    (delivered : ∀ invocation ∈ history, Delivered invocation) :
    ∃ after, session listening world history = some after ∧
      Agrees arch (history.foldl (Ledger.heard listening) ledger) after := by
  induction history generalizing ledger world with
  | nil => exact ⟨world, rfl, agrees⟩
  | cons invocation history ih =>
      obtain ⟨result, next, invoked, -, agreesNext⟩ :=
        invoke_answered listening agrees (delivered invocation List.mem_cons_self)
      obtain ⟨after, rest, agreesAfter⟩ :=
        ih agreesNext fun other here => delivered other (List.mem_cons_of_mem _ here)
      refine ⟨after, ?_, agreesAfter⟩
      unfold session at rest ⊢
      rw [List.foldlM_cons, invoked]
      exact rest

/-! ## The start -/

/-- A step of a start, or of a worker meanwhile. -/
def Boots : Action → Prop
  | .start | .main _ _ => True
  | action => Worker action

/-- Before the first request. -/
structure Booting (world : World) : Prop where
  outside : OutsideHandler world.main
  rate : world.ctx.sampleRateHz = 100
  crcErrors : world.ctx.crcErrors = 0

theorem booting_worker {world : World} (booting : Booting world) (action : Action)
    (worker : Worker action) : Booting (step world action) := by
  have held := worker_held world action worker
  refine ⟨?_, held.rate.trans booting.rate, held.crcErrors.trans booting.crcErrors⟩
  rw [(worker_untouched world action worker).main]
  exact booting.outside

theorem booting_step (world : World) (action : Action) (booting : Booting world)
    (boots : Boots action) : Booting (step world action) := by
  cases action with
  | tick | sensor | processing | watchdog => exact booting_worker booting _ trivial
  | request | rejectCrc | stop => exact boots.elim
  | start =>
      simp only [step]
      split
      · exact ⟨trivial, booting.rate, booting.crcErrors⟩
      · exact booting
  | main order created =>
      obtain ⟨_, _, _, _, _, _, _, moved, -, -, -, outside⟩ :=
        mainStep_outside world order created booting.outside
      simp only [step, moved]
      exact ⟨outside, booting.rate, booting.crcErrors⟩

section Session
variable {arch : Arch} {ctx : TargetCtx} {clock : UInt64} {os : PthreadInit} {times : InitTimes}

/-- After any history of commands on a target that `run_server` has started,
every further command ends as the ledger says and the ledger holds of the
target. -/
theorem operator_told (initialised : mlrtTargetInit 100 os times = some ctx)
    (monotone : times.started ≤ clock) (schedule : List Action)
    (boots : ∀ action ∈ schedule, Boots action)
    (serving : (run step (boot arch ctx clock) schedule).main = .serving) (listening : Bytes)
    (history : List Invocation) (delivered : ∀ invocation ∈ history, Delivered invocation) :
    ∃ world, session listening (run step (boot arch ctx clock) schedule) history = some world ∧
      world.arch = arch ∧
      world.ctx.sampleRateHz = (Ledger.run listening history).rateHz.toUInt32 ∧
      world.ctx.crcErrors = (Ledger.run listening history).crcErrors ∧
      ∀ invocation, Delivered invocation →
        ∃ result after, invoke listening world invocation = some (result, after) ∧
          Answered listening (Ledger.run listening history) world invocation.args result after := by
  obtain ⟨-, -, rfl⟩ := mlrtTargetInit_some initialised
  have booting := run_invariant Booting booting_step _ schedule
    (⟨trivial, rfl, rfl⟩ : Booting (boot arch (initialCtx 100 times) clock))
    (admits_of_forall step Boots _ schedule boots)
  have precedes : Precedes (boot arch (initialCtx 100 times) clock)
      (run step (boot arch (initialCtx 100 times) clock) schedule) := ⟨schedule, rfl⟩
  have agrees : Agrees arch .boot (run step (boot arch (initialCtx 100 times) clock) schedule) :=
    ⟨serving, arch_precedes precedes, booting.rate, booting.crcErrors,
      startedBefore_precedes (startedBefore_of monotone (by rintro req now ⟨⟩)) precedes⟩
  obtain ⟨world, after, agreesAfter⟩ := session_agrees listening agrees history delivered
  refine ⟨world, after, agreesAfter.arch, agreesAfter.rate, agreesAfter.crcErrors,
    fun invocation here => ?_⟩
  obtain ⟨result, next, invoked, answered, -⟩ := invoke_answered listening agreesAfter here
  exact ⟨result, next, invoked, answered⟩

/-- A rate set on a target with idle workers. -/
theorem operator_told_set_rate :
    ∃ ctx world, mlrtTargetInit 100 ⟨0, 0, 0, 0⟩ ⟨0, 0, 0⟩ = some ctx ∧
      session defaultSocket (run step (boot .x8664 ctx 0) startUp)
        [⟨[asciiBytes "set-rate", asciiBytes "250"], [], [], [], [], []⟩] = some world ∧
      world.ctx.sampleRateHz = 250 := by
  have delivers : Delivers [] := by simp [Delivers]
  have ledger : Ledger.run defaultSocket
      [⟨[asciiBytes "set-rate", asciiBytes "250"], [], [], [], [], []⟩] = ⟨250, 0⟩ := by decide
  obtain ⟨world, after, -, rate, -⟩ :=
    @operator_told .x8664 _ 0 ⟨0, 0, 0, 0⟩ ⟨0, 0, 0⟩ rfl (by decide) startUp
      (by simp [startUp, List.replicate, Boots]) rfl defaultSocket
      [⟨[asciiBytes "set-rate", asciiBytes "250"], [], [], [], [], []⟩]
      (by simpa using ⟨delivers, delivers, delivers, delivers⟩)
  rw [ledger] at rate
  exact ⟨_, world, rfl, after, rate⟩

end Session

end EmbeddedRuntime.Target.Operator
