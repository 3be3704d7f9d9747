import EmbeddedRuntime.Target.Client
import EmbeddedRuntime.Target.Requests

/-!
# The status response from `make_status` to `print_status`

The handler reads the fields of the context one after the other while the
workers go on; the client reads from the payload what was read from the context.
-/

set_option autoImplicit false

namespace EmbeddedRuntime.Target.StatusReading

open EmbeddedRuntime.Lib.ByteOrder
open EmbeddedRuntime.Protocol.Packet
open EmbeddedRuntime.Protocol.PacketCodec
open EmbeddedRuntime.Realtime.RingBuffer
open EmbeddedRuntime.Target.Client
open EmbeddedRuntime.Target.Context
open EmbeddedRuntime.Target.Handler
open EmbeddedRuntime.Target.Model
open EmbeddedRuntime.Target.Requests
open EmbeddedRuntime.Target.Server
open EmbeddedRuntime.Target.Session
open EmbeddedRuntime.Target.Steps

/-! ## A status request -/

/-- The world behind an access that only reads. -/
def World.after (moment : World) (req : MlrtPacket) (handled : Handled) : World :=
  (moment.record []).handled req handled

theorem held_after (moment : World) (order : OperandOrder) (req : MlrtPacket)
    (locals : StatusLocals) (point : StatusPoint)
    (here : moment.main = .handling req (.status locals point)) :
    Held moment
      (World.after moment req (statusStep moment.ctx moment.clock order locals point)) := by
  have stepped := mainStep_handling moment order true req _ here
  have reached : Precedes moment
      (World.after moment req (statusStep moment.ctx moment.clock order locals point)) :=
    ⟨[.main order true], stepped.symm⟩
  revert reached
  cases statusStep moment.ctx moment.clock order locals point with
  | goes next => exact fun reached => ⟨rfl, rfl, rfl, rfl, UInt64.le_refl _, reached⟩
  | answers rsp => exact fun reached => ⟨rfl, rfl, rfl, rfl, UInt64.le_refl _, reached⟩

/-- One access of a status request: the workers' burst, then the reading. -/
theorem status_access {world : World} {req : MlrtPacket} {locals : StatusLocals}
    {point : StatusPoint} (here : world.main = .handling req (.status locals point))
    (turns : List Turn) (count : Nat) :
    ∃ moment order later, Held world moment ∧
      Held moment
        (World.after moment req (statusStep moment.ctx moment.clock order locals point)) ∧
      handleAccesses world turns (count + 1) =
        handleAccesses
          (World.after moment req (statusStep moment.ctx moment.clock order locals point)) later
          count := by
  have held := takeTurn_held world turns
  have there : (takeTurn world turns).1.main = .handling req (.status locals point) :=
    (takeTurn_untouched world turns).1.main.trans here
  refine ⟨(takeTurn world turns).1, (takeTurn world turns).2.1, (takeTurn world turns).2.2, held,
    held_after _ _ req locals point there, ?_⟩
  have stepped := mainStep_handling (takeTurn world turns).1 (takeTurn world turns).2.1 true req
    _ there
  simp only [handleAccesses, here]
  show handleAccesses (mainStep _ _ _) _ _ = _
  rw [stepped]
  rfl

/-- A reading whose result does not depend on the order of operands. -/
theorem status_reads {world : World} {req : MlrtPacket} {locals : StatusLocals}
    {point next : StatusPoint} {found : TargetCtx → StatusLocals}
    (here : world.main = .handling req (.status locals point))
    (reads : ∀ ctx clock order,
      statusStep ctx clock order locals point = .goes (.status (found ctx) next))
    (turns : List Turn) (count : Nat) :
    ∃ moment after later, Held world moment ∧ Held moment after ∧
      after.main = .handling req (.status (found moment.ctx) next) ∧
      handleAccesses world turns (count + 1) = handleAccesses after later count := by
  obtain ⟨moment, order, later, held, heldAfter, unfolded⟩ := status_access here turns count
  rw [reads] at heldAfter unfolded
  exact ⟨moment, _, later, held, heldAfter, rfl, unfolded⟩

/-- The two readings of the uptime, in either order: `started_ns` does not
change between them, so both take it from the start of the request. -/
theorem status_uptime {world : World} {req : MlrtPacket} {locals : StatusLocals}
    (here : world.main = .handling req (.status locals .uptime)) (turns : List Turn)
    (count : Nat) :
    ∃ clock after later, Held world clock ∧ Held clock after ∧
      after.main = .handling req (.status
        { locals with uptimeMs := (clock.clock - world.ctx.startedNs) / nsPerMs } .stats) ∧
      handleAccesses world turns (count + 2) = handleAccesses after later count := by
  obtain ⟨first, order, later, held, heldAfter, unfolded⟩ := status_access here turns (count + 1)
  cases order with
  | clockFirst =>
      obtain ⟨second, after, rest, heldSecond, heldLast, main, unfoldedRest⟩ :=
        @status_reads (World.after first req (.goes (.status locals (.loadStarted first.clock))))
          req locals (.loadStarted first.clock) .stats
          (fun ctx =>
            { locals with uptimeMs := (first.clock - ctx.startedNs) / nsPerMs })
          rfl (fun _ _ _ => rfl) later count
      have started : second.ctx.startedNs = world.ctx.startedNs :=
        (heldSecond.started.trans heldAfter.started).trans held.started
      rw [started] at main
      exact ⟨first, after, rest, held, heldAfter.trans (heldSecond.trans heldLast), main,
        unfolded.trans unfoldedRest⟩
  | loadFirst =>
      obtain ⟨second, order', rest, heldSecond, heldLast, unfoldedRest⟩ :=
        @status_access
          (World.after first req (.goes (.status locals (.readClock first.ctx.startedNs))))
          req locals (.readClock first.ctx.startedNs) rfl later count
      refine ⟨second, _, rest, held.trans (heldAfter.trans heldSecond), heldLast, ?_,
        unfolded.trans unfoldedRest⟩
      rw [← held.started]
      rfl

/-- The response to a status request made of these readings. -/
def statusResponse (req : MlrtPacket) (uptimeMs dropped : UInt64) (state : TargetState)
    (rate : UInt16) (produced processed crcErrors recoveries : UInt64) : MlrtPacket :=
  let locals : StatusLocals := ⟨response req msgStatusRsp 27, uptimeMs, dropped⟩
  let locals := locals.put 0 [state.code]
  let locals := locals.put 1 (be16 rate)
  let locals := locals.put 3 (be32 (clampU64U32 uptimeMs))
  let locals := locals.put 7 (be32 (clampU64U32 produced))
  let locals := locals.put 11 (be32 (clampU64U32 processed))
  let locals := locals.put 15 (be32 (clampU64U32 dropped))
  let locals := locals.put 19 (be32 (clampU64U32 crcErrors))
  (locals.put 23 (be32 (clampU64U32 recoveries))).rsp

/-- The accesses of a status request, in program order. -/
theorem status_request (world : World) (req : MlrtPacket) (turns : List Turn)
    (here : world.main =
      .handling req (.status ⟨response req msgStatusRsp 27, 0, 0⟩ .uptime)) :
    ∃ clock queue state produced processed recoveries : World,
      List.IsChain Precedes [world, clock, queue, state, produced, processed, recoveries,
        (handleAccesses world turns maxAccesses).1] ∧
      Held world clock ∧ Held world (handleAccesses world turns maxAccesses).1 ∧
      (handleAccesses world turns maxAccesses).1.main = .serving ∧
      (handleAccesses world turns maxAccesses).1.rsp =
        statusResponse req ((clock.clock - world.ctx.startedNs) / nsPerMs)
          (mlrtRingGetStats queue.ctx.queue).dropped state.ctx.state
          world.ctx.sampleRateHz.toUInt16 produced.ctx.produced processed.ctx.processed
          world.ctx.crcErrors recoveries.ctx.watchdogRecoveries := by
  obtain ⟨clock, w1, t1, held1, after1, main1, run1⟩ := status_uptime here turns 11
  obtain ⟨queue, w2, t2, held2, after2, main2, run2⟩ :=
    status_reads main1 (fun _ _ _ => rfl) t1 10
  obtain ⟨state, w3, t3, held3, after3, main3, run3⟩ :=
    status_reads main2 (fun _ _ _ => rfl) t2 9
  obtain ⟨rate, w4, t4, held4, after4, main4, run4⟩ :=
    status_reads main3 (fun _ _ _ => rfl) t3 8
  obtain ⟨produced, w5, t5, held5, after5, main5, run5⟩ :=
    status_reads main4 (fun _ _ _ => rfl) t4 7
  obtain ⟨processed, w6, t6, held6, after6, main6, run6⟩ :=
    status_reads main5 (fun _ _ _ => rfl) t5 6
  obtain ⟨crc, w7, t7, held7, after7, main7, run7⟩ :=
    status_reads main6 (fun _ _ _ => rfl) t6 5
  obtain ⟨recoveries, order, t8, held8, after8, run8⟩ := status_access main7 t7 4
  have toClock := held1
  have toQueue := after1.trans held2
  have toState := after2.trans held3
  have toRate := after3.trans held4
  have toProduced := after4.trans held5
  have toProcessed := after5.trans held6
  have toCrc := after6.trans held7
  have toRecoveries := after7.trans held8
  have untilRate := ((toClock.trans toQueue).trans toState).trans toRate
  have untilCrc := ((untilRate.trans toProduced).trans toProcessed).trans toCrc
  have whole := untilCrc.trans (toRecoveries.trans after8)
  have returns := run1.trans (run2.trans (run3.trans (run4.trans (run5.trans (run6.trans
    (run7.trans (run8.trans (handleAccesses_serving _ t8 4 rfl))))))))
  rw [show maxAccesses = 11 + 2 from rfl, returns]
  refine ⟨clock, queue, state, produced, processed, recoveries, ?_, toClock, whole, rfl, ?_⟩
  · exact .cons_cons toClock.precedes (.cons_cons toQueue.precedes (.cons_cons toState.precedes
      (.cons_cons (toRate.trans toProduced).precedes (.cons_cons toProcessed.precedes
        (.cons_cons (toCrc.trans toRecoveries).precedes
          (.cons_cons after8.precedes (.singleton _)))))))
  · rw [← untilRate.rate, ← untilCrc.crcErrors]
    rfl

/-! ## The payload on the client's side -/

section Payload
variable {payload : Vector UInt8 512} {offset index : Nat} {bytes : List UInt8}

theorem getD_payload (payload : Vector UInt8 512) (inside : index < 512) :
    payload.toList.getD index 0 = payload.get ⟨index, inside⟩ := by
  rw [List.getD_eq_getElem _ _ (by simpa using inside)]
  exact Vector.getElem_toList _

theorem ofBe16_payload (payload : Vector UInt8 512) (first : 0 < 512) (second : 1 < 512) :
    ofBe16 (payload.get ⟨0, first⟩) (payload.get ⟨1, second⟩) = getU16Be payload.toList 0 := by
  rw [getU16Be, getD_payload _ first, getD_payload _ second]

theorem getD_putBytes (payload : Vector UInt8 512) (offset : Nat) (bytes : List UInt8)
    (inside : index < 512) :
    (putBytes payload offset bytes).toList.getD index 0 =
      if offset ≤ index ∧ index < offset + bytes.length then bytes.getD (index - offset) 0
      else payload.toList.getD index 0 := by
  rw [getD_payload _ inside, getD_payload _ inside]
  show (putBytes payload offset bytes)[index] = _
  rw [putBytes, Vector.getElem_ofFn]

theorem getU16Be_putBytes (value : UInt16) (fits : offset + 2 ≤ 512) :
    getU16Be (putBytes payload offset (be16 value)).toList offset = value := by
  rw [getU16Be, getD_putBytes _ _ _ (by omega), getD_putBytes _ _ _ (by omega), length_be16,
    if_pos (by omega), if_pos (by omega), Nat.sub_self, Nat.add_sub_cancel_left]
  exact ofBe16_be16 value

theorem getU32Be_putBytes (value : UInt32) (fits : offset + 4 ≤ 512) :
    getU32Be (putBytes payload offset (be32 value)).toList offset = value := by
  rw [getU32Be, getD_putBytes _ _ _ (by omega), getD_putBytes _ _ _ (by omega),
    getD_putBytes _ _ _ (by omega), getD_putBytes _ _ _ (by omega), length_be32,
    if_pos (by omega), if_pos (by omega), if_pos (by omega), if_pos (by omega), Nat.sub_self,
    Nat.add_sub_cancel_left, Nat.add_sub_cancel_left, Nat.add_sub_cancel_left]
  exact ofBe32_be32 value

/-- A store leaves the bytes before and behind it alone. -/
theorem getD_putBytes_apart (inside : index < 512)
    (apart : index + 1 ≤ offset ∨ offset + bytes.length ≤ index) :
    (putBytes payload offset bytes).toList.getD index 0 = payload.toList.getD index 0 := by
  rw [getD_putBytes _ _ _ inside, if_neg (by omega)]

theorem getU16Be_putBytes_apart (inside : index + 2 ≤ 512)
    (apart : index + 2 ≤ offset ∨ offset + bytes.length ≤ index) :
    getU16Be (putBytes payload offset bytes).toList index = getU16Be payload.toList index := by
  rw [getU16Be, getU16Be, getD_putBytes_apart (by omega) (by omega),
    getD_putBytes_apart (by omega) (by omega)]

theorem getU32Be_putBytes_apart (inside : index + 4 ≤ 512)
    (apart : index + 4 ≤ offset ∨ offset + bytes.length ≤ index) :
    getU32Be (putBytes payload offset bytes).toList index = getU32Be payload.toList index := by
  rw [getU32Be, getU32Be, getD_putBytes_apart (by omega) (by omega),
    getD_putBytes_apart (by omega) (by omega), getD_putBytes_apart (by omega) (by omega),
    getD_putBytes_apart (by omega) (by omega)]

end Payload

section Received
variable {packet : MlrtPacket} {index : Nat}

/-- The receiver sees the payload up to its length. -/
theorem getD_received (inside : index < packet.length.toNat)
    (fits : packet.length.toNat ≤ protoMaxPayload) :
    (received packet).payload.toList.getD index 0 = packet.payload.toList.getD index 0 := by
  have inArray : index < 512 := Nat.lt_of_lt_of_le inside fits
  rw [getD_payload _ inArray, getD_payload _ inArray, received_payload, if_pos inside]

theorem getU16Be_received (inside : index + 2 ≤ packet.length.toNat)
    (fits : packet.length.toNat ≤ protoMaxPayload) :
    getU16Be (received packet).payload.toList index = getU16Be packet.payload.toList index := by
  rw [getU16Be, getU16Be, getD_received (by omega) fits, getD_received (by omega) fits]

theorem getU32Be_received (inside : index + 4 ≤ packet.length.toNat)
    (fits : packet.length.toNat ≤ protoMaxPayload) :
    getU32Be (received packet).payload.toList index = getU32Be packet.payload.toList index := by
  rw [getU32Be, getU32Be, getD_received (by omega) fits, getD_received (by omega) fits,
    getD_received (by omega) fits, getD_received (by omega) fits]

/-- `print_status` reads each field where `make_status` has put it. -/
theorem ofPayload_statusResponse (req : MlrtPacket) (uptimeMs dropped : UInt64)
    (state : TargetState) (rate : UInt16) (produced processed crcErrors recoveries : UInt64) :
    Status.ofPayload (received (statusResponse req uptimeMs dropped state rate produced processed
        crcErrors recoveries)).payload.toList =
      ⟨state.code, rate, clampU64U32 uptimeMs, clampU64U32 produced, clampU64U32 processed,
        clampU64U32 dropped, clampU64U32 crcErrors, clampU64U32 recoveries⟩ := by
  have length : (statusResponse req uptimeMs dropped state rate produced processed crcErrors
      recoveries).length.toNat = 27 := rfl
  have fits : (27 : Nat) ≤ protoMaxPayload := by decide
  rw [Status.ofPayload, getD_received (by omega) (by omega), getU16Be_received (by omega) (by omega),
    getU32Be_received (by omega) (by omega), getU32Be_received (by omega) (by omega),
    getU32Be_received (by omega) (by omega), getU32Be_received (by omega) (by omega),
    getU32Be_received (by omega) (by omega), getU32Be_received (by omega) (by omega)]
  simp (disch := simp) only [statusResponse, StatusLocals.put, getU16Be_putBytes,
    getU32Be_putBytes, getD_putBytes_apart, getU16Be_putBytes_apart, getU32Be_putBytes_apart]
  rw [getD_putBytes _ _ _ (by decide), if_pos (by simp)]
  rfl

theorem conclude_status (req request : MlrtPacket) (uptimeMs dropped : UInt64)
    (state : TargetState) (rate : UInt16) (produced processed crcErrors recoveries : UInt64) :
    conclude request .ok (received (statusResponse req uptimeMs dropped state rate produced
        processed crcErrors recoveries)) =
      ⟨0, asciiBytes (Status.text ⟨state.code, rate, clampU64U32 uptimeMs, clampU64U32 produced,
        clampU64U32 processed, clampU64U32 dropped, clampU64U32 crcErrors,
        clampU64U32 recoveries⟩), []⟩ := by
  have payload := ofPayload_statusResponse req uptimeMs dropped state rate produced processed
    crcErrors recoveries
  generalize sent : statusResponse req uptimeMs dropped state rate produced processed crcErrors
    recoveries = rsp at payload ⊢
  have type : (received rsp).type = msgStatusRsp := by rw [← sent]; rfl
  have length : (received rsp).length = 27 := by rw [← sent]; rfl
  rw [conclude, if_neg (not_not.mpr rfl), if_neg (by rw [type]; decide), report, if_pos type,
    printStatus, if_neg (by simp [type, length]), payload]

end Received

end EmbeddedRuntime.Target.StatusReading
