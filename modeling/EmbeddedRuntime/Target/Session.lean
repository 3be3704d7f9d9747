import EmbeddedRuntime.Target.Server

/-!
# The request/response contract of a client session

A request is followed through the accesses of its handler: the response under
construction already has the header it will be sent with, and every access
brings the call nearer to its return.  A session is then an induction over the
leading frames of the client's stream.
-/

set_option autoImplicit false

namespace EmbeddedRuntime.Target.Session

open EmbeddedRuntime.Lib.Machine
open EmbeddedRuntime.Protocol.Packet
open EmbeddedRuntime.Protocol.PacketCodec
open EmbeddedRuntime.Protocol.Stream
open EmbeddedRuntime.Realtime.RingBuffer
open EmbeddedRuntime.Target.Context
open EmbeddedRuntime.Target.Handler
open EmbeddedRuntime.Target.Model
open EmbeddedRuntime.Target.Server
open EmbeddedRuntime.Target.Steps

/-- The response type that belongs to a request type. -/
def responseType (type : UInt8) : Option UInt8 :=
  if type = msgStatusReq then some msgStatusRsp
  else if type = msgConfigSet then some msgConfigAck
  else if type = msgFaultInject then some msgConfigAck
  else if type = msgReset then some msgResetAck
  else if type = msgFwInfoReq then some msgFwInfoRsp
  else none

/-- A response in the current version, with the sequence number of its request
and a payload that fits. -/
structure Addressed (req rsp : MlrtPacket) : Prop where
  version : rsp.version = protoVersion
  seq : rsp.seq = req.seq
  lengthLe : rsp.length.toNat ≤ protoMaxPayload

/-- The response of a branch that is not an error. -/
structure Answer (req rsp : MlrtPacket) : Prop extends Addressed req rsp where
  type : responseType req.type = some rsp.type

/-! ## The handler -/

theorem addressed_response (req : MlrtPacket) (type : UInt8) (length : UInt16)
    (payload : Vector UInt8 512) (fits : length.toNat ≤ protoMaxPayload) :
    Addressed req { response req type length with payload } :=
  ⟨rfl, rfl, fits⟩

theorem ofNat_fits {length : Nat} (fits : length ≤ protoMaxPayload) :
    (UInt16.ofNat length).toNat ≤ protoMaxPayload := by
  have small : protoMaxPayload < UInt16.size := by decide
  rw [UInt16.toNat_ofNat_of_lt' (by omega)]
  exact fits

theorem addressed_makeError (req : MlrtPacket) (text : String) :
    Addressed req (makeError req text) ∧ (makeError req text).type = msgError :=
  ⟨addressed_response req msgError _ _ (ofNat_fits (List.length_take_le ..)), rfl⟩

theorem answer_fwInfo (arch : Arch) (req : MlrtPacket) (isFwInfo : req.type = msgFwInfoReq) :
    Answer req (fwInfo arch req) := by
  refine ⟨addressed_response req msgFwInfoRsp _ _ (ofNat_fits ?_), ?_⟩
  · split_ifs <;> omega
  · rw [responseType, isFwInfo]
    rfl

/-- What is already settled about the response at a point of the handler. -/
def Pending (req : MlrtPacket) : HandlePoint → Prop
  | .status locals _ =>
      Addressed req locals.rsp ∧ locals.rsp.type = msgStatusRsp ∧ req.type = msgStatusReq
  | .configSet _ => req.type = msgConfigSet
  | .injectClock | .inject _ => req.type = msgFaultInject
  | .reset _ => req.type = msgReset

/-- A call that has returned an answer or is on its way to one. -/
def OnTheWay (req : MlrtPacket) : Handled → Prop
  | .goes point => Pending req point
  | .answers rsp => Answer req rsp

theorem handlePacket_onTheWay (arch : Arch) (req : MlrtPacket) :
    OnTheWay req (handlePacket arch req) ∨
      ∃ text, handlePacket arch req = .answers (makeError req text) := by
  unfold handlePacket
  split_ifs with status config length fault payload reset fwInfo
  · exact Or.inl ⟨addressed_response req msgStatusRsp 27 _ (by decide), rfl, status⟩
  · exact Or.inr ⟨_, rfl⟩
  · dsimp only
    split_ifs
    · exact Or.inr ⟨_, rfl⟩
    · exact Or.inl config
  · exact Or.inr ⟨_, rfl⟩
  · exact Or.inl fault
  · exact Or.inl reset
  · exact Or.inl (answer_fwInfo arch req fwInfo)
  · exact Or.inr ⟨_, rfl⟩

/-- Bytes stored into the payload leave the header alone. -/
theorem addressed_put {req : MlrtPacket} {locals : StatusLocals}
    (addressed : Addressed req locals.rsp) (offset : Nat) (bytes : List UInt8) :
    Addressed req (locals.put offset bytes).rsp := by
  simp only [StatusLocals.put]
  exact ⟨addressed.version, addressed.seq, addressed.lengthLe⟩

theorem put_type (locals : StatusLocals) (offset : Nat) (bytes : List UInt8) :
    (locals.put offset bytes).rsp.type = locals.rsp.type := by
  simp only [StatusLocals.put]

theorem statusStep_onTheWay (ctx : TargetCtx) (clock : UInt64) (order : OperandOrder)
    (req : MlrtPacket) (locals : StatusLocals) (point : StatusPoint)
    (pending : Pending req (.status locals point)) :
    OnTheWay req (statusStep ctx clock order locals point) := by
  obtain ⟨addressed, type, request⟩ := pending
  cases point with
  | uptime => cases order <;> exact ⟨addressed, type, request⟩
  | loadStarted | readClock | stats => exact ⟨addressed, type, request⟩
  | state | produced | crcErrors =>
      exact ⟨addressed_put addressed _ _, (put_type ..).trans type, request⟩
  | rate | processed =>
      exact ⟨addressed_put (addressed_put addressed _ _) _ _,
        (put_type ..).trans ((put_type ..).trans type), request⟩
  | recoveries =>
      refine ⟨addressed_put addressed _ _, ?_⟩
      rw [responseType, request, put_type, type]
      rfl

theorem handleStep_onTheWay (ctx : TargetCtx) (clock : UInt64) (order : OperandOrder)
    (req : MlrtPacket) (point : HandlePoint) (pending : Pending req point) :
    OnTheWay req (handleStep ctx clock order req point).handled := by
  cases point with
  | status locals point => exact statusStep_onTheWay ctx clock order req locals point pending
  | configSet rate =>
      refine ⟨addressed_response req msgConfigAck 2 _ (by decide), ?_⟩
      rw [responseType, show req.type = msgConfigSet from pending]
      rfl
  | injectClock => exact pending
  | inject now =>
      refine ⟨addressed_response req msgConfigAck 1 _ (by decide), ?_⟩
      rw [responseType, show req.type = msgFaultInject from pending]
      rfl
  | reset point =>
      cases point with
      | running =>
          refine ⟨addressed_response req msgResetAck 0 _ (by decide), ?_⟩
          rw [responseType, show req.type = msgReset from pending]
          rfl
      | init | produced | processed | recoveries | crcErrors | freeze | startedClock | started
      | lastClock | last | heartbeatClock | heartbeat => exact pending

/-- The accesses a handler still makes. -/
def remaining : HandlePoint → Nat
  | .status _ .uptime => 9
  | .status _ (.loadStarted _) => 8
  | .status _ (.readClock _) => 8
  | .status _ .stats => 7
  | .status _ .state => 6
  | .status _ .rate => 5
  | .status _ .produced => 4
  | .status _ .processed => 3
  | .status _ .crcErrors => 2
  | .status _ .recoveries => 1
  | .configSet _ => 1
  | .injectClock => 2
  | .inject _ => 1
  | .reset .init => 13
  | .reset .produced => 12
  | .reset .processed => 11
  | .reset .recoveries => 10
  | .reset .crcErrors => 9
  | .reset .freeze => 8
  | .reset .startedClock => 7
  | .reset (.started _) => 6
  | .reset .lastClock => 5
  | .reset (.last _) => 4
  | .reset .heartbeatClock => 3
  | .reset (.heartbeat _) => 2
  | .reset .running => 1

/-- Where `crc_errors` stands at a point of a handler that found it at `old`. -/
def CrcKept (old crcErrors : UInt64) : HandlePoint → Prop
  | .reset .init | .reset .produced | .reset .processed | .reset .recoveries | .reset .crcErrors =>
      crcErrors = old
  | .reset _ => crcErrors = 0
  | _ => crcErrors = old

/-- `crc_errors` after a request. -/
def CrcAfter (old : UInt64) (req : MlrtPacket) (ctx : TargetCtx) : Prop :=
  (req.type = msgReset → ctx.crcErrors = 0) ∧ (req.type ≠ msgReset → ctx.crcErrors = old)

/-- One access: the call goes on nearer to its end, or returns. -/
def Progress (old : UInt64) (req : MlrtPacket) (point : HandlePoint) (access : Access) : Prop :=
  match access.handled with
  | .goes next => remaining next < remaining point ∧ CrcKept old access.ctx.crcErrors next
  | .answers _ => CrcAfter old req access.ctx

theorem handleStep_progress (ctx : TargetCtx) (clock : UInt64) (order : OperandOrder)
    (req : MlrtPacket) (point : HandlePoint) (old : UInt64) (pending : Pending req point)
    (kept : CrcKept old ctx.crcErrors point) :
    Progress old req point (handleStep ctx clock order req point) := by
  cases point with
  | status locals point =>
      have same : ctx.crcErrors = old := kept
      cases point with
      | uptime => cases order <;> exact ⟨by simp [remaining], same⟩
      | loadStarted | readClock | stats | state | rate | produced | processed | crcErrors =>
          exact ⟨by simp [remaining], same⟩
      | recoveries =>
          refine ⟨fun isReset => ?_, fun _ => same⟩
          exact absurd (pending.2.2.symm.trans isReset) (by decide)
  | configSet =>
      refine ⟨fun isReset => ?_, fun _ => kept⟩
      exact absurd (Eq.trans (Eq.symm pending) isReset) (by decide)
  | injectClock => exact ⟨by simp [remaining], kept⟩
  | inject now =>
      simp only [Progress, handleStep]
      -- the deadline is no matter here, and comparing it by unfolding is costly
      generalize now + freezeNs = deadline
      refine ⟨fun isReset => ?_, fun _ => kept⟩
      exact absurd (Eq.trans (Eq.symm pending) isReset) (by decide)
  | reset point =>
      cases point with
      | init | produced | processed | recoveries => exact ⟨by simp [remaining], kept⟩
      | crcErrors => exact ⟨by simp [remaining], rfl⟩
      | freeze | startedClock | started | lastClock | last | heartbeatClock | heartbeat =>
          exact ⟨by simp [remaining], kept⟩
      | running => exact ⟨fun _ => kept, fun other => absurd pending other⟩

/-! ## A request -/

/-- The workers leave the request thread, its response object and `crc_errors`
alone. -/
structure Untouched (before after : World) : Prop where
  arch : after.arch = before.arch
  main : after.main = before.main
  rsp : after.rsp = before.rsp
  crcErrors : after.ctx.crcErrors = before.ctx.crcErrors

theorem worker_untouched (world : World) (action : Action) (worker : Worker action) :
    Untouched world (step world action) := by
  cases action with
  | tick time =>
      simp only [step]
      split_ifs <;> exact ⟨rfl, rfl, rfl, rfl⟩
  | sensor =>
      obtain ⟨queue, produced, same⟩ := sensorStep_ctx world.ctx world.clock world.sensor
      simp only [step, same]
      exact ⟨rfl, rfl, rfl, rfl⟩
  | processing rc =>
      obtain ⟨queue, processed, last, heartbeat, freeze, same⟩ :=
        processingStep_ctx world.ctx world.clock rc world.processing
      simp only [step, same]
      exact ⟨rfl, rfl, rfl, rfl⟩
  | watchdog order =>
      obtain ⟨state, recoveries, freeze, same⟩ :=
        watchdogStep_ctx world.ctx world.clock order world.watchdog
      simp only [step, same]
      exact ⟨rfl, rfl, rfl, rfl⟩
  | start | request | rejectCrc | stop | main => exact worker.elim

theorem takeTurn_untouched (world : World) (turns : List Turn) :
    Untouched world (takeTurn world turns).1 ∧
      ∃ actions, (takeTurn world turns).1 = run step world actions := by
  cases turns with
  | nil => exact ⟨⟨rfl, rfl, rfl, rfl⟩, [], rfl⟩
  | cons turn turns =>
      refine ⟨?_, turn.burst.map (·.val), rfl⟩
      refine run_invariant (Untouched world) (fun next action held worker => ?_) world
        (turn.burst.map (·.val)) ⟨rfl, rfl, rfl, rfl⟩
        (admits_of_forall step Worker world _ fun action here => ?_)
      · have moved := worker_untouched next action worker
        exact ⟨moved.arch.trans held.arch, moved.main.trans held.main, moved.rsp.trans held.rsp,
          moved.crcErrors.trans held.crcErrors⟩
      · obtain ⟨worker, -, rfl⟩ := List.mem_map.mp here
        exact worker.property

theorem handleAccesses_serving (world : World) (turns : List Turn) (count : Nat)
    (serving : world.main = .serving) : handleAccesses world turns count = (world, turns) := by
  cases count with
  | zero => rfl
  | succ count => simp only [handleAccesses, serving]

/-- The end of a call that was on its way to an answer. -/
structure Returned (req : MlrtPacket) (old : UInt64) (before after : World) : Prop where
  serving : after.main = .serving
  answer : Answer req after.rsp
  crcErrors : CrcAfter old req after.ctx
  reached : ∃ actions, after = run step before actions

theorem handleAccesses_returns (count : Nat) (world : World) (turns : List Turn)
    (req : MlrtPacket) (point : HandlePoint) (old : UInt64)
    (here : world.main = .handling req point) (pending : Pending req point)
    (enough : remaining point ≤ count) (kept : CrcKept old world.ctx.crcErrors point) :
    Returned req old world (handleAccesses world turns count).1 := by
  induction count generalizing world turns point with
  | zero =>
      have positive : 0 < remaining point := by unfold remaining; split <;> decide
      omega
  | succ count ih =>
      obtain ⟨untouched, actions, reached⟩ := takeTurn_untouched world turns
      generalize turned : (takeTurn world turns).1 = next at untouched reached
      have nextHere : next.main = .handling req point := untouched.main.trans here
      have nextKept : CrcKept old next.ctx.crcErrors point := by
        rw [untouched.crcErrors]
        exact kept
      have onTheWay := handleStep_onTheWay next.ctx next.clock (takeTurn world turns).2.1 req point
        pending
      have progress := handleStep_progress next.ctx next.clock (takeTurn world turns).2.1 req point
        old pending nextKept
      have moved := mainStep_handling next (takeTurn world turns).2.1 true req point nextHere
      have stepped : handleAccesses world turns (count + 1) =
          handleAccesses (mainStep next (takeTurn world turns).2.1 true) (takeTurn world turns).2.2
            count := by
        rw [← turned]
        simp only [handleAccesses, here]
        rfl
      have reachedNext : mainStep next (takeTurn world turns).2.1 true =
          run step world (actions ++ [.main (takeTurn world turns).2.1 true]) := by
        rw [run_append, ← reached]
        rfl
      rw [stepped]
      generalize handleStep next.ctx next.clock (takeTurn world turns).2.1 req point = access
        at onTheWay progress moved
      obtain ⟨ctx, handled, events⟩ := access
      cases handled with
      | goes later =>
          have returned := ih (mainStep next (takeTurn world turns).2.1 true)
            (takeTurn world turns).2.2 later (by rw [moved]; rfl) onTheWay
            (by have := progress.1; omega) (by rw [moved]; exact progress.2)
          obtain ⟨more, final⟩ := returned.reached
          refine { returned with
            reached := ⟨actions ++ [.main (takeTurn world turns).2.1 true] ++ more, ?_⟩ }
          rw [run_append, ← reachedNext]
          exact final
      | answers rsp =>
          have served : (mainStep next (takeTurn world turns).2.1 true).main = .serving := by
            rw [moved]
            rfl
          rw [handleAccesses_serving _ _ _ served]
          exact ⟨served, by rw [moved]; exact onTheWay, by rw [moved]; exact progress,
            _, reachedNext⟩

theorem remaining_le (point : HandlePoint) : remaining point ≤ maxAccesses := by
  unfold remaining
  split <;> decide

theorem crcKept_entry {point : HandlePoint} (entry : Entry (.goes point)) (crcErrors : UInt64) :
    CrcKept crcErrors crcErrors point := by
  cases entry <;> rfl

/-- No request is answered with ERROR by right. -/
theorem responseType_ne_error (type : UInt8) : responseType type ≠ some msgError := by
  unfold responseType
  split_ifs <;> decide

/-- A request handled to its return. -/
structure Responded (req : MlrtPacket) (before after : World) : Prop where
  serving : after.main = .serving
  addressed : Addressed req after.rsp
  type : after.rsp.type = msgError ∨ responseType req.type = some after.rsp.type
  crcErrors : CrcAfter before.ctx.crcErrors req after.ctx
  reached : ∃ actions, after = run step before actions
  unchanged : after.rsp.type = msgError → after.ctx = before.ctx

theorem handleRequest_responds (world : World) (req : MlrtPacket) (turns : List Turn)
    (serving : world.main = .serving) :
    Responded req world (handleRequest world req turns).1 := by
  have begun : step world (.request (some req) true) =
      world.handled req (handlePacket world.arch req) := by
    simp only [step, requestStep, serving, mlrtTargetHandlePacket]
  have entry := handlePacket_entry world.arch req
  have notReset := handlePacket_reset world.arch req
  have onTheWay := handlePacket_onTheWay world.arch req
  unfold handleRequest
  cases goes : handlePacket world.arch req with
  | goes point =>
      rw [goes] at entry begun onTheWay
      have pending : Pending req point := by
        rcases onTheWay with pending | ⟨text, impossible⟩
        · exact pending
        · cases impossible
      have returned := handleAccesses_returns maxAccesses (step world (.request (some req) true))
        turns req point world.ctx.crcErrors (by rw [begun]; rfl) pending (remaining_le point)
        (by rw [begun]; exact crcKept_entry entry world.ctx.crcErrors)
      obtain ⟨actions, reached⟩ := returned.reached
      exact
        { serving := returned.serving
          addressed := returned.answer.toAddressed
          type := Or.inr returned.answer.type
          crcErrors := returned.crcErrors
          reached := ⟨.request (some req) true :: actions, reached⟩
          unchanged := fun isError => by
            have type := returned.answer.type
            rw [isError] at type
            exact absurd type (responseType_ne_error req.type) }
  | answers rsp =>
      rw [goes] at begun onTheWay
      have other : req.type ≠ msgReset := by
        intro isReset
        rw [goes] at notReset
        cases notReset isReset
      rw [handleAccesses_serving _ _ _ (by rw [begun]; rfl)]
      have answered : Addressed req rsp ∧
          (rsp.type = msgError ∨ responseType req.type = some rsp.type) := by
        rcases onTheWay with answer | ⟨text, isError⟩
        · exact ⟨answer.toAddressed, Or.inr answer.type⟩
        · cases isError
          exact ⟨(addressed_makeError req text).1, Or.inl (addressed_makeError req text).2⟩
      exact
        { serving := by rw [begun]; rfl
          addressed := by rw [begun]; exact answered.1
          type := by rw [begun]; exact answered.2
          crcErrors := by
            rw [begun]
            exact ⟨fun isReset => absurd isReset other, fun _ => rfl⟩
          reached := ⟨[.request (some req) true], rfl⟩
          unchanged := fun _ => by rw [begun]; rfl }

/-! ## The sample rate -/

/-- The rate stays within its bounds, also the one about to be stored. -/
structure RateBounded (world : World) : Prop where
  stored : 1 ≤ world.ctx.sampleRateHz.toNat ∧ world.ctx.sampleRateHz.toNat ≤ 1000
  pending : ∀ req rate, world.main = .handling req (.configSet rate) →
    1 ≤ rate.toNat ∧ rate.toNat ≤ 1000

theorem handlePacket_rate (arch : Arch) (req : MlrtPacket) (rate : UInt16)
    (goes : handlePacket arch req = .goes (.configSet rate)) :
    1 ≤ rate.toNat ∧ rate.toNat ≤ 1000 := by
  unfold handlePacket at goes
  split_ifs at goes
  all_goals try cases goes
  dsimp only at goes
  split_ifs at goes with outside
  simp only [Handled.goes.injEq, HandlePoint.configSet.injEq] at goes
  rw [goes] at outside
  obtain ⟨nonzero, bounded⟩ := not_or.mp outside
  have positive : rate.toNat ≠ 0 := fun zero => nonzero (UInt16.toNat_inj.mp zero)
  have limit : ¬ 1000 < rate.toNat := fun above => bounded (UInt16.lt_iff_toNat_lt.mpr above)
  omega

theorem rateBounded_opens {world : World} (bounded : RateBounded world) (action : Action)
    (opens : Opens action) : RateBounded (step world action) := by
  rcases opening_cases world action opens with
    same | ⟨main, crcErrors, rsp, events, opening, moved⟩
  · rw [same]
    exact bounded
  · rw [moved]
    refine ⟨bounded.stored, ?_⟩
    rintro req rate rfl
    generalize world.main = old at opening
    cases opening with
    | enters req point entry goes => exact handlePacket_rate world.arch req rate goes

theorem rateBounded_main {world : World} (bounded : RateBounded world) (order : OperandOrder)
    (created : Bool) : RateBounded (step world (.main order created)) := by
  simp only [step]
  cases here : world.main with
  | initialised | starting | serving | stopping | stopped =>
      obtain ⟨_, _, _, _, _, _, main, moved, -, -, -, outside⟩ :=
        mainStep_outside world order created (by rw [here]; trivial)
      rw [moved]
      refine ⟨bounded.stored, ?_⟩
      rintro req rate rfl
      exact outside.elim
  | handling req point =>
      cases point with
      | reset point =>
          rw [mainStep_reset world order created req point here]
          cases point <;> exact ⟨bounded.stored, by rintro other next ⟨⟩⟩
      | status | configSet | injectClock | inject =>
          obtain ⟨rate, freeze, main, rsp, events, moved, after, -, stored⟩ :=
            mainStep_plain world order created req _ here trivial
          rw [moved]
          refine ⟨?_, ?_⟩
          · rcases stored with rfl | ⟨new, isConfig, rfl⟩
            · exact bounded.stored
            · have inside := bounded.pending req new (by rw [here, isConfig])
              rw [← UInt16.toNat_toUInt32] at inside
              exact inside
          · rintro other next rfl
            rcases after with ⟨point, later, same⟩ | impossible
            · cases same
              exact later.elim
            · cases impossible

theorem step_rateBounded (world : World) (action : Action) (bounded : RateBounded world)
    (_ : True) : RateBounded (step world action) := by
  cases action with
  | tick time =>
      simp only [step]
      split_ifs
      · exact ⟨bounded.stored, bounded.pending⟩
      · exact bounded
  | sensor =>
      obtain ⟨queue, produced, same⟩ := sensorStep_ctx world.ctx world.clock world.sensor
      simp only [step, same]
      exact ⟨bounded.stored, bounded.pending⟩
  | processing rc =>
      obtain ⟨queue, processed, last, heartbeat, freeze, same⟩ :=
        processingStep_ctx world.ctx world.clock rc world.processing
      simp only [step, same]
      exact ⟨bounded.stored, bounded.pending⟩
  | watchdog order =>
      obtain ⟨state, recoveries, freeze, same⟩ :=
        watchdogStep_ctx world.ctx world.clock order world.watchdog
      simp only [step, same]
      exact ⟨bounded.stored, bounded.pending⟩
  | start | request | rejectCrc | stop => exact rateBounded_opens bounded _ trivial
  | main order created => exact rateBounded_main bounded order created

/-! ## A session -/

/-- A response frame that answers a request frame. -/
def Answers (frame response : List UInt8) : Prop :=
  ∃ req rsp, Decodes frame req ∧ Decodes response rsp ∧ rsp.version = protoVersion ∧
    rsp.seq = req.seq ∧ (rsp.type = msgError ∨ responseType req.type = some rsp.type)

/-- A frame of a RESET request. -/
def Resets (frame : List UInt8) : Prop := ∃ req, Decodes frame req ∧ req.type = msgReset

/-- What a session over the leading frames of a stream does. -/
structure Contract (world : World) (socket : Socket) (frames : List (List UInt8))
    (rest : List UInt8) (served : Served) : Prop where
  /-- One response for each frame, in order, and nothing else. -/
  answers : ∃ responses, served.socket.outgoing = socket.outgoing ++ responses.flatten ∧
    List.Forall₂ Answers frames responses
  /-- At each response exactly the frames so far have been read. -/
  unread : served.unread = frames.tails.tail.map fun later => later.flatten ++ rest
  /-- The last read stays within the frame it stops on. -/
  taken : ∃ taken, taken ≤ frameLength rest ∧ served.socket.incoming = rest.drop taken
  /-- No read asks for a byte beyond the frame buffer. -/
  requests : ∃ calls, served.socket.requests = socket.requests ++ calls ∧
    ∀ call ∈ calls, call.1 + call.2 ≤ protoMaxFrame
  /-- Requests leave `crc_errors` alone, a RESET apart. -/
  kept : (∀ frame ∈ frames, ¬ Resets frame) →
    served.stopped.ctx.crcErrors = world.ctx.crcErrors
  cleared : (∃ frame ∈ frames, Resets frame) → served.stopped.ctx.crcErrors = 0
  /-- The stop counts a frame that only its CRC spoils, and nothing else. -/
  counted : CrcFault rest →
    served.world.ctx.crcErrors = served.stopped.ctx.crcErrors + 1
  uncounted : ¬ CrcFault rest → served.world = served.stopped
  /-- The session is a run of the target. -/
  reached : ∃ actions, served.world = run step world actions

theorem receive_taken (stream : List UInt8) (packet : MlrtPacket) :
    (receive stream packet).2.2 ≤ frameLength stream := by
  have header : protoHeaderSize ≤ frameLength stream := by
    unfold frameLength
    omega
  unfold receive receivePayload
  split_ifs with short
  all_goals dsimp only
  all_goals omega

/-- Where no frame decodes, the session ends with the next read. -/
theorem serveClient_stops (world : World) (socket : Socket) (turns : List Turn) (rounds : Nat)
    (rest : List UInt8) (serving : world.main = .serving) (delivers : Delivers socket.reads)
    (incoming : socket.incoming = rest)
    (maximal : ∀ frame more packet, rest = frame ++ more → ¬ Decodes frame packet) :
    ∃ served, serveClient world socket turns (rounds + 1) = some served ∧
      Contract world socket [] rest served := by
  subst incoming
  obtain ⟨after, readEq, took⟩ := mlrtPacketReadFd_receive socket .zero delivers
  obtain ⟨notOk, crcFault⟩ := receive_stops maximal
  have contract : ∀ code final, (CrcFault socket.incoming →
        final.ctx.crcErrors = world.ctx.crcErrors + 1) →
      (¬ CrcFault socket.incoming → final = world) →
      (∃ actions, final = run step world actions) →
      Contract world socket [] socket.incoming ⟨code, world, final, after, []⟩ :=
    fun code final counted uncounted reached =>
      { answers := ⟨[], by simp [took.outgoing], .nil⟩
        unread := rfl
        taken := ⟨_, receive_taken _ _, took.incoming⟩
        requests := took.requests
        kept := fun _ => rfl
        cleared := by simp
        counted, uncounted, reached }
  unfold serveClient
  rw [readEq]
  generalize (receive socket.incoming .zero).1 = status at notOk crcFault
  cases status with
  | ok => exact absurd rfl notOk
  | ecrc =>
      obtain ⟨untouched, actions, reached⟩ := takeTurn_untouched world turns
      have rejected : step (takeTurn world turns).1 .rejectCrc =
          { (takeTurn world turns).1 with
            ctx := { (takeTurn world turns).1.ctx with
              crcErrors := (takeTurn world turns).1.ctx.crcErrors + 1 } } := by
        simp only [step, rejectCrc, untouched.main.trans serving]
      refine ⟨_, rfl, contract 0 _ (fun _ => ?_) (fun none => absurd (crcFault.mp rfl) none)
        ⟨actions ++ [.rejectCrc], ?_⟩⟩
      · rw [rejected, ← untouched.crcErrors]
      · rw [run_append, ← reached]
        rfl
  | eof | einval | etoobig | eformat | eio =>
      have noFault : ¬ CrcFault socket.incoming := fun fault => by cases crcFault.mpr fault
      exact ⟨_, rfl, contract _ world (fun fault => absurd fault noFault) (fun _ => rfl) ⟨[], rfl⟩⟩

/-- The response of a request, framed, is an answer. -/
theorem answers_frameOf {frame : List UInt8} {req : MlrtPacket} {before after : World}
    (decodes : Decodes frame req) (responded : Responded req before after) :
    Answers frame (frameOf after.rsp) := by
  have sendable : Sendable after.rsp :=
    ⟨responded.addressed.lengthLe, Or.inr responded.addressed.version⟩
  exact ⟨req, received after.rsp, decodes, mlrtPacketDecode_frameOf after.rsp .zero sendable, rfl,
    responded.addressed.seq, responded.type⟩

theorem resets_iff {frame : List UInt8} {req : MlrtPacket} (decodes : Decodes frame req) :
    Resets frame ↔ req.type = msgReset := by
  constructor
  · rintro ⟨other, decodesOther, isReset⟩
    have same := decodes.symm.trans decodesOther
    simp only [Prod.mk.injEq, Option.some.injEq, true_and] at same
    rw [same]
    exact isReset
  · exact fun isReset => ⟨req, decodes, isReset⟩

/-- One more leading frame: it is read whole, answered, and the session goes on
behind it. -/
theorem contract_cons {world next : World} {socket after answered : Socket}
    {frame : List UInt8} {frames : List (List UInt8)} {rest : List UInt8} {req : MlrtPacket}
    {served : Served} (contract : Contract next answered frames rest served)
    (decodes : Decodes frame req) (responded : Responded req world next)
    (took : Took socket after frame.length protoMaxFrame)
    (left : after.incoming = frames.flatten ++ rest)
    (sent : answered.outgoing = after.outgoing ++ frameOf next.rsp)
    (recorded : answered.requests = after.requests) :
    Contract world socket (frame :: frames) rest
      { served with unread := after.incoming :: served.unread } := by
  obtain ⟨responses, outgoing, each⟩ := contract.answers
  obtain ⟨calls, callsEq, bounded⟩ := took.requests
  obtain ⟨more, moreEq, moreBounded⟩ := contract.requests
  obtain ⟨actions, reachedNext⟩ := responded.reached
  obtain ⟨later, reached⟩ := contract.reached
  have isReset := resets_iff decodes
  refine
    { answers := ⟨frameOf next.rsp :: responses, ?_, .cons (answers_frameOf decodes responded) each⟩
      unread := ?_
      taken := contract.taken
      requests := ⟨calls ++ more, ?_, ?_⟩
      kept := ?_
      cleared := ?_
      counted := contract.counted
      uncounted := contract.uncounted
      reached := ⟨actions ++ later, ?_⟩ }
  · show served.socket.outgoing = _
    rw [outgoing, sent, took.outgoing, List.flatten_cons, List.append_assoc]
  · show after.incoming :: served.unread = _
    rw [left, contract.unread]
    cases frames <;> rfl
  · show served.socket.requests = _
    rw [moreEq, recorded, callsEq, List.append_assoc]
  · intro call here
    rcases List.mem_append.mp here with early | late
    · exact bounded call early
    · exact moreBounded call late
  · intro none
    show served.stopped.ctx.crcErrors = _
    rw [contract.kept fun other here => none other (List.mem_cons_of_mem _ here)]
    exact responded.crcErrors.2 fun reset => none frame List.mem_cons_self (isReset.mpr reset)
  · rintro ⟨other, here, reset⟩
    show served.stopped.ctx.crcErrors = 0
    by_cases again : ∃ frame ∈ frames, Resets frame
    · exact contract.cleared again
    · rw [contract.kept fun frame inside resets => again ⟨frame, inside, resets⟩]
      rcases List.mem_cons.mp here with rfl | inside
      · exact responded.crcErrors.1 (isReset.mp reset)
      · exact absurd ⟨other, inside, reset⟩ again
  · show served.world = _
    rw [run_append, ← reachedNext]
    exact reached

theorem serveClient_contract (frames : List (List UInt8)) (rest : List UInt8) (world : World)
    (socket : Socket) (turns : List Turn) (rounds : Nat) (serving : world.main = .serving)
    (readsDeliver : Delivers socket.reads) (writesDeliver : Delivers socket.writes)
    (leading : Leading frames rest socket.incoming) (enough : frames.length < rounds) :
    ∃ served, serveClient world socket turns rounds = some served ∧
      Contract world socket frames rest served := by
  induction frames generalizing world socket turns rounds with
  | nil =>
      obtain ⟨count, rfl⟩ := Nat.exists_eq_succ_of_ne_zero (Nat.ne_of_gt enough)
      exact serveClient_stops world socket turns count rest serving readsDeliver
        (by simpa using leading.stream) leading.maximal
  | cons frame frames ih =>
      obtain ⟨count, rfl⟩ := Nat.exists_eq_succ_of_ne_zero (Nat.ne_of_gt (Nat.lt_of_le_of_lt
        (Nat.zero_le _) enough))
      obtain ⟨req, decodes⟩ := leading.decode frame List.mem_cons_self
      have stream : socket.incoming = frame ++ (frames.flatten ++ rest) := by
        rw [leading.stream, List.flatten_cons, List.append_assoc]
      obtain ⟨after, readEq, took⟩ := mlrtPacketReadFd_receive socket .zero readsDeliver
      rw [stream, receive_decodes decodes] at readEq took
      have left : after.incoming = frames.flatten ++ rest := by
        rw [took.incoming, stream, List.drop_left]
      have responded := handleRequest_responds world req turns serving
      obtain ⟨writes, writesLeft, writeEq⟩ := mlrtPacketWriteFd_delivers after
        (handleRequest world req turns).1.rsp responded.addressed.lengthLe
        (by rw [took.writes]; exact writesDeliver)
      obtain ⟨served, servedEq, contract⟩ := ih (handleRequest world req turns).1
        { after with
          outgoing := after.outgoing ++ frameOf (handleRequest world req turns).1.rsp, writes }
        (handleRequest world req turns).2 count responded.serving took.reads writesLeft
        ⟨left, fun other here => leading.decode other (List.mem_cons_of_mem _ here),
          leading.maximal⟩ (by simpa using enough)
      refine ⟨{ served with unread := after.incoming :: served.unread }, ?_,
        contract_cons contract decodes responded took left rfl rfl⟩
      simp only [serveClient, readEq, writeEq, servedEq, Option.map_some]

/-! ## Runs -/

section Runs
variable {arch : Arch} {ctx : TargetCtx} {clock : UInt64} {rateHz : UInt32} {os : PthreadInit}
  {times : InitTimes}

/-- In every reachable state the rate is within its bounds.  In every one that
serves, a request answered with ERROR has left the context alone, and a session
over any stream, however delivered, returns and keeps its contract. -/
theorem serve_client_contract (initialised : mlrtTargetInit rateHz os times = some ctx)
    (schedule : List Action) :
    let world := run step (boot arch ctx clock) schedule
    (1 ≤ world.ctx.sampleRateHz.toNat ∧ world.ctx.sampleRateHz.toNat ≤ 1000) ∧
      (world.main = .serving →
        (∀ req turns, (handleRequest world req turns).1.rsp.type = msgError →
          (handleRequest world req turns).1.ctx = world.ctx) ∧
        ∀ stream reads writes turns, Delivers reads → Delivers writes →
          (∃ frames rest, Leading frames rest stream) ∧
          ∀ frames rest, Leading frames rest stream →
            ∃ served, serveClient world ⟨stream, [], reads, writes, []⟩ turns
                (stream.length + 1) = some served ∧
              Contract world ⟨stream, [], reads, writes, []⟩ frames rest served) := by
  intro world
  obtain ⟨positive, bounded, rfl⟩ := mlrtTargetInit_some initialised
  have start : RateBounded (boot arch (initialCtx rateHz times) clock) :=
    ⟨⟨positive, bounded⟩, by rintro req rate ⟨⟩⟩
  have rate : RateBounded world :=
    run_invariant RateBounded step_rateBounded _ schedule start (admits_true step _ schedule)
  refine ⟨rate.stored, fun serving => ⟨fun req turns => ?_, ?_⟩⟩
  · exact (handleRequest_responds world req turns serving).unchanged
  · intro stream reads writes turns readsDeliver writesDeliver
    refine ⟨leading_exists stream, fun frames rest leading => ?_⟩
    exact serveClient_contract frames rest world ⟨stream, [], reads, writes, []⟩ turns
      (stream.length + 1) serving readsDeliver writesDeliver leading
      (Nat.lt_succ_of_le (leading_length leading))

/-- A RESET frame and one stray byte, delivered in pieces. -/
theorem serve_client_contract_reset :
    ∃ ctx served, mlrtTargetInit 100 ⟨0, 0, 0, 0⟩ ⟨0, 0, 0⟩ = some ctx ∧
      serveClient (run step (boot .x8664 ctx 0) startUp)
        ⟨frameOf resetRequest ++ [0], [], [.moved 3, .interrupted, .moved 7],
          [.interrupted, .moved 1], []⟩ []
        ((frameOf resetRequest ++ [0]).length + 1) = some served ∧
      Answers (frameOf resetRequest) served.socket.outgoing := by
  have decodes : Decodes (frameOf resetRequest) (received resetRequest) :=
    mlrtPacketDecode_frameOf resetRequest .zero ⟨by decide, by decide⟩
  have leading : Leading [frameOf resetRequest] [0] (frameOf resetRequest ++ [0]) := by
    refine ⟨by simp, by simpa using ⟨_, decodes⟩, fun frame more packet equal found => ?_⟩
    have size := (framed_of_status (Or.inl (congrArg Prod.fst found))).size
    have short := congrArg List.length equal
    rw [List.length_append, size, frameLength, protoHeaderSize] at short
    simp at short
    omega
  have serving := (@serve_client_contract .x8664 _ 0 100 ⟨0, 0, 0, 0⟩ ⟨0, 0, 0⟩ rfl startUp).2
    rfl
  obtain ⟨served, returns, contract⟩ := (serving.2 (frameOf resetRequest ++ [0])
    [.moved 3, .interrupted, .moved 7] [.interrupted, .moved 1] [] (by simp [Delivers])
    (by simp [Delivers])).2 _ _ leading
  refine ⟨_, served, rfl, returns, ?_⟩
  obtain ⟨responses, outgoing, each⟩ := contract.answers
  cases each with
  | cons answers none =>
      cases none
      rw [outgoing]
      simpa using answers

end Runs

end EmbeddedRuntime.Target.Session
