import EmbeddedRuntime.Target.Context

/-!
# `mlrt_target_handle_packet`

The handler runs on the request thread while the workers go on, so it is cut at
its accesses to the shared context: a request is either answered from its own
bytes, or stands at a `HandlePoint` whose next step makes one access.  An access
is an atomic load or store, a reading of the clock, or the critical section of
`mlrt_ring_get_stats`.  The two operands of a subtraction are read in either
order.
-/

set_option autoImplicit false

namespace EmbeddedRuntime.Target.Handler

open EmbeddedRuntime.Lib.ByteOrder
open EmbeddedRuntime.Protocol.Packet
open EmbeddedRuntime.Realtime.RingBuffer
open EmbeddedRuntime.Target.Context

def msgStatusReq : UInt8 := 3
def msgStatusRsp : UInt8 := 4
def msgConfigSet : UInt8 := 5
def msgConfigAck : UInt8 := 6
def msgError : UInt8 := 7
def msgFwInfoReq : UInt8 := 8
def msgFwInfoRsp : UInt8 := 9
def msgFaultInject : UInt8 := 10
def msgReset : UInt8 := 11
def msgResetAck : UInt8 := 12

/-- Which operand of `now_ns() - atomic_load(..)` is evaluated first. -/
inductive OperandOrder where
  | clockFirst
  | loadFirst
  deriving DecidableEq, Repr

/-- What a step leaves in the record of a run. -/
inductive Event where
  /-- The watchdog's load of the heartbeat. -/
  | heartbeatLoad (value : UInt64)
  /-- A heartbeat store of the processing worker. -/
  | beat (value : UInt64)
  /-- The watchdog's exchange of RUNNING for FAULT, with the clock and the
  heartbeat it had read. -/
  | faulted (now heartbeat : UInt64)
  /-- The watchdog's exchange of RECOVERY for RUNNING. -/
  | recovered
  /-- `reset_runtime` stores zero over this value of `produced`. -/
  | producedReset (old : UInt64)
  | answered (request response : MlrtPacket)
  deriving DecidableEq

/-- The architecture the simulator was compiled for. -/
inductive Arch where
  | aarch64
  | x8664
  | i386
  | other
  deriving DecidableEq, Repr

def Arch.name : Arch → String
  | .aarch64 => "arm64"
  | .x8664 => "x86_64"
  | .i386 => "i386"
  | .other => "unknown"

/-! ## Responses -/

def asciiBytes (text : String) : List UInt8 := text.toList.map fun c => UInt8.ofNat c.toNat

/-- Bytes stored into a payload from an offset on. -/
def putBytes (payload : Vector UInt8 512) (offset : Nat) (bytes : List UInt8) :
    Vector UInt8 512 :=
  Vector.ofFn fun index : Fin 512 =>
    if offset ≤ index.val ∧ index.val < offset + bytes.length then
      bytes.getD (index.val - offset) 0
    else payload.get index

/-- The zeroed response with the fields every branch sets. -/
def response (req : MlrtPacket) (type : UInt8) (length : UInt16) : MlrtPacket :=
  { MlrtPacket.zero with version := protoVersion, type, seq := req.seq, length }

def makeError (req : MlrtPacket) (text : String) : MlrtPacket :=
  let bytes := (asciiBytes text).take protoMaxPayload
  { response req msgError (UInt16.ofNat bytes.length) with
    payload := putBytes MlrtPacket.zero.payload 0 bytes }

def configAck (req : MlrtPacket) (rate : UInt16) : MlrtPacket :=
  { response req msgConfigAck 2 with payload := putBytes MlrtPacket.zero.payload 0 (be16 rate) }

def faultAck (req : MlrtPacket) : MlrtPacket :=
  { response req msgConfigAck 1 with payload := putBytes MlrtPacket.zero.payload 0 [1] }

def resetAck (req : MlrtPacket) : MlrtPacket := response req msgResetAck 0

/-- `snprintf` stores at most 511 characters and returns the full length. -/
def fwInfo (arch : Arch) (req : MlrtPacket) : MlrtPacket :=
  let text := asciiBytes ("target-sim/1.0 arch=" ++ arch.name)
  let n := if text.length > protoMaxPayload then protoMaxPayload else text.length
  { response req msgFwInfoRsp (UInt16.ofNat n) with
    payload := putBytes MlrtPacket.zero.payload 0 (text.take (protoMaxPayload - 1)) }

/-- `clamp_u64_u32`. -/
def clampU64U32 (value : UInt64) : UInt32 :=
  if value > 0xffffffff then 0xffffffff else value.toUInt32

/-! ## Points -/

/-- The access `make_status` makes next. -/
inductive StatusPoint where
  | uptime
  | loadStarted (now : UInt64)
  | readClock (started : UInt64)
  | stats
  | state
  | rate
  | produced
  | processed
  | crcErrors
  | recoveries
  deriving DecidableEq, Repr

/-- The locals of `make_status`: the response so far, `uptime_ms` and
`qs.dropped`. -/
structure StatusLocals where
  rsp : MlrtPacket
  uptimeMs : UInt64
  dropped : UInt64
  deriving DecidableEq

/-- The access `reset_runtime` makes next. -/
inductive ResetPoint where
  | init
  | produced
  | processed
  | recoveries
  | crcErrors
  | freeze
  | startedClock
  | started (now : UInt64)
  | lastClock
  | last (now : UInt64)
  | heartbeatClock
  | heartbeat (now : UInt64)
  | running
  deriving DecidableEq, Repr

inductive HandlePoint where
  | status (locals : StatusLocals) (point : StatusPoint)
  | configSet (rate : UInt16)
  | injectClock
  | inject (now : UInt64)
  | reset (point : ResetPoint)
  deriving DecidableEq

/-- A handler call goes on at a point, or returns 0 with its response. -/
inductive Handled where
  | goes (point : HandlePoint)
  | answers (rsp : MlrtPacket)

def freezeNs : UInt64 := 900000000

/-- The handler up to its first access. -/
def handlePacket (arch : Arch) (req : MlrtPacket) : Handled :=
  if req.type = msgStatusReq then
    .goes (.status ⟨response req msgStatusRsp 27, 0, 0⟩ .uptime)
  else if req.type = msgConfigSet then
    if req.length ≠ 2 then .answers (makeError req "CONFIG_SET requires 2-byte rate")
    else
      let rate := ofBe16 req.payload[0] req.payload[1]
      if rate = 0 ∨ rate > 1000 then .answers (makeError req "rate must be 1..1000 Hz")
      else .goes (.configSet rate)
  else if req.type = msgFaultInject then
    if req.length ≠ 1 ∨ req.payload[0] ≠ 1 then
      .answers (makeError req "supported fault: freeze-worker")
    else .goes .injectClock
  else if req.type = msgReset then .goes (.reset .init)
  else if req.type = msgFwInfoReq then .answers (fwInfo arch req)
  else .answers (makeError req "unsupported message type")

/-- `mlrt_target_handle_packet` on a non-null context; `none` when it returns
-1 for a null pointer.  `rsp` says whether the response pointer is non-null. -/
def mlrtTargetHandlePacket (arch : Arch) (req : Option MlrtPacket) (rsp : Bool) :
    Option (MlrtPacket × Handled) :=
  match req, rsp with
  | some req, true => some (req, handlePacket arch req)
  | _, _ => none

/-- The context and the record after one access, and where the call goes on. -/
structure Access where
  ctx : TargetCtx
  handled : Handled
  events : List Event

def StatusLocals.put (locals : StatusLocals) (offset : Nat) (bytes : List UInt8) : StatusLocals :=
  { locals with
    rsp := { locals.rsp with payload := putBytes locals.rsp.payload offset bytes } }

def nsPerMs : UInt64 := 1000000

def statusStep (ctx : TargetCtx) (clock : UInt64) (order : OperandOrder)
    (locals : StatusLocals) : StatusPoint → Handled
  | .uptime =>
      match order with
      | .clockFirst => .goes (.status locals (.loadStarted clock))
      | .loadFirst => .goes (.status locals (.readClock ctx.startedNs))
  | .loadStarted now =>
      .goes (.status { locals with uptimeMs := (now - ctx.startedNs) / nsPerMs } .stats)
  | .readClock started =>
      .goes (.status { locals with uptimeMs := (clock - started) / nsPerMs } .stats)
  | .stats =>
      .goes (.status { locals with dropped := (mlrtRingGetStats ctx.queue).dropped } .state)
  | .state => .goes (.status (locals.put 0 [ctx.state.code]) .rate)
  | .rate =>
      let locals := locals.put 1 (be16 ctx.sampleRateHz.toUInt16)
      .goes (.status (locals.put 3 (be32 (clampU64U32 locals.uptimeMs))) .produced)
  | .produced => .goes (.status (locals.put 7 (be32 (clampU64U32 ctx.produced))) .processed)
  | .processed =>
      let locals := locals.put 11 (be32 (clampU64U32 ctx.processed))
      .goes (.status (locals.put 15 (be32 (clampU64U32 locals.dropped))) .crcErrors)
  | .crcErrors => .goes (.status (locals.put 19 (be32 (clampU64U32 ctx.crcErrors))) .recoveries)
  | .recoveries => .answers (locals.put 23 (be32 (clampU64U32 ctx.watchdogRecoveries))).rsp

def Access.goes (ctx : TargetCtx) (point : ResetPoint) (events : List Event) : Access :=
  ⟨ctx, .goes (.reset point), events⟩

/-- `reset_runtime`; its `usleep` lies between the heartbeat store and the
store of RUNNING. -/
def resetStep (ctx : TargetCtx) (clock : UInt64) (req : MlrtPacket) : ResetPoint → Access
  | .init => .goes { ctx with state := .init } .produced []
  | .produced => .goes { ctx with produced := 0 } .processed [.producedReset ctx.produced]
  | .processed => .goes { ctx with processed := 0 } .recoveries []
  | .recoveries => .goes { ctx with watchdogRecoveries := 0 } .crcErrors []
  | .crcErrors => .goes { ctx with crcErrors := 0 } .freeze []
  | .freeze => .goes { ctx with freezeUntilNs := 0 } .startedClock []
  | .startedClock => .goes ctx (.started clock) []
  | .started now => .goes { ctx with startedNs := now } .lastClock []
  | .lastClock => .goes ctx (.last clock) []
  | .last now => .goes { ctx with lastProcessedNs := now } .heartbeatClock []
  | .heartbeatClock => .goes ctx (.heartbeat clock) []
  | .heartbeat now => .goes { ctx with workerHeartbeatNs := now } .running []
  | .running => ⟨{ ctx with state := .running }, .answers (resetAck req), []⟩

def handleStep (ctx : TargetCtx) (clock : UInt64) (order : OperandOrder) (req : MlrtPacket) :
    HandlePoint → Access
  | .status locals point => ⟨ctx, statusStep ctx clock order locals point, []⟩
  | .configSet rate =>
      ⟨{ ctx with sampleRateHz := rate.toUInt32 }, .answers (configAck req rate), []⟩
  | .injectClock => ⟨ctx, .goes (.inject clock), []⟩
  | .inject now =>
      ⟨{ ctx with freezeUntilNs := now + freezeNs }, .answers (faultAck req), []⟩
  | .reset point => resetStep ctx clock req point

end EmbeddedRuntime.Target.Handler
