import EmbeddedRuntime.Target.Handler

/-!
# The threads of the target simulator

The sensor, the processing worker, the watchdog and the thread that starts the
target and handles requests share one context and one monotonic clock.  One
action moves one thread past one access: an atomic operation, a reading of the
clock, or a critical section of the ring.  A sleep makes no access, so it is any
number of actions of the others; `tick` moves the clock.  All atomics are
sequentially consistent, so a schedule of actions is an interleaving of the
threads.

The record of what happened is written by the steps and read by none of them.
-/

set_option autoImplicit false

namespace EmbeddedRuntime.Target.Model

open EmbeddedRuntime.Protocol.Packet
open EmbeddedRuntime.Realtime.RingBuffer
open EmbeddedRuntime.Target.Context
open EmbeddedRuntime.Target.Handler

/-! ## The sensor -/

/-- The locals of `sensor_worker`. -/
structure SensorLocals where
  seq : UInt64
  next : UInt64
  period : UInt64
  deriving DecidableEq, Repr

/-- The access `sensor_worker` makes next; `absent` before the thread exists
and `exited` after it has returned. -/
inductive SensorPoint where
  | absent
  | begin
  | loop (locals : SensorLocals)
  | rate (locals : SensorLocals)
  | sleep (locals : SensorLocals)
  | recheck (locals : SensorLocals)
  | stamp (locals : SensorLocals)
  | push (locals : SensorLocals) (timestampNs : UInt64)
  | count (locals : SensorLocals)
  | lag (locals : SensorLocals)
  | resync (locals : SensorLocals)
  | exited
  deriving DecidableEq, Repr

def nsPerSecond : UInt64 := 1000000000

def sensorStep (ctx : TargetCtx) (clock : UInt64) : SensorPoint → TargetCtx × SensorPoint
  | .absent => (ctx, .absent)
  | .begin => (ctx, .loop ⟨0, clock, 0⟩)
  | .loop locals => (ctx, if ctx.running then .rate locals else .exited)
  | .rate locals =>
      let rate := if ctx.sampleRateHz = 0 then 1 else ctx.sampleRateHz
      let period := nsPerSecond / rate.toUInt64
      (ctx, .sleep { locals with period, next := locals.next + period })
  | .sleep locals => (ctx, if clock < locals.next then .sleep locals else .recheck locals)
  | .recheck locals => (ctx, if ctx.running then .stamp locals else .exited)
  | .stamp locals => (ctx, .push locals clock)
  | .push locals timestampNs =>
      let sample : TargetSample := ⟨locals.seq, timestampNs, synthValue locals.seq⟩
      let (code, queue) := mlrtRingPush ctx.queue (some sample.bytes) 0
      ({ ctx with queue }, if code = 0 then .count locals else .lag locals)
  | .count locals => ({ ctx with produced := ctx.produced + 1 }, .lag locals)
  | .lag locals =>
      let locals := { locals with seq := locals.seq + 1 }
      (ctx, if clock > locals.next + locals.period * 4 then .resync locals else .loop locals)
  | .resync locals => (ctx, .loop { locals with next := clock })
  | .exited => (ctx, .exited)

/-! ## The processing worker -/

/-- The access `processing_worker` makes next. -/
inductive ProcessingPoint where
  | absent
  | loop
  | freeze
  | frozen (freezeUntil : UInt64)
  | expired (freezeUntil : UInt64)
  | thaw
  | pop
  | wait
  | count
  | stamp
  | last (now : UInt64)
  | beatClock
  | beat (now : UInt64)
  | exited
  deriving DecidableEq, Repr

/-- After a critical section of `mlrt_ring_wait_pop`. -/
def popped : PopResult → ProcessingPoint
  | .returned code _ => if code = 0 then .count else .beatClock
  | .waiting => .wait

/-- `rc` is what `pthread_cond_timedwait` returns when the thread waits. -/
def processingStep (ctx : TargetCtx) (clock : UInt64) (rc : Int) :
    ProcessingPoint → TargetCtx × ProcessingPoint × List Event
  | .absent => (ctx, .absent, [])
  | .loop => (ctx, if ctx.running then .freeze else .exited, [])
  | .freeze =>
      (ctx, if ctx.freezeUntilNs ≠ 0 then .frozen ctx.freezeUntilNs else .pop, [])
  | .frozen freezeUntil =>
      (ctx, if clock < freezeUntil then .loop else .expired freezeUntil, [])
  | .expired freezeUntil => (ctx, if clock ≥ freezeUntil then .thaw else .pop, [])
  | .thaw => ({ ctx with freezeUntilNs := 0 }, .pop, [])
  | .pop =>
      let (result, queue) := mlrtRingWaitPop ctx.queue true
      ({ ctx with queue }, popped result, [])
  | .wait =>
      let (result, queue) := mlrtRingWaitPopWake ctx.queue 100 rc
      ({ ctx with queue }, popped result, [])
  | .count => ({ ctx with processed := ctx.processed + 1 }, .stamp, [])
  | .stamp => (ctx, .last clock, [])
  | .last now => ({ ctx with lastProcessedNs := now }, .beatClock, [])
  | .beatClock => (ctx, .beat clock, [])
  | .beat now => ({ ctx with workerHeartbeatNs := now }, .loop, [.beat now])
  | .exited => (ctx, .exited, [])

/-! ## The watchdog -/

/-- The access `watchdog_worker` makes next. -/
inductive WatchdogPoint where
  | absent
  | loop
  | sample
  | loadHeartbeat (now : UInt64)
  | readClock (heartbeat : UInt64)
  | judge (now heartbeat : UInt64)
  | release
  | recover
  | count
  | exited
  deriving DecidableEq, Repr

def faultAgeNs : UInt64 := 500000000
def confirmAgeNs : UInt64 := 200000000

/-- `judge` is the one exchange of the loop body; which one it is depends on
the age alone. -/
def watchdogStep (ctx : TargetCtx) (clock : UInt64) (order : OperandOrder) :
    WatchdogPoint → TargetCtx × WatchdogPoint × List Event
  | .absent => (ctx, .absent, [])
  | .loop => (ctx, if ctx.running then .sample else .exited, [])
  | .sample =>
      match order with
      | .clockFirst => (ctx, .loadHeartbeat clock, [])
      | .loadFirst => (ctx, .readClock ctx.workerHeartbeatNs, [.heartbeatLoad ctx.workerHeartbeatNs])
  | .loadHeartbeat now =>
      (ctx, .judge now ctx.workerHeartbeatNs, [.heartbeatLoad ctx.workerHeartbeatNs])
  | .readClock heartbeat => (ctx, .judge clock heartbeat, [])
  | .judge now heartbeat =>
      if now - heartbeat > faultAgeNs then
        if ctx.state = .running then
          ({ ctx with state := .fault }, .release, [.faulted now heartbeat])
        else (ctx, .loop, [])
      else if now - heartbeat < confirmAgeNs then
        if ctx.state = .recovery then
          ({ ctx with state := .running }, .count, [.recovered])
        else (ctx, .loop, [])
      else (ctx, .loop, [])
  | .release => ({ ctx with freezeUntilNs := 0 }, .recover, [])
  | .recover => ({ ctx with state := .recovery }, .loop, [])
  | .count => ({ ctx with watchdogRecoveries := ctx.watchdogRecoveries + 1 }, .loop, [])
  | .exited => (ctx, .exited, [])

/-! ## The request thread -/

/-- The access `mlrt_target_start` makes next. -/
inductive StartPoint where
  | init
  | running
  | ready
  | createSensor
  | createProcessing
  | createWatchdog
  | started
  | fail
  | joinSensor
  | joinProcessing
  | failed
  deriving DecidableEq, Repr

/-- The access `mlrt_target_stop` makes next. -/
inductive StopPoint where
  | running
  | joinSensor
  | joinProcessing
  | joinWatchdog
  deriving DecidableEq, Repr

inductive MainPoint where
  | initialised
  | starting (point : StartPoint)
  | serving
  | handling (req : MlrtPacket) (point : HandlePoint)
  | stopping (point : StopPoint)
  | stopped

/-- `rsp` is the response object of the request thread. -/
structure World where
  arch : Arch
  ctx : TargetCtx
  clock : UInt64
  sensor : SensorPoint
  processing : ProcessingPoint
  watchdog : WatchdogPoint
  main : MainPoint
  rsp : MlrtPacket
  events : List Event

/-- A context that `mlrt_target_init` has just filled in. -/
def boot (arch : Arch) (ctx : TargetCtx) (clock : UInt64) : World :=
  ⟨arch, ctx, clock, .absent, .absent, .absent, .initialised, .zero, []⟩

def World.record (world : World) (events : List Event) : World :=
  { world with events := world.events ++ events }

def World.writeState (world : World) (state : TargetState) : World :=
  { world with ctx := { world.ctx with state } }

/-- `created` is whether the `pthread_create` of the step succeeds.  A join
waits until the thread has returned. -/
def startStep (world : World) (created : Bool) : StartPoint → World
  | .init => { world.writeState .init with main := .starting .running }
  | .running =>
      { world with ctx := { world.ctx with running := true }, main := .starting .ready }
  | .ready => { world.writeState .ready with main := .starting .createSensor }
  | .createSensor =>
      if created then
        { world with
          ctx := { world.ctx with threadsStarted := 1 }
          sensor := .begin
          main := .starting .createProcessing }
      else { world with main := .starting .fail }
  | .createProcessing =>
      if created then
        { world with
          ctx := { world.ctx with threadsStarted := 2 }
          processing := .loop
          main := .starting .createWatchdog }
      else { world with main := .starting .fail }
  | .createWatchdog =>
      if created then
        { world with
          ctx := { world.ctx with threadsStarted := 3 }
          watchdog := .loop
          main := .starting .started }
      else { world with main := .starting .fail }
  | .started => { world.writeState .running with main := .serving }
  | .fail =>
      { world with ctx := { world.ctx with running := false }, main := .starting .joinSensor }
  | .joinSensor =>
      if world.ctx.threadsStarted ≥ 1 ∧ world.sensor ≠ .exited then world
      else { world with main := .starting .joinProcessing }
  | .joinProcessing =>
      if world.ctx.threadsStarted ≥ 2 ∧ world.processing ≠ .exited then world
      else
        { world with ctx := { world.ctx with threadsStarted := 0 }, main := .starting .failed }
  | .failed => world

/-- `mlrt_target_stop`; `mlrt_ring_destroy` gives back only the lock. -/
def stopStep (world : World) : StopPoint → World
  | .running =>
      { world with ctx := { world.ctx with running := false }, main := .stopping .joinSensor }
  | .joinSensor =>
      if world.ctx.threadsStarted ≥ 1 ∧ world.sensor ≠ .exited then world
      else { world with main := .stopping .joinProcessing }
  | .joinProcessing =>
      if world.ctx.threadsStarted ≥ 2 ∧ world.processing ≠ .exited then world
      else { world with main := .stopping .joinWatchdog }
  | .joinWatchdog =>
      if world.ctx.threadsStarted ≥ 3 ∧ world.watchdog ≠ .exited then world
      else { world with ctx := { world.ctx with threadsStarted := 0 }, main := .stopped }

/-- The request thread after the handler has gone on or returned. -/
def World.handled (world : World) (req : MlrtPacket) : Handled → World
  | .goes point => { world with main := .handling req point }
  | .answers rsp => { world with main := .serving, rsp }.record [.answered req rsp]

def mainStep (world : World) (order : OperandOrder) (created : Bool) : World :=
  match world.main with
  | .starting point => startStep world created point
  | .handling req point =>
      let access := handleStep world.ctx world.clock order req point
      ({ world with ctx := access.ctx }.record access.events).handled req access.handled
  | .stopping point => stopStep world point
  | .initialised | .serving | .stopped => world

/-- A call of `mlrt_target_handle_packet` up to its first access. -/
def requestStep (world : World) (req : Option MlrtPacket) (rsp : Bool) : World :=
  match world.main, mlrtTargetHandlePacket world.arch req rsp with
  | .serving, some (req, handled) => world.handled req handled
  | _, _ => world

/-- `serve_client` counts a frame with a wrong CRC. -/
def rejectCrc (world : World) : World :=
  match world.main with
  | .serving => { world with ctx := { world.ctx with crcErrors := world.ctx.crcErrors + 1 } }
  | _ => world

/-! ## Runs -/

inductive Action where
  | tick (time : UInt64)
  | sensor
  | processing (rc : Int)
  | watchdog (order : OperandOrder)
  | start
  | request (req : Option MlrtPacket) (rsp : Bool)
  | rejectCrc
  | stop
  | main (order : OperandOrder) (created : Bool)

def step (world : World) : Action → World
  | .tick time => if world.clock ≤ time then { world with clock := time } else world
  | .sensor =>
      let moved := sensorStep world.ctx world.clock world.sensor
      { world with ctx := moved.1, sensor := moved.2 }
  | .processing rc =>
      let moved := processingStep world.ctx world.clock rc world.processing
      { world with ctx := moved.1, processing := moved.2.1 }.record moved.2.2
  | .watchdog order =>
      let moved := watchdogStep world.ctx world.clock order world.watchdog
      { world with ctx := moved.1, watchdog := moved.2.1 }.record moved.2.2
  | .start =>
      match world.main with
      | .initialised => { world with main := .starting .init }
      | _ => world
  | .request req rsp => requestStep world req rsp
  | .rejectCrc => rejectCrc world
  | .stop =>
      match world.main with
      | .serving => { world with main := .stopping .running }
      | _ => world
  | .main order created => mainStep world order created

end EmbeddedRuntime.Target.Model
