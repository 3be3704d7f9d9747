import EmbeddedRuntime.Target.Steps

/-!
# The watchdog's age

The age is the unsigned difference of a clock reading and a heartbeat load made
at different moments.  A heartbeat is itself a clock reading, so it is never
ahead of the clock; it is ahead of a clock value read before it was stored.
When the load finds no such heartbeat the age is the true one, and FAULT means
a stall of more than 500 ms.
-/

set_option autoImplicit false

namespace EmbeddedRuntime.Target.Watchdog

open EmbeddedRuntime.Lib.Machine
open EmbeddedRuntime.Protocol.Packet
open EmbeddedRuntime.Realtime.RingBuffer
open EmbeddedRuntime.Target.Context
open EmbeddedRuntime.Target.Handler
open EmbeddedRuntime.Target.Model
open EmbeddedRuntime.Target.Steps

/-- The clock value of a watchdog that has read the clock first and is about to
load the heartbeat. -/
def clockRead (world : World) : Action → Option UInt64
  | .watchdog _ =>
      match world.watchdog with
      | .loadHeartbeat now => some now
      | _ => none
  | _ => none

/-- A watchdog that has read the clock first loads a heartbeat no newer than
its clock value. -/
def LoadsNoNewer (world : World) (action : Action) : Prop :=
  ∀ now ∈ clockRead world action, world.ctx.workerHeartbeatNs ≤ now

instance (world : World) (action : Action) : Decidable (LoadsNoNewer world action) :=
  -- over all of `UInt64` the search would take the instance that runs through every word
  Option.decidableForallMem (clockRead world action)

def ProcessingTimely (clock : UInt64) : ProcessingPoint → Prop
  | .beat now => now ≤ clock
  | _ => True

def MainTimely (clock : UInt64) : MainPoint → Prop
  | .handling _ (.reset (.heartbeat now)) => now ≤ clock
  | _ => True

def WatchdogTimely (clock : UInt64) : WatchdogPoint → Prop
  | .readClock heartbeat => heartbeat ≤ clock
  | .judge now heartbeat => heartbeat ≤ now
  | _ => True

/-- No heartbeat, stored or about to be, is ahead of the clock. -/
structure Timely (world : World) : Prop where
  heartbeat : world.ctx.workerHeartbeatNs ≤ world.clock
  processing : ProcessingTimely world.clock world.processing
  main : MainTimely world.clock world.main
  watchdog : WatchdogTimely world.clock world.watchdog

/-! ## One step -/

theorem timely_tick {world : World} (timely : Timely world) (time : UInt64)
    (later : world.clock ≤ time) : Timely { world with clock := time } := by
  refine ⟨UInt64.le_trans timely.heartbeat later, ?_, ?_, ?_⟩
  · have held := timely.processing
    show ProcessingTimely time world.processing
    revert held
    cases world.processing <;> simp only [ProcessingTimely, imp_self]
    exact fun held => UInt64.le_trans held later
  · have held := timely.main
    show MainTimely time world.main
    revert held
    unfold MainTimely
    split <;> intro held
    · exact UInt64.le_trans held later
    · trivial
  · have held := timely.watchdog
    show WatchdogTimely time world.watchdog
    revert held
    cases world.watchdog <;> simp only [WatchdogTimely, imp_self]
    exact fun held => UInt64.le_trans held later

theorem timely_processing {world : World} (timely : Timely world) (rc : Int) :
    Timely (step world (.processing rc)) := by
  have held := timely.processing
  have stale := timely.heartbeat
  refine ⟨?_, ?_, timely.main, timely.watchdog⟩
  · simp only [step]
    cases here : world.processing with
    | beat now =>
        rw [here] at held
        exact held
    | absent | loop | freeze | frozen | expired | thaw | pop | wait | count | stamp | last
    | beatClock | exited => exact stale
  · simp only [step]
    cases here : world.processing with
    | beatClock => exact UInt64.le_refl _
    | loop | freeze | frozen | expired =>
        simp only [processingStep]
        split_ifs <;> trivial
    | pop | wait =>
        simp only [processingStep]
        unfold popped
        split
        · split_ifs <;> trivial
        · trivial
    | absent | thaw | count | stamp | last | beat | exited => trivial

theorem timely_watchdog {world : World} (timely : Timely world) (order : OperandOrder)
    (noNewer : LoadsNoNewer world (.watchdog order)) :
    Timely (step world (.watchdog order)) := by
  obtain ⟨state, recoveries, freeze, same⟩ :=
    watchdogStep_ctx world.ctx world.clock order world.watchdog
  have heartbeatSame : (step world (.watchdog order)).ctx.workerHeartbeatNs =
      world.ctx.workerHeartbeatNs := by simp [step, same]
  refine ⟨by rw [heartbeatSame]; exact timely.heartbeat, timely.processing, timely.main, ?_⟩
  have held := timely.watchdog
  simp only [step]
  cases here : world.watchdog with
  | loop =>
      simp only [watchdogStep]
      split_ifs <;> trivial
  | sample =>
      cases order
      · trivial
      · exact timely.heartbeat
  | loadHeartbeat now =>
      exact noNewer now (by simp [clockRead, here])
  | readClock heartbeat =>
      rw [here] at held
      exact held
  | judge now heartbeat =>
      simp only [watchdogStep]
      split_ifs <;> trivial
  | absent | release | recover | count | exited => trivial

theorem timely_main {world : World} (timely : Timely world) (order : OperandOrder)
    (created : Bool) : Timely (step world (.main order created)) := by
  simp only [step]
  cases here : world.main with
  | handling req point =>
      cases point with
      | reset point =>
          rw [mainStep_reset world order created req point here]
          cases point with
          | heartbeat now =>
              have held := timely.main
              rw [here] at held
              exact ⟨held, timely.processing, trivial, timely.watchdog⟩
          | heartbeatClock =>
              exact ⟨timely.heartbeat, timely.processing, UInt64.le_refl _, timely.watchdog⟩
          | init | produced | processed | recoveries | crcErrors | freeze | startedClock | started
          | lastClock | last | running =>
              exact ⟨timely.heartbeat, timely.processing, trivial, timely.watchdog⟩
      | status | configSet | injectClock | inject =>
          obtain ⟨rate, freeze, main, rsp, events, moved, after, -⟩ :=
            mainStep_plain world order created req _ here trivial
          rw [moved]
          refine ⟨timely.heartbeat, timely.processing, ?_, timely.watchdog⟩
          rcases after with ⟨next, later, rfl⟩ | rfl
          · cases next <;> first | exact later.elim | trivial
          · trivial
  | initialised | starting | serving | stopping | stopped =>
      obtain ⟨state, running, threads, sensor, processing, watchdog, main, moved, -,
        processingCase, watchdogCase, outside⟩ :=
          mainStep_outside world order created (by rw [here]; trivial)
      rw [moved]
      refine ⟨timely.heartbeat, ?_, ?_, ?_⟩
      · rcases processingCase with rfl | ⟨rfl, -⟩
        · exact timely.processing
        · trivial
      · cases main <;> first | exact outside.elim | trivial
      · rcases watchdogCase with rfl | ⟨rfl, -⟩
        · exact timely.watchdog
        · trivial

theorem mainTimely_opening {arch : Arch} {action : Action} {clock : UInt64}
    {main next : MainPoint} {events : List Event}
    (opening : Opening arch action main next events) : MainTimely clock next := by
  cases opening with
  | starts | answers | rejects | stops => trivial
  | enters req point entry => cases entry <;> trivial

theorem timely_opens {world : World} (timely : Timely world) (action : Action)
    (opens : Opens action) : Timely (step world action) := by
  rcases opening_cases world action opens with same | ⟨main, crcErrors, rsp, events, opening, moved⟩
  · rw [same]
    exact timely
  · rw [moved]
    exact ⟨timely.heartbeat, timely.processing, mainTimely_opening opening, timely.watchdog⟩

theorem step_timely (world : World) (action : Action) (timely : Timely world)
    (noNewer : LoadsNoNewer world action) : Timely (step world action) := by
  cases action with
  | tick time =>
      simp only [step]
      split_ifs with later
      · exact timely_tick timely time later
      · exact timely
  | sensor =>
      obtain ⟨queue, produced, same⟩ := sensorStep_ctx world.ctx world.clock world.sensor
      simp only [step, same]
      exact ⟨timely.heartbeat, timely.processing, timely.main, timely.watchdog⟩
  | processing rc => exact timely_processing timely rc
  | watchdog order => exact timely_watchdog timely order noNewer
  | start | request | rejectCrc | stop => exact timely_opens timely _ trivial
  | main order created => exact timely_main timely order created

/-- The watchdog takes RUNNING to FAULT only on an age over the limit. -/
theorem watchdogStep_faults (ctx : TargetCtx) (clock : UInt64) (order : OperandOrder)
    (point : WatchdogPoint) (running : ctx.state = .running)
    (fault : (watchdogStep ctx clock order point).1.state = .fault) :
    ∃ now heartbeat, point = .judge now heartbeat ∧ faultAgeNs < now - heartbeat := by
  cases point with
  | judge now heartbeat =>
      simp only [watchdogStep] at fault
      split_ifs at fault with old
      · exact ⟨now, heartbeat, rfl, old⟩
      all_goals exact absurd (running.symm.trans fault) (by decide)
  | sample => cases order <;> exact absurd (running.symm.trans fault) (by decide)
  | absent | loop | loadHeartbeat | readClock | release | count | exited =>
      exact absurd (running.symm.trans fault) (by decide)
  | recover => cases fault

/-- Without wraparound the age is the difference of the two readings. -/
theorem age_exact {now heartbeat : UInt64} (ordered : heartbeat ≤ now)
    (old : faultAgeNs < now - heartbeat) : heartbeat.toNat + 500000000 < now.toNat := by
  have difference := UInt64.toNat_sub_of_le now heartbeat ordered
  have limit : faultAgeNs.toNat = 500000000 := rfl
  have beyond := UInt64.lt_iff_toNat_lt.mp old
  have below := UInt64.le_iff_toNat_le.mp ordered
  omega

/-! ## Runs -/

/-- The watchdog reads the clock 600 ms after the last heartbeat and then loads
that heartbeat. -/
def stalled : List Action :=
  [.watchdog .clockFirst, .tick 600000000, .watchdog .clockFirst, .watchdog .clockFirst]

/-- Between the watchdog's clock reading at 10 ns and its load, the worker times
out of its wait and stores a heartbeat read at 20 ns. -/
def overtaken : List Action :=
  [Action.watchdog .clockFirst, .tick 10, .watchdog .clockFirst] ++
    List.replicate 3 (Action.processing 0) ++ [Action.processing etimedout, .tick 20] ++
    List.replicate 2 (Action.processing 0) ++ [Action.watchdog .clockFirst]

section Runs
variable {arch : Arch} {ctx : TargetCtx} {clock : UInt64} {rateHz : UInt32} {os : PthreadInit}
  {times : InitTimes}

/-- In every run in which a watchdog that read the clock first loads no newer
heartbeat, in either order of the two readings, the watchdog takes RUNNING to
FAULT only when the heartbeat it read is more than 500 ms older than the clock
it read. -/
theorem watchdog_no_false_fault (initialised : mlrtTargetInit rateHz os times = some ctx)
    (past : times.heartbeat ≤ clock) (schedule : List Action) (order : OperandOrder)
    (noNewer : Admits step LoadsNoNewer (boot arch ctx clock) schedule) :
    let world := run step (boot arch ctx clock) schedule
    world.ctx.state = .running → (step world (.watchdog order)).ctx.state = .fault →
      ∃ now heartbeat, world.watchdog = .judge now heartbeat ∧
        heartbeat.toNat + 500000000 < now.toNat := by
  intro world running fault
  obtain ⟨-, -, rfl⟩ := mlrtTargetInit_some initialised
  have start : Timely (boot arch (initialCtx rateHz times) clock) := ⟨past, trivial, trivial, trivial⟩
  have timely : Timely world := run_invariant Timely step_timely _ schedule start noNewer
  obtain ⟨now, heartbeat, here, old⟩ :=
    watchdogStep_faults world.ctx world.clock order world.watchdog running fault
  have ordered : heartbeat ≤ now := by
    have held := timely.watchdog
    rw [here] at held
    exact held
  exact ⟨now, heartbeat, here, age_exact ordered old⟩

/-- A stall of 600 ms, found in the order that reads the clock first. -/
theorem watchdog_no_false_fault_stall :
    ∃ ctx, mlrtTargetInit 100 ⟨0, 0, 0, 0⟩ ⟨0, 0, 0⟩ = some ctx ∧
      Admits step LoadsNoNewer (boot .x8664 ctx 0) (startUp ++ stalled) ∧
      ∃ now heartbeat,
        (run step (boot .x8664 ctx 0) (startUp ++ stalled)).watchdog = .judge now heartbeat ∧
        heartbeat.toNat + 500000000 < now.toNat := by
  refine ⟨_, rfl, by decide +kernel, ?_⟩
  exact @watchdog_no_false_fault .x8664 _ 0 100 ⟨0, 0, 0, 0⟩ ⟨0, 0, 0⟩ rfl (by decide)
    (startUp ++ stalled) .clockFirst (by decide +kernel) (by decide +kernel) (by decide +kernel)

/-- The watchdog reads the clock at 10 ns, the worker stores a heartbeat of
20 ns, and the watchdog loads it: the age wraps and a live worker is reported. -/
theorem watchdog_no_false_fault_live_worker :
    ∃ ctx, mlrtTargetInit 100 ⟨0, 0, 0, 0⟩ ⟨0, 0, 0⟩ = some ctx ∧
      (run step (boot .x8664 ctx 0) (startUp ++ overtaken)).ctx.state = .running ∧
      (step (run step (boot .x8664 ctx 0) (startUp ++ overtaken)) (.watchdog .clockFirst)).ctx.state =
        .fault ∧
      (run step (boot .x8664 ctx 0) (startUp ++ overtaken)).watchdog = .judge 10 20 ∧
      ¬ (20 : UInt64).toNat + 500000000 < (10 : UInt64).toNat := by
  refine ⟨_, rfl, ?_, ?_, ?_, ?_⟩ <;> decide +kernel

end Runs

end EmbeddedRuntime.Target.Watchdog
