import EmbeddedRuntime.Target.Steps

/-!
# The state machine of the target

`StateEdge` is the documented graph with the thread that takes each edge.  A
watchdog that has stored FAULT is still to store RECOVERY; as long as no reset
stores INIT in between, the state it overwrites is its own FAULT and every
change of the state is an edge.
-/

set_option autoImplicit false

namespace EmbeddedRuntime.Target.StateGraph

open EmbeddedRuntime.Lib.Machine
open EmbeddedRuntime.Protocol.Packet
open EmbeddedRuntime.Realtime.RingBuffer
open EmbeddedRuntime.Target.Context
open EmbeddedRuntime.Target.Handler
open EmbeddedRuntime.Target.Model
open EmbeddedRuntime.Target.Steps

/-- Whose code stores a state. -/
inductive StateWriter where
  | start
  | watchdog
  | reset
  deriving DecidableEq, Repr

inductive StateEdge : StateWriter → TargetState → TargetState → Prop where
  | boots : StateEdge .start .boot .init
  | readies : StateEdge .start .init .ready
  | starts : StateEdge .start .ready .running
  | faults : StateEdge .watchdog .running .fault
  | recovers : StateEdge .watchdog .fault .recovery
  | confirms : StateEdge .watchdog .recovery .running
  | resets (old : TargetState) : StateEdge .reset old .init
  | restarts : StateEdge .reset .init .running

/-- The code a step belongs to, when it may store a state. -/
def writerOf (world : World) : Action → Option StateWriter
  | .watchdog _ => some .watchdog
  | .main _ _ =>
      match world.main with
      | .starting _ => some .start
      | .handling _ (.reset _) => some .reset
      | _ => none
  | _ => none

/-- The watchdog has stored FAULT and not yet RECOVERY. -/
def FaultTail (point : WatchdogPoint) : Prop := point = .release ∨ point = .recover

instance (point : WatchdogPoint) : Decidable (FaultTail point) :=
  inferInstanceAs (Decidable (_ ∨ _))

/-- The step stores the INIT of a reset. -/
def storesInit (world : World) : Action → Bool
  | .main _ _ =>
      match world.main with
      | .handling _ (.reset .init) => true
      | _ => false
  | _ => false

/-- No reset stores INIT while the watchdog is in the tail of a fault. -/
def ResetOutsideTail (world : World) (action : Action) : Prop :=
  storesInit world action = true → ¬ FaultTail world.watchdog

instance (world : World) (action : Action) : Decidable (ResetOutsideTail world action) :=
  inferInstanceAs (Decidable (_ → _))

/-- The state while the request thread is inside a start or a reset. -/
def MainState : MainPoint → TargetState → Prop
  | .initialised, state | .starting .init, state => state = .boot
  | .starting .running, state | .starting .ready, state => state = .init
  | .starting _, state => state = .ready
  | .handling _ (.reset point), state => point = .init ∨ state = .init
  | _, _ => True

structure Consistent (world : World) : Prop where
  tail : FaultTail world.watchdog → world.ctx.state = .fault
  main : MainState world.main world.ctx.state

/-- A step changes the state along an edge of its writer, or not at all. -/
def Follows (writer : Option StateWriter) (old new : TargetState) : Prop :=
  new = old ∨ ∃ by', writer = some by' ∧ StateEdge by' old new

theorem follows_same (writer : Option StateWriter) (state : TargetState) :
    Follows writer state state := Or.inl rfl

theorem follows_edge {writer : StateWriter} {old new : TargetState}
    (edge : StateEdge writer old new) : Follows (some writer) old new :=
  Or.inr ⟨writer, rfl, edge⟩

/-! ## One step -/

theorem watchdog_follows (ctx : TargetCtx) (clock : UInt64) (order : OperandOrder)
    (point : WatchdogPoint) (tail : FaultTail point → ctx.state = .fault) :
    let moved := watchdogStep ctx clock order point
    Follows (some .watchdog) ctx.state moved.1.state ∧
      (FaultTail moved.2.1 → moved.1.state = .fault) ∧
      (moved.1.state = ctx.state ∨ ctx.state = .running ∨ ctx.state = .fault ∨
        ctx.state = .recovery) := by
  intro moved
  cases point with
  | absent | loadHeartbeat | readClock | count | exited =>
      exact ⟨follows_same _ _, by simp [moved, watchdogStep, FaultTail], Or.inl rfl⟩
  | loop =>
      refine ⟨follows_same _ _, ?_, Or.inl rfl⟩
      simp only [moved, watchdogStep]
      split_ifs <;> simp [FaultTail]
  | sample => cases order <;> exact ⟨follows_same _ _, by simp [moved, watchdogStep, FaultTail], Or.inl rfl⟩
  | judge now heartbeat =>
      simp only [moved, watchdogStep]
      split_ifs with old running young recovering
      · exact ⟨by rw [running]; exact follows_edge .faults, fun _ => rfl, by simp [running]⟩
      · exact ⟨follows_same _ _, by simp [FaultTail], Or.inl rfl⟩
      · exact ⟨by rw [recovering]; exact follows_edge .confirms, by simp [FaultTail], by simp [recovering]⟩
      · exact ⟨follows_same _ _, by simp [FaultTail], Or.inl rfl⟩
      · exact ⟨follows_same _ _, by simp [FaultTail], Or.inl rfl⟩
  | release => exact ⟨follows_same _ _, fun _ => tail (Or.inl rfl), Or.inl rfl⟩
  | recover =>
      have faulted := tail (Or.inr rfl)
      refine ⟨?_, by simp [moved, watchdogStep, FaultTail], by simp [faulted]⟩
      rw [faulted]
      exact follows_edge .recovers


/-- The start and the reset hold the state while they run: the watchdog leaves
it alone there. -/
theorem mainState_watchdog {main : MainPoint} {old new : TargetState} (held : MainState main old)
    (moves : new = old ∨ old = .running ∨ old = .fault ∨ old = .recovery) :
    MainState main new := by
  rcases moves with rfl | active
  · exact held
  · have busy : old ≠ .boot ∧ old ≠ .init ∧ old ≠ .ready := by
      rcases active with rfl | rfl | rfl <;> simp
    cases main with
    | starting point => cases point <;> simp_all [MainState]
    | handling req point => cases point <;> simp_all [MainState]
    | initialised | serving | stopping | stopped => simp_all [MainState]

/-- Outside the tail of a fault any store keeps the invariant. -/
theorem consistent_store {next : World} (quiet : ¬ FaultTail next.watchdog)
    (main : MainState next.main next.ctx.state) : Consistent next :=
  ⟨fun tail => absurd tail quiet, main⟩

theorem not_tail {world : World} (consistent : Consistent world)
    (elsewhere : world.ctx.state ≠ .fault) : ¬ FaultTail world.watchdog :=
  fun tail => elsewhere (consistent.tail tail)

theorem start_follows (world : World) (created : Bool) (point : StartPoint)
    (here : world.main = .starting point) (consistent : Consistent world) :
    Follows (some .start) world.ctx.state (startStep world created point).ctx.state ∧
      Consistent (startStep world created point) := by
  have held : MainState (.starting point) world.ctx.state := here ▸ consistent.main
  cases point with
  | init =>
      have quiet := not_tail consistent (by rw [held]; decide)
      exact ⟨by rw [held]; exact follows_edge .boots, consistent_store quiet rfl⟩
  | ready =>
      have quiet := not_tail consistent (by rw [held]; decide)
      exact ⟨by rw [held]; exact follows_edge .readies, consistent_store quiet rfl⟩
  | started =>
      have quiet := not_tail consistent (by rw [held]; decide)
      exact ⟨by rw [held]; exact follows_edge .starts, consistent_store quiet trivial⟩
  | running | fail => exact ⟨follows_same _ _, consistent.tail, held⟩
  | createSensor | createProcessing =>
      cases created <;> exact ⟨follows_same _ _, consistent.tail, held⟩
  | createWatchdog =>
      cases created with
      | false => exact ⟨follows_same _ _, consistent.tail, held⟩
      | true =>
          exact ⟨follows_same _ _, consistent_store (by simp [startStep, FaultTail]) held⟩
  | joinSensor | joinProcessing =>
      simp only [startStep]
      split_ifs
      · exact ⟨follows_same _ _, consistent⟩
      · exact ⟨follows_same _ _, consistent.tail, held⟩
  | failed => exact ⟨follows_same _ _, consistent⟩

theorem reset_follows (world : World) (order : OperandOrder) (created : Bool) (req : MlrtPacket)
    (point : ResetPoint) (here : world.main = .handling req (.reset point))
    (consistent : Consistent world)
    (outside : point = .init → ¬ FaultTail world.watchdog) :
    Follows (some .reset) world.ctx.state (mainStep world order created).ctx.state ∧
      Consistent (mainStep world order created) := by
  have held : point = .init ∨ world.ctx.state = .init := by
    have held := consistent.main
    rw [here] at held
    exact held
  rw [mainStep_reset world order created req point here]
  cases point with
  | init =>
      exact ⟨follows_edge (.resets _), consistent_store (outside rfl) (Or.inr rfl)⟩
  | running =>
      have stored : world.ctx.state = .init := by simpa using held
      have quiet := not_tail consistent (by rw [stored]; decide)
      exact ⟨by rw [stored]; exact follows_edge .restarts, consistent_store quiet trivial⟩
  | produced | processed | recoveries | crcErrors | freeze | startedClock | started | lastClock
  | last | heartbeatClock | heartbeat =>
      have stored : world.ctx.state = .init := by simpa using held
      exact ⟨follows_same _ _, consistent.tail, Or.inr stored⟩

theorem main_follows (world : World) (order : OperandOrder) (created : Bool)
    (consistent : Consistent world)
    (outside : ResetOutsideTail world (.main order created)) :
    Follows (writerOf world (.main order created)) world.ctx.state
        (mainStep world order created).ctx.state ∧
      Consistent (mainStep world order created) := by
  cases here : world.main with
  | starting point =>
      have writer : writerOf world (.main order created) = some .start := by simp [writerOf, here]
      have moved : mainStep world order created = startStep world created point := by
        simp [mainStep, here]
      rw [writer, moved]
      exact start_follows world created point here consistent
  | handling req point =>
      cases point with
      | reset point =>
          have writer : writerOf world (.main order created) = some .reset := by
            simp [writerOf, here]
          rw [writer]
          refine reset_follows world order created req point here consistent ?_
          rintro rfl
          exact outside (by simp [storesInit, here])
      | status | configSet | injectClock | inject =>
          obtain ⟨rate, freeze, main, rsp, events, moved, after, -⟩ :=
            mainStep_plain world order created req _ here trivial
          rw [moved]
          have kept : MainState main world.ctx.state := by
            rcases after with ⟨next, later, rfl⟩ | rfl
            · cases next <;> first | exact later.elim | trivial
            · trivial
          exact ⟨follows_same _ _, consistent.tail, kept⟩
  | stopping point =>
      have moved : mainStep world order created = stopStep world point := by
        simp [mainStep, here]
      rw [moved]
      cases point with
      | running => exact ⟨follows_same _ _, consistent.tail, trivial⟩
      | joinSensor | joinProcessing | joinWatchdog =>
          simp only [stopStep]
          split_ifs
          · exact ⟨follows_same _ _, consistent⟩
          · exact ⟨follows_same _ _, consistent.tail, trivial⟩
  | initialised | serving | stopped =>
      have moved : mainStep world order created = world := by simp [mainStep, here]
      rw [moved]
      exact ⟨follows_same _ _, consistent⟩

theorem mainState_opening {arch : Arch} {action : Action} {main next : MainPoint}
    {events : List Event} {state : TargetState}
    (opening : Opening arch action main next events) (held : MainState main state) : MainState next state := by
  cases opening with
  | starts => exact held
  | answers | rejects | stops => trivial
  | enters req point entry =>
      cases entry with
      | status | configSet | injectClock => trivial
      | reset => exact Or.inl rfl

theorem opens_follows (world : World) (action : Action) (opens : Opens action)
    (consistent : Consistent world) :
    Follows (writerOf world action) world.ctx.state (step world action).ctx.state ∧
      Consistent (step world action) := by
  rcases opening_cases world action opens with same | ⟨main, crcErrors, rsp, events, opening, moved⟩
  · rw [same]
    exact ⟨follows_same _ _, consistent⟩
  · rw [moved]
    exact ⟨follows_same _ _, consistent.tail, mainState_opening opening consistent.main⟩

theorem step_follows (world : World) (action : Action) (consistent : Consistent world)
    (outside : ResetOutsideTail world action) :
    Follows (writerOf world action) world.ctx.state (step world action).ctx.state ∧
      Consistent (step world action) := by
  cases action with
  | tick time =>
      simp only [step]
      split_ifs
      · exact ⟨follows_same _ _, consistent.tail, consistent.main⟩
      · exact ⟨follows_same _ _, consistent⟩
  | sensor =>
      obtain ⟨queue, produced, same⟩ := sensorStep_ctx world.ctx world.clock world.sensor
      simp only [step, same]
      exact ⟨follows_same _ _, consistent.tail, consistent.main⟩
  | processing rc =>
      obtain ⟨queue, processed, last, heartbeat, freeze, same⟩ :=
        processingStep_ctx world.ctx world.clock rc world.processing
      simp only [step, same]
      exact ⟨follows_same _ _, consistent.tail, consistent.main⟩
  | watchdog order =>
      obtain ⟨follows, tail, moves⟩ :=
        watchdog_follows world.ctx world.clock order world.watchdog consistent.tail
      exact ⟨follows, tail, mainState_watchdog consistent.main moves⟩
  | start | request | rejectCrc | stop => exact opens_follows world _ trivial consistent
  | main order created => exact main_follows world order created consistent outside

/-! ## Runs -/

/-- The watchdog finds a heartbeat of 600 ms ago and stores FAULT, then
RECOVERY. -/
def stall : List Action :=
  [.watchdog .clockFirst, .tick 600000000] ++ List.replicate 5 (.watchdog .clockFirst)

/-- As `stall`, with the INIT of a reset before the last store. -/
def overwritten : List Action :=
  startUp ++ stall.dropLast ++ [.request (some resetRequest) true, .main .clockFirst true]

section Runs
variable {arch : Arch} {ctx : TargetCtx} {clock : UInt64} {rateHz : UInt32} {os : PthreadInit}
  {times : InitTimes}

/-- In every run whose resets stay outside the tail of a fault, every step that
changes the state takes an edge of its writer, and a watchdog about to store
RECOVERY finds the FAULT it stored itself. -/
theorem target_state_follows_graph (initialised : mlrtTargetInit rateHz os times = some ctx)
    (schedule : List Action) (action : Action)
    (outside : Admits step ResetOutsideTail (boot arch ctx clock) (schedule ++ [action])) :
    let world := run step (boot arch ctx clock) schedule
    let next := step world action
    (next.ctx.state ≠ world.ctx.state →
      ∃ writer, writerOf world action = some writer ∧
        StateEdge writer world.ctx.state next.ctx.state) ∧
      (FaultTail world.watchdog → world.ctx.state = .fault) := by
  intro world next
  obtain ⟨before, here, -⟩ :=
    (admits_append step ResetOutsideTail (boot arch ctx clock) schedule [action]).mp outside
  obtain ⟨-, -, rfl⟩ := mlrtTargetInit_some initialised
  have start : Consistent (boot arch (initialCtx rateHz times) clock) :=
    ⟨by simp [boot, FaultTail], rfl⟩
  have consistent : Consistent world :=
    run_invariant Consistent (fun world action held ok => (step_follows world action held ok).2)
      _ schedule start before
  refine ⟨fun changed => ?_, consistent.tail⟩
  rcases (step_follows world action consistent here).1 with same | edge
  · exact absurd same changed
  · exact edge

/-- A stall is detected, reported and confirmed over; then a reset. -/
theorem target_state_follows_graph_reset :
    ∃ ctx, mlrtTargetInit 100 ⟨0, 0, 0, 0⟩ ⟨0, 0, 0⟩ = some ctx ∧
      Admits step ResetOutsideTail (boot .x8664 ctx 0)
        (startUp ++ stall ++ [.request (some resetRequest) true] ++ [.main .clockFirst true]) ∧
      ∃ writer, StateEdge writer .recovery .init := by
  refine ⟨_, rfl, by decide +kernel, ?_⟩
  have graph := (@target_state_follows_graph .x8664 _ 0 100 ⟨0, 0, 0, 0⟩ ⟨0, 0, 0⟩ rfl
    (startUp ++ stall ++ [.request (some resetRequest) true]) (.main .clockFirst true)
    (by decide +kernel)).1 (by decide +kernel)
  obtain ⟨writer, -, edge⟩ := graph
  exact ⟨writer, edge⟩

/-- A reset between the two stores of a fault: RECOVERY overwrites its INIT. -/
theorem target_state_follows_graph_overwritten :
    ∃ ctx, mlrtTargetInit 100 ⟨0, 0, 0, 0⟩ ⟨0, 0, 0⟩ = some ctx ∧
      (run step (boot .x8664 ctx 0) overwritten).ctx.state = .init ∧
      (step (run step (boot .x8664 ctx 0) overwritten) (.watchdog .clockFirst)).ctx.state =
        .recovery ∧
      ¬ ∃ writer, StateEdge writer .init .recovery := by
  refine ⟨_, rfl, by decide +kernel, by decide +kernel, ?_⟩
  rintro ⟨writer, ⟨⟩⟩

end Runs

end EmbeddedRuntime.Target.StateGraph
