import EmbeddedRuntime.Target.Steps

/-!
# Accounting of the samples

A sample is pushed before it is counted as produced and popped before it is
counted as processed, so the law has a term for each worker that is between the
two.  `reset_runtime` zeroes the two counters one after the other and leaves the
queue as it is: between its stores the law is off by the value `produced` had,
and afterwards it holds only if the queue then holds exactly the samples counted
since the first store.
-/

set_option autoImplicit false

namespace EmbeddedRuntime.Target.Samples

open EmbeddedRuntime.Lib.Machine
open EmbeddedRuntime.Protocol.Packet
open EmbeddedRuntime.Realtime.RingBuffer
open EmbeddedRuntime.Target.Context
open EmbeddedRuntime.Target.Handler
open EmbeddedRuntime.Target.Model
open EmbeddedRuntime.Target.Steps

/-- A sample pushed and not yet counted. -/
def pushedUncounted : SensorPoint → UInt64
  | .count _ => 1
  | _ => 0

/-- A sample popped and not yet counted. -/
def poppedUncounted : ProcessingPoint → UInt64
  | .count => 1
  | _ => 0

/-- Neither worker is between its ring operation and its increment. -/
def Quiescent (world : World) : Prop :=
  pushedUncounted world.sensor = 0 ∧ poppedUncounted world.processing = 0

/-- The accounting law. -/
def Accounted (ctx : TargetCtx) : Prop :=
  ctx.produced = ctx.processed + UInt64.ofNat ctx.queue.count

instance (world : World) : Decidable (Quiescent world) := inferInstanceAs (Decidable (_ ∧ _))

instance (ctx : TargetCtx) : Decidable (Accounted ctx) := inferInstanceAs (Decidable (_ = _))

/-- `reset_runtime` has zeroed `produced` and not yet `processed`. -/
def BetweenStores : MainPoint → Prop
  | .handling _ (.reset .processed) => True
  | _ => False

/-- What `produced` was when a reset last zeroed it. -/
def lastProducedReset (events : List Event) : UInt64 :=
  events.foldl (fun last event => match event with | .producedReset old => old | _ => last) 0

/-- When a reset zeroes `processed`, the samples counted since it zeroed
`produced` are those in the queue. -/
def ResetKeepsQueue (world : World) (action : Action) : Prop :=
  match action, world.main with
  | .main _ _, .handling _ (.reset .processed) =>
      world.ctx.produced + pushedUncounted world.sensor =
        UInt64.ofNat world.ctx.queue.count + poppedUncounted world.processing
  | _, _ => True

/-- The value of the sample counter that a reset zeroes in this step. -/
def zeroed (world : World) : Action → Option UInt64
  | .main _ _ =>
      match world.main with
      | .handling _ (.reset .produced) => some world.ctx.produced
      | .handling _ (.reset .processed) => some world.ctx.processed
      | _ => none
  | _ => none

/-- A reset finds each of the two counters at zero when it zeroes it. -/
def ResetFindsZero (world : World) (action : Action) : Prop :=
  ∀ value ∈ zeroed world action, value = 0

instance (world : World) (action : Action) : Decidable (ResetFindsZero world action) :=
  Option.decidableForallMem (zeroed world action)

/-- The law with the two pending counts and the debt of a reset between its
stores. -/
def Balance (ctx : TargetCtx) (sensor : SensorPoint) (processing : ProcessingPoint)
    (debt : UInt64) : Prop :=
  ctx.produced + pushedUncounted sensor + debt =
    ctx.processed + poppedUncounted processing + UInt64.ofNat ctx.queue.count

/-! ## The workers -/

theorem mlrtRingPush_count (rb : MlrtRingBuffer) (item : List UInt8) :
    (mlrtRingPush rb (some item) 0).2.count =
      if (mlrtRingPush rb (some item) 0).1 = 0 then rb.count + 1 else rb.count := by
  by_cases full : rb.count = rb.capacity
  · simp [mlrtRingPush, full]
  · simp [mlrtRingPush, full, storeItem]

theorem waitPopTest_count (rb : MlrtRingBuffer) :
    (waitPopTest rb = (.waiting, rb)) ∨
      ∃ item, waitPopTest rb = (.returned 0 (some item), (takeItem rb).2) ∧
        rb.count = (takeItem rb).2.count + 1 := by
  unfold waitPopTest
  split_ifs with empty
  · exact Or.inl rfl
  · refine Or.inr ⟨_, rfl, ?_⟩
    simp only [takeItem]
    omega

theorem balance_sensor {ctx : TargetCtx} {sensor : SensorPoint} {processing : ProcessingPoint}
    {debt : UInt64} (clock : UInt64) (balance : Balance ctx sensor processing debt) :
    Balance (sensorStep ctx clock sensor).1 (sensorStep ctx clock sensor).2 processing debt := by
  unfold Balance at balance ⊢
  cases sensor with
  | push locals timestamp =>
      simp only [sensorStep, mlrtRingPush_count]
      split_ifs with stored
      · simp only [pushedUncounted] at balance ⊢
        rw [UInt64.ofNat_add]
        grind
      · exact balance
  | count locals =>
      simp only [sensorStep, pushedUncounted] at balance ⊢
      grind
  | loop | recheck | sleep =>
      simp only [sensorStep]
      split_ifs <;> exact balance
  | lag =>
      simp only [sensorStep]
      split_ifs <;> exact balance
  | absent | begin | rate | stamp | resync | exited => exact balance

/-- A critical section of the worker's pop, before the point it leads to. -/
theorem balance_popped {ctx : TargetCtx} {sensor : SensorPoint} {debt : UInt64}
    (result : PopResult × MlrtRingBuffer)
    (critical : result = waitPopTest ctx.queue ∨
      ∃ code, code ≠ 0 ∧ result = (.returned code none, ctx.queue))
    (balance : Balance ctx sensor .pop debt) :
    Balance { ctx with queue := result.2 } sensor (popped result.1) debt := by
  unfold Balance at balance ⊢
  rcases critical with rfl | ⟨code, failed, rfl⟩
  · rcases waitPopTest_count ctx.queue with waits | ⟨item, takes, held⟩
    · rw [waits]
      exact balance
    · rw [takes]
      simp only [popped, if_true, poppedUncounted] at balance ⊢
      rw [held, UInt64.ofNat_add] at balance
      grind
  · simp only [popped, if_neg failed]
    exact balance

theorem balance_processing {ctx : TargetCtx} {sensor : SensorPoint}
    {processing : ProcessingPoint} {debt : UInt64} (clock : UInt64) (rc : Int)
    (balance : Balance ctx sensor processing debt) :
    Balance (processingStep ctx clock rc processing).1 sensor
      (processingStep ctx clock rc processing).2.1 debt := by
  cases processing with
  | pop => exact balance_popped _ (Or.inl rfl) balance
  | wait =>
      refine balance_popped (mlrtRingWaitPopWake ctx.queue 100 rc) ?_ balance
      simp only [mlrtRingWaitPopWake]
      split_ifs
      · contradiction
      · contradiction
      · exact Or.inr ⟨1, by decide, rfl⟩
      · exact Or.inr ⟨-1, by decide, rfl⟩
      · exact Or.inl rfl
  | count =>
      simp only [Balance, processingStep, poppedUncounted] at balance ⊢
      grind
  | loop | freeze | frozen | expired =>
      simp only [processingStep]
      split_ifs <;> exact balance
  | absent | thaw | stamp | last | beatClock | beat | exited => exact balance

/-! ## One step -/

/-- The sensor and the processing worker do not run before they are created. -/
def Uncreated : MainPoint → SensorPoint → ProcessingPoint → Prop
  | .initialised, sensor, processing
  | .starting .init, sensor, processing
  | .starting .running, sensor, processing
  | .starting .ready, sensor, processing
  | .starting .createSensor, sensor, processing => sensor = .absent ∧ processing = .absent
  | .starting .createProcessing, _, processing => processing = .absent
  | _, _, _ => True

/-- The debt of the request thread's point. -/
def debt (world : World) : UInt64 :=
  match world.main with
  | .handling _ (.reset .processed) => lastProducedReset world.events
  | _ => 0

structure Balanced (world : World) : Prop where
  uncreated : Uncreated world.main world.sensor world.processing
  balance : Balance world.ctx world.sensor world.processing (debt world)

theorem uncreated_workers {main : MainPoint} {sensor next : SensorPoint}
    {processing nextProcessing : ProcessingPoint} (held : Uncreated main sensor processing)
    (sensorStays : sensor = .absent → next = .absent)
    (processingStays : processing = .absent → nextProcessing = .absent) :
    Uncreated main next nextProcessing := by
  revert held
  unfold Uncreated
  split <;> intro held
  all_goals first
    | exact ⟨sensorStays held.1, processingStays held.2⟩
    | exact processingStays held
    | trivial

theorem lastProducedReset_append (events extra : List Event)
    (other : ∀ event ∈ extra, ∀ old, event ≠ .producedReset old) :
    lastProducedReset (events ++ extra) = lastProducedReset events := by
  induction extra generalizing events with
  | nil => rw [List.append_nil]
  | cons event rest ih =>
      have same : lastProducedReset (events ++ [event]) = lastProducedReset events := by
        unfold lastProducedReset
        rw [List.foldl_append]
        cases event with
        | producedReset old => exact absurd rfl (other _ List.mem_cons_self old)
        | heartbeatLoad | beat | faulted | recovered | answered => rfl
      rw [List.append_cons, ih (events ++ [event]) fun event here =>
        other event (List.mem_cons_of_mem _ here), same]

/-- A step that records no reset of `produced` and leaves the request thread
where it is owes what was owed. -/
theorem debt_append {world next : World} (extra : List Event) (sameMain : next.main = world.main)
    (recorded : next.events = world.events ++ extra)
    (other : ∀ event ∈ extra, ∀ old, event ≠ .producedReset old) : debt next = debt world := by
  unfold debt
  rw [sameMain, recorded, lastProducedReset_append world.events extra other]

theorem balanced_sensor {world : World} (balanced : Balanced world) :
    Balanced (step world .sensor) := by
  have same : debt (step world .sensor) = debt world :=
    debt_append [] rfl (List.append_nil _).symm (by simp)
  refine ⟨?_, ?_⟩
  · refine uncreated_workers balanced.uncreated ?_ id
    intro absent
    simp [step, absent, sensorStep]
  · rw [same]
    exact balance_sensor world.clock balanced.balance

theorem processingStep_noReset (ctx : TargetCtx) (clock : UInt64) (rc : Int)
    (point : ProcessingPoint) :
    ∀ event ∈ (processingStep ctx clock rc point).2.2, ∀ old, event ≠ .producedReset old := by
  cases point <;> simp [processingStep]

theorem watchdogStep_noReset (ctx : TargetCtx) (clock : UInt64) (order : OperandOrder)
    (point : WatchdogPoint) :
    ∀ event ∈ (watchdogStep ctx clock order point).2.2, ∀ old, event ≠ .producedReset old := by
  cases point with
  | sample => cases order <;> simp [watchdogStep]
  | judge =>
      simp only [watchdogStep]
      split_ifs <;> simp
  | absent | loop | loadHeartbeat | readClock | release | recover | count | exited =>
      simp [watchdogStep]

theorem balanced_processing {world : World} (balanced : Balanced world) (rc : Int) :
    Balanced (step world (.processing rc)) := by
  have same : debt (step world (.processing rc)) = debt world :=
    debt_append _ rfl rfl (processingStep_noReset _ _ _ _)
  refine ⟨?_, ?_⟩
  · refine uncreated_workers balanced.uncreated id ?_
    intro absent
    simp [step, absent, processingStep, World.record]
  · rw [same]
    exact balance_processing world.clock rc balanced.balance

theorem balanced_watchdog {world : World} (balanced : Balanced world) (order : OperandOrder) :
    Balanced (step world (.watchdog order)) := by
  have same : debt (step world (.watchdog order)) = debt world :=
    debt_append _ rfl rfl (watchdogStep_noReset _ _ _ _)
  obtain ⟨state, recoveries, freeze, frame⟩ :=
    watchdogStep_ctx world.ctx world.clock order world.watchdog
  refine ⟨balanced.uncreated, ?_⟩
  rw [same]
  simp only [step, frame]
  exact balanced.balance

/-- No debt outside the two stores. -/
theorem debt_outside {world : World} (outside : ¬ BetweenStores world.main) : debt world = 0 := by
  unfold debt
  unfold BetweenStores at outside
  split
  · rename_i here
    rw [here] at outside
    exact absurd trivial outside
  · rfl

theorem balanced_opens {world : World} (balanced : Balanced world) (action : Action)
    (opens : Opens action) : Balanced (step world action) := by
  rcases opening_cases world action opens with same | ⟨main, crcErrors, rsp, events, opening, moved⟩
  · rw [same]
    exact balanced
  · have before : ¬ BetweenStores world.main ∧ ¬ BetweenStores main ∧
        Uncreated main world.sensor world.processing := by
      have uncreated := balanced.uncreated
      revert uncreated
      generalize world.main = old at opening
      intro uncreated
      cases opening with
      | starts => exact ⟨id, id, uncreated⟩
      | answers | rejects | stops => exact ⟨id, id, trivial⟩
      | enters req point entry => cases entry <;> exact ⟨id, id, trivial⟩
    have balance := balanced.balance
    rw [debt_outside before.1] at balance
    rw [moved]
    refine ⟨before.2.2, ?_⟩
    rw [debt_outside before.2.1]
    exact balance

theorem uncreated_start (world : World) (created : Bool) (point : StartPoint)
    (here : world.main = .starting point)
    (held : Uncreated (.starting point) world.sensor world.processing) :
    Uncreated (startStep world created point).main (startStep world created point).sensor
      (startStep world created point).processing := by
  cases point with
  | init | running | ready => exact held
  | createSensor =>
      cases created
      · trivial
      · exact held.2
  | createProcessing | createWatchdog => cases created <;> trivial
  | joinSensor | joinProcessing =>
      simp only [startStep]
      split_ifs
      · rw [here]
        exact held
      · trivial
  | failed =>
      simp only [startStep]
      rw [here]
      exact held
  | started | fail => trivial

theorem balanced_start {world : World} (balanced : Balanced world) (order : OperandOrder)
    (created : Bool) (outside : OutsideHandler world.main) :
    Balanced (step world (.main order created)) := by
  obtain ⟨state, running, threads, sensor, processing, watchdog, main, moved, sensorCase,
    processingCase, -, outsideNext⟩ := mainStep_outside world order created outside
  have notBetween : ∀ point, OutsideHandler point → ¬ BetweenStores point := by
    intro point quiet between
    cases point <;> first | exact quiet.elim | exact between.elim
  have balance := balanced.balance
  rw [debt_outside (notBetween _ outside)] at balance
  have uncreated : Uncreated (mainStep world order created).main
      (mainStep world order created).sensor (mainStep world order created).processing := by
    have held := balanced.uncreated
    simp only [mainStep]
    cases here : world.main with
    | handling => rw [here] at outside; exact outside.elim
    | starting point =>
        rw [here] at held
        exact uncreated_start world created point here held
    | initialised | serving | stopped => exact held
    | stopping point =>
        cases point with
        | running => trivial
        | joinSensor | joinProcessing | joinWatchdog =>
            simp only [stopStep]
            split_ifs
            · exact held
            · trivial
  refine ⟨uncreated, ?_⟩
  simp only [step, moved]
  rw [debt_outside (notBetween _ outsideNext)]
  rcases sensorCase with rfl | ⟨rfl, creating⟩
  · rcases processingCase with rfl | ⟨rfl, creating⟩
    · exact balance
    · have absent := balanced.uncreated
      rw [creating] at absent
      rw [absent] at balance
      exact balance
  · have absent := balanced.uncreated
    rw [creating] at absent
    rw [absent.1, absent.2] at balance
    rcases processingCase with rfl | ⟨rfl, -⟩
    · rw [absent.2]
      exact balance
    · exact balance

theorem balanced_reset {world : World} (balanced : Balanced world) (order : OperandOrder)
    (created : Bool) (req : MlrtPacket) (point : ResetPoint)
    (here : world.main = .handling req (.reset point))
    (keepsQueue : ResetKeepsQueue world (.main order created)) :
    Balanced (step world (.main order created)) := by
  have balance := balanced.balance
  simp only [step]
  rw [mainStep_reset world order created req point here]
  cases point with
  | processed =>
      have counted : world.ctx.produced + pushedUncounted world.sensor =
          UInt64.ofNat world.ctx.queue.count + poppedUncounted world.processing := by
        simpa [ResetKeepsQueue, here] using keepsQueue
      refine ⟨trivial, ?_⟩
      show world.ctx.produced + pushedUncounted world.sensor + 0 =
        0 + poppedUncounted world.processing + UInt64.ofNat world.ctx.queue.count
      rw [counted]
      grind
  | produced =>
      rw [debt_outside (by rw [here]; exact id)] at balance
      refine ⟨trivial, ?_⟩
      have owed : lastProducedReset (world.events ++ [.producedReset world.ctx.produced]) =
          world.ctx.produced := by
        unfold lastProducedReset
        rw [List.foldl_append]
        rfl
      show 0 + pushedUncounted world.sensor +
        lastProducedReset (world.events ++ [.producedReset world.ctx.produced]) =
          world.ctx.processed + poppedUncounted world.processing +
            UInt64.ofNat world.ctx.queue.count
      rw [owed]
      unfold Balance at balance
      grind
  | init | recoveries | crcErrors | freeze | startedClock | started | lastClock | last
  | heartbeatClock | heartbeat | running =>
      rw [debt_outside (by rw [here]; exact id)] at balance
      exact ⟨trivial, balance⟩

theorem balanced_main {world : World} (balanced : Balanced world) (order : OperandOrder)
    (created : Bool) (keepsQueue : ResetKeepsQueue world (.main order created)) :
    Balanced (step world (.main order created)) := by
  cases here : world.main with
  | initialised | starting | serving | stopping | stopped =>
      exact balanced_start balanced order created (by rw [here]; trivial)
  | handling req point =>
      cases point with
      | reset point => exact balanced_reset balanced order created req point here keepsQueue
      | status | configSet | injectClock | inject =>
          obtain ⟨rate, freeze, main, rsp, events, moved, after, -⟩ :=
            mainStep_plain world order created req _ here trivial
          have quiet : ¬ BetweenStores main ∧ Uncreated main world.sensor world.processing := by
            rcases after with ⟨next, later, rfl⟩ | rfl
            · cases next <;> first | exact later.elim | exact ⟨id, trivial⟩
            · exact ⟨id, trivial⟩
          have balance := balanced.balance
          rw [debt_outside (by rw [here]; exact id)] at balance
          simp only [step, moved]
          refine ⟨quiet.2, ?_⟩
          rw [debt_outside quiet.1]
          exact balance

theorem step_balanced (world : World) (action : Action) (balanced : Balanced world)
    (keepsQueue : ResetKeepsQueue world action) : Balanced (step world action) := by
  cases action with
  | tick time =>
      simp only [step]
      split_ifs
      · exact ⟨balanced.uncreated, balanced.balance⟩
      · exact balanced
  | sensor => exact balanced_sensor balanced
  | processing rc => exact balanced_processing balanced rc
  | watchdog order => exact balanced_watchdog balanced order
  | start | request | rejectCrc | stop => exact balanced_opens balanced _ trivial
  | main order created => exact balanced_main balanced order created keepsQueue

/-! ## Resets that find zero -/

theorem onlyAnswer_noReset {extra : List Event} (answer : OnlyAnswer extra) :
    ∀ event ∈ extra, ∀ old, event ≠ .producedReset old := by
  rcases answer with rfl | ⟨req, rsp, rfl⟩ <;> simp

theorem opens_noDebt (world : World) (action : Action) (opens : Opens action)
    (none : lastProducedReset world.events = 0) :
    lastProducedReset (step world action).events = 0 := by
  rcases opening_cases world action opens with same | ⟨main, crcErrors, rsp, events, opening, moved⟩
  · rw [same]
    exact none
  · rw [moved, lastProducedReset_append _ _ (onlyAnswer_noReset (onlyAnswer_opening opening))]
    exact none

/-- A reset that finds `produced` at zero leaves no debt behind. -/
theorem step_noDebt (world : World) (action : Action) (none : lastProducedReset world.events = 0)
    (findsZero : ResetFindsZero world action) :
    lastProducedReset (step world action).events = 0 := by
  cases action with
  | tick time =>
      simp only [step]
      split_ifs <;> exact none
  | sensor => exact none
  | processing rc =>
      simp only [step, record_events]
      rw [lastProducedReset_append _ _ (processingStep_noReset _ _ _ _)]
      exact none
  | watchdog order =>
      simp only [step, record_events]
      rw [lastProducedReset_append _ _ (watchdogStep_noReset _ _ _ _)]
      exact none
  | start | request | rejectCrc | stop => exact opens_noDebt world _ trivial none
  | main order created =>
      simp only [step]
      cases here : world.main with
      | initialised | starting | serving | stopping | stopped =>
          obtain ⟨_, _, _, _, _, _, _, moved, -⟩ :=
            mainStep_outside world order created (by rw [here]; trivial)
          rw [moved]
          exact none
      | handling req point =>
          cases point with
          | reset point =>
              rw [mainStep_reset world order created req point here]
              cases point with
              | produced =>
                  have zero := findsZero world.ctx.produced (by simp [zeroed, here])
                  show lastProducedReset (world.events ++ [.producedReset world.ctx.produced]) = 0
                  unfold lastProducedReset
                  rw [List.foldl_append]
                  exact zero
              | running =>
                  show lastProducedReset (world.events ++ [] ++ [.answered req (resetAck req)]) = 0
                  rw [List.append_nil, lastProducedReset_append _ _ (by simp)]
                  exact none
              | init | processed | recoveries | crcErrors | freeze | startedClock | started
              | lastClock | last | heartbeatClock | heartbeat =>
                  show lastProducedReset (world.events ++ []) = 0
                  rw [List.append_nil]
                  exact none
          | status | configSet | injectClock | inject =>
              obtain ⟨_, _, _, _, events, moved, -, answer, -⟩ :=
                mainStep_plain world order created req _ here trivial
              rw [moved, lastProducedReset_append _ _ (onlyAnswer_noReset answer)]
              exact none

/-- Such a reset finds the queue as the weaker condition asks. -/
theorem keepsQueue_of_findsZero {world : World} (action : Action) (balanced : Balanced world)
    (none : lastProducedReset world.events = 0) (findsZero : ResetFindsZero world action) :
    ResetKeepsQueue world action := by
  unfold ResetKeepsQueue
  split
  · rename_i here
    have zero := findsZero world.ctx.processed (by simp [zeroed, here])
    have balance := balanced.balance
    have noDebt : debt world = 0 := by simp only [debt, here, none]
    simp only [Balance, noDebt, zero] at balance
    grind
  · trivial

/-! ## A reset without other threads -/

/-- Steps of the request thread alone. -/
def Alone : Action → Prop
  | .main _ _ | .tick _ => True
  | _ => False

/-- The five counters of the status response. -/
def CountersZero (ctx : TargetCtx) : Prop :=
  ctx.produced = 0 ∧ ctx.processed = 0 ∧ ctx.queue.dropped = 0 ∧ ctx.crcErrors = 0 ∧
    ctx.watchdogRecoveries = 0

/-- The counters a reset has zeroed when it stands at a point. -/
def Cleared (ctx : TargetCtx) : ResetPoint → Prop
  | .init | .produced => True
  | .processed => ctx.produced = 0
  | .recoveries => ctx.produced = 0 ∧ ctx.processed = 0
  | .crcErrors => ctx.produced = 0 ∧ ctx.processed = 0 ∧ ctx.watchdogRecoveries = 0
  | _ => ctx.produced = 0 ∧ ctx.processed = 0 ∧ ctx.watchdogRecoveries = 0 ∧ ctx.crcErrors = 0

/-- A reset that runs alone: the ring's drop counter stays, and the request
thread is inside the reset or has acknowledged it. -/
structure Resetting (dropped : UInt64) (world : World) : Prop where
  dropped : world.ctx.queue.dropped = dropped
  inside : (∃ req point, world.main = .handling req (.reset point) ∧ Cleared world.ctx point) ∨
    world.main = .serving ∧ Cleared world.ctx .running

theorem resetting_step (dropped : UInt64) (world : World) (action : Action)
    (resetting : Resetting dropped world) (alone : Alone action) :
    Resetting dropped (step world action) := by
  cases action with
  | sensor | processing | watchdog | start | request | rejectCrc | stop => exact alone.elim
  | tick time =>
      simp only [step]
      split_ifs
      · exact ⟨resetting.dropped, resetting.inside⟩
      · exact resetting
  | main order created =>
      simp only [step]
      rcases resetting.inside with ⟨req, point, here, cleared⟩ | ⟨here, cleared⟩
      · rw [mainStep_reset world order created req point here]
        have kept := resetting.dropped
        cases point with
        | init => exact ⟨kept, Or.inl ⟨req, _, rfl, trivial⟩⟩
        | produced => exact ⟨kept, Or.inl ⟨req, _, rfl, rfl⟩⟩
        | processed => exact ⟨kept, Or.inl ⟨req, _, rfl, cleared, rfl⟩⟩
        | recoveries => exact ⟨kept, Or.inl ⟨req, _, rfl, cleared.1, cleared.2, rfl⟩⟩
        | crcErrors => exact ⟨kept, Or.inl ⟨req, _, rfl, cleared.1, cleared.2.1, cleared.2.2, rfl⟩⟩
        | freeze | startedClock | started | lastClock | last | heartbeatClock | heartbeat =>
            exact ⟨kept, Or.inl ⟨req, _, rfl, cleared⟩⟩
        | running => exact ⟨kept, Or.inr ⟨rfl, cleared⟩⟩
      · have same : mainStep world order created = world := by simp only [mainStep, here]
        rw [same]
        exact resetting

/-- A reset with no step of a worker leaves the counters at zero exactly when
the ring had dropped nothing. -/
theorem reset_alone (world : World) (req : MlrtPacket) (tail : List Action)
    (serving : world.main = .serving) (isReset : req.type = msgReset)
    (alone : ∀ action ∈ tail, Alone action)
    (acknowledged : (run step (step world (.request (some req) true)) tail).main = .serving) :
    CountersZero (run step (step world (.request (some req) true)) tail).ctx ↔
      world.ctx.queue.dropped = 0 := by
  have entered : step world (.request (some req) true) =
      { world with main := .handling req (.reset .init) } := by
    simp only [step, requestStep, serving, mlrtTargetHandlePacket,
      handlePacket_reset world.arch req isReset, World.handled]
  rw [entered] at acknowledged ⊢
  have begun : Resetting world.ctx.queue.dropped
      { world with main := .handling req (.reset .init) } :=
    ⟨rfl, Or.inl ⟨req, .init, rfl, trivial⟩⟩
  have finished := run_invariant (Resetting world.ctx.queue.dropped)
    (resetting_step world.ctx.queue.dropped) _ tail begun
    (admits_of_forall step Alone _ tail alone)
  rcases finished.inside with ⟨other, point, here, -⟩ | ⟨-, cleared⟩
  · rw [here] at acknowledged
    cases acknowledged
  · rw [← finished.dropped]
    exact ⟨fun zero => zero.2.2.1, fun none =>
      ⟨cleared.1, cleared.2.1, none, cleared.2.2.2, cleared.2.2.1⟩⟩

/-! ## Runs -/

/-- The first sample: the sensor sleeps for its period, pushes and counts. -/
def sample : List Action :=
  List.replicate 3 Action.sensor ++ [Action.tick 10000000] ++ List.replicate 5 Action.sensor

/-- A reset that no other thread interrupts. -/
def reset : List Action :=
  .request (some resetRequest) true :: List.replicate 13 (.main .clockFirst true)

section Runs
variable {arch : Arch} {ctx : TargetCtx} {clock : UInt64} {rateHz : UInt32} {os : PthreadInit}
  {times : InitTimes}

theorem balanced_boot : Balanced (boot arch (initialCtx rateHz times) clock) :=
  ⟨⟨rfl, rfl⟩, rfl⟩

theorem accounted_of_noDebt {world : World} (balanced : Balanced world)
    (quiescent : Quiescent world) (none : debt world = 0) : Accounted world.ctx := by
  have balance := balanced.balance
  simp only [Balance, quiescent.1, quiescent.2, none] at balance
  unfold Accounted
  grind

/-- The law holds in every quiescent state of a run whose resets find both
counters at zero; outside the two stores of a reset it is enough that the queue
holds what was counted since the first of them.  A reset that runs alone leaves
all counters at zero exactly when nothing had been dropped. -/
theorem target_samples_accounted (initialised : mlrtTargetInit rateHz os times = some ctx) :
    (∀ schedule, Admits step ResetFindsZero (boot arch ctx clock) schedule →
      let world := run step (boot arch ctx clock) schedule
      Quiescent world → Accounted world.ctx) ∧
    (∀ schedule, Admits step ResetKeepsQueue (boot arch ctx clock) schedule →
      let world := run step (boot arch ctx clock) schedule
      Quiescent world → ¬ BetweenStores world.main → Accounted world.ctx) ∧
    (∀ schedule req tail, let world := run step (boot arch ctx clock) schedule
      let acknowledged := run step (step world (.request (some req) true)) tail
      world.main = .serving → req.type = msgReset → (∀ action ∈ tail, Alone action) →
      acknowledged.main = .serving →
        (CountersZero acknowledged.ctx ↔ world.ctx.queue.dropped = 0)) := by
  obtain ⟨-, -, rfl⟩ := mlrtTargetInit_some initialised
  refine ⟨?_, ?_, ?_⟩
  · intro schedule findsZero world quiescent
    have kept := run_invariant
      (fun world => Balanced world ∧ lastProducedReset world.events = 0)
      (fun world action held ok =>
        ⟨step_balanced world action held.1 (keepsQueue_of_findsZero action held.1 held.2 ok),
          step_noDebt world action held.2 ok⟩)
      _ schedule ⟨balanced_boot, rfl⟩ findsZero
    refine accounted_of_noDebt kept.1 quiescent ?_
    unfold debt
    split
    · exact kept.2
    · rfl
  · intro schedule keepsQueue world quiescent outside
    have balanced : Balanced world :=
      run_invariant Balanced step_balanced _ schedule balanced_boot keepsQueue
    exact accounted_of_noDebt balanced quiescent (debt_outside outside)
  · intro schedule req tail world acknowledged serving isReset alone served
    exact reset_alone world req tail serving isReset alone served

/-- A reset right after the start, then a sample. -/
theorem target_samples_accounted_early_reset :
    ∃ ctx, mlrtTargetInit 100 ⟨0, 0, 0, 0⟩ ⟨0, 0, 0⟩ = some ctx ∧
      Admits step ResetFindsZero (boot .x8664 ctx 0) (startUp ++ reset ++ sample) ∧
      Accounted (run step (boot .x8664 ctx 0) (startUp ++ reset ++ sample)).ctx ∧
      (run step (boot .x8664 ctx 0) (startUp ++ reset ++ sample)).ctx.produced = 1 := by
  refine ⟨_, rfl, by decide +kernel, ?_, by decide +kernel⟩
  exact (@target_samples_accounted .x8664 _ 0 100 ⟨0, 0, 0, 0⟩ ⟨0, 0, 0⟩ rfl).1 (startUp ++ reset ++ sample)
    (by decide +kernel) (by decide +kernel)

/-- A reset with a sample in the queue: both counters are zero, the sample is
still there. -/
theorem target_samples_accounted_queued_sample :
    ∃ ctx, mlrtTargetInit 100 ⟨0, 0, 0, 0⟩ ⟨0, 0, 0⟩ = some ctx ∧
      (run step (boot .x8664 ctx 0) (startUp ++ sample ++ reset)).main = .serving ∧
      Quiescent (run step (boot .x8664 ctx 0) (startUp ++ sample ++ reset)) ∧
      ¬ Accounted (run step (boot .x8664 ctx 0) (startUp ++ sample ++ reset)).ctx := by
  refine ⟨_, rfl, rfl, ?_, ?_⟩ <;> decide +kernel

end Runs

end EmbeddedRuntime.Target.Samples
