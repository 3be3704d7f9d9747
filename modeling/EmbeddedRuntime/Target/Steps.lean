import EmbeddedRuntime.Lib.Machine
import EmbeddedRuntime.Target.Model

/-!
# What one step of a thread can change

Each worker writes its own few fields of the context; the frame lemmas say
which, so that an invariant about the other fields passes through.
-/

set_option autoImplicit false

namespace EmbeddedRuntime.Target.Steps

open EmbeddedRuntime.Lib.Machine
open EmbeddedRuntime.Protocol.Packet
open EmbeddedRuntime.Realtime.RingBuffer
open EmbeddedRuntime.Target.Context
open EmbeddedRuntime.Target.Handler
open EmbeddedRuntime.Target.Model

section Frames
variable (ctx : TargetCtx) (clock : UInt64)

theorem sensorStep_ctx (point : SensorPoint) :
    ∃ queue produced, (sensorStep ctx clock point).1 = { ctx with queue, produced } := by
  cases point <;> exact ⟨_, _, rfl⟩

theorem processingStep_ctx (rc : Int) (point : ProcessingPoint) :
    ∃ queue processed lastProcessedNs workerHeartbeatNs freezeUntilNs,
      (processingStep ctx clock rc point).1 =
        { ctx with queue, processed, lastProcessedNs, workerHeartbeatNs, freezeUntilNs } := by
  cases point <;> exact ⟨_, _, _, _, _, rfl⟩

theorem watchdogStep_ctx (order : OperandOrder) (point : WatchdogPoint) :
    ∃ state watchdogRecoveries freezeUntilNs,
      (watchdogStep ctx clock order point).1 =
        { ctx with state, watchdogRecoveries, freezeUntilNs } := by
  unfold watchdogStep
  split
  all_goals try split_ifs
  all_goals try exact ⟨_, _, _, rfl⟩
  all_goals split <;> exact ⟨_, _, _, rfl⟩

end Frames

/-- A start in which every thread is created. -/
def startUp : List Action := .start :: List.replicate 7 (.main .clockFirst true)

def resetRequest : MlrtPacket := { MlrtPacket.zero with version := protoVersion, type := msgReset }

/-! ## Requests -/

/-- Where a handler call can stand after the code before its first access. -/
inductive Entry : Handled → Prop where
  | answers (rsp : MlrtPacket) : Entry (.answers rsp)
  | status (locals : StatusLocals) : Entry (.goes (.status locals .uptime))
  | configSet (rate : UInt16) : Entry (.goes (.configSet rate))
  | injectClock : Entry (.goes .injectClock)
  | reset : Entry (.goes (.reset .init))

theorem handlePacket_entry (arch : Arch) (req : MlrtPacket) : Entry (handlePacket arch req) := by
  unfold handlePacket
  split_ifs
  · exact .status _
  · exact .answers _
  · dsimp only
    split_ifs
    · exact .answers _
    · exact .configSet _
  · exact .answers _
  · exact .injectClock
  · exact .reset
  · exact .answers _
  · exact .answers _

theorem handlePacket_reset (arch : Arch) (req : MlrtPacket) (isReset : req.type = msgReset) :
    handlePacket arch req = .goes (.reset .init) := by
  simp [handlePacket, isReset, msgReset, msgStatusReq, msgConfigSet, msgFaultInject]

/-- What the calls of the request thread do before their first access. -/
inductive Opening (arch : Arch) : Action → MainPoint → MainPoint → List Event → Prop where
  | starts : Opening arch .start .initialised (.starting .init) []
  | answers (req rsp : MlrtPacket) :
      Opening arch (.request (some req) true) .serving .serving [.answered req rsp]
  | enters (req : MlrtPacket) (point : HandlePoint) (entry : Entry (.goes point))
      (goes : handlePacket arch req = .goes point) :
      Opening arch (.request (some req) true) .serving (.handling req point) []
  | rejects : Opening arch .rejectCrc .serving .serving []
  | stops : Opening arch .stop .serving (.stopping .running) []

/-- The actions of the request thread other than `main`. -/
def Opens : Action → Prop
  | .start | .request _ _ | .rejectCrc | .stop => True
  | _ => False

theorem opening_cases (world : World) (action : Action) (opens : Opens action) :
    step world action = world ∨
      ∃ main crcErrors rsp events, Opening world.arch action world.main main events ∧
        step world action =
          { world with
            ctx := { world.ctx with crcErrors }
            main, rsp
            events := world.events ++ events } := by
  cases action with
  | tick | sensor | processing | watchdog | main => exact opens.elim
  | start =>
      cases here : world.main with
      | initialised =>
          exact Or.inr ⟨_, world.ctx.crcErrors, world.rsp, [], .starts, by simp [step, here]⟩
      | starting | serving | handling | stopping | stopped => exact Or.inl (by simp [step, here])
  | request req rsp =>
      simp only [step, requestStep, mlrtTargetHandlePacket]
      rcases req with _ | packet
      · exact Or.inl (by cases world.main <;> rfl)
      · rcases rsp with _ | _
        · exact Or.inl (by cases world.main <;> rfl)
        · cases here : world.main with
          | initialised | starting | handling | stopping | stopped => exact Or.inl rfl
          | serving =>
              have entry := handlePacket_entry world.arch packet
              dsimp only
              cases goes : handlePacket world.arch packet with
              | answers rsp => exact Or.inr ⟨_, _, _, _, .answers packet rsp, rfl⟩
              | goes point =>
                  rw [goes] at entry
                  refine Or.inr ⟨_, world.ctx.crcErrors, world.rsp, [],
                    .enters packet point entry goes, ?_⟩
                  simp [World.handled]
  | rejectCrc =>
      cases here : world.main with
      | serving =>
          refine Or.inr ⟨_, world.ctx.crcErrors + 1, world.rsp, [], .rejects, ?_⟩
          simp [step, rejectCrc, here]
      | initialised | starting | handling | stopping | stopped =>
          exact Or.inl (by simp [step, rejectCrc, here])
  | stop =>
      cases here : world.main with
      | serving =>
          exact Or.inr ⟨_, world.ctx.crcErrors, world.rsp, [], .stops, by simp [step, here]⟩
      | initialised | starting | handling | stopping | stopped =>
          exact Or.inl (by simp [step, here])

/-- Nothing recorded but, perhaps, an answer. -/
def OnlyAnswer (events : List Event) : Prop :=
  events = [] ∨ ∃ req rsp, events = [.answered req rsp]

theorem onlyAnswer_opening {arch : Arch} {action : Action} {main next : MainPoint}
    {events : List Event} (opening : Opening arch action main next events) :
    OnlyAnswer events := by
  cases opening with
  | starts | enters | rejects | stops => exact Or.inl rfl
  | answers req rsp => exact Or.inr ⟨req, rsp, rfl⟩

@[simp] theorem record_ctx (world : World) (events : List Event) :
    (world.record events).ctx = world.ctx := rfl

@[simp] theorem record_events (world : World) (events : List Event) :
    (world.record events).events = world.events ++ events := rfl

/-- A point outside `reset_runtime`. -/
def Plain : HandlePoint → Prop
  | .reset _ => False
  | _ => True

/-- A point a handler reaches by an access outside `reset_runtime`. -/
def Later : HandlePoint → Prop
  | .status _ _ | .inject _ => True
  | _ => False

/-- A call that goes on goes on at such a point. -/
def GoesLater : Handled → Prop
  | .goes point => Later point
  | .answers _ => True

theorem statusStep_later (ctx : TargetCtx) (clock : UInt64) (order : OperandOrder)
    (locals : StatusLocals) (point : StatusPoint) :
    GoesLater (statusStep ctx clock order locals point) := by
  cases point with
  | uptime => cases order <;> trivial
  | loadStarted | readClock | stats | state | rate | produced | processed | crcErrors
  | recoveries => trivial

/-- Outside a reset the handler stores the rate of a CONFIG_SET and the freeze
deadline only. -/
theorem handleStep_plain (ctx : TargetCtx) (clock : UInt64) (order : OperandOrder)
    (req : MlrtPacket) (point : HandlePoint) (plain : Plain point) :
    ∃ sampleRateHz freezeUntilNs handled,
      handleStep ctx clock order req point =
        ⟨{ ctx with sampleRateHz, freezeUntilNs }, handled, []⟩ ∧ GoesLater handled ∧
      (sampleRateHz = ctx.sampleRateHz ∨
        ∃ rate, point = .configSet rate ∧ sampleRateHz = rate.toUInt32) := by
  cases point with
  | status locals point =>
      exact ⟨_, _, _, rfl, statusStep_later ctx clock order locals point, Or.inl rfl⟩
  | configSet rate => exact ⟨_, _, _, rfl, trivial, Or.inr ⟨rate, rfl, rfl⟩⟩
  | injectClock | inject => exact ⟨_, _, _, rfl, trivial, Or.inl rfl⟩
  | reset => exact plain.elim

/-- A step of the request thread inside a handler, outside `reset_runtime`. -/
theorem mainStep_plain (world : World) (order : OperandOrder) (created : Bool) (req : MlrtPacket)
    (point : HandlePoint) (here : world.main = .handling req point) (plain : Plain point) :
    ∃ sampleRateHz freezeUntilNs main rsp events,
      mainStep world order created =
        { world with
          ctx := { world.ctx with sampleRateHz, freezeUntilNs }
          main, rsp
          events := world.events ++ events } ∧
      ((∃ next, Later next ∧ main = .handling req next) ∨ main = .serving) ∧
      OnlyAnswer events ∧
      (sampleRateHz = world.ctx.sampleRateHz ∨
        ∃ rate, point = .configSet rate ∧ sampleRateHz = rate.toUInt32) := by
  obtain ⟨rate, freeze, handled, access, goesLater, stored⟩ :=
    handleStep_plain world.ctx world.clock order req point plain
  simp only [mainStep, here, access]
  cases handled with
  | goes next =>
      exact ⟨rate, freeze, .handling req next, world.rsp, [], rfl, Or.inl ⟨next, goesLater, rfl⟩,
        Or.inl rfl, stored⟩
  | answers rsp =>
      refine ⟨rate, freeze, .serving, rsp, [.answered req rsp], ?_, Or.inr rfl,
        Or.inr ⟨req, rsp, rfl⟩, stored⟩
      simp [World.handled, World.record]

/-- The request thread is not inside a handler. -/
def OutsideHandler : MainPoint → Prop
  | .handling _ _ => False
  | _ => True

/-- Outside a handler the request thread creates and joins threads, and stores
`running`, `threads_started` and the states of a start. -/
theorem mainStep_outside (world : World) (order : OperandOrder) (created : Bool)
    (outside : OutsideHandler world.main) :
    ∃ state running threadsStarted sensor processing watchdog main,
      mainStep world order created =
        { world with
          ctx := { world.ctx with state, running, threadsStarted }
          sensor, processing, watchdog, main } ∧
      (sensor = world.sensor ∨ sensor = .begin ∧ world.main = .starting .createSensor) ∧
      (processing = world.processing ∨
        processing = .loop ∧ world.main = .starting .createProcessing) ∧
      (watchdog = world.watchdog ∨ watchdog = .loop ∧ world.main = .starting .createWatchdog) ∧
      OutsideHandler main := by
  cases here : world.main with
  | handling => rw [here] at outside; exact outside.elim
  | initialised | serving | stopped =>
      have same : mainStep world order created = world := by simp only [mainStep, here]
      exact ⟨_, _, _, _, _, _, world.main, same, Or.inl rfl, Or.inl rfl, Or.inl rfl, outside⟩
  | starting point =>
      simp only [mainStep, here]
      cases point with
      | createSensor | createProcessing | createWatchdog =>
          cases created <;>
          exact ⟨_, _, _, _, _, _, _, rfl, by simp, by simp, by simp, trivial⟩
      | joinSensor | joinProcessing =>
          simp only [startStep]
          split_ifs
          · exact ⟨_, _, _, _, _, _, world.main, rfl, Or.inl rfl, Or.inl rfl, Or.inl rfl, outside⟩
          · exact ⟨_, _, _, _, _, _, _, rfl, Or.inl rfl, Or.inl rfl, Or.inl rfl, trivial⟩
      | failed =>
          exact ⟨_, _, _, _, _, _, world.main, rfl, Or.inl rfl, Or.inl rfl, Or.inl rfl, outside⟩
      | init | running | ready | started | fail =>
          exact ⟨_, _, _, _, _, _, _, rfl, Or.inl rfl, Or.inl rfl, Or.inl rfl, trivial⟩
  | stopping point =>
      simp only [mainStep, here]
      cases point with
      | running => exact ⟨_, _, _, _, _, _, _, rfl, Or.inl rfl, Or.inl rfl, Or.inl rfl, trivial⟩
      | joinSensor | joinProcessing | joinWatchdog =>
          simp only [stopStep]
          split_ifs
          · exact ⟨_, _, _, _, _, _, world.main, rfl, Or.inl rfl, Or.inl rfl, Or.inl rfl, outside⟩
          · exact ⟨_, _, _, _, _, _, _, rfl, Or.inl rfl, Or.inl rfl, Or.inl rfl, trivial⟩

/-- A step of the request thread inside a handler. -/
theorem mainStep_handling (world : World) (order : OperandOrder) (created : Bool)
    (req : MlrtPacket) (point : HandlePoint) (here : world.main = .handling req point) :
    mainStep world order created =
      ({ world with ctx := (handleStep world.ctx world.clock order req point).ctx }.record
        (handleStep world.ctx world.clock order req point).events).handled req
          (handleStep world.ctx world.clock order req point).handled := by
  simp only [mainStep, here]

/-- A step of the request thread inside `reset_runtime`. -/
theorem mainStep_reset (world : World) (order : OperandOrder) (created : Bool) (req : MlrtPacket)
    (point : ResetPoint) (here : world.main = .handling req (.reset point)) :
    mainStep world order created =
      ({ world with ctx := (resetStep world.ctx world.clock req point).ctx }.record
        (resetStep world.ctx world.clock req point).events).handled req
          (resetStep world.ctx world.clock req point).handled :=
  mainStep_handling world order created req (.reset point) here

end EmbeddedRuntime.Target.Steps
