import EmbeddedRuntime.Target.Session

/-!
# What a request leaves alone

Between two accesses of a handler the workers move; they write none of the
fields that the request thread alone writes.  So the architecture, the rate, the
CRC errors and the start time seen by a request are those it began with, unless
it sets them itself.
-/

set_option autoImplicit false

namespace EmbeddedRuntime.Target.Requests

open EmbeddedRuntime.Lib.Machine
open EmbeddedRuntime.Protocol.Packet
open EmbeddedRuntime.Target.Context
open EmbeddedRuntime.Target.Handler
open EmbeddedRuntime.Target.Model
open EmbeddedRuntime.Target.Server
open EmbeddedRuntime.Target.Session
open EmbeddedRuntime.Target.Steps

/-! ## The workers between two accesses of the handler -/

/-- A run of the target leads from one state to the other. -/
def Precedes (before after : World) : Prop := ∃ actions, after = run step before actions

/-- What the workers and a status request leave alone: the values the request
thread alone writes. -/
structure Held (before after : World) : Prop where
  arch : after.arch = before.arch
  rate : after.ctx.sampleRateHz = before.ctx.sampleRateHz
  crcErrors : after.ctx.crcErrors = before.ctx.crcErrors
  started : after.ctx.startedNs = before.ctx.startedNs
  clock : before.clock ≤ after.clock
  precedes : Precedes before after

theorem precedes_refl (world : World) : Precedes world world := ⟨[], rfl⟩

theorem precedes_trans {first second third : World} (earlier : Precedes first second)
    (later : Precedes second third) : Precedes first third := by
  obtain ⟨actions, rfl⟩ := earlier
  obtain ⟨more, rfl⟩ := later
  exact ⟨actions ++ more, (run_append step first actions more).symm⟩

theorem Held.trans {first second third : World} (earlier : Held first second)
    (later : Held second third) : Held first third where
  arch := later.arch.trans earlier.arch
  rate := later.rate.trans earlier.rate
  crcErrors := later.crcErrors.trans earlier.crcErrors
  started := later.started.trans earlier.started
  clock := UInt64.le_trans earlier.clock later.clock
  precedes := precedes_trans earlier.precedes later.precedes

theorem held_refl (world : World) : Held world world :=
  ⟨rfl, rfl, rfl, rfl, UInt64.le_refl _, precedes_refl world⟩

theorem worker_held (world : World) (action : Action) (worker : Worker action) :
    Held world (step world action) := by
  have here : Precedes world (step world action) := ⟨[action], rfl⟩
  revert here
  cases action with
  | tick time =>
      simp only [step]
      split_ifs with forward
      · exact fun here => ⟨rfl, rfl, rfl, rfl, forward, here⟩
      · exact fun _ => held_refl world
  | sensor =>
      obtain ⟨queue, produced, same⟩ := sensorStep_ctx world.ctx world.clock world.sensor
      simp only [step, same]
      exact fun here => ⟨rfl, rfl, rfl, rfl, UInt64.le_refl _, here⟩
  | processing rc =>
      obtain ⟨queue, processed, last, heartbeat, freeze, same⟩ :=
        processingStep_ctx world.ctx world.clock rc world.processing
      simp only [step, same]
      exact fun here => ⟨rfl, rfl, rfl, rfl, UInt64.le_refl _, here⟩
  | watchdog order =>
      obtain ⟨state, recoveries, freeze, same⟩ :=
        watchdogStep_ctx world.ctx world.clock order world.watchdog
      simp only [step, same]
      exact fun here => ⟨rfl, rfl, rfl, rfl, UInt64.le_refl _, here⟩
  | start | request | rejectCrc | stop | main => exact worker.elim

theorem takeTurn_held (world : World) (turns : List Turn) : Held world (takeTurn world turns).1 := by
  cases turns with
  | nil => exact held_refl world
  | cons turn turns =>
      refine run_invariant (Held world) (fun next action held worker => ?_) world
        (turn.burst.map (·.val)) (held_refl world)
        (admits_of_forall step Worker world _ fun action here => ?_)
      · exact held.trans (worker_held next action worker)
      · obtain ⟨worker, -, rfl⟩ := List.mem_map.mp here
        exact worker.property


/-! ## What holds of the target whatever happens -/

/-- The uptime never wraps around. -/
structure StartedBefore (world : World) : Prop where
  started : world.ctx.startedNs ≤ world.clock
  pending : ∀ req now, world.main = .handling req (.reset (.started now)) → now ≤ world.clock

/-- Outside a reset about to store its time. -/
theorem startedBefore_of {world : World} (started : world.ctx.startedNs ≤ world.clock)
    (elsewhere : ∀ req now, world.main ≠ .handling req (.reset (.started now))) :
    StartedBefore world :=
  ⟨started, fun req now here => absurd here (elsewhere req now)⟩

theorem startedBefore_main {world : World} (before : StartedBefore world) (order : OperandOrder)
    (created : Bool) : StartedBefore (step world (.main order created)) := by
  simp only [step]
  cases here : world.main with
  | initialised | starting | serving | stopping | stopped =>
      obtain ⟨_, _, _, _, _, _, main, moved, -, -, -, outside⟩ :=
        mainStep_outside world order created (by rw [here]; trivial)
      rw [moved]
      refine startedBefore_of before.started ?_
      rintro req now rfl
      exact outside.elim
  | handling req point =>
      cases point with
      | reset point =>
          rw [mainStep_reset world order created req point here]
          cases point with
          | startedClock =>
              refine ⟨before.started, ?_⟩
              rintro other now ⟨⟩
              exact UInt64.le_refl _
          | started now =>
              exact startedBefore_of (before.pending req now here) (by rintro other next ⟨⟩)
          | init | produced | processed | recoveries | crcErrors | freeze | lastClock | last
          | heartbeatClock | heartbeat | running =>
              exact startedBefore_of before.started (by rintro other next ⟨⟩)
      | status | configSet | injectClock | inject =>
          obtain ⟨rate, freeze, main, rsp, events, moved, after, -, -⟩ :=
            mainStep_plain world order created req _ here trivial
          rw [moved]
          refine startedBefore_of before.started ?_
          rintro other next rfl
          rcases after with ⟨point, later, same⟩ | impossible
          · cases same
            exact later.elim
          · cases impossible

theorem startedBefore_worker {world : World} (before : StartedBefore world) (action : Action)
    (worker : Worker action) : StartedBefore (step world action) := by
  have held := worker_held world action worker
  refine ⟨?_, fun req now here => ?_⟩
  · rw [held.started]
    exact UInt64.le_trans before.started held.clock
  · rw [(worker_untouched world action worker).main] at here
    exact UInt64.le_trans (before.pending req now here) held.clock

theorem startedBefore_opens {world : World} (before : StartedBefore world) (action : Action)
    (opens : Opens action) : StartedBefore (step world action) := by
  rcases opening_cases world action opens with
    same | ⟨main, crcErrors, rsp, events, opening, moved⟩
  · rw [same]
    exact before
  · rw [moved]
    refine startedBefore_of before.started ?_
    rintro req now rfl
    generalize world.main = old at opening
    cases opening with
    | enters req point entry goes => cases entry

theorem startedBefore_step (world : World) (action : Action) (before : StartedBefore world)
    (_ : True) : StartedBefore (step world action) := by
  cases action with
  | tick | sensor | processing | watchdog => exact startedBefore_worker before _ trivial
  | start | request | rejectCrc | stop => exact startedBefore_opens before _ trivial
  | main order created => exact startedBefore_main before order created

theorem startedBefore_precedes {before after : World} (started : StartedBefore before)
    (precedes : Precedes before after) : StartedBefore after := by
  obtain ⟨actions, rfl⟩ := precedes
  exact run_invariant StartedBefore startedBefore_step before actions started
    (admits_true step before actions)

theorem worker_arch (world : World) (action : Action) (worker : Worker action) :
    (step world action).arch = world.arch :=
  (worker_held world action worker).arch

theorem opens_arch (world : World) (action : Action) (opens : Opens action) :
    (step world action).arch = world.arch := by
  rcases opening_cases world action opens with same | ⟨_, _, _, _, -, moved⟩
  · rw [same]
  · rw [moved]

/-- Nothing rebuilds the program for another architecture. -/
theorem step_arch (world : World) (action : Action) : (step world action).arch = world.arch := by
  cases action with
  | tick | sensor | processing | watchdog =>
      exact worker_arch world _ trivial
  | start | request | rejectCrc | stop => exact opens_arch world _ trivial
  | main order created =>
      simp only [step]
      by_cases outside : OutsideHandler world.main
      · obtain ⟨_, _, _, _, _, _, _, moved, -⟩ := mainStep_outside world order created outside
        rw [moved]
      · cases here : world.main with
        | initialised | starting | serving | stopping | stopped =>
            rw [here] at outside
            exact absurd trivial outside
        | handling req point =>
            rw [mainStep_handling world order created req point here]
            cases (handleStep world.ctx world.clock order req point).handled <;> rfl

theorem arch_precedes {before after : World} (precedes : Precedes before after) :
    after.arch = before.arch := by
  obtain ⟨actions, rfl⟩ := precedes
  exact run_invariant (fun world => world.arch = before.arch)
    (fun world action same _ => (step_arch world action).trans same) before actions rfl
    (admits_true step before actions)

/-! ## The rate during a request -/

/-- The rate is this one, and no handler is about to store another. -/
structure RateAt (rate : UInt32) (world : World) : Prop where
  stored : world.ctx.sampleRateHz = rate
  pending : ∀ req next, world.main ≠ .handling req (.configSet next)

theorem rateAt_worker {rate : UInt32} {world : World} (at_ : RateAt rate world) (action : Action)
    (worker : Worker action) : RateAt rate (step world action) := by
  refine ⟨(worker_held world action worker).rate.trans at_.stored, fun req next => ?_⟩
  rw [(worker_untouched world action worker).main]
  exact at_.pending req next

theorem rateAt_main {rate : UInt32} {world : World} (at_ : RateAt rate world)
    (order : OperandOrder) (created : Bool) : RateAt rate (step world (.main order created)) := by
  simp only [step]
  cases here : world.main with
  | initialised | starting | serving | stopping | stopped =>
      obtain ⟨_, _, _, _, _, _, main, moved, -, -, -, outside⟩ :=
        mainStep_outside world order created (by rw [here]; trivial)
      rw [moved]
      refine ⟨at_.stored, ?_⟩
      rintro req next rfl
      exact outside.elim
  | handling req point =>
      cases point with
      | configSet next => exact absurd here (at_.pending req next)
      | reset point =>
          rw [mainStep_reset world order created req point here]
          cases point <;> exact ⟨at_.stored, by rintro other next ⟨⟩⟩
      | status | injectClock | inject =>
          obtain ⟨_, freeze, main, rsp, events, moved, after, -, stored⟩ :=
            mainStep_plain world order created req _ here trivial
          rw [moved]
          refine ⟨?_, ?_⟩
          · rcases stored with rfl | ⟨new, isConfig, -⟩
            · exact at_.stored
            · cases isConfig
          · rintro other next rfl
            rcases after with ⟨point, later, same⟩ | impossible
            · cases same
              exact later.elim
            · cases impossible

/-- A property that the workers and the accesses of the request thread keep
holds to the end of a handler call. -/
theorem handleAccesses_keeps (property : World → Prop)
    (worker : ∀ world action, property world → Worker action → property (step world action))
    (main : ∀ world order, property world → property (step world (.main order true)))
    (world : World) (turns : List Turn) (count : Nat) (start : property world) :
    property (handleAccesses world turns count).1 := by
  induction count generalizing world turns with
  | zero => exact start
  | succ count ih =>
      have turned : property (takeTurn world turns).1 := by
        cases turns with
        | nil => exact start
        | cons turn turns =>
            refine run_invariant property worker world (turn.burst.map (·.val)) start
              (admits_of_forall step Worker world _ fun action here => ?_)
            obtain ⟨worker, -, rfl⟩ := List.mem_map.mp here
            exact worker.property
      simp only [handleAccesses]
      split
      · exact ih _ _ (main _ _ turned)
      · exact start

/-! ## A request that the handler goes on with -/

theorem handleRequest_goes {world : World} {req : MlrtPacket} {point : HandlePoint}
    (serving : world.main = .serving) (goes : handlePacket world.arch req = .goes point)
    (turns : List Turn) :
    handleRequest world req turns =
      handleAccesses { world with main := .handling req point } turns maxAccesses := by
  unfold handleRequest
  simp only [step, requestStep, serving, mlrtTargetHandlePacket, goes, World.handled]

theorem precedes_request {world : World} {req : MlrtPacket} {point : HandlePoint}
    (serving : world.main = .serving) (goes : handlePacket world.arch req = .goes point) :
    Precedes world { world with main := .handling req point } := by
  refine ⟨[.request (some req) true], ?_⟩
  simp only [run_cons, run_nil, step, requestStep, serving, mlrtTargetHandlePacket, goes,
    World.handled]

/-- A request that the handler goes on with is answered, and the rate stays
unless the request sets it. -/
theorem request_goes {world : World} {req : MlrtPacket} {point : HandlePoint}
    (serving : world.main = .serving) (goes : handlePacket world.arch req = .goes point)
    (keeps : ∀ rate, point ≠ .configSet rate) (turns : List Turn) :
    Answer req (handleRequest world req turns).1.rsp ∧
      (handleRequest world req turns).1.ctx.sampleRateHz = world.ctx.sampleRateHz := by
  have onTheWay := handlePacket_onTheWay world.arch req
  have entry := handlePacket_entry world.arch req
  rw [goes] at onTheWay entry
  have pending : Pending req point := by
    rcases onTheWay with pending | ⟨text, impossible⟩
    · exact pending
    · cases impossible
  rw [handleRequest_goes serving goes]
  have returned := handleAccesses_returns maxAccesses { world with main := .handling req point }
    turns req point world.ctx.crcErrors rfl pending (remaining_le point)
    (crcKept_entry entry world.ctx.crcErrors)
  have kept := handleAccesses_keeps (RateAt world.ctx.sampleRateHz)
    (fun next action at_ worker => rateAt_worker at_ action worker)
    (fun next order at_ => rateAt_main at_ order true)
    { world with main := .handling req point } turns maxAccesses
    ⟨rfl, by rintro other rate ⟨⟩; exact keeps rate rfl⟩
  exact ⟨returned.answer, kept.stored⟩

end EmbeddedRuntime.Target.Requests
