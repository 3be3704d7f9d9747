import EmbeddedRuntime.Target.Steps

/-!
# Injected deadlines and the worker that thaws

The worker loads a deadline, waits for the clock to reach it and then stores 0,
whatever `freeze_until_ns` holds by then.  A deadline that FAULT_INJECT stores
in between is lost.
-/

set_option autoImplicit false

namespace EmbeddedRuntime.Target.Injection

open EmbeddedRuntime.Lib.Machine
open EmbeddedRuntime.Protocol.Packet
open EmbeddedRuntime.Target.Context
open EmbeddedRuntime.Target.Handler
open EmbeddedRuntime.Target.Model
open EmbeddedRuntime.Target.Steps

/-! ## The stores to `freeze_until_ns` -/

inductive Store where
  /-- By the worker. -/
  | thaw
  /-- By the watchdog that handles a fault, or by a RESET. -/
  | release
  | inject (deadline : UInt64)
  deriving DecidableEq, Repr

def Store.value : Store → UInt64
  | .thaw => 0
  | .release => 0
  | .inject deadline => deadline

def handlerStore : HandlePoint → Option Store
  | .reset .freeze => some .release
  | .inject now => some (.inject (now + freezeNs))
  | _ => none

/-- The store that an action makes. -/
def stored (world : World) : Action → Option Store
  | .processing _ => if world.processing = .thaw then some .thaw else none
  | .watchdog _ => if world.watchdog = .release then some .release else none
  | .main _ _ =>
      match world.main with
      | .handling _ point => handlerStore point
      | _ => none
  | _ => none

/-- `freeze_until_ns` after a step that may store. -/
def freezeAfter (store : Option Store) (freeze : UInt64) : UInt64 :=
  match store with
  | some store => store.value
  | none => freeze

theorem handled_ctx (world : World) (req : MlrtPacket) (handled : Handled) :
    (world.handled req handled).ctx = world.ctx := by
  cases handled <;> rfl

theorem handled_processing (world : World) (req : MlrtPacket) (handled : Handled) :
    (world.handled req handled).processing = world.processing := by
  cases handled <;> rfl

theorem handled_clock (world : World) (req : MlrtPacket) (handled : Handled) :
    (world.handled req handled).clock = world.clock := by
  cases handled <;> rfl

theorem handleStep_freeze (ctx : TargetCtx) (clock : UInt64) (order : OperandOrder)
    (req : MlrtPacket) (point : HandlePoint) :
    (handleStep ctx clock order req point).ctx.freezeUntilNs =
      freezeAfter (handlerStore point) ctx.freezeUntilNs := by
  cases point with
  | status locals point => rfl
  | configSet rate => rfl
  | injectClock => rfl
  | inject now => rfl
  | reset point => cases point <;> rfl

theorem watchdogStep_freeze (ctx : TargetCtx) (clock : UInt64) (order : OperandOrder)
    (point : WatchdogPoint) :
    (watchdogStep ctx clock order point).1.freezeUntilNs =
      freezeAfter (if point = .release then some .release else none) ctx.freezeUntilNs := by
  cases point with
  | sample => cases order <;> rfl
  | judge now heartbeat =>
      rw [if_neg WatchdogPoint.noConfusion]
      simp only [watchdogStep]
      split_ifs <;> rfl
  | absent | loop | loadHeartbeat | readClock | release | recover | count | exited => rfl

theorem processingStep_freeze (ctx : TargetCtx) (clock : UInt64) (rc : Int)
    (point : ProcessingPoint) :
    (processingStep ctx clock rc point).1.freezeUntilNs =
      freezeAfter (if point = .thaw then some .thaw else none) ctx.freezeUntilNs := by
  cases point <;> rfl

/-- What a step does to `freeze_until_ns`, to the clock and to the place of a worker that it does
not move. -/
structure Moves (world next : World) (action : Action) : Prop where
  freeze : next.ctx.freezeUntilNs = freezeAfter (stored world action) world.ctx.freezeUntilNs
  clock : world.clock ≤ next.clock
  worker : (∀ rc, action ≠ .processing rc) →
    next.processing = world.processing ∨ next.processing = .loop

theorem opens_moves (world : World) (action : Action) (opens : Opens action) :
    Moves world (step world action) action := by
  have silent : stored world action = none := by
    cases action <;> first | rfl | exact opens.elim
  rcases opening_cases world action opens with same | ⟨main, crcErrors, rsp, events, -, moved⟩
  · rw [same]
    exact ⟨by rw [silent]; rfl, UInt64.le_refl _, fun _ => Or.inl rfl⟩
  · rw [moved]
    exact ⟨by rw [silent]; rfl, UInt64.le_refl _, fun _ => Or.inl rfl⟩

theorem step_moves (world : World) (action : Action) : Moves world (step world action) action := by
  cases action with
  | tick time =>
      simp only [step]
      split_ifs with later
      · exact ⟨rfl, later, fun _ => Or.inl rfl⟩
      · exact ⟨rfl, UInt64.le_refl _, fun _ => Or.inl rfl⟩
  | sensor =>
      obtain ⟨queue, produced, same⟩ := sensorStep_ctx world.ctx world.clock world.sensor
      simp only [step, same]
      exact ⟨rfl, UInt64.le_refl _, fun _ => Or.inl rfl⟩
  | processing rc =>
      exact ⟨processingStep_freeze world.ctx world.clock rc world.processing, UInt64.le_refl _,
        fun other => absurd rfl (other rc)⟩
  | watchdog order =>
      exact ⟨watchdogStep_freeze world.ctx world.clock order world.watchdog, UInt64.le_refl _,
        fun _ => Or.inl rfl⟩
  | start | request | rejectCrc | stop => exact opens_moves world _ trivial
  | main order created =>
      simp only [step]
      cases here : world.main with
      | handling req point =>
          rw [mainStep_handling world order created req point here]
          refine ⟨?_, ?_, fun _ => Or.inl (handled_processing _ _ _)⟩
          · rw [handled_ctx, record_ctx, handleStep_freeze, stored, here]
          · rw [handled_clock]
            exact UInt64.le_refl _
      | initialised | starting | serving | stopping | stopped =>
          obtain ⟨state, running, threads, sensor, processing, watchdog, main, moved, -,
            processingCase, -, -⟩ :=
              mainStep_outside world order created (by rw [here]; trivial)
          rw [moved]
          refine ⟨by simp only [stored, here, freezeAfter], UInt64.le_refl _, fun _ => ?_⟩
          rcases processingCase with same | ⟨begun, -⟩
          · exact Or.inl same
          · exact Or.inr begun

/-! ## What the worker may have missed -/

/-- The worker's load of `freeze_until_ns` forgets what was injected before. -/
def forget (point : ProcessingPoint) (since : Option UInt64) : Option UInt64 :=
  match point with
  | .freeze => none
  | _ => since

def afterLoad (world : World) (action : Action) (since : Option UInt64) : Option UInt64 :=
  match action with
  | .processing _ => forget world.processing since
  | _ => since

/-- The deadline of the last FAULT_INJECT since the worker's load. -/
def injectedAfter (store : Option Store) (since : Option UInt64) : Option UInt64 :=
  match store with
  | some (.inject deadline) => some deadline
  | _ => since

def injectedSince (world : World) (action : Action) (since : Option UInt64) : Option UInt64 :=
  injectedAfter (stored world action) (afterLoad world action since)

/-- A run together with that deadline. -/
def watch (watched : World × Option UInt64) (action : Action) : World × Option UInt64 :=
  (step watched.1 action, injectedSince watched.1 action watched.2)

/-- When the worker stores 0, no deadline injected since its load is still stored and ahead of the
clock. -/
def NotOvertaken (watched : World × Option UInt64) (action : Action) : Prop :=
  stored watched.1 action = some .thaw →
    ∀ deadline ∈ watched.2, watched.1.ctx.freezeUntilNs = deadline → deadline ≤ watched.1.clock

/-- What `freeze_until_ns` holds while the worker acts on the deadline it loaded. -/
def Explained (freeze loaded : UInt64) (since : Option UInt64) : Prop :=
  freeze = loaded ∨ freeze = 0 ∨ since = some freeze

/-- At the store of 0 the deadline is reached or was injected since the load. -/
def Loaded (freeze clock : UInt64) (since : Option UInt64) : ProcessingPoint → Prop
  | .frozen loaded => Explained freeze loaded since
  | .expired loaded => Explained freeze loaded since ∧ loaded ≤ clock
  | .thaw => freeze ≤ clock ∨ since = some freeze
  | _ => True

theorem processingStep_loaded {ctx : TargetCtx} {clock : UInt64} {since : Option UInt64}
    (rc : Int) {point : ProcessingPoint} (loaded : Loaded ctx.freezeUntilNs clock since point) :
    Loaded (processingStep ctx clock rc point).1.freezeUntilNs clock
      (forget point since) (processingStep ctx clock rc point).2.1 := by
  cases point with
  | freeze =>
      simp only [processingStep]
      split_ifs
      · exact Or.inl rfl
      · trivial
  | frozen deadline =>
      simp only [processingStep]
      split_ifs with early
      · trivial
      · exact ⟨loaded, UInt64.not_lt.mp early⟩
  | expired deadline =>
      simp only [processingStep]
      split_ifs
      · rcases loaded with ⟨same | none | injected, reached⟩
        · exact Or.inl (same ▸ reached)
        · exact Or.inl (none ▸ UInt64.zero_le)
        · exact Or.inr injected
      · trivial
  | loop =>
      simp only [processingStep]
      split_ifs <;> trivial
  | pop | wait =>
      simp only [processingStep]
      unfold popped
      split
      · split_ifs <;> trivial
      · trivial
  | absent | thaw | count | stamp | last | beatClock | beat | exited => trivial

theorem loaded_processing {world : World} {since : Option UInt64} (rc : Int)
    (loaded : Loaded world.ctx.freezeUntilNs world.clock since world.processing) :
    let next := step world (.processing rc)
    Loaded next.ctx.freezeUntilNs next.clock (injectedSince world (.processing rc) since)
      next.processing := by
  have same : injectedSince world (.processing rc) since =
      forget world.processing since := by
    simp only [injectedSince, stored, afterLoad]
    split_ifs <;> rfl
  rw [same]
  exact processingStep_loaded rc loaded

/-- A store by another thread leaves 0 or a deadline injected since. -/
theorem explained_after {freeze loaded : UInt64} {since : Option UInt64}
    (explained : Explained freeze loaded since) (store : Option Store) :
    Explained (freezeAfter store freeze) loaded (injectedAfter store since) := by
  rcases store with _ | _ | _ | deadline
  · exact explained
  · exact Or.inr (Or.inl rfl)
  · exact Or.inr (Or.inl rfl)
  · exact Or.inr (Or.inr rfl)

theorem loaded_other {world : World} {since : Option UInt64} (action : Action)
    (other : ∀ rc, action ≠ .processing rc)
    (loaded : Loaded world.ctx.freezeUntilNs world.clock since world.processing) :
    let next := step world action
    Loaded next.ctx.freezeUntilNs next.clock (injectedSince world action since)
      next.processing := by
  intro next
  obtain ⟨freeze, clock, worker⟩ := step_moves world action
  have kept : afterLoad world action since = since := by
    cases action <;> first | rfl | exact absurd rfl (other _)
  rw [injectedSince, kept, freeze]
  rcases worker other with same | begun
  · rw [same]
    cases here : world.processing with
    | frozen deadline =>
        rw [here] at loaded
        exact explained_after loaded (stored world action)
    | expired deadline =>
        rw [here] at loaded
        exact ⟨explained_after loaded.1 (stored world action), UInt64.le_trans loaded.2 clock⟩
    | thaw =>
        rw [here] at loaded
        rcases stored world action with _ | _ | _ | deadline
        · exact loaded.imp (fun reached => UInt64.le_trans reached clock) id
        · exact Or.inl UInt64.zero_le
        · exact Or.inl UInt64.zero_le
        · exact Or.inr rfl
    | absent | loop | freeze | pop | wait | count | stamp | last | beatClock | beat | exited =>
        trivial
  · rw [begun]
    trivial

theorem watch_loaded (watched : World × Option UInt64) (action : Action)
    (loaded : Loaded watched.1.ctx.freezeUntilNs watched.1.clock watched.2
      watched.1.processing) :
    let next := watch watched action
    Loaded next.1.ctx.freezeUntilNs next.1.clock next.2 next.1.processing := by
  cases action with
  | processing rc => exact loaded_processing rc loaded
  | tick | sensor | watchdog | start | request | rejectCrc | stop | main =>
      exact loaded_other _ (by intro rc same; cases same) loaded

/-! ## The law -/

/-- The worker clears only a deadline that the clock has reached. -/
def ClearsReached (start : World) (schedule : List Action) : Prop :=
  ∀ before action rest, schedule = before ++ action :: rest →
    stored (run step start before) action = some .thaw →
    (run step start before).ctx.freezeUntilNs ≤ (run step start before).clock

/-- No release and no other injection. -/
def Leaves (world : World) (action : Action) : Prop :=
  stored world action = none ∨ stored world action = some .thaw

instance (world : World) (action : Action) : Decidable (Leaves world action) :=
  inferInstanceAs (Decidable (_ ∨ _))

/-- A deadline that was injected stays until the clock reaches it, unless it is released or
replaced. -/
def DeadlinesKept (start : World) (schedule : List Action) : Prop :=
  ∀ before action after rest deadline, schedule = before ++ action :: (after ++ rest) →
    stored (run step start before) action = some (.inject deadline) →
    Admits step Leaves (run step start (before ++ [action])) after →
    (run step start (before ++ action :: after)).clock < deadline →
    (run step start (before ++ action :: after)).ctx.freezeUntilNs = deadline

theorem stored_thaw {world : World} {action : Action} (thaws : stored world action = some .thaw) :
    world.processing = .thaw := by
  cases action with
  | processing rc =>
      simp only [stored] at thaws
      split_ifs at thaws with here
      exact here
  | watchdog order =>
      simp only [stored] at thaws
      split_ifs at thaws
      cases thaws
  | main order created =>
      simp only [stored] at thaws
      split at thaws
      · unfold handlerStore at thaws
        split at thaws <;> cases thaws
      · cases thaws
  | tick | sensor | start | request | rejectCrc | stop => cases thaws

/-- A store of 0 that is not overtaken clears a deadline that the clock has reached. -/
theorem thaw_reached {watched : World × Option UInt64} {action : Action}
    (loaded : Loaded watched.1.ctx.freezeUntilNs watched.1.clock watched.2 watched.1.processing)
    (ok : NotOvertaken watched action) (thaws : stored watched.1 action = some .thaw) :
    watched.1.ctx.freezeUntilNs ≤ watched.1.clock := by
  rw [stored_thaw thaws] at loaded
  rcases loaded with reached | injected
  · exact reached
  · exact ok thaws _ injected rfl

theorem run_watch (start : World × Option UInt64) (schedule : List Action) :
    (run watch start schedule).1 = run step start.1 schedule := by
  induction schedule generalizing start with
  | nil => rfl
  | cons action rest ih => exact ih (watch start action)

/-- Where the worker clears reached deadlines only, the others stay. -/
theorem deadlinesKept_of_clearsReached {start : World} {schedule : List Action}
    (clears : ClearsReached start schedule) : DeadlinesKept start schedule := by
  intro before action after rest deadline parts injected leaves early
  induction after using List.reverseRecOn generalizing rest with
  | nil =>
      rw [run_append, run_cons, run_nil, (step_moves _ action).freeze, injected]
      rfl
  | append_singleton earlier last ih =>
      have split_ : run step start (before ++ action :: (earlier ++ [last])) =
          step (run step start (before ++ action :: earlier)) last := by
        rw [← List.cons_append, ← List.append_assoc, run_append, run_cons, run_nil]
      obtain ⟨leavesEarlier, leavesLast, -⟩ := (admits_append _ _ _ _ _).mp leaves
      rw [← run_append, List.append_assoc, List.singleton_append] at leavesLast
      obtain ⟨freeze, clock, -⟩ := step_moves (run step start (before ++ action :: earlier)) last
      rw [split_] at early ⊢
      have earlyBefore := UInt64.lt_of_le_of_lt clock early
      have kept := ih (last :: rest) (by rw [parts]; simp) leavesEarlier earlyBefore
      rcases leavesLast with silent | thaws
      · rw [freeze, silent]
        exact kept
      · -- the worker would clear the deadline itself, which the clock has not reached
        have reached := clears (before ++ action :: earlier) last rest (by rw [parts]; simp) thaws
        rw [kept] at reached
        exact absurd earlyBefore (UInt64.not_lt.mpr reached)

/-- Injected deadlines are kept, and the worker clears reached ones only, in exactly the runs in
which no store of 0 by the worker is overtaken by a FAULT_INJECT. -/
theorem injected_deadlines_kept_iff (arch : Arch) (ctx : TargetCtx) (clock : UInt64)
    (schedule : List Action) :
    DeadlinesKept (boot arch ctx clock) schedule ∧ ClearsReached (boot arch ctx clock) schedule ↔
      Admits watch NotOvertaken (boot arch ctx clock, none) schedule := by
  rw [admits_iff_splits]
  have loaded (before : List Action) :
      let watched := run watch (boot arch ctx clock, none) before
      Loaded watched.1.ctx.freezeUntilNs watched.1.clock watched.2 watched.1.processing :=
    run_invariant
      (fun watched : World × Option UInt64 =>
        Loaded watched.1.ctx.freezeUntilNs watched.1.clock watched.2 watched.1.processing)
      (fun watched action holds _ => watch_loaded watched action holds) _ before trivial
      (admits_true watch _ before)
  constructor
  · rintro ⟨-, clears⟩ before action rest parts thaws deadline - same
    rw [run_watch] at thaws same ⊢
    rw [← same]
    exact clears before action rest parts thaws
  · intro ok
    have clears : ClearsReached (boot arch ctx clock) schedule := by
      intro before action rest parts thaws
      have same := run_watch (boot arch ctx clock, none) before
      have reached := thaw_reached (loaded before) (ok before action rest parts)
        (by rw [same]; exact thaws)
      rw [same] at reached
      exact reached
    exact ⟨deadlinesKept_of_clearsReached clears, clears⟩

/-! ## A lost fault -/

def faultRequest : MlrtPacket :=
  { MlrtPacket.zero with
    version := protoVersion, type := msgFaultInject, length := 1
    payload := putBytes MlrtPacket.zero.payload 0 [1] }

def injectFault : List Action :=
  [.request (some faultRequest) true, .main .clockFirst true, .main .clockFirst true]

/-- The worker has loaded the first deadline and found it reached; a second one comes before its
store of 0. -/
def overtaken : List Action :=
  startUp ++ injectFault ++ List.replicate 2 (.processing 0) ++
    [.tick 900000000, .processing 0, .processing 0, .request (some faultRequest) true,
      .main .clockFirst true]

theorem injected_deadline_lost :
    ∃ ctx, mlrtTargetInit 100 ⟨0, 0, 0, 0⟩ ⟨0, 0, 0⟩ = some ctx ∧
      ¬ DeadlinesKept (boot .x8664 ctx 0)
        (overtaken ++ .main .clockFirst true :: ([.processing 0] ++ [])) := by
  refine ⟨_, rfl, fun kept => ?_⟩
  have lost := kept overtaken (.main .clockFirst true) [.processing 0] [] 1800000000 rfl
    (by decide +kernel) (by decide +kernel) (by decide +kernel)
  revert lost
  decide +kernel

end EmbeddedRuntime.Target.Injection
