import EmbeddedRuntime.Nic.Accounting

/-!
# End-to-end delivery

What `nic_rx_receive` has returned so far is, byte for byte and in order, the
beginning of what was submitted once the frames counted in `tx_errors` and
`rx_no_buffer` are taken out; the rest of it is still in the rings.
-/

set_option autoImplicit false

namespace EmbeddedRuntime.Nic.Delivery

open EmbeddedRuntime.Lib.Machine
open EmbeddedRuntime.Nic.Model
open EmbeddedRuntime.Nic.Rings
open EmbeddedRuntime.Nic.Ownership
open EmbeddedRuntime.Nic.Threads
open EmbeddedRuntime.Nic.Accounting

/-- The frames left once those completed with an error and those dropped are
removed; frames without an outcome yet stay. -/
def survivors : List Frame → List Outcome → List Frame
  | frames, [] => frames
  | [], _ :: _ => []
  | frame :: frames, .delivered :: outcomes => frame :: survivors frames outcomes
  | _ :: frames, .error :: outcomes => survivors frames outcomes
  | _ :: frames, .dropped :: outcomes => survivors frames outcomes

theorem survivors_eq (frames : List Frame) (outcomes : List Outcome) :
    survivors frames outcomes =
      deliveredFrames frames outcomes ++ frames.drop outcomes.length := by
  fun_induction survivors frames outcomes with
  | case1 frames => simp [deliveredFrames]
  | case2 outcome outcomes => simp [deliveredFrames]
  | case3 frame frames outcomes ih => simp [deliveredFrames, ih]
  | case4 frame frames outcomes ih => simp [deliveredFrames, ih]
  | case5 frame frames outcomes ih => simp [deliveredFrames, ih]

theorem deliveredFrames_mono {frames frames' : List Frame} {outcomes outcomes' : List Outcome}
    (longer : frames <+: frames') (decided : outcomes <+: outcomes') :
    deliveredFrames frames outcomes <+: deliveredFrames frames' outcomes' := by
  induction frames generalizing frames' outcomes outcomes' with
  | nil => simp [deliveredFrames]
  | cons frame rest ih =>
      obtain ⟨more, rfl⟩ := longer
      obtain ⟨later, rfl⟩ := decided
      cases outcomes with
      | nil => simp [deliveredFrames]
      | cons outcome outcomes =>
          have tail := ih (List.prefix_append rest more) (List.prefix_append outcomes later)
          simp only [deliveredFrames, List.cons_append, List.zip_cons_cons,
            List.filterMap_cons] at tail ⊢
          cases outcome <;> simpa using tail

/-! ## The driver's log -/

/-- The frame of a submit that is published but has not returned. -/
def pendingSubmit : Option CallPoint → List Frame
  | some (.submit packet .advance) | some (.submit packet .tail) => [packet]
  | _ => []

/-- The frame of a receive that gave its buffer back but has not returned. -/
def inHand : Option CallPoint → List Frame
  | some (.receive (.advance out _)) | some (.receive (.head out _)) => [out]
  | _ => []

structure Logged (state : State) : Prop where
  published : state.history.published = state.history.submitted ++ pendingSubmit state.driver
  received : state.history.received.map Prod.fst =
    (coreOf state).delivered.take state.history.received.length
  lengths : ∀ entry ∈ state.history.received, entry.2 = entry.1.length
  taken : state.history.received.length + (inHand state.driver).length = state.history.taken
  bound : state.history.taken ≤
    (deliveredFrames state.history.submitted state.history.outcomes).length

theorem start_logged (nic : NicModel) : Logged (start nic) :=
  ⟨rfl, rfl, by simp [start], rfl, Nat.zero_le _⟩

theorem deviceStep_logged {state : State} (sound : Sound state) (logged : Logged state)
    (budget : Nat) : Logged (deviceStep state budget) := by
  have frame := deviceStep_frame state budget
  have kept := (deviceStep_ok sound budget).effect.guarantee sound.rings
  have samePublished : (deviceStep state budget).history.published = state.history.published :=
    kept.published
  have sameTaken : (deviceStep state budget).history.taken = state.history.taken := kept.taken
  have decided : state.history.outcomes <+: (deviceStep state budget).history.outcomes :=
    kept.outcomes
  have takenLe : state.history.taken ≤ (coreOf state).delivered.length := sound.rings.rx.takenLe
  obtain ⟨published, received, lengths, taken, bound⟩ := logged
  refine ⟨?_, ?_, ?_, ?_, ?_⟩
  · rw [samePublished, frame.submitted, frame.driver, published]
  · obtain ⟨more, grown⟩ := kept.delivered
    rw [frame.received, received, ← grown, List.take_append_of_le_length (by omega)]
  · rw [frame.received]
    exact lengths
  · rw [frame.received, frame.driver, sameTaken, taken]
  · rw [sameTaken, frame.submitted]
    exact bound.trans (deliveredFrames_mono List.prefix_rfl decided).length_le

/-- A driver step that neither publishes, takes nor returns a frame. -/
theorem Logged.keep {state next : State} (sound : Sound state) (logged : Logged state)
    (effect : DriverEffect (coreOf state) (coreOf next))
    (samePublished : next.history.published = state.history.published)
    (sameSubmitted : next.history.submitted = state.history.submitted)
    (sameReceived : next.history.received = state.history.received)
    (sameTaken : next.history.taken = state.history.taken)
    (samePending : pendingSubmit next.driver = pendingSubmit state.driver)
    (sameHand : inHand next.driver = inHand state.driver) : Logged next := by
  have kept := effect.guarantee sound.rings
  have sameOutcomes : next.history.outcomes = state.history.outcomes := kept.outcomes
  obtain ⟨published, received, lengths, taken, bound⟩ := logged
  refine ⟨?_, ?_, ?_, ?_, ?_⟩
  · rw [samePublished, sameSubmitted, samePending, published]
  · rw [sameReceived, kept.delivered, received]
  · rw [sameReceived]
    exact lengths
  · rw [sameReceived, sameHand, sameTaken, taken]
  · rw [sameTaken, sameSubmitted, sameOutcomes]
    exact bound

theorem beginCall_logged {state : State} (sound : Sound state) (logged : Logged state)
    (idle : state.driver = none) (call : DriverCall) :
    Logged (beginCall state state.nic call).1 := by
  have effect := (beginCall_ok idle sound.driverCursors call).effect
  have pending : pendingSubmit state.driver = [] := by rw [idle]; rfl
  have hand : inHand state.driver = [] := by rw [idle]; rfl
  match call with
  | .txSubmit none =>
      exact logged.keep sound effect rfl rfl rfl rfl pending.symm hand.symm
  | .txSubmit (some packet) =>
      rw [beginCall] at effect ⊢
      split_ifs at effect ⊢ with refused
      · exact logged.keep sound effect rfl rfl rfl rfl pending.symm hand.symm
      · exact logged.keep sound effect rfl rfl rfl rfl pending.symm hand.symm
  | .txReclaim errors => exact logged.keep sound effect rfl rfl rfl rfl pending.symm hand.symm
  | .rxReceive none => exact logged.keep sound effect rfl rfl rfl rfl pending.symm hand.symm
  | .rxReceive (some capacity) =>
      exact logged.keep sound effect rfl rfl rfl rfl pending.symm hand.symm
  | .takeInterrupts => exact logged.keep sound effect rfl rfl rfl rfl pending.symm hand.symm
  | .injectTxError => exact logged.keep sound effect rfl rfl rfl rfl pending.symm hand.symm

theorem submitStep_logged {state : State} (sound : Sound state) (logged : Logged state)
    {packet : Frame} {point : SubmitPoint} (here : state.driver = some (.submit packet point)) :
    Logged (submitStep state state.nic packet point).1 := by
  have cursors := sound.driverCursors
  have knows := sound.driverKnows
  rw [here] at cursors knows
  have effect := (submitStep_ok sound.rings cursors knows).effect
  have kept := effect.guarantee sound.rings
  have hand : inHand state.driver = [] := by rw [here]; rfl
  have pending : pendingSubmit state.driver = pendingSubmit (some (.submit packet point)) := by
    rw [here]
  cases point with
  | load =>
      rw [submitStep] at effect ⊢
      split_ifs at effect ⊢
      · exact logged.keep sound effect rfl rfl rfl rfl pending.symm hand.symm
      · exact logged.keep sound effect rfl rfl rfl rfl pending.symm hand.symm
  | copy i =>
      rw [submitStep] at effect ⊢
      cases next : packet[i]? with
      | none =>
          rw [next] at effect
          exact logged.keep sound effect rfl rfl rfl rfl pending.symm hand.symm
      | some byte =>
          rw [next] at effect
          exact logged.keep sound effect rfl rfl rfl rfl pending.symm hand.symm
  | length | error | advance =>
      exact logged.keep sound effect rfl rfl rfl rfl pending.symm hand.symm
  | publish =>
      obtain ⟨published, received, lengths, taken, bound⟩ := logged
      rw [pending] at published
      rw [hand] at taken
      refine ⟨?_, received.trans (congrArg _ kept.delivered.symm), lengths, taken, bound⟩
      change state.history.published ++ [packet] = state.history.submitted ++ [packet]
      rw [published]
      simp [pendingSubmit]
  | tail =>
      obtain ⟨published, received, lengths, taken, bound⟩ := logged
      rw [pending] at published
      rw [hand] at taken
      refine ⟨?_, received, lengths, taken, bound.trans ?_⟩
      · change state.history.published = state.history.submitted ++ [packet] ++ []
        rw [List.append_nil]
        exact published
      · exact (deliveredFrames_mono (List.prefix_append ..) List.prefix_rfl).length_le

theorem reclaimStep_logged {state : State} (sound : Sound state) (logged : Logged state)
    {locals : Reclaim} {point : ReclaimPoint}
    (here : state.driver = some (.reclaim locals point)) :
    Logged (reclaimStep state state.nic locals point).1 := by
  have cursors := sound.driverCursors
  have knows := sound.driverKnows
  rw [here] at cursors knows
  have effect := (reclaimStep_ok sound.rings cursors knows).effect
  have hand : inHand state.driver = [] := by rw [here]; rfl
  have pending : pendingSubmit state.driver = [] := by rw [here]; rfl
  cases point with
  | load | error =>
      rw [reclaimStep] at effect ⊢
      split_ifs at effect ⊢
      · exact logged.keep sound effect rfl rfl rfl rfl pending.symm hand.symm
      · exact logged.keep sound effect rfl rfl rfl rfl pending.symm hand.symm
  | free | advance => exact logged.keep sound effect rfl rfl rfl rfl pending.symm hand.symm

theorem receiveStep_logged {state : State} (sound : Sound state) (logged : Logged state)
    {point : ReceivePoint} (here : state.driver = some (.receive point)) :
    Logged (receiveStep state state.nic point).1 := by
  have cursors := sound.driverCursors
  have knows := sound.driverKnows
  rw [here] at cursors knows
  have effect := (receiveStep_ok sound.rings cursors knows).effect
  have hand : inHand state.driver = inHand (some (.receive point)) := by rw [here]
  have pending : pendingSubmit state.driver = [] := by rw [here]; rfl
  cases point with
  | load capacity | check capacity | copy length out =>
      rw [receiveStep] at effect ⊢
      split_ifs at effect ⊢
      · exact logged.keep sound effect rfl rfl rfl rfl pending.symm hand.symm
      · exact logged.keep sound effect rfl rfl rfl rfl pending.symm hand.symm
  | size | length out | advance out length =>
      exact logged.keep sound effect rfl rfl rfl rfl pending.symm hand.symm
  | release out length =>
      obtain ⟨published, received, lengths, taken, bound⟩ := logged
      rw [pending] at published
      rw [hand] at taken
      have ready := lt_of_getElem?_eq_some knows.1
      refine ⟨published, received, lengths, congrArg (· + 1) taken, ?_⟩
      have all : deliveredFrames state.history.submitted state.history.outcomes =
          (coreOf state).delivered := by
        rw [List.append_nil] at published
        rw [← published]
        rfl
      change state.history.taken + 1 ≤
        (deliveredFrames state.history.submitted state.history.outcomes).length
      rw [all]
      exact ready
  | head out length =>
      obtain ⟨published, received, lengths, taken, bound⟩ := logged
      rw [pending] at published
      rw [hand] at taken
      obtain ⟨positive, next, isLength⟩ := knows
      change state.history.received.length + 1 = state.history.taken at taken
      have position : (coreOf state).taken - 1 = state.history.received.length := by
        change state.history.taken - 1 = _
        omega
      rw [position] at next
      refine ⟨published, ?_, ?_, ?_, bound⟩
      · change (state.history.received ++ [(out, length)]).map Prod.fst =
          (coreOf state).delivered.take (state.history.received ++ [(out, length)]).length
        rw [List.map_append, List.length_append, List.length_singleton, List.take_add_one,
          ← received, next]
        rfl
      · intro entry member
        rcases List.mem_append.mp member with old | new
        · exact lengths entry old
        · obtain rfl := List.mem_singleton.mp new
          exact isLength
      · change (state.history.received ++ [(out, length)]).length + 0 = state.history.taken
        rw [List.length_append, List.length_singleton]
        exact taken

theorem step_logged {state : State} (sound : Sound state) (logged : Logged state)
    (action : Action) : Logged (step state action) := by
  cases action with
  | driver call =>
      have moved : Logged (driverMove state call).1 := by
        unfold driverMove
        split
        · rename_i idle
          exact beginCall_logged sound logged idle call
        · rename_i here
          exact submitStep_logged sound logged here
        · rename_i here
          exact reclaimStep_logged sound logged here
        · rename_i here
          exact receiveStep_logged sound logged here
      exact ⟨moved.published, moved.received, moved.lengths, moved.taken, moved.bound⟩
  | device budget => exact deviceStep_logged sound logged budget

/-! ## Calls that return nonzero -/

/-- The points of submit and receive from which the call may still be refused. -/
def Refusable : Option CallPoint → Prop
  | none | some (.submit _ .load) | some (.receive (.load _)) | some (.receive (.check _)) => True
  | _ => False

def Unchanged (steps : List (NicModel × NicModel)) : Prop := ∀ pair ∈ steps, pair.2 = pair.1

/-- A refused submit or receive. -/
def Refusal (kind : CallKind) (code : Int) : Prop :=
  (kind = .txSubmit ∨ kind = .rxReceive) ∧ code ≠ 0

structure Calm (driver : Option CallPoint) (calls : CallLog) : Prop where
  current : Refusable driver → Unchanged calls.current
  returns : ∀ ret ∈ calls.returns, Refusal ret.kind ret.code → Unchanged ret.steps

theorem unchanged_append {steps : List (NicModel × NicModel)} (before : Unchanged steps)
    (nic : NicModel) : Unchanged (steps ++ [(nic, nic)]) := by
  intro pair member
  rcases List.mem_append.mp member with old | new
  · exact before pair old
  · obtain rfl := List.mem_singleton.mp new
    rfl

/-- What one driver step may do, as far as refusals are concerned: it goes on to
a point of no refusal, or goes on or returns without having stored anything, or
returns without a refusal. -/
inductive CalmMove (state : State) : Moved → Prop where
  | committed (next : State) (point : CallPoint) (moved : next.driver = some point)
      (isCommitted : ¬ Refusable (some point)) : CalmMove state (next, none)
  | quiet (next : State) (point : CallPoint) (moved : next.driver = some point)
      (before : Refusable state.driver) (same : next.nic = state.nic) : CalmMove state (next, none)
  | served (next : State) (moved : next.driver = none) (kind : CallKind) (code : Int)
      (served : ¬ Refusal kind code) : CalmMove state (next, some (kind, code))
  | refused (next : State) (moved : next.driver = none) (kind : CallKind) (code : Int)
      (before : Refusable state.driver) (same : next.nic = state.nic) :
      CalmMove state (next, some (kind, code))

theorem not_refusal_zero (kind : CallKind) : ¬ Refusal kind 0 := fun refusal => refusal.2 rfl

theorem beginCall_calm {state : State} (idle : state.driver = none) (call : DriverCall) :
    CalmMove state (beginCall state state.nic call) := by
  have before : Refusable state.driver := by rw [idle]; trivial
  match call with
  | .txSubmit none => exact .refused _ rfl _ _ before rfl
  | .txSubmit (some packet) =>
      rw [beginCall]
      split_ifs
      · exact .refused _ rfl _ _ before rfl
      · exact .quiet _ _ rfl before rfl
  | .txReclaim errors => exact .committed _ _ rfl id
  | .rxReceive none => exact .refused _ rfl _ _ before rfl
  | .rxReceive (some capacity) => exact .quiet _ _ rfl before rfl
  | .takeInterrupts => exact .served _ rfl _ _ (by simp [Refusal])
  | .injectTxError => exact .served _ rfl _ _ (not_refusal_zero _)

theorem driverMove_calm (state : State) (call : DriverCall) :
    CalmMove state (driverMove state call) := by
  unfold driverMove
  split
  · rename_i idle
    exact beginCall_calm idle call
  · rename_i packet point here
    cases point with
    | load =>
        have before : Refusable state.driver := by rw [here]; trivial
        rw [submitStep]
        split_ifs
        · exact .refused _ rfl _ _ before rfl
        · exact .committed _ _ rfl id
    | copy i => rw [submitStep]; split <;> exact .committed _ _ rfl id
    | length | error | publish | advance => exact .committed _ _ rfl id
    | tail => exact .served _ rfl _ _ (not_refusal_zero _)
  · rename_i locals point _
    cases point with
    | load =>
        rw [reclaimStep]
        split_ifs
        · exact .committed _ _ rfl id
        · exact .served _ rfl _ _ (by simp [Refusal])
    | error => rw [reclaimStep]; split_ifs <;> exact .committed _ _ rfl id
    | free | advance => exact .committed _ _ rfl id
  · rename_i point here
    cases point with
    | load capacity =>
        have before : Refusable state.driver := by rw [here]; trivial
        rw [receiveStep]
        split_ifs
        · exact .refused _ rfl _ _ before rfl
        · exact .quiet _ _ rfl before rfl
    | check capacity =>
        have before : Refusable state.driver := by rw [here]; trivial
        rw [receiveStep]
        split_ifs
        · exact .refused _ rfl _ _ before rfl
        · exact .committed _ _ rfl id
    | copy length out => rw [receiveStep]; split_ifs <;> exact .committed _ _ rfl id
    | size | length out | release out length | advance out length => exact .committed _ _ rfl id
    | head out length => exact .served _ rfl _ _ (not_refusal_zero _)

theorem driverStep_calm {state : State} (calm : Calm state.driver state.calls)
    (call : DriverCall) :
    Calm (driverStep state call).driver (driverStep state call).calls := by
  obtain ⟨current, returns⟩ := calm
  have move := driverMove_calm state call
  unfold driverStep
  generalize driverMove state call = moved at move ⊢
  cases move with
  | committed next point moved isCommitted =>
      refine ⟨fun refusable => ?_, returns⟩
      change Refusable next.driver at refusable
      rw [moved] at refusable
      exact absurd refusable isCommitted
  | quiet next point moved before same =>
      refine ⟨fun _ => ?_, returns⟩
      change Unchanged (state.calls.current ++ [(state.nic, next.nic)])
      rw [same]
      exact unchanged_append (current before) state.nic
  | served next moved kind code served =>
      refine ⟨fun _ pair member => ?_, fun ret member refusal => ?_⟩
      · simp [CallLog.record] at member
      · rcases List.mem_append.mp member with old | new
        · exact returns ret old refusal
        · obtain rfl := List.mem_singleton.mp new
          exact absurd refusal served
  | refused next moved kind code before same =>
      refine ⟨fun _ pair member => ?_, fun ret member refusal => ?_⟩
      · simp [CallLog.record] at member
      · rcases List.mem_append.mp member with old | new
        · exact returns ret old refusal
        · obtain rfl := List.mem_singleton.mp new
          change Unchanged (state.calls.current ++ [(state.nic, next.nic)])
          rw [same]
          exact unchanged_append (current before) state.nic

theorem step_calm {state : State} (calm : Calm state.driver state.calls) (action : Action) :
    Calm (step state action).driver (step state action).calls := by
  cases action with
  | driver call => exact driverStep_calm calm call
  | device budget =>
      have frame := deviceStep_frame state budget
      change Calm (deviceStep state budget).driver (deviceStep state budget).calls
      rw [frame.driver, frame.calls]
      exact calm

/-! ## Delivery -/

/-- The frame a descriptor holds. -/
def descriptorFrame (descriptor : NicDescriptor) : Frame :=
  (List.range descriptor.length).map descriptor.buffer

/-- The frames in the slots of the counts `low .. high` of a ring. -/
def ringFrames (ring : Nat → NicDescriptor) (capacity low high : Nat) : List Frame :=
  (List.range' low (high - low)).map fun k => descriptorFrame (ring (k % capacity))

theorem Holds.descriptorFrame_eq {descriptor : NicDescriptor} {frame : Frame}
    (holds : Holds descriptor frame) : descriptorFrame descriptor = frame := by
  refine List.ext_getElem? fun i => ?_
  unfold descriptorFrame
  rw [holds.length, List.getElem?_map]
  by_cases inside : i < frame.length
  · rw [List.getElem?_range inside, List.getElem?_eq_getElem inside]
    exact congrArg some (holds.bytes i _ (List.getElem?_eq_getElem inside))
  · rw [List.getElem?_eq_none (by simpa using inside), List.getElem?_eq_none (by omega)]
    rfl

theorem ringFrames_eq {ring : Nat → NicDescriptor} {capacity low : Nat} {frames : List Frame}
    (held : ∀ k frame, low ≤ k → frames[k]? = some frame → Holds (ring (k % capacity)) frame) :
    ringFrames ring capacity low frames.length = frames.drop low := by
  refine List.ext_getElem? fun i => ?_
  unfold ringFrames
  rw [List.getElem?_map, List.getElem?_drop]
  by_cases inside : i < frames.length - low
  · have known := List.getElem?_eq_getElem (l := frames) (i := low + i) (by omega)
    rw [List.getElem?_range' inside, known]
    simp only [Option.map_some, Nat.one_mul]
    exact congrArg some (Holds.descriptorFrame_eq (held _ _ (by omega) known))
  · rw [List.getElem?_eq_none (by simpa using inside), List.getElem?_eq_none (by omega)]
    rfl

structure Delivered (state : State) : Prop where
  sound : Sound state
  counted : CountedState state
  logged : Logged state
  calm : Calm state.driver state.calls

theorem step_delivered {state : State} (delivered : Delivered state) (action : Action) :
    Delivered (step state action) :=
  ⟨step_sound delivered.sound action, step_counted delivered.sound delivered.counted action,
    step_logged delivered.sound delivered.logged action, step_calm delivered.calm action⟩

/-- What the users of the rings see of a run. -/
structure DeliveryInvariant (state : State) : Prop where
  /-- Every decided outcome belongs to a frame, and the device's error flag and counters show it. -/
  decided : state.history.outcomes.length ≤ state.history.published.length
  flagged : ∀ k, state.history.reclaimed ≤ k → k < state.history.completed →
    ((state.nic.tx (k % state.nic.capacity)).error ≠ 0 ↔
      state.history.outcomes[k]? = some .error)
  errorsCounted : state.nic.txErrors = UInt64.ofNat (state.history.outcomes.count .error)
  dropsCounted : state.nic.rxNoBuffer = UInt64.ofNat (state.history.outcomes.count .dropped)
  /-- The received frames are the beginning of the submitted ones without those two kinds. -/
  inOrder : state.history.received.map Prod.fst <+:
    survivors state.history.submitted state.history.outcomes
  lengths : ∀ entry ∈ state.history.received, entry.2 = entry.1.length
  /-- Every frame that is not removed was received or is on its way. -/
  published : state.history.published = state.history.submitted ++ pendingSubmit state.driver
  conserved : survivors state.history.published state.history.outcomes =
    state.history.received.map Prod.fst ++ inHand state.driver ++
      ringFrames state.nic.rx state.nic.capacity state.history.taken
        (state.history.outcomes.count .delivered) ++
      ringFrames state.nic.tx state.nic.capacity state.history.outcomes.length
        state.history.published.length
  /-- A submit or receive that returns nonzero has changed nothing at any of its steps. -/
  refusals : ∀ ret ∈ state.calls.returns, (ret.kind = .txSubmit ∨ ret.kind = .rxReceive) →
    ret.code ≠ 0 → ∀ pair ∈ ret.steps, pair.2 = pair.1

theorem deliveredFrames_length {frames : List Frame} {outcomes : List Outcome}
    (decided : outcomes.length ≤ frames.length) :
    (deliveredFrames frames outcomes).length = outcomes.count .delivered := by
  induction outcomes generalizing frames with
  | nil => simp [deliveredFrames]
  | cons outcome rest ih =>
      cases frames with
      | nil => simp at decided
      | cons frame frames =>
          have tail := @ih frames (by simpa using decided)
          unfold deliveredFrames at tail ⊢
          rw [List.zip_cons_cons, List.filterMap_cons, List.count_cons, ← tail]
          cases outcome <;> simp

theorem Logged.inOrder {state : State} (logged : Logged state) :
    state.history.received.map Prod.fst <+:
      survivors state.history.submitted state.history.outcomes := by
  obtain ⟨published, received, -, taken, bound⟩ := logged
  have longer : deliveredFrames state.history.submitted state.history.outcomes <+:
      (coreOf state).delivered := by
    refine deliveredFrames_mono ?_ List.prefix_rfl
    change state.history.submitted <+: state.history.published
    rw [published]
    exact List.prefix_append ..
  obtain ⟨more, split⟩ := longer
  rw [survivors_eq, received, ← split, List.take_append_of_le_length (by omega)]
  exact (List.take_prefix ..).trans (List.prefix_append ..)

/-- The frames taken from the RX ring are the returned ones and the one in hand. -/
theorem take_taken {state : State} (sound : Sound state) (logged : Logged state) :
    (coreOf state).delivered.take state.history.taken =
      state.history.received.map Prod.fst ++ inHand state.driver := by
  obtain ⟨-, received, -, taken, -⟩ := logged
  have knows := sound.driverKnows
  have fetched : ∀ out, (coreOf state).delivered[state.history.taken - 1]? = some out →
      state.history.received.length + 1 = state.history.taken →
      (coreOf state).delivered.take state.history.taken =
        state.history.received.map Prod.fst ++ [out] := by
    intro out next count
    have position : state.history.taken - 1 = state.history.received.length := by omega
    rw [position] at next
    rw [received, ← count, List.take_add_one, next]
    rfl
  unfold inHand at taken ⊢
  split at taken
  · rename_i out length here
    rw [here] at knows
    exact fetched out knows.2.1 taken
  · rename_i out length here
    rw [here] at knows
    exact fetched out knows.2.1 taken
  · rw [← taken, received]
    simp

theorem Delivered.conserved {state : State} (delivered : Delivered state) :
    survivors state.history.published state.history.outcomes =
      state.history.received.map Prod.fst ++ inHand state.driver ++
        ringFrames state.nic.rx state.nic.capacity state.history.taken
          (state.history.outcomes.count .delivered) ++
        ringFrames state.nic.tx state.nic.capacity state.history.outcomes.length
          state.history.published.length := by
  obtain ⟨sound, -, logged, -⟩ := delivered
  have decided : state.history.outcomes.length ≤ state.history.published.length :=
    sound.rings.decided
  have completedLe : state.history.completed ≤ state.history.outcomes.length := by
    have length := sound.deviceKnows.decided
    change state.history.outcomes.length = state.history.completed + _ at length
    omega
  have inTx : ringFrames state.nic.tx state.nic.capacity state.history.outcomes.length
      state.history.published.length = state.history.published.drop state.history.outcomes.length :=
    ringFrames_eq fun k frame low known =>
      (sound.rings.tx.pending k frame (completedLe.trans low) known).2
  have inRx : ringFrames state.nic.rx state.nic.capacity state.history.taken
      (coreOf state).delivered.length = (coreOf state).delivered.drop state.history.taken :=
    ringFrames_eq fun k frame low known => (sound.rings.rx.done k frame low known).2
  have deliveredLength : (coreOf state).delivered.length =
      state.history.outcomes.count .delivered := deliveredFrames_length decided
  rw [survivors_eq, inTx, ← deliveredLength, inRx, ← take_taken sound logged,
    List.take_append_drop]
  rfl

/-- For every capacity `nic_model_init` accepts and every interleaving of driver and device. -/
theorem nic_delivers_in_order (capacity : Nat) (nic : NicModel)
    (init : nicModelInit capacity = some nic) (schedule : List Action) :
    DeliveryInvariant (run step (start nic) schedule) := by
  have begins : Delivered (start nic) :=
    ⟨start_sound init, (start_accounted init).counted, start_logged nic, fun _ _ => by simp [start],
      by simp [start]⟩
  have delivered := run_invariant Delivered
    (fun _ action delivered (_ : True) => step_delivered delivered action) (start nic) schedule begins
    (admits_true step (start nic) schedule)
  exact
    { decided := delivered.sound.rings.decided
      flagged := fun k low high => (delivered.sound.rings.tx.done k low high).2
      errorsCounted := delivered.counted.txErrors
      dropsCounted := delivered.counted.rxNoBuffer
      inOrder := delivered.logged.inOrder
      lengths := delivered.logged.lengths
      published := delivered.logged.published
      conserved := delivered.conserved
      refusals := fun ret member kind code =>
        delivered.calm.returns ret member ⟨kind, code⟩ }

/-- Two frames through a ring of one slot: the second is refused until the first
is reclaimed, and both are received. -/
def oneSlotSchedule : List Action :=
  List.replicate 10 (Action.driver (.txSubmit (some [1, 2]))) ++
    List.replicate 2 (Action.driver (.txSubmit (some [3]))) ++
    List.replicate 24 (Action.device 1) ++ List.replicate 6 (Action.driver (.txReclaim true)) ++
    List.replicate 11 (Action.driver (.rxReceive (some 8))) ++
    List.replicate 9 (Action.driver (.txSubmit (some [3]))) ++
    List.replicate 23 (Action.device 1) ++ List.replicate 10 (Action.driver (.rxReceive (some 8)))

theorem nic_delivers_in_order_one_slot :
    ∃ nic, nicModelInit 1 = some nic ∧
      DeliveryInvariant (run step (start nic) oneSlotSchedule) ∧
      (run step (start nic) oneSlotSchedule).history.received = [([1, 2], 2), ([3], 1)] ∧
      (run step (start nic) oneSlotSchedule).calls.returns.map (fun ret => (ret.kind, ret.code)) =
        [(.txSubmit, 0), (.txSubmit, 1), (.txReclaim, 1), (.rxReceive, 0), (.txSubmit, 0),
          (.rxReceive, 0)] := by
  refine ⟨_, rfl, nic_delivers_in_order 1 _ rfl oneSlotSchedule, ?_, ?_⟩
  · decide +kernel
  · decide +kernel

end EmbeddedRuntime.Nic.Delivery
