import EmbeddedRuntime.Nic.Threads

/-!
# Who owns which descriptor, and what the counters say

The counters of the device follow the outcomes of the frames, and the error
counts `nic_tx_reclaim` returns follow those of the reclaimed descriptors.
Together with the ring invariant this gives the ownership partition that holds
in every state of every schedule.
-/

set_option autoImplicit false

namespace EmbeddedRuntime.Nic.Accounting

open EmbeddedRuntime.Lib.Machine
open EmbeddedRuntime.Lib.Window
open EmbeddedRuntime.Nic.Model
open EmbeddedRuntime.Nic.Rings
open EmbeddedRuntime.Nic.Ownership
open EmbeddedRuntime.Nic.Threads

/-! ## The device's counters -/

/-- Outcomes not yet added to `tx_completed`. -/
def txCountLag : PollPoint → Nat
  | .irqError | .rxAdvance | .rxTail | .countRx | .irqRx | .countTx => 1
  | _ => 0

/-- Deliveries not yet added to `rx_completed`. -/
def rxCountLag : PollPoint → Nat
  | .rxAdvance | .rxTail | .countRx => 1
  | _ => 0

/-- The counters wrap as 64-bit words, hence the images of the counts. -/
structure Counted (nic : NicModel) (outcomes : List Outcome) (device : Option (Poll × PollPoint)) :
    Prop where
  txErrors : nic.txErrors = UInt64.ofNat (outcomes.count .error)
  rxNoBuffer : nic.rxNoBuffer = UInt64.ofNat (outcomes.count .dropped)
  rxCompleted : nic.rxCompleted + UInt64.ofNat (lagOf rxCountLag device) =
    UInt64.ofNat (outcomes.count .delivered)
  txCompleted : nic.txCompleted + UInt64.ofNat (lagOf txCountLag device) =
    UInt64.ofNat outcomes.length

/-- Steps that decide nothing and count nothing. -/
theorem Counted.keep {nic nic' : NicModel} {outcomes : List Outcome}
    {device device' : Option (Poll × PollPoint)} (counted : Counted nic outcomes device)
    (sameErrors : nic'.txErrors = nic.txErrors) (sameDropped : nic'.rxNoBuffer = nic.rxNoBuffer)
    (sameRx : nic'.rxCompleted = nic.rxCompleted) (sameTx : nic'.txCompleted = nic.txCompleted)
    (rxLag : lagOf rxCountLag device' = lagOf rxCountLag device)
    (txLag : lagOf txCountLag device' = lagOf txCountLag device) :
    Counted nic' outcomes device' := by
  refine ⟨?_, ?_, ?_, ?_⟩
  · rw [sameErrors, counted.txErrors]
  · rw [sameDropped, counted.rxNoBuffer]
  · rw [sameRx, rxLag, counted.rxCompleted]
  · rw [sameTx, txLag, counted.txCompleted]

/-- The step that decides the outcome of a frame. -/
theorem Counted.decide {nic nic' : NicModel} {outcomes : List Outcome}
    {device device' : Option (Poll × PollPoint)} (counted : Counted nic outcomes device)
    (outcome : Outcome)
    (errors : nic'.txErrors = nic.txErrors + UInt64.ofNat ([outcome].count .error))
    (dropped : nic'.rxNoBuffer = nic.rxNoBuffer + UInt64.ofNat ([outcome].count .dropped))
    (rx : nic'.rxCompleted + UInt64.ofNat (lagOf rxCountLag device') =
      nic.rxCompleted + UInt64.ofNat (lagOf rxCountLag device) +
        UInt64.ofNat ([outcome].count .delivered))
    (tx : nic'.txCompleted + UInt64.ofNat (lagOf txCountLag device') =
      nic.txCompleted + UInt64.ofNat (lagOf txCountLag device) + UInt64.ofNat 1) :
    Counted nic' (outcomes ++ [outcome]) device' := by
  refine ⟨?_, ?_, ?_, ?_⟩
  · rw [errors, counted.txErrors, List.count_append, UInt64.ofNat_add]
  · rw [dropped, counted.rxNoBuffer, List.count_append, UInt64.ofNat_add]
  · rw [rx, counted.rxCompleted, List.count_append, UInt64.ofNat_add]
  · rw [tx, counted.txCompleted, List.length_append, List.length_singleton, UInt64.ofNat_add]

theorem pollStep_counted {state : State} {poll : Poll} {point : PollPoint}
    (counted : Counted state.nic state.history.outcomes (some (poll, point))) :
    Counted (pollStep state state.nic poll point).nic
      (pollStep state state.nic poll point).history.outcomes
      (pollStep state state.nic poll point).device := by
  have zero : ∀ x : UInt64, x + UInt64.ofNat 0 = x := fun x => by simp
  cases point with
  | load | rxLoad =>
      rw [pollStep]
      split_ifs <;> exact counted.keep rfl rfl rfl rfl rfl rfl
  | lengthCheck error =>
      rw [pollStep]
      split_ifs <;> exact counted.keep rfl rfl rfl rfl rfl rfl
  | copy length i =>
      rw [pollStep]
      split_ifs <;> exact counted.keep rfl rfl rfl rfl rfl rfl
  | countError =>
      refine counted.decide .error rfl (zero _).symm (zero _).symm ?_
      exact congrArg (· + UInt64.ofNat 1) (zero _).symm
  | countNoBuffer =>
      refine counted.decide .dropped (zero _).symm rfl (zero _).symm ?_
      exact congrArg (· + UInt64.ofNat 1) (zero _).symm
  | rxPublish =>
      refine counted.decide .delivered (zero _).symm (zero _).symm ?_ ?_
      · exact congrArg (· + UInt64.ofNat 1) (zero _).symm
      · exact congrArg (· + UInt64.ofNat 1) (zero _).symm
  | countRx =>
      obtain ⟨txErrors, rxNoBuffer, rxCompleted, txCompleted⟩ := counted
      exact ⟨txErrors, rxNoBuffer, (zero _).trans rxCompleted, txCompleted⟩
  | countTx =>
      obtain ⟨txErrors, rxNoBuffer, rxCompleted, txCompleted⟩ := counted
      exact ⟨txErrors, rxNoBuffer, rxCompleted, (zero _).trans txCompleted⟩
  | _ => exact counted.keep rfl rfl rfl rfl rfl rfl

def CountedState (state : State) : Prop := Counted state.nic state.history.outcomes state.device

theorem step_counted {state : State} (sound : Sound state) (counted : CountedState state)
    (action : Action) : CountedState (step state action) := by
  cases action with
  | driver call =>
      have frame := driverMove_frame state call
      have kept := (driverMove_ok sound call).effect.guarantee sound.rings
      have sameOutcomes : (driverStep state call).history.outcomes = state.history.outcomes :=
        kept.outcomes
      have sameDevice : (driverStep state call).device = state.device := frame.device
      change Counted _ (driverStep state call).history.outcomes _
      rw [sameOutcomes]
      exact counted.keep frame.txErrors frame.rxNoBuffer frame.rxCompleted frame.txCompleted
        (congrArg _ sameDevice) (congrArg _ sameDevice)
  | device budget =>
      change CountedState (deviceStep state budget)
      unfold deviceStep
      split
      · rename_i idle
        refine Counted.keep counted rfl rfl rfl rfl ?_ ?_
        · rw [idle]
          rfl
        · rw [idle]
          rfl
      · rename_i poll point here
        unfold CountedState at counted
        rw [here] at counted
        exact pollStep_counted counted

theorem outcome_counts (outcomes : List Outcome) :
    outcomes.length =
      outcomes.count .error + outcomes.count .dropped + outcomes.count .delivered := by
  induction outcomes with
  | nil => rfl
  | cons outcome rest ih =>
      cases outcome <;> simp [ih] <;> omega

/-- Between device steps the three ways to finish a frame add up. -/
theorem CountedState.balance {state : State} (counted : CountedState state)
    (idle : state.device = none) :
    state.nic.txCompleted =
      state.nic.txErrors + state.nic.rxNoBuffer + state.nic.rxCompleted := by
  obtain ⟨txErrors, rxNoBuffer, rxCompleted, txCompleted⟩ := counted
  rw [idle] at rxCompleted txCompleted
  have zero : ∀ x : UInt64, x + UInt64.ofNat 0 = x := fun x => by simp
  calc state.nic.txCompleted
      = UInt64.ofNat state.history.outcomes.length := (zero _).symm.trans txCompleted
    _ = UInt64.ofNat (state.history.outcomes.count .error +
          state.history.outcomes.count .dropped + state.history.outcomes.count .delivered) := by
        rw [← outcome_counts]
    _ = state.nic.txErrors + state.nic.rxNoBuffer + state.nic.rxCompleted := by
        rw [UInt64.ofNat_add, UInt64.ofNat_add, ← txErrors, ← rxNoBuffer, ← rxCompleted]
        exact congrArg _ (zero _)

/-! ## The error counts of `nic_tx_reclaim` -/

/-- Errors counted by a reclaim call that has not returned. -/
def inCall : Option CallPoint → Nat
  | some (.reclaim locals _) => locals.count
  | _ => 0

/-- Descriptors whose error flag was read but which are not free yet. -/
def readLag : Option CallPoint → Nat
  | some (.reclaim _ .free) => 1
  | _ => 0

def WithErrors : Option CallPoint → Prop
  | some (.reclaim locals _) => locals.errors = true
  | _ => True

structure Reported (state : State) : Prop where
  withErrors : WithErrors state.driver
  total : state.history.reportedErrors + inCall state.driver =
    (state.history.outcomes.take (state.history.reclaimed + readLag state.driver)).count .error

theorem count_take_succ {outcomes : List Outcome} {k : Nat} (inside : k < outcomes.length) :
    (outcomes.take (k + 1)).count .error =
      (outcomes.take k).count .error + if outcomes[k]? = some .error then 1 else 0 := by
  rw [List.take_add_one, List.count_append, List.getElem?_eq_getElem inside]
  cases outcomes[k] <;> simp

theorem reclaimStep_reported {state : State} {locals : Reclaim} {point : ReclaimPoint}
    (sound : Sound state) (here : state.driver = some (.reclaim locals point))
    (reported : Reported state) :
    Reported (reclaimStep state state.nic locals point).1 := by
  obtain ⟨withErrors, total⟩ := reported
  rw [here] at withErrors total
  cases point with
  | load =>
      rw [reclaimStep]
      split_ifs
      · exact ⟨withErrors, total⟩
      · exact ⟨trivial, total⟩
  | error =>
      have ready : state.history.reclaimed < state.history.completed := by
        have knows := sound.driverKnows
        rw [here] at knows
        exact knows
      have decided := sound.deviceKnows.decided
      have inside : state.history.reclaimed < state.history.outcomes.length := by
        change state.history.outcomes.length = state.history.completed + _ at decided
        omega
      have flag := (sound.rings.tx.done _ (Nat.le_refl _) ready).2
      have slot : state.nic.txReclaimCursor =
          state.history.reclaimed % state.nic.capacity := by
        have cursors := sound.driverCursors.reclaim
        rw [here] at cursors
        exact cursors
      have next := count_take_succ inside
      rw [reclaimStep, slot]
      have isError : (locals.errors = true ∧
          (state.nic.tx (state.history.reclaimed % state.nic.capacity)).error ≠ 0) ↔
          state.history.outcomes[state.history.reclaimed]? = some .error :=
        ⟨fun both => flag.mp both.2, fun error => ⟨withErrors, flag.mpr error⟩⟩
      by_cases error : state.history.outcomes[state.history.reclaimed]? = some .error
      · rw [if_pos (isError.mpr error)]
        refine ⟨withErrors, ?_⟩
        rw [if_pos error] at next
        change state.history.reportedErrors + (locals.count + 1) = _
        change state.history.reportedErrors + locals.count =
          (state.history.outcomes.take state.history.reclaimed).count .error at total
        change _ = (state.history.outcomes.take (state.history.reclaimed + 1)).count .error
        omega
      · rw [if_neg fun both => error (isError.mp both)]
        refine ⟨withErrors, ?_⟩
        rw [if_neg error] at next
        exact total.trans next.symm
  | free => exact ⟨withErrors, total⟩
  | advance => exact ⟨withErrors, total⟩

/-- A step outside `nic_tx_reclaim` leaves the report alone. -/
theorem Reported.keep {state next : State} (reported : Reported state)
    (quiet : inCall state.driver = 0 ∧ readLag state.driver = 0)
    (quiet' : inCall next.driver = 0 ∧ readLag next.driver = 0 ∧ WithErrors next.driver)
    (sameErrors : next.history.reportedErrors = state.history.reportedErrors)
    (sameOutcomes : next.history.outcomes = state.history.outcomes)
    (sameReclaimed : next.history.reclaimed = state.history.reclaimed) : Reported next := by
  obtain ⟨-, total⟩ := reported
  refine ⟨quiet'.2.2, ?_⟩
  rw [quiet'.1, quiet'.2.1, sameErrors, sameOutcomes, sameReclaimed]
  rw [quiet.1, quiet.2] at total
  exact total

theorem driverMove_reported {state : State} (sound : Sound state) (reported : Reported state)
    (call : DriverCall) (given : call ≠ .txReclaim false) :
    Reported (driverMove state call).1 := by
  unfold driverMove
  split
  · rename_i idle
    have quiet : inCall state.driver = 0 ∧ readLag state.driver = 0 := by
      rw [idle]
      exact ⟨rfl, rfl⟩
    match call, given with
    | .txSubmit none, _ => exact reported.keep quiet ⟨rfl, rfl, trivial⟩ rfl rfl rfl
    | .txSubmit (some packet), _ =>
        rw [beginCall]
        split_ifs <;> exact reported.keep quiet ⟨rfl, rfl, trivial⟩ rfl rfl rfl
    | .txReclaim true, _ => exact reported.keep quiet ⟨rfl, rfl, rfl⟩ rfl rfl rfl
    | .txReclaim false, given => exact absurd rfl given
    | .rxReceive none, _ => exact reported.keep quiet ⟨rfl, rfl, trivial⟩ rfl rfl rfl
    | .rxReceive (some capacity), _ => exact reported.keep quiet ⟨rfl, rfl, trivial⟩ rfl rfl rfl
    | .takeInterrupts, _ => exact reported.keep quiet ⟨rfl, rfl, trivial⟩ rfl rfl rfl
    | .injectTxError, _ => exact reported.keep quiet ⟨rfl, rfl, trivial⟩ rfl rfl rfl
  · rename_i packet point here
    have quiet : inCall state.driver = 0 ∧ readLag state.driver = 0 := by
      rw [here]
      exact ⟨rfl, rfl⟩
    cases point with
    | load => rw [submitStep]; split_ifs <;> exact reported.keep quiet ⟨rfl, rfl, trivial⟩ rfl rfl rfl
    | copy i => rw [submitStep]; split <;> exact reported.keep quiet ⟨rfl, rfl, trivial⟩ rfl rfl rfl
    | length | error | publish | advance | tail =>
        exact reported.keep quiet ⟨rfl, rfl, trivial⟩ rfl rfl rfl
  · rename_i locals point here
    exact reclaimStep_reported sound here reported
  · rename_i point here
    have quiet : inCall state.driver = 0 ∧ readLag state.driver = 0 := by
      rw [here]
      exact ⟨rfl, rfl⟩
    cases point with
    | load capacity | check capacity | copy length out =>
        rw [receiveStep]; split_ifs <;> exact reported.keep quiet ⟨rfl, rfl, trivial⟩ rfl rfl rfl
    | size | length out | release out length | advance out length | head out length =>
        exact reported.keep quiet ⟨rfl, rfl, trivial⟩ rfl rfl rfl

/-- The descriptors a reclaim call has read are completed. -/
theorem readLag_le {state : State} (sound : Sound state) :
    state.history.reclaimed + readLag state.driver ≤ state.history.completed := by
  have reclaimedLe : state.history.reclaimed ≤ state.history.completed :=
    sound.rings.tx.reclaimedLe
  have knows := sound.driverKnows
  unfold readLag
  split
  · rename_i here
    rw [here] at knows
    exact knows
  · exact reclaimedLe

theorem deviceStep_reported {state : State} (sound : Sound state) (reported : Reported state)
    (budget : Nat) : Reported (deviceStep state budget) := by
  have frame := deviceStep_frame state budget
  have kept := (deviceStep_ok sound budget).effect.guarantee sound.rings
  have decided := sound.deviceKnows.decided
  have read := readLag_le sound
  obtain ⟨withErrors, total⟩ := reported
  obtain ⟨more, longer⟩ := kept.outcomes
  have sameReclaimed : (deviceStep state budget).history.reclaimed = state.history.reclaimed :=
    kept.reclaimed
  change state.history.outcomes.length = state.history.completed + _ at decided
  change state.history.outcomes ++ more = (deviceStep state budget).history.outcomes at longer
  refine ⟨by rw [frame.driver]; exact withErrors, ?_⟩
  rw [frame.reportedErrors, frame.driver, total, sameReclaimed, ← longer,
    List.take_append_of_le_length (by omega)]

/-- The schedules in which every reclaim is given an `errors` pointer. -/
def ErrorsGiven (_ : State) (action : Action) : Prop := action ≠ .driver (.txReclaim false)

structure Accounted (state : State) : Prop where
  sound : Sound state
  counted : CountedState state
  reported : Reported state

theorem step_accounted {state : State} (accounted : Accounted state) (action : Action)
    (given : ErrorsGiven state action) : Accounted (step state action) := by
  obtain ⟨sound, counted, reported⟩ := accounted
  refine ⟨step_sound sound action, step_counted sound counted action, ?_⟩
  cases action with
  | driver call =>
      have moved := driverMove_reported sound reported call fun same => given (congrArg _ same)
      exact ⟨moved.withErrors, moved.total⟩
  | device budget => exact deviceStep_reported sound reported budget

theorem start_accounted {capacity : Nat} {nic : NicModel} (init : nicModelInit capacity = some nic) :
    Accounted (start nic) := by
  refine ⟨start_sound init, ?_, ⟨trivial, rfl⟩⟩
  unfold nicModelInit at init
  split_ifs at init
  obtain rfl := Option.some.inj init
  exact ⟨rfl, rfl, rfl, rfl⟩

/-! ## The partition -/

/-- Whether the step at a point of `nic_tx_submit` stores to the descriptor. -/
def submitStores (packet : Frame) : SubmitPoint → Prop
  | .copy i => i < packet.length
  | .length | .error | .publish => True
  | .load | .advance | .tail => False

/-- Whether the step at a point of `nic_device_step` stores to the RX descriptor. -/
def pollStores : PollPoint → Prop
  | .copy length i => i < length
  | .copyLength | .clearError | .rxPublish => True
  | _ => False

/-- The slot of some count in `low .. high`. -/
def InWindow (capacity low high slot : Nat) : Prop :=
  ∃ k, low ≤ k ∧ k < high ∧ k % capacity = slot

structure Partition (state : State) : Prop where
  txCounts : state.history.reclaimed ≤ state.history.completed ∧
    state.history.completed ≤ state.history.published.length ∧
    state.history.published.length - state.history.reclaimed ≤ state.nic.capacity
  rxCounts : state.history.taken ≤ (coreOf state).delivered.length ∧
    (coreOf state).delivered.length - state.history.taken ≤ state.nic.capacity
  tx : ∀ slot, slot < state.nic.capacity →
    ((state.nic.tx slot).owner = .done ↔
      InWindow state.nic.capacity state.history.reclaimed state.history.completed slot) ∧
    ((state.nic.tx slot).owner = .device ↔
      InWindow state.nic.capacity state.history.completed state.history.published.length slot) ∧
    ((state.nic.tx slot).owner = .free ↔
      ¬ InWindow state.nic.capacity state.history.reclaimed state.history.published.length slot)
  rx : ∀ slot, slot < state.nic.capacity →
    ((state.nic.rx slot).owner = .done ↔
      InWindow state.nic.capacity state.history.taken (coreOf state).delivered.length slot) ∧
    ((state.nic.rx slot).owner = .device ↔
      ¬ InWindow state.nic.capacity state.history.taken (coreOf state).delivered.length slot)

theorem txOwner {state : State} (sound : Sound state) (k : Nat)
    (low : state.history.reclaimed ≤ k) (high : k < state.history.reclaimed + state.nic.capacity) :
    (state.nic.tx (k % state.nic.capacity)).owner =
      if k < state.history.completed then .done
      else if k < state.history.published.length then .device else .free := by
  obtain ⟨-, -, -, done, pending, free⟩ := sound.rings.tx
  split_ifs with isDone isPending
  · exact (done k low isDone).1
  · exact (pending k _ (Nat.le_of_not_lt isDone) (List.getElem?_eq_getElem isPending)).1
  · exact free k (Nat.le_of_not_lt isPending) high

theorem rxOwner {state : State} (sound : Sound state) (k : Nat)
    (low : state.history.taken ≤ k) (high : k < state.history.taken + state.nic.capacity) :
    (state.nic.rx (k % state.nic.capacity)).owner =
      if k < (coreOf state).delivered.length then .done else .device := by
  obtain ⟨-, -, done, device⟩ := sound.rings.rx
  split_ifs with isDone
  · exact (done k _ low (List.getElem?_eq_getElem isDone)).1
  · exact device k (Nat.le_of_not_lt isDone) high

theorem sound_partition {state : State} (sound : Sound state) : Partition state := by
  have reclaimedLe : state.history.reclaimed ≤ state.history.completed :=
    sound.rings.tx.reclaimedLe
  have completedLe : state.history.completed ≤ state.history.published.length :=
    sound.rings.tx.completedLe
  have publishedLe : state.history.published.length ≤
    state.history.reclaimed + state.nic.capacity := sound.rings.tx.publishedLe
  have takenLe : state.history.taken ≤ (coreOf state).delivered.length := sound.rings.rx.takenLe
  have deliveredLe : (coreOf state).delivered.length ≤
    state.history.taken + state.nic.capacity := sound.rings.rx.deliveredLe
  refine ⟨⟨reclaimedLe, completedLe, by omega⟩, ⟨takenLe, by omega⟩, fun slot inRing => ?_,
    fun slot inRing => ?_⟩
  · obtain ⟨k, low, high, rfl⟩ := slot_surjective state.history.reclaimed slot inRing
    -- the window of the ring holds one count for the slot
    have only : ∀ first last, state.history.reclaimed ≤ first →
        last ≤ state.history.reclaimed + state.nic.capacity →
        (InWindow state.nic.capacity first last (k % state.nic.capacity) ↔
          first ≤ k ∧ k < last) := by
      intro first last begins ends
      constructor
      · rintro ⟨j, after, before, same⟩
        obtain rfl := slot_injective (by omega) (by omega) low high same
        exact ⟨after, before⟩
      · exact fun inside => ⟨k, inside.1, inside.2, rfl⟩
    rw [txOwner sound k low high, only _ _ (Nat.le_refl _) (by omega), only _ _ (by omega) publishedLe,
      only _ _ (Nat.le_refl _) publishedLe]
    split_ifs <;> simp <;> omega
  · obtain ⟨k, low, high, rfl⟩ := slot_surjective state.history.taken slot inRing
    have only : InWindow state.nic.capacity state.history.taken (coreOf state).delivered.length
        (k % state.nic.capacity) ↔ k < (coreOf state).delivered.length := by
      constructor
      · rintro ⟨j, after, before, same⟩
        obtain rfl := slot_injective after (by omega) low high same
        exact before
      · exact fun inside => ⟨k, low, inside, rfl⟩
    rw [rxOwner sound k low high, only]
    split_ifs with isDone <;> simp [isDone]

/-- The driver fills and publishes free descriptors only. -/
theorem submit_store_free {state : State} (sound : Sound state) {packet : Frame}
    {point : SubmitPoint} (here : state.driver = some (.submit packet point))
    (stores : submitStores packet point) :
    (state.nic.tx state.nic.txSubmitCursor).owner = .free := by
  have cursor := sound.driverCursors.submit
  have knows := sound.driverKnows
  rw [here] at cursor knows
  have free : state.history.published.length < state.history.reclaimed + state.nic.capacity →
      (state.nic.tx (state.history.published.length % state.nic.capacity)).owner = .free :=
    sound.rings.tx.free _ (Nat.le_refl _)
  cases point with
  | copy i | length | error | publish =>
      rw [show state.nic.txSubmitCursor = _ from cursor]
      exact free knows.1
  | load | advance | tail => exact absurd stores id

/-- The device fills and publishes RX descriptors it owns only. -/
theorem poll_store_device {state : State} (sound : Sound state) {poll : Poll} {point : PollPoint}
    (here : state.device = some (poll, point)) (stores : pollStores point) :
    (state.nic.rx state.nic.deviceRxCursor).owner = .device := by
  have cursor := sound.deviceCursors.rx
  have knows := sound.deviceKnows.point poll point here
  rw [here] at cursor
  have owned : (coreOf state).delivered.length < state.history.taken + state.nic.capacity →
      (state.nic.rx ((coreOf state).delivered.length % state.nic.capacity)).owner = .device :=
    sound.rings.rx.device _ (Nat.le_refl _)
  cases point with
  | copy length i | copyLength | clearError | rxPublish =>
      rw [show state.nic.deviceRxCursor = _ from cursor]
      exact owned knows.1
  | _ => exact absurd stores id

theorem update_changed {Slot : Type*} {slots : Nat → Slot} {here there : Nat} {value : Slot}
    (changed : Function.update slots here value there ≠ slots there) : there = here := by
  by_contra other
  exact changed (Function.update_of_ne other ..)

/-- The TX descriptors a driver step changes were free, or done and are freed. -/
theorem driverStep_tx {state : State} (sound : Sound state) (call : DriverCall) {slot : Nat}
    (changed : (driverStep state call).nic.tx slot ≠ state.nic.tx slot) :
    (state.nic.tx slot).owner = .free ∨ (state.nic.tx slot).owner = .done ∧
      (driverStep state call).nic.tx slot = { state.nic.tx slot with owner := .free } := by
  have effect := (driverMove_ok sound call).effect
  have txEq : (driverStep state call).nic.tx = (coreOf (driverMove state call).1).tx := rfl
  rw [txEq] at changed ⊢
  generalize coreOf (driverMove state call).1 = core at effect changed ⊢
  cases effect with
  | silent => exact absurd rfl changed
  | fill descriptor room owner =>
      obtain rfl := update_changed changed
      exact Or.inl (sound.rings.tx.free _ (Nat.le_refl _) room)
  | publish descriptor frame room owner holds clean =>
      obtain rfl := update_changed changed
      exact Or.inl (sound.rings.tx.free _ (Nat.le_refl _) room)
  | reclaim ready =>
      obtain rfl := update_changed changed
      exact Or.inr ⟨(sound.rings.tx.done _ (Nat.le_refl _) ready).1, Function.update_self ..⟩
  | take ready => exact absurd rfl changed

/-- The RX descriptors a device step changes were the device's. -/
theorem deviceStep_rx {state : State} (sound : Sound state) (budget : Nat) {slot : Nat}
    (changed : (deviceStep state budget).nic.rx slot ≠ state.nic.rx slot) :
    (state.nic.rx slot).owner = .device := by
  have effect := (deviceStep_ok sound budget).effect
  have rxEq : (deviceStep state budget).nic.rx = (coreOf (deviceStep state budget)).rx := rfl
  rw [rxEq] at changed
  generalize coreOf (deviceStep state budget) = core at effect changed
  cases effect with
  | fill descriptor room owner =>
      obtain rfl := update_changed changed
      exact sound.rings.rx.device _ (Nat.le_refl _) room
  | deliver descriptor frame room current next owner holds =>
      obtain rfl := update_changed changed
      exact sound.rings.rx.device _ (Nat.le_refl _) room
  | silent | mark busy error | finish outcome lost busy current | complete busy flag =>
      exact absurd rfl changed

/-- The error flags `nic_tx_reclaim` has not reported yet. -/
theorem Reported.rest {state : State} (reported : Reported state) :
    state.history.reportedErrors + inCall state.driver +
        (state.history.outcomes.drop (state.history.reclaimed + readLag state.driver)).count .error =
      state.history.outcomes.count .error := by
  rw [reported.total, ← List.count_append, List.take_append_drop]

/-- Ownership in a state, and what follows for the next steps and the counters. -/
structure OwnershipInvariant (state : State) : Prop where
  partition : Partition state
  submitWrites : ∀ packet point, state.driver = some (.submit packet point) →
    submitStores packet point → (state.nic.tx state.nic.txSubmitCursor).owner = .free
  driverChanges : ∀ call slot, (driverStep state call).nic.tx slot ≠ state.nic.tx slot →
    (state.nic.tx slot).owner = .free ∨ (state.nic.tx slot).owner = .done ∧
      (driverStep state call).nic.tx slot = { state.nic.tx slot with owner := .free }
  deviceWrites : ∀ poll point, state.device = some (poll, point) → pollStores point →
    (state.nic.rx state.nic.deviceRxCursor).owner = .device
  deviceChanges : ∀ budget slot, (deviceStep state budget).nic.rx slot ≠ state.nic.rx slot →
    (state.nic.rx slot).owner = .device
  balance : state.device = none →
    state.nic.txCompleted = state.nic.txErrors + state.nic.rxNoBuffer + state.nic.rxCompleted
  /-- In every state the errors counted by the device are the reported ones, those of a reclaim
  call that has not returned, and those of descriptors not reclaimed yet. -/
  errorAccount : state.nic.txErrors = UInt64.ofNat (state.history.reportedErrors +
    inCall state.driver +
      (state.history.outcomes.drop (state.history.reclaimed + readLag state.driver)).count .error)
  errorTotal : state.device = none → (∀ locals point, state.driver ≠ some (.reclaim locals point)) →
    state.history.reclaimed = state.history.completed →
      UInt64.ofNat state.history.reportedErrors = state.nic.txErrors

theorem Accounted.ownership {state : State} (accounted : Accounted state) :
    OwnershipInvariant state := by
  obtain ⟨sound, counted, reported⟩ := accounted
  have errorAccount := counted.txErrors.trans (congrArg UInt64.ofNat reported.rest.symm)
  refine ⟨sound_partition sound, fun _ _ here => submit_store_free sound here,
    fun call _ => driverStep_tx sound call, fun _ _ here => poll_store_device sound here,
    fun budget _ => deviceStep_rx sound budget, counted.balance, errorAccount, ?_⟩
  intro idle outside all
  have decided : state.history.outcomes.length = state.history.completed := by
    have length := sound.deviceKnows.decided
    rw [idle] at length
    exact length
  have quiet : inCall state.driver = 0 ∧ readLag state.driver = 0 := by
    unfold inCall readLag
    constructor
    · split
      · rename_i here
        exact absurd here (outside _ _)
      · rfl
    · split
      · rename_i here
        exact absurd here (outside _ _)
      · rfl
  rw [errorAccount, quiet.1, quiet.2, List.drop_eq_nil_of_le (by omega)]
  rfl

/-- For every capacity `nic_model_init` accepts and every interleaving of driver and device. -/
theorem nic_ownership_partition (capacity : Nat) (nic : NicModel)
    (init : nicModelInit capacity = some nic) (schedule : List Action)
    (errorsGiven : ∀ action ∈ schedule, action ≠ .driver (.txReclaim false)) :
    OwnershipInvariant (run step (start nic) schedule) := by
  have admits : Admits step ErrorsGiven (start nic) schedule := by
    generalize start nic = state
    induction schedule generalizing state with
    | nil => trivial
    | cons action rest ih =>
        exact ⟨errorsGiven action (by simp),
          ih (fun other member => errorsGiven other (by simp [member])) _⟩
  exact (run_invariant Accounted (fun _ action accounted given =>
    step_accounted accounted action given) (start nic) schedule (start_accounted init)
    admits).ownership

/-- A submitted byte that completes with an injected error and is reclaimed. -/
def faultSchedule : List Action :=
  [Action.driver .injectTxError] ++ List.replicate 9 (Action.driver (.txSubmit (some [7]))) ++
    List.replicate 13 (Action.device 3) ++ List.replicate 6 (Action.driver (.txReclaim true))

theorem nic_ownership_partition_fault :
    ∃ nic, nicModelInit 3 = some nic ∧
      OwnershipInvariant (run step (start nic) faultSchedule) ∧
      (run step (start nic) faultSchedule).device = none ∧
      (run step (start nic) faultSchedule).history.reportedErrors = 1 ∧
      (run step (start nic) faultSchedule).nic.txErrors = 1 := by
  refine ⟨_, rfl, nic_ownership_partition 3 _ rfl faultSchedule ?_, rfl, rfl, rfl⟩
  intro action member
  simp only [faultSchedule, List.mem_append, List.mem_replicate, List.mem_singleton] at member
  rcases member with ((rfl | ⟨-, rfl⟩) | ⟨-, rfl⟩) | ⟨-, rfl⟩ <;> simp

end EmbeddedRuntime.Nic.Accounting
