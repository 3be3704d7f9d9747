import EmbeddedRuntime.Lib.Notifications
import EmbeddedRuntime.Nic.Threads

/-!
# No interrupt is lost or invented

An observer notes when a TX descriptor is done, when an RX descriptor is
delivered and when an error is counted, each OR into `irq_status`, and what
`nic_take_interrupts` returns.  The three events of one descriptor have one OR
each, later than the event, and the driver may fetch the bits in between.
-/

set_option autoImplicit false

namespace EmbeddedRuntime.Nic.Interrupts

open EmbeddedRuntime.Lib.Machine
open EmbeddedRuntime.Lib.Notifications
open EmbeddedRuntime.Nic.Model
open EmbeddedRuntime.Nic.Threads

/-- What the bits of `irq_status` stand for. -/
inductive Cause where
  | tx
  | rx
  | error
  deriving DecidableEq, Repr

def Cause.mask : Cause → UInt32
  | .tx => nicIrqTx
  | .rx => nicIrqRx
  | .error => nicIrqError

/-- The number of the bit in the mask. -/
def Cause.bit : Cause → Nat
  | .tx => 0
  | .rx => 1
  | .error => 2

def IsSet (status : UInt32) (bit : Nat) : Prop := status.toBitVec.getLsbD bit = true

instance (status : UInt32) (bit : Nat) : Decidable (IsSet status bit) :=
  inferInstanceAs (Decidable (_ = true))

def Has (status : UInt32) (cause : Cause) : Prop := IsSet status cause.bit

instance (status : UInt32) (cause : Cause) : Decidable (Has status cause) :=
  inferInstanceAs (Decidable (IsSet status cause.bit))

abbrev Log := List (Entry Cause UInt32)

/-- What the device does at a point of its loop: it completes a frame, delivers it or counts an
error, or it sets the bit of one of these. -/
def pollNoted : PollPoint → Option (Entry Cause UInt32)
  | .countError => some (.occurred .error)
  | .irqError => some (.raised .error)
  | .rxPublish => some (.occurred .rx)
  | .irqRx => some (.raised .rx)
  | .txPublish => some (.occurred .tx)
  | .irqTx => some (.raised .tx)
  | _ => none

/-- What the observer notes of an action. -/
def noted (state : State) : Action → Option (Entry Cause UInt32)
  | .driver .takeInterrupts =>
      if state.driver.isNone then some (.taken state.nic.irqStatus) else none
  | .driver _ => none
  | .device _ => state.device.bind fun (_, point) => pollNoted point

/-- An action, watched by the observer. -/
def watch (watched : State × Log) (action : Action) : State × Log :=
  (step watched.1 action, watched.2 ++ (noted watched.1 action).toList)

/-- The event of this iteration whose bit is not set yet. -/
def pollDue : PollPoint → Option Cause
  | .irqError => some .error
  | .rxAdvance | .rxTail | .countRx | .irqRx => some .rx
  | .txAdvance | .txHead | .irqTx => some .tx
  | _ => none

def Due (device : Option (Poll × PollPoint)) (cause : Cause) : Prop :=
  (device.bind fun (_, point) => pollDue point) = some cause

theorem due_iff {device : Option (Poll × PollPoint)} {cause : Cause}
    (now : (device.bind fun (_, point) => pollDue point) = some cause) (other : Cause) :
    Due device other ↔ other = cause := by
  rw [Due, now, Option.some.injEq, eq_comm]

/-! ## Bits -/

theorem bit_injective {first second : Cause} (same : first.bit = second.bit) : first = second := by
  cases first <;> cases second <;> first | rfl | cases same

theorem set_mask (cause : Cause) (bit : Nat) : IsSet cause.mask bit ↔ bit = cause.bit := by
  have power : cause.mask.toBitVec = BitVec.twoPow 32 cause.bit := by
    cases cause <;> decide
  have inside : cause.bit < 32 := by
    cases cause <;> decide
  rw [IsSet, power, BitVec.getLsbD_twoPow]
  simp [inside, eq_comm]

theorem set_or (status : UInt32) (cause : Cause) (bit : Nat) :
    IsSet (status ||| cause.mask) bit ↔ bit = cause.bit ∨ IsSet status bit := by
  rw [← set_mask, IsSet, UInt32.toBitVec_or, BitVec.getLsbD_or, Bool.or_eq_true]
  exact or_comm

theorem not_set_zero (bit : Nat) : ¬ IsSet 0 bit := by
  simp [IsSet]

theorem has_or (status : UInt32) (cause other : Cause) :
    Has (status ||| cause.mask) other ↔ other = cause ∨ Has status other := by
  rw [Has, set_or]
  exact or_congr ⟨bit_injective, congrArg Cause.bit⟩ Iff.rfl

/-- Only bits with a meaning are set. -/
def Known (status : UInt32) : Prop := ∀ bit, IsSet status bit → ∃ cause : Cause, cause.bit = bit

theorem known_zero : Known 0 := fun bit set => absurd set (not_set_zero bit)

theorem Known.or {status : UInt32} (known : Known status) (cause : Cause) :
    Known (status ||| cause.mask) := by
  intro bit set
  rcases (set_or status cause bit).mp set with rfl | old
  · exact ⟨cause, rfl⟩
  · exact known bit old

/-! ## One action -/

/-- The log tells what `irq_status` holds and which bit the device owes. -/
structure Recorded (state : State) (log : Log) : Prop where
  truthful : Truthful Has log state.nic.irqStatus
  marked : Marked log (Due state.device)
  known : Known state.nic.irqStatus
  takenKnown : ∀ status, Entry.taken status ∈ log → Known status

section Steps
variable {state next : State} {log : Log}

theorem Recorded.silent (recorded : Recorded state log)
    (sameStatus : next.nic.irqStatus = state.nic.irqStatus)
    (sameDue : ∀ cause, Due next.device cause ↔ Due state.device cause) : Recorded next log where
  truthful := by
    rw [sameStatus]
    exact recorded.truthful
  marked := recorded.marked.silent sameDue
  known := by
    rw [sameStatus]
    exact recorded.known
  takenKnown := recorded.takenKnown

theorem takenKnown_append (recorded : Recorded state log) {entry : Entry Cause UInt32}
    (last : ∀ status, entry = .taken status → Known status) (status : UInt32)
    (member : Entry.taken status ∈ log ++ [entry]) : Known status := by
  rcases List.mem_append.mp member with old | new
  · exact recorded.takenKnown status old
  · exact last status (List.mem_singleton.mp new).symm

theorem Recorded.occurred (recorded : Recorded state log) (cause : Cause)
    (sameStatus : next.nic.irqStatus = state.nic.irqStatus)
    (free : ∀ other, ¬ Due state.device other) (now : ∀ other, Due next.device other ↔ other = cause) :
    Recorded next (log ++ [.occurred cause]) where
  truthful := recorded.truthful.occurred cause fun _ => by rw [sameStatus]
  marked := recorded.marked.occurred (free cause) fun other =>
    (now other).trans ⟨Or.inl, fun either => either.resolve_right (free other)⟩
  known := by
    rw [sameStatus]
    exact recorded.known
  takenKnown := takenKnown_append recorded (by simp)

theorem Recorded.raised (recorded : Recorded state log) (cause : Cause)
    (marks : next.nic.irqStatus = state.nic.irqStatus ||| cause.mask)
    (now : ∀ other, Due state.device other ↔ other = cause) (free : ∀ other, ¬ Due next.device other) :
    Recorded next (log ++ [.raised cause]) where
  truthful := recorded.truthful.raised cause fun other => by rw [marks, has_or]
  marked := recorded.marked.raised ((now cause).mpr rfl) fun other =>
    iff_of_false (free other) fun ⟨differ, isDue⟩ => differ ((now other).mp isDue)
  known := by
    rw [marks]
    exact recorded.known.or cause
  takenKnown := takenKnown_append recorded (by simp)

theorem Recorded.fetch (recorded : Recorded state log) (clear : next.nic.irqStatus = 0)
    (sameDevice : next.device = state.device) :
    Recorded next (log ++ [.taken state.nic.irqStatus]) where
  truthful := recorded.truthful.fetch fun cause => by
    rw [clear]
    exact not_set_zero cause.bit
  marked := recorded.marked.fetch state.nic.irqStatus fun cause => by rw [sameDevice]
  known := by
    rw [clear]
    exact known_zero
  takenKnown := takenKnown_append recorded fun status same => by
    obtain rfl := Entry.taken.inj same
    exact recorded.known

/-- Every call but `nic_take_interrupts` leaves the bits alone. -/
theorem beginCall_irqStatus (state : State) {call : DriverCall} (other : call ≠ .takeInterrupts) :
    (beginCall state state.nic call).1.nic.irqStatus = state.nic.irqStatus := by
  match call, other with
  | .txSubmit none, _ => rfl
  | .txSubmit (some packet), _ =>
      rw [beginCall]
      split_ifs <;> rfl
  | .txReclaim errors, _ => rfl
  | .rxReceive none, _ => rfl
  | .rxReceive (some capacity), _ => rfl
  | .takeInterrupts, other => exact absurd rfl other
  | .injectTxError, _ => rfl

theorem driverMove_irqStatus (state : State) {call : DriverCall}
    (other : noted state (.driver call) = none) :
    (driverMove state call).1.nic.irqStatus = state.nic.irqStatus := by
  unfold driverMove
  split
  · next idle =>
      apply beginCall_irqStatus
      rintro rfl
      simp [noted, idle] at other
  · next packet point _ =>
      cases point with
      | load => rw [submitStep]; split_ifs <;> rfl
      | copy i => rw [submitStep]; split <;> rfl
      | length | error | publish | advance | tail => rfl
  · next locals point _ =>
      cases point with
      | load | error => rw [reclaimStep]; split_ifs <;> rfl
      | free | advance => rfl
  · next point _ =>
      cases point with
      | load capacity | check capacity | copy length out => rw [receiveStep]; split_ifs <;> rfl
      | size | length out | release out length | advance out length | head out length => rfl

theorem driverStep_recorded (recorded : Recorded state log) (call : DriverCall) :
    Recorded (driverStep state call) (log ++ (noted state (.driver call)).toList) := by
  have sameDevice : (driverStep state call).device = state.device :=
    (driverMove_frame state call).device
  cases entry : noted state (.driver call) with
  | none =>
      rw [Option.toList_none, List.append_nil]
      exact recorded.silent (driverMove_irqStatus state entry) fun cause => by rw [sameDevice]
  | some entry' =>
      cases call with
      | takeInterrupts =>
          simp only [noted, Option.ite_none_right_eq_some, Option.isNone_iff_eq_none,
            Option.some.injEq] at entry
          obtain ⟨idle, rfl⟩ := entry
          refine recorded.fetch ?_ sameDevice
          change (driverMove state .takeInterrupts).1.nic.irqStatus = 0
          rw [driverMove, idle]
          rfl
      | txSubmit packet | txReclaim errors | rxReceive capacity | injectTxError => cases entry

theorem pollStep_recorded {poll : Poll} {point : PollPoint} (recorded : Recorded state log)
    (here : state.device = some (poll, point)) :
    Recorded (pollStep state state.nic poll point) (log ++ (pollNoted point).toList) := by
  have due : ∀ cause, Due state.device cause ↔ pollDue point = some cause := by
    intro cause
    rw [here]
    rfl
  have quiet : ∀ next : State, next.nic.irqStatus = state.nic.irqStatus →
      (∀ cause, Due next.device cause ↔ pollDue point = some cause) → Recorded next (log ++ []) := by
    intro next sameStatus sameDue
    rw [List.append_nil]
    exact recorded.silent sameStatus fun cause => (sameDue cause).trans (due cause).symm
  have none : pollDue point = none → ∀ cause, ¬ Due state.device cause := by
    intro free cause isDue
    rw [due, free] at isDue
    cases isDue
  have only {cause : Cause} (now : pollDue point = some cause) :
      ∀ other, Due state.device other ↔ other = cause :=
    due_iff (by rw [here]; exact now)
  cases point with
  | load | rxLoad =>
      rw [pollStep]
      split_ifs <;> exact quiet _ rfl fun _ => Iff.rfl
  | lengthCheck error =>
      rw [pollStep]
      split_ifs <;> exact quiet _ rfl fun _ => Iff.rfl
  | copy length i =>
      rw [pollStep]
      split_ifs <;> exact quiet _ rfl fun _ => Iff.rfl
  | countError => exact recorded.occurred .error rfl (none rfl) (due_iff rfl)
  | rxPublish => exact recorded.occurred .rx rfl (none rfl) (due_iff rfl)
  | txPublish => exact recorded.occurred .tx rfl (none rfl) (due_iff rfl)
  | irqError => exact recorded.raised .error rfl (only rfl) fun _ isDue => by cases isDue
  | irqRx => exact recorded.raised .rx rfl (only rfl) fun _ isDue => by cases isDue
  | irqTx => exact recorded.raised .tx rfl (only rfl) fun _ isDue => by cases isDue
  | _ => exact quiet _ rfl fun _ => Iff.rfl

theorem deviceStep_recorded (recorded : Recorded state log) (budget : Nat) :
    Recorded (deviceStep state budget) (log ++ (noted state (.device budget)).toList) := by
  unfold deviceStep noted
  cases here : state.device with
  | none =>
      rw [Option.bind_none, Option.toList_none, List.append_nil]
      refine recorded.silent rfl fun cause => ?_
      rw [here]
      exact Iff.rfl
  | some moved => exact pollStep_recorded recorded here

theorem watch_recorded (watched : State × Log) (action : Action)
    (recorded : Recorded watched.1 watched.2) :
    Recorded (watch watched action).1 (watch watched action).2 := by
  cases action with
  | driver call => exact driverStep_recorded recorded call
  | device budget => exact deviceStep_recorded recorded budget

end Steps

/-! ## Every interleaving -/

theorem start_recorded {capacity : Nat} {nic : NicModel} (init : nicModelInit capacity = some nic) :
    Recorded (start nic) [] := by
  unfold nicModelInit at init
  split_ifs at init
  obtain rfl := Option.some.inj init
  exact ⟨truthful_nil fun cause => not_set_zero cause.bit, marked_nil fun _ => nofun, known_zero,
    by simp⟩

theorem run_recorded {capacity : Nat} {nic : NicModel} (init : nicModelInit capacity = some nic)
    (schedule : List Action) :
    Recorded (run watch (start nic, []) schedule).1 (run watch (start nic, []) schedule).2 :=
  run_invariant (fun watched : State × Log => Recorded watched.1 watched.2)
    (fun watched action recorded _ => watch_recorded watched action recorded) _ schedule
    (start_recorded init) (admits_true watch _ schedule)

section Recorded
variable {state : State} {log : Log} (recorded : Recorded state log)
include recorded

/-- Every bit that is fetched is that of an event whose bit was set since the fetch before. -/
theorem Recorded.justified {k bit : Nat} {status : UInt32}
    (here : log[k]? = some (.taken status)) (isSet : IsSet status bit) :
    ∃ cause i j, cause.bit = bit ∧ MarkOf log cause i j ∧ FirstTaken log j k := by
  obtain ⟨cause, rfl⟩ := recorded.takenKnown status (List.mem_of_getElem? here) bit isSet
  obtain ⟨j, before, raised, untaken⟩ := (recorded.truthful.taken k status here cause).mp isSet
  obtain ⟨i, mark⟩ := recorded.marked.mark j cause raised
  exact ⟨cause, i, j, rfl, mark, before, ⟨status, here⟩, untaken⟩

/-- Between device steps no bit is due. -/
theorem Recorded.idle_has (idle : state.device = none) {i : Nat} {cause : Cause}
    (occurred : log[i]? = some (.occurred cause)) (untaken : Untaken log (i + 1) log.length) :
    Has state.nic.irqStatus cause := by
  rcases recorded.marked.event i cause occurred with ⟨j, mark⟩ | ⟨due, -⟩
  · have inside := (List.getElem?_eq_some_iff.mp mark.raised).1
    have before := mark.before
    exact (recorded.truthful.current cause).mpr
      ⟨j, inside, mark.raised, fun k low high => untaken k (by omega) high⟩
  · rw [idle] at due
    cases due

end Recorded

/-- For every interleaving of the two threads: an event has its bit set by the device, later, and
that bit is still set or was returned by exactly one call, the first one after the OR; every bit
that a call returns is that of an event whose OR came since the call before; and between device
steps the bit of everything that happened since the last call is set, for an RX descriptor that was
delivered whether it is still done or consumed. -/
theorem nic_interrupts_exact (capacity : Nat) (nic : NicModel)
    (init : nicModelInit capacity = some nic) (schedule : List Action) :
    let watched := run watch (start nic, []) schedule
    (∀ i cause, watched.2[i]? = some (.occurred cause) →
      (Due watched.1.device cause ∧ Quiet watched.2 cause (i + 1) watched.2.length) ∨
        ∃ j, MarkOf watched.2 cause i j ∧
          ((Untaken watched.2 (j + 1) watched.2.length ∧ Has watched.1.nic.irqStatus cause) ∨
            ∃! k, FirstTaken watched.2 j k ∧
              ∃ status, watched.2[k]? = some (.taken status) ∧ Has status cause)) ∧
      (∀ k status bit, watched.2[k]? = some (.taken status) → IsSet status bit →
        ∃ cause i j, cause.bit = bit ∧ MarkOf watched.2 cause i j ∧ FirstTaken watched.2 j k) ∧
      (watched.1.device = none → ∀ i cause, watched.2[i]? = some (.occurred cause) →
        Untaken watched.2 (i + 1) watched.2.length → Has watched.1.nic.irqStatus cause) := by
  intro watched
  have recorded : Recorded watched.1 watched.2 := run_recorded init schedule
  refine ⟨?_, ?_, ?_⟩
  · intro i cause occurred
    rcases recorded.marked.event i cause occurred with ⟨j, mark⟩ | pending
    · exact Or.inr ⟨j, mark, recorded.truthful.notified mark.raised⟩
    · exact Or.inl pending
  · intro k status bit here isSet
    exact recorded.justified here isSet
  · intro idle i cause occurred untaken
    exact recorded.idle_has idle occurred untaken

/-- A frame is delivered, and the bits are fetched before the OR for it and at the end. -/
def earlyFetch : List Action :=
  List.replicate 9 (Action.driver (.txSubmit (some [7]))) ++ List.replicate 11 (Action.device 1) ++
    [Action.driver .takeInterrupts] ++ List.replicate 12 (Action.device 1) ++
    [Action.driver .takeInterrupts]

theorem nic_interrupts_exact_early_fetch :
    ∃ nic, nicModelInit 3 = some nic ∧
      let log := (run watch (start nic, []) earlyFetch).2
      log = [.occurred .rx, .taken 0, .raised .rx, .occurred .tx, .raised .tx, .taken 3] ∧
        ∃ cause i j, cause.bit = 1 ∧ MarkOf log cause i j ∧ FirstTaken log j 5 := by
  refine ⟨_, rfl, rfl, ?_⟩
  exact (nic_interrupts_exact 3 _ rfl earlyFetch).2.1 5 3 1 rfl (by decide)

end EmbeddedRuntime.Nic.Interrupts
