import EmbeddedRuntime.Lib.BoundedQueue
import EmbeddedRuntime.Lib.Machine
import EmbeddedRuntime.Realtime.RingBuffer

/-!
# The ring buffer refines a bounded queue

`Represents` ties the storage, the two indices and the count to a queue of
items: item `i` lies in slot `(tail + i) % capacity`.  Each critical section
answers as the queue does and keeps the relation; runs follow by induction.
-/

set_option autoImplicit false

namespace EmbeddedRuntime.Realtime.RingRefinement

open EmbeddedRuntime.Lib
open EmbeddedRuntime.Lib.Buffer
open EmbeddedRuntime.Lib.BoundedQueue
open EmbeddedRuntime.Realtime.RingBuffer

/-- The queue an item-level reader sees in the ring. -/
structure Represents (capacity itemSize : Nat) (rb : MlrtRingBuffer)
    (queue : Queue (List UInt8)) : Prop where
  capacityPositive : 0 < capacity
  capacityExact : rb.capacity = capacity
  itemSizeExact : rb.itemSize = itemSize
  room : capacity * itemSize ≤ rb.storage.length
  tailBound : rb.tail < capacity
  headExact : rb.head = (rb.tail + queue.items.length) % capacity
  countExact : rb.count = queue.items.length
  bounded : queue.Bounded capacity
  items : ∀ index (inside : index < queue.items.length),
    readAt rb.storage (((rb.tail + index) % capacity) * itemSize) itemSize = queue.items[index]
  highWaterExact : rb.highWater = queue.highWater
  droppedExact : rb.dropped = UInt64.ofNat queue.dropped

section Operations
variable {capacity itemSize : Nat} {rb : MlrtRingBuffer} {queue : Queue (List UInt8)}

theorem slot_room (represents : Represents capacity itemSize rb queue) (index : Nat) :
    (index % capacity) * itemSize + itemSize ≤ rb.storage.length := by
  have inRing := Nat.mod_lt index represents.capacityPositive
  calc (index % capacity) * itemSize + itemSize
      = (index % capacity + 1) * itemSize := (Nat.succ_mul ..).symm
    _ ≤ capacity * itemSize := Nat.mul_le_mul_right _ inRing
    _ ≤ rb.storage.length := represents.room

theorem slots_disjoint {left right : Nat} (different : left ≠ right) :
    left * itemSize + itemSize ≤ right * itemSize ∨
      right * itemSize + itemSize ≤ left * itemSize := by
  rcases Nat.lt_or_gt_of_ne different with less | greater
  · exact Or.inl (by rw [← Nat.succ_mul]; exact Nat.mul_le_mul_right _ less)
  · exact Or.inr (by rw [← Nat.succ_mul]; exact Nat.mul_le_mul_right _ greater)

theorem represents_refuse (represents : Represents capacity itemSize rb queue) :
    Represents capacity itemSize { rb with dropped := rb.dropped + 1 } queue.refuse :=
  { represents with
    bounded := ⟨represents.bounded.lengthLe, represents.bounded.markLe⟩
    droppedExact := by
      show rb.dropped + 1 = UInt64.ofNat (queue.dropped + 1)
      rw [represents.droppedExact, UInt64.ofNat_add]
      rfl }

/-- Moving `tail` past the oldest item. -/
theorem represents_advance (represents : Represents capacity itemSize rb queue)
    (oldest : List UInt8) (rest : List (List UInt8)) (held : queue.items = oldest :: rest) :
    Represents capacity itemSize (takeItem rb).2 { queue with items := rest } := by
  have len : queue.items.length = rest.length + 1 := by rw [held]; rfl
  have bound := represents.bounded
  refine
    { represents with
      tailBound := ?_, headExact := ?_, countExact := ?_, bounded := ?_, items := ?_ }
  · simp only [takeItem, represents.capacityExact]
    exact Nat.mod_lt _ represents.capacityPositive
  · simp only [takeItem, represents.capacityExact, represents.headExact, len, Nat.mod_add_mod]
    congr 1
    omega
  · simp only [takeItem, represents.countExact, len]
    omega
  · exact ⟨by have := bound.lengthLe; simp only; omega, bound.markLe⟩
  · intro index inside
    change index < rest.length at inside
    have shifted := represents.items (index + 1) (by omega)
    simp only [takeItem, represents.capacityExact, Nat.mod_add_mod]
    rw [show rb.tail + 1 + index = rb.tail + (index + 1) by omega, shifted]
    simp [held]

theorem represents_dropOldest (represents : Represents capacity itemSize rb queue)
    (nonempty : queue.items ≠ []) :
    Represents capacity itemSize (dropOldest rb) queue.dropOldest := by
  obtain ⟨oldest, rest, held⟩ := List.exists_cons_of_ne_nil nonempty
  have advanced := represents_advance represents oldest rest held
  have refused := represents_refuse advanced
  have same : queue.dropOldest = Queue.refuse { queue with items := rest } := by
    simp [Queue.dropOldest, Queue.refuse, held]
  rw [same]
  exact refused

/-- Writing at `head` touches only the slot after the last item. -/
theorem represents_storeItem (represents : Represents capacity itemSize rb queue)
    (space : queue.items.length < capacity) (item : List UInt8)
    (sized : item.length = itemSize) :
    Represents capacity itemSize (storeItem rb item) (queue.append item) := by
  have takeAll : item.take rb.itemSize = item := by
    rw [represents.itemSizeExact, ← sized, List.take_length]
  have offset : slot rb rb.head =
      ((rb.tail + queue.items.length) % capacity) * itemSize := by
    rw [slot, represents.itemSizeExact, represents.headExact]
  have insideItem : ((rb.tail + queue.items.length) % capacity) * itemSize + item.length ≤
      rb.storage.length := by
    rw [sized]
    exact slot_room represents (rb.tail + queue.items.length)
  refine
    { represents with
      room := ?_, headExact := ?_, countExact := ?_, bounded := ?_, items := ?_,
      highWaterExact := ?_ }
  · simp only [storeItem, takeAll, offset, length_writeAt _ _ _ insideItem]
    exact represents.room
  · simp only [storeItem, Queue.append, represents.capacityExact, represents.headExact,
      Nat.mod_add_mod, List.length_append, List.length_singleton, Nat.add_assoc]
  · simp [storeItem, Queue.append, represents.countExact]
  · exact queue.append_bounded capacity item represents.bounded space
  · intro index within
    simp only [Queue.append, List.length_append, List.length_singleton] at within
    simp only [storeItem, Queue.append, takeAll, offset]
    by_cases old : index < queue.items.length
    · have differentSlot : (rb.tail + index) % capacity ≠
          (rb.tail + queue.items.length) % capacity :=
        Window.slot_ne rb.tail (by omega) (by omega) (by omega) (by omega) (by omega)
      have apart := @slots_disjoint itemSize _ _ differentSlot
      rw [readAt_writeAt_disjoint _ _ _ _ _ insideItem (by rw [sized]; exact apart),
        represents.items index old, List.getElem_append_left old]
    · have last : index = queue.items.length := by omega
      subst last
      have same := readAt_writeAt_same rb.storage _ item insideItem
      rw [sized] at same
      rw [same, List.getElem_append_right (Nat.le_refl _)]
      simp
  · simp only [storeItem, Queue.append, represents.countExact, represents.highWaterExact]
    split <;> omega

theorem takeItem_oldest (represents : Represents capacity itemSize rb queue)
    (oldest : List UInt8) (rest : List (List UInt8)) (held : queue.items = oldest :: rest) :
    (takeItem rb).1 = oldest := by
  have first := represents.items 0 (by rw [held]; simp)
  rw [Nat.add_zero, Nat.mod_eq_of_lt represents.tailBound] at first
  rw [takeItem, slot, represents.itemSizeExact, first]
  simp [held]

end Operations

/-! ## The abstract machine and the simulation -/

/-- A pop of the abstract queue, as a critical section reports it; `empty` is
what the section does when it finds no item. -/
def queuePop (empty : PopResult) (queue : Queue (List UInt8)) :
    RingResult × Queue (List UInt8) :=
  match queue.pop with
  | (none, next) => (.popped empty, next)
  | (some item, next) => (.popped (.returned 0 (some item)), next)

/-- What the operations mean on the queue. -/
def queueStep (capacity : Nat) (queue : Queue (List UInt8)) :
    RingOp → RingResult × Queue (List UInt8)
  | .push none _ => (.pushed (-1), queue)
  | .push (some item) overwriteOldest =>
      let outcome := queue.push capacity item (overwriteOldest ≠ 0)
      (.pushed (if outcome.1 then 0 else 1), outcome.2)
  | .pop false => (.popped (.returned (-1) none), queue)
  | .pop true => queuePop (.returned 1 none) queue
  | .waitPop false => (.popped (.returned (-1) none), queue)
  | .waitPop true => queuePop .waiting queue
  | .wakePop timeoutMs rc =>
      if rc = 0 then queuePop .waiting queue
      else if 0 ≤ timeoutMs ∧ rc = etimedout then (.popped (.returned 1 none), queue)
      else (.popped (.returned (-1) none), queue)
  | .getStats =>
      (.stats ⟨queue.items.length, capacity, queue.highWater, UInt64.ofNat queue.dropped⟩, queue)

def queueRun (capacity : Nat) (queue : Queue (List UInt8)) :
    List RingOp → List RingResult × Queue (List UInt8)
  | [] => ([], queue)
  | op :: rest =>
      let (result, next) := queueStep capacity queue op
      let (results, final) := queueRun capacity next rest
      (result :: results, final)

/-- The caller's promise: a non-null item points to `item_size` bytes. -/
def Sized (itemSize : Nat) : RingOp → Prop
  | .push (some item) _ => item.length = itemSize
  | _ => True

section Simulation
variable {capacity itemSize : Nat} {rb : MlrtRingBuffer} {queue : Queue (List UInt8)}

/-- The step lemma for both copies of the pop code. -/
theorem pop_simulates (represents : Represents capacity itemSize rb queue) (empty : PopResult) :
    let concrete := if rb.count = 0 then (empty, rb)
      else (.returned 0 (some (takeItem rb).1), (takeItem rb).2)
    RingResult.popped concrete.1 = (queuePop empty queue).1 ∧
      Represents capacity itemSize concrete.2 (queuePop empty queue).2 := by
  cases held : queue.items with
  | nil =>
      have none : rb.count = 0 := by rw [represents.countExact, held]; rfl
      simp only [none, if_true, queuePop, Queue.pop, held]
      exact ⟨trivial, represents⟩
  | cons oldest rest =>
      have some : rb.count ≠ 0 := by rw [represents.countExact, held]; simp
      simp only [some, if_false, queuePop, Queue.pop, held,
        takeItem_oldest represents oldest rest held]
      exact ⟨trivial, represents_advance represents oldest rest held⟩

theorem push_simulates (represents : Represents capacity itemSize rb queue)
    (item : List UInt8) (overwriteOldest : Int) (sized : item.length = itemSize) :
    (mlrtRingPush rb (some item) overwriteOldest).1 =
        (if (queue.push capacity item (overwriteOldest ≠ 0)).1 then 0 else 1) ∧
      Represents capacity itemSize (mlrtRingPush rb (some item) overwriteOldest).2
        (queue.push capacity item (overwriteOldest ≠ 0)).2 := by
  have lengthLe : queue.items.length ≤ capacity :=
    represents.bounded.lengthLe.trans represents.bounded.markLe
  have positive := represents.capacityPositive
  have fullExact : rb.count = rb.capacity ↔ queue.items.length = capacity := by
    rw [represents.countExact, represents.capacityExact]
  by_cases full : queue.items.length = capacity
  · by_cases refuse : overwriteOldest = 0
    · have refused := Queue.push_refuse item full.ge
      simp only [mlrtRingPush, if_pos (fullExact.mpr full), refuse, if_true, ne_eq,
        not_true_eq_false, decide_false, refused]
      exact ⟨rfl, represents_refuse represents⟩
    · have overwritten := Queue.push_overwrite item full.ge
      have nonempty : queue.items ≠ [] := by
        intro none
        rw [none, List.length_nil] at full
        omega
      simp only [mlrtRingPush, if_pos (fullExact.mpr full), refuse, if_false, ne_eq,
        not_false_eq_true, decide_true, overwritten]
      refine ⟨rfl, represents_storeItem (represents_dropOldest represents nonempty) ?_
        item sized⟩
      simp only [Queue.dropOldest, List.length_tail]
      omega
  · have space : queue.items.length < capacity := by omega
    simp only [mlrtRingPush, if_neg fun same => full (fullExact.mp same),
      Queue.push_of_space item _ space]
    exact ⟨rfl, represents_storeItem represents space item sized⟩

/-- One critical section answers as the queue does. -/
theorem ringStep_simulates (represents : Represents capacity itemSize rb queue) (op : RingOp)
    (sized : Sized itemSize op) :
    (ringStep rb op).1 = (queueStep capacity queue op).1 ∧
      Represents capacity itemSize (ringStep rb op).2 (queueStep capacity queue op).2 := by
  cases op with
  | push item overwriteOldest =>
      cases item with
      | none => exact ⟨rfl, represents⟩
      | some item =>
          obtain ⟨code, next⟩ := push_simulates represents item overwriteOldest sized
          exact ⟨congrArg RingResult.pushed code, next⟩
  | pop item =>
      cases item with
      | false => exact ⟨rfl, represents⟩
      | true => exact pop_simulates represents (.returned 1 none)
  | waitPop item =>
      cases item with
      | false => exact ⟨rfl, represents⟩
      | true => exact pop_simulates represents .waiting
  | wakePop timeoutMs rc =>
      simp only [ringStep, mlrtRingWaitPopWake, queueStep]
      by_cases woken : rc = 0
      · have waited := pop_simulates represents .waiting
        have notTimeout : ¬ (0 : Int) = etimedout := by decide
        simpa only [woken, ne_eq, not_true_eq_false, if_false, if_true, notTimeout,
          ite_self, waitPopTest] using waited
      · by_cases forever : timeoutMs < 0
        · rw [if_pos forever, if_pos woken, if_neg woken, if_neg (by omega)]
          exact ⟨rfl, represents⟩
        · by_cases expired : rc = etimedout
          · rw [if_neg forever, if_pos expired, if_neg woken, if_pos ⟨by omega, expired⟩]
            exact ⟨rfl, represents⟩
          · rw [if_neg forever, if_neg expired, if_pos woken, if_neg woken,
              if_neg fun both => expired both.2]
            exact ⟨rfl, represents⟩
  | getStats =>
      simp only [ringStep, mlrtRingGetStats, queueStep, represents.countExact,
        represents.capacityExact, represents.highWaterExact, represents.droppedExact]
      exact ⟨trivial, represents⟩

theorem ringRun_simulates (represents : Represents capacity itemSize rb queue)
    (ops : List RingOp) (sized : ∀ op ∈ ops, Sized itemSize op) :
    (ringRun rb ops).1 = (queueRun capacity queue ops).1 ∧
      Represents capacity itemSize (ringRun rb ops).2 (queueRun capacity queue ops).2 := by
  induction ops generalizing rb queue with
  | nil => exact ⟨rfl, represents⟩
  | cons op rest ih =>
      obtain ⟨answer, next⟩ := ringStep_simulates represents op (sized op (by simp))
      obtain ⟨answers, final⟩ := ih next fun later member => sized later (by simp [member])
      simp only [ringRun, queueRun]
      rw [answer, answers]
      exact ⟨rfl, final⟩

theorem mlrtRingInit_represents (storage : List UInt8) (capacity itemSize : Nat)
    (os : PthreadInit) (rb : MlrtRingBuffer)
    (initialised : mlrtRingInit (some storage) capacity itemSize os = some rb)
    (room : capacity * itemSize ≤ storage.length) :
    Represents capacity itemSize rb Queue.empty := by
  simp only [mlrtRingInit] at initialised
  split at initialised
  · contradiction
  · rename_i accepted
    split_ifs at initialised
    cases Option.some.inj initialised
    have positive : 0 < capacity := by omega
    exact
      { capacityPositive := positive
        capacityExact := rfl
        itemSizeExact := rfl
        room := room
        tailBound := positive
        headExact := (Nat.zero_mod capacity).symm
        countExact := rfl
        bounded := Queue.empty_bounded capacity
        items := fun index inside => absurd inside (Nat.not_lt_zero index)
        highWaterExact := rfl
        droppedExact := rfl }

end Simulation

/-! ## Counting calls -/

def isPushCall : RingOp → Bool
  | .push (some _) _ => true
  | _ => false

def isItemPopped : RingResult → Bool
  | .popped (.returned _ (some _)) => true
  | _ => false

theorem queuePop_account (empty : PopResult) (queue : Queue (List UInt8))
    (noItem : isItemPopped (.popped empty) = false) :
    (queuePop empty queue).2.items.length + (queuePop empty queue).2.dropped +
        [(queuePop empty queue).1].countP isItemPopped =
      queue.items.length + queue.dropped := by
  cases held : queue.items with
  | nil => simp [queuePop, Queue.pop, held, noItem]
  | cons item rest =>
      simp only [queuePop, Queue.pop, held, isItemPopped, List.countP_singleton, if_true,
        List.length_cons]
      omega

/-- One operation: a push call enters the account, an item popped leaves it. -/
theorem queueStep_account (capacity : Nat) (queue : Queue (List UInt8)) (op : RingOp)
    (positive : 0 < capacity) :
    (queueStep capacity queue op).2.items.length + (queueStep capacity queue op).2.dropped +
        [(queueStep capacity queue op).1].countP isItemPopped =
      queue.items.length + queue.dropped + [op].countP isPushCall := by
  cases op with
  | push item overwriteOldest =>
      cases item with
      | none => simp [queueStep, isPushCall, isItemPopped]
      | some item =>
          have account := queue.push_account capacity item (overwriteOldest ≠ 0) positive
          simpa [queueStep, isPushCall, isItemPopped] using account
  | pop item =>
      cases item with
      | false => simp [queueStep, isPushCall, isItemPopped]
      | true => simpa [queueStep, isPushCall] using queuePop_account _ queue rfl
  | waitPop item =>
      cases item with
      | false => simp [queueStep, isPushCall, isItemPopped]
      | true => simpa [queueStep, isPushCall] using queuePop_account _ queue rfl
  | wakePop timeoutMs rc =>
      simp only [queueStep]
      split
      · simpa [isPushCall] using queuePop_account _ queue rfl
      · split <;> simp [isPushCall, isItemPopped]
  | getStats => simp [queueStep, isPushCall, isItemPopped]

theorem queueRun_account (capacity : Nat) (queue : Queue (List UInt8)) (ops : List RingOp)
    (positive : 0 < capacity) :
    ops.countP isPushCall + queue.items.length + queue.dropped =
      (queueRun capacity queue ops).1.countP isItemPopped +
        (queueRun capacity queue ops).2.items.length +
        (queueRun capacity queue ops).2.dropped := by
  induction ops generalizing queue with
  | nil => simp [queueRun]
  | cons op rest ih =>
      have step := queueStep_account capacity queue op positive
      have later := ih (queueStep capacity queue op).2
      simp only [queueRun, List.countP_cons]
      simp only [List.countP_singleton] at step
      omega

theorem queueStep_highWater (capacity : Nat) (queue : Queue (List UInt8)) (op : RingOp)
    (bounded : queue.Bounded capacity) :
    (queueStep capacity queue op).2.highWater =
      max queue.highWater (queueStep capacity queue op).2.items.length := by
  have unchanged : queue.highWater = max queue.highWater queue.items.length :=
    (max_eq_left bounded.lengthLe).symm
  have popped : ∀ empty, (queuePop empty queue).2.highWater =
      max queue.highWater (queuePop empty queue).2.items.length := by
    intro empty
    have same : (queuePop empty queue).2 = queue.pop.2 := by
      cases held : queue.items <;> simp [queuePop, Queue.pop, held]
    rw [same]
    exact queue.pop_highWater capacity bounded
  cases op with
  | push item overwriteOldest =>
      cases item with
      | none => exact unchanged
      | some item => exact queue.push_highWater capacity item _ bounded
  | pop item => cases item with
      | false => exact unchanged
      | true => exact popped _
  | waitPop item => cases item with
      | false => exact unchanged
      | true => exact popped _
  | wakePop timeoutMs rc =>
      simp only [queueStep]
      split
      · exact popped _
      · split <;> exact unchanged
  | getStats => exact unchanged

def ringNext (rb : MlrtRingBuffer) (op : RingOp) : MlrtRingBuffer := (ringStep rb op).2

theorem ringRun_state (rb : MlrtRingBuffer) (ops : List RingOp) :
    (ringRun rb ops).2 = Machine.run ringNext rb ops := by
  induction ops generalizing rb with
  | nil => rfl
  | cons op rest ih => exact ih (ringNext rb op)

theorem admits_sized (itemSize : Nat) (rb : MlrtRingBuffer) (ops : List RingOp)
    (sized : ∀ op ∈ ops, Sized itemSize op) :
    Machine.Admits ringNext (fun _ op => Sized itemSize op) rb ops := by
  induction ops generalizing rb with
  | nil => trivial
  | cons op rest ih =>
      exact ⟨sized op (by simp), ih _ fun later member => sized later (by simp [member])⟩

/-- `high_water` is the largest count of the run. -/
theorem highWater_is_maximum {capacity itemSize : Nat} {rb : MlrtRingBuffer}
    (represents : Represents capacity itemSize rb Queue.empty) (ops : List RingOp)
    (sized : ∀ op ∈ ops, Sized itemSize op) :
    (∀ n, (ringRun rb (ops.take n)).2.count ≤ (ringRun rb ops).2.highWater) ∧
      ∃ n, n ≤ ops.length ∧
        (ringRun rb (ops.take n)).2.count = (ringRun rb ops).2.highWater := by
  simp only [ringRun_state]
  apply Machine.run_watermark (fun rb => ∃ queue, Represents capacity itemSize rb queue)
    MlrtRingBuffer.count MlrtRingBuffer.highWater
  · rintro state op ⟨queue, related⟩ ok
    exact ⟨_, (ringStep_simulates related op ok).2⟩
  · rintro state op ⟨queue, related⟩ ok
    have next := (ringStep_simulates related op ok).2
    have raised := queueStep_highWater capacity queue op related.bounded
    simp only [ringNext]
    rw [next.highWaterExact, next.countExact, related.highWaterExact]
    exact raised
  · exact ⟨Queue.empty, represents⟩
  · rw [represents.highWaterExact, represents.countExact]
    rfl
  · exact admits_sized itemSize rb ops sized

/-- The second copy of the pop code agrees with the first. -/
theorem waitPop_agrees (rb : MlrtRingBuffer) (timeoutMs : Int) (nonempty : rb.count ≠ 0) :
    mlrtRingWaitPop rb true = mlrtRingPop rb true ∧
      mlrtRingWaitPopWake rb timeoutMs 0 = mlrtRingPop rb true := by
  have notTimeout : ¬ (0 : Int) = etimedout := by decide
  simp [mlrtRingWaitPop, mlrtRingWaitPopWake, mlrtRingPop, waitPopTest, nonempty, notTimeout]

/-- From any accepted initialisation, every sequence of critical sections
answers as the bounded queue does and keeps its contents in the storage; the
counters of the record are those of the queue. -/
theorem ring_refines_bounded_queue (storage : List UInt8) (capacity itemSize : Nat)
    (os : PthreadInit) (rb : MlrtRingBuffer)
    (initialised : mlrtRingInit (some storage) capacity itemSize os = some rb)
    (room : capacity * itemSize ≤ storage.length)
    (ops : List RingOp) (sized : ∀ op ∈ ops, Sized itemSize op) :
    (ringRun rb ops).1 = (queueRun capacity Queue.empty ops).1 ∧
    Represents capacity itemSize (ringRun rb ops).2 (queueRun capacity Queue.empty ops).2 ∧
    (∀ timeoutMs, (ringRun rb ops).2.count ≠ 0 →
      mlrtRingWaitPop (ringRun rb ops).2 true = mlrtRingPop (ringRun rb ops).2 true ∧
      mlrtRingWaitPopWake (ringRun rb ops).2 timeoutMs 0 = mlrtRingPop (ringRun rb ops).2 true) ∧
    (ringRun rb ops).2.count ≤ (ringRun rb ops).2.highWater ∧
    (ringRun rb ops).2.highWater ≤ capacity ∧
    (∀ n, (ringRun rb (ops.take n)).2.count ≤ (ringRun rb ops).2.highWater) ∧
    (∃ n, n ≤ ops.length ∧
      (ringRun rb (ops.take n)).2.count = (ringRun rb ops).2.highWater) ∧
    ∃ drops, (ringRun rb ops).2.dropped = UInt64.ofNat drops ∧
      ops.countP isPushCall =
        (ringRun rb ops).1.countP isItemPopped + (ringRun rb ops).2.count + drops ∧
      (drops < 2 ^ 64 → (ringRun rb ops).2.dropped.toNat = drops) := by
  have start := mlrtRingInit_represents storage capacity itemSize os rb initialised room
  obtain ⟨answers, final⟩ := ringRun_simulates start ops sized
  obtain ⟨bound, attained⟩ := highWater_is_maximum start ops sized
  have account := queueRun_account capacity Queue.empty ops start.capacityPositive
  refine ⟨answers, final, fun timeoutMs => waitPop_agrees _ timeoutMs, ?_, ?_, bound, attained,
    _, final.droppedExact, ?_, ?_⟩
  · rw [final.countExact, final.highWaterExact]
    exact final.bounded.lengthLe
  · rw [final.highWaterExact]
    exact final.bounded.markLe
  · rw [answers, final.countExact]
    simpa [Queue.empty] using account
  · intro small
    rw [final.droppedExact]
    exact UInt64.toNat_ofNat_of_lt' small

/-- Three slots of two bytes: an overwriting push on the full ring, then pops
through both copies of the code. -/
theorem ring_refines_bounded_queue_three_slots :
    let rb : MlrtRingBuffer := ⟨List.replicate 6 0, 3, 2, 0, 0, 0, 0, 0⟩
    let ops : List RingOp := [.push (some [1, 1]) 0, .push (some [2, 2]) 0,
      .push (some [3, 3]) 0, .push (some [4, 4]) 1, .pop true, .waitPop true, .getStats]
    mlrtRingInit (some (List.replicate 6 0)) 3 2 ⟨0, 0, 0, 0⟩ = some rb ∧
      (ringRun rb ops).1 = (queueRun 3 Queue.empty ops).1 ∧
      (ringRun rb ops).2.count = 1 ∧ (ringRun rb ops).2.highWater ≤ 3 := by
  intro rb ops
  have accepted : mlrtRingInit (some (List.replicate 6 0)) 3 2 ⟨0, 0, 0, 0⟩ = some rb := rfl
  have sized : ∀ op ∈ ops, Sized 2 op := by simp [ops, Sized]
  have refined := ring_refines_bounded_queue (List.replicate 6 0) 3 2 ⟨0, 0, 0, 0⟩ rb accepted
    (by simp) ops sized
  exact ⟨accepted, refined.1, by decide, refined.2.2.2.2.1⟩

end EmbeddedRuntime.Realtime.RingRefinement
