import Mathlib.Data.List.Basic
import Mathlib.Order.Lattice

/-!
# A bounded first-in first-out queue

The abstract queue holds at most `capacity` items.  A push on a full queue
either is refused or gives up the oldest item; both count one dropped item.
The high-water mark rises to every length reached.
-/

set_option autoImplicit false

namespace EmbeddedRuntime.Lib.BoundedQueue

universe u
variable {Item : Type u}

structure Queue (Item : Type u) where
  items : List Item
  highWater : Nat
  dropped : Nat

def Queue.empty : Queue Item := ⟨[], 0, 0⟩

/-- Append at the newest end. -/
def Queue.append (queue : Queue Item) (item : Item) : Queue Item :=
  { queue with
    items := queue.items ++ [item]
    highWater := max queue.highWater (queue.items.length + 1) }

/-- Give up the oldest item. -/
def Queue.dropOldest (queue : Queue Item) : Queue Item :=
  { queue with items := queue.items.tail, dropped := queue.dropped + 1 }

def Queue.refuse (queue : Queue Item) : Queue Item :=
  { queue with dropped := queue.dropped + 1 }

/-- `false` when the item is refused. -/
def Queue.push (capacity : Nat) (queue : Queue Item) (item : Item) (overwrite : Bool) :
    Bool × Queue Item :=
  if queue.items.length < capacity then (true, queue.append item)
  else if overwrite then (true, queue.dropOldest.append item)
  else (false, queue.refuse)

def Queue.pop (queue : Queue Item) : Option Item × Queue Item :=
  match queue.items with
  | [] => (none, queue)
  | item :: rest => (some item, { queue with items := rest })

theorem Queue.push_of_space {capacity : Nat} {queue : Queue Item} (item : Item)
    (overwrite : Bool) (space : queue.items.length < capacity) :
    queue.push capacity item overwrite = (true, queue.append item) := by
  simp [Queue.push, space]

theorem Queue.push_overwrite {capacity : Nat} {queue : Queue Item} (item : Item)
    (full : capacity ≤ queue.items.length) :
    queue.push capacity item true = (true, queue.dropOldest.append item) := by
  simp [Queue.push, Nat.not_lt.mpr full]

theorem Queue.push_refuse {capacity : Nat} {queue : Queue Item} (item : Item)
    (full : capacity ≤ queue.items.length) :
    queue.push capacity item false = (false, queue.refuse) := by
  simp [Queue.push, Nat.not_lt.mpr full]

/-- The length is under the mark, and the mark under the capacity. -/
structure Queue.Bounded (capacity : Nat) (queue : Queue Item) : Prop where
  lengthLe : queue.items.length ≤ queue.highWater
  markLe : queue.highWater ≤ capacity

theorem Queue.empty_bounded (capacity : Nat) :
    Queue.Bounded capacity (Queue.empty : Queue Item) :=
  ⟨Nat.le_refl 0, Nat.zero_le capacity⟩

theorem Queue.append_bounded (capacity : Nat) (queue : Queue Item) (item : Item)
    (bounded : queue.Bounded capacity) (space : queue.items.length < capacity) :
    (queue.append item).Bounded capacity := by
  constructor
  · simp [Queue.append]
  · exact max_le bounded.markLe space

theorem Queue.pop_bounded (capacity : Nat) (queue : Queue Item)
    (bounded : queue.Bounded capacity) : queue.pop.2.Bounded capacity := by
  have lengthLe := bounded.lengthLe
  cases held : queue.items with
  | nil => simpa [Queue.pop, held] using bounded
  | cons item rest =>
      rw [held, List.length_cons] at lengthLe
      simp only [Queue.pop, held]
      exact ⟨by simp only; omega, bounded.markLe⟩

/-- The mark after a push is raised to the new length. -/
theorem Queue.push_highWater (capacity : Nat) (queue : Queue Item) (item : Item)
    (overwrite : Bool) (bounded : queue.Bounded capacity) :
    (queue.push capacity item overwrite).2.highWater =
      max queue.highWater (queue.push capacity item overwrite).2.items.length := by
  have lengthLe := bounded.lengthLe
  by_cases space : queue.items.length < capacity
  · simp [Queue.push_of_space item overwrite space, Queue.append]
  · cases overwrite with
    | true => simp [Queue.push_overwrite item (Nat.not_lt.mp space), Queue.append, Queue.dropOldest]
    | false =>
        rw [Queue.push_refuse item (Nat.not_lt.mp space)]
        exact (max_eq_left lengthLe).symm

theorem Queue.pop_highWater (capacity : Nat) (queue : Queue Item)
    (bounded : queue.Bounded capacity) :
    queue.pop.2.highWater = max queue.highWater queue.pop.2.items.length := by
  have same : queue.pop.2.highWater = queue.highWater := by
    cases held : queue.items <;> simp [Queue.pop, held]
  rw [← same]
  exact (max_eq_left (queue.pop_bounded capacity bounded).lengthLe).symm

/-- Each push adds one to the items held or dropped. -/
theorem Queue.push_account (capacity : Nat) (queue : Queue Item) (item : Item)
    (overwrite : Bool) (positive : 0 < capacity) :
    (queue.push capacity item overwrite).2.items.length +
        (queue.push capacity item overwrite).2.dropped =
      queue.items.length + queue.dropped + 1 := by
  unfold Queue.push
  split
  · simp only [Queue.append, List.length_append, List.length_singleton]
    omega
  · split
    · simp only [Queue.append, Queue.dropOldest, List.length_append, List.length_singleton,
        List.length_tail]
      omega
    · exact (Nat.add_assoc ..).symm

end EmbeddedRuntime.Lib.BoundedQueue
