import EmbeddedRuntime.Lib.Window
import EmbeddedRuntime.Nic.Model

/-!
# Ownership of the descriptor rings

Counts that never wrap say which descriptors belong to whom.  On the TX ring
the slots of `reclaimed .. completed` are done, those of `completed ..
published` are the device's and hold the published frames, and the rest of the
ring is free.  On the RX ring the slots of `taken .. delivered` are done and
hold the delivered frames, and the rest is the device's.  Each store of the
code to a descriptor moves one of these borders by one or writes data into a
slot next to a border.
-/

set_option autoImplicit false

namespace EmbeddedRuntime.Nic.Rings

open EmbeddedRuntime.Lib.Window
open EmbeddedRuntime.Nic.Model

/-- The descriptor holds the frame: its length and its bytes. -/
structure Holds (descriptor : NicDescriptor) (frame : Frame) : Prop where
  length : descriptor.length = frame.length
  bytes : ∀ i byte, frame[i]? = some byte → descriptor.buffer i = byte

/-- The first `count` bytes of the frame are in the buffer. -/
def Copied (descriptor : NicDescriptor) (frame : Frame) (count : Nat) : Prop :=
  ∀ i byte, i < count → frame[i]? = some byte → descriptor.buffer i = byte

theorem Copied.holds {descriptor : NicDescriptor} {frame : Frame} {count : Nat}
    (copied : Copied descriptor frame count) (all : frame.length ≤ count)
    (length : descriptor.length = frame.length) : Holds descriptor frame :=
  ⟨length, fun i byte known =>
    copied i byte (((List.getElem?_eq_some_iff.mp known).1).trans_le all) known⟩

theorem Copied.storeByte {descriptor : NicDescriptor} {frame : Frame} {count : Nat} {byte : UInt8}
    (copied : Copied descriptor frame count) (next : frame[count]? = some byte) :
    Copied (descriptor.storeByte count byte) frame (count + 1) := by
  intro i other inside known
  change Function.update descriptor.buffer count byte i = other
  by_cases here : i = count
  · subst here
    rw [next] at known
    rw [Function.update_self]
    exact Option.some.inj known
  · rw [Function.update_of_ne here]
    exact copied i other (by omega) known

theorem getElem?_of_prefix {Item : Type*} {short long : List Item} (extends_ : short <+: long)
    {k : Nat} {item : Item} (known : short[k]? = some item) : long[k]? = some item := by
  obtain ⟨more, rfl⟩ := extends_
  rw [List.getElem?_append_left (List.getElem?_eq_some_iff.mp known).1]
  exact known

/-! ## The TX ring -/

structure TxRing (capacity : Nat) (tx : Nat → NicDescriptor) (published : List Frame)
    (outcomes : List Outcome) (completed reclaimed : Nat) : Prop where
  reclaimedLe : reclaimed ≤ completed
  completedLe : completed ≤ published.length
  publishedLe : published.length ≤ reclaimed + capacity
  done : ∀ k, reclaimed ≤ k → k < completed →
    (tx (k % capacity)).owner = .done ∧
      ((tx (k % capacity)).error ≠ 0 ↔ outcomes[k]? = some .error)
  pending : ∀ k frame, completed ≤ k → published[k]? = some frame →
    (tx (k % capacity)).owner = .device ∧ Holds (tx (k % capacity)) frame
  free : ∀ k, published.length ≤ k → k < reclaimed + capacity →
    (tx (k % capacity)).owner = .free

section Tx
variable {capacity : Nat} {tx : Nat → NicDescriptor} {published : List Frame}
  {outcomes : List Outcome} {completed reclaimed : Nat} {frame : Frame}

theorem lt_of_getElem?_eq_some {k : Nat} (known : published[k]? = some frame) :
    k < published.length :=
  (List.getElem?_eq_some_iff.mp known).1

/-- Data written into the next free descriptor. -/
theorem TxRing.fill (ring : TxRing capacity tx published outcomes completed reclaimed)
    (room : published.length < reclaimed + capacity) (descriptor : NicDescriptor)
    (stillFree : descriptor.owner = .free) :
    TxRing capacity (Function.update tx (published.length % capacity) descriptor) published
      outcomes completed reclaimed := by
  obtain ⟨reclaimedLe, completedLe, publishedLe, done, pending, free⟩ := ring
  have read : ∀ k, reclaimed ≤ k → k < reclaimed + capacity →
      Function.update tx (published.length % capacity) descriptor (k % capacity) =
        if k = published.length then descriptor else tx (k % capacity) :=
    fun k low high => update_slot tx descriptor (by omega) room low high
  refine ⟨reclaimedLe, completedLe, publishedLe, ?_, ?_, ?_⟩
  · intro k low high
    rw [read k low (by omega), if_neg (by omega)]
    exact done k low high
  · intro k frame low known
    have high := lt_of_getElem?_eq_some known
    rw [read k (by omega) (by omega), if_neg (by omega)]
    exact pending k frame low known
  · intro k low high
    rw [read k (by omega) high]
    split_ifs with here
    · exact stillFree
    · exact free k low high

/-- The release store of `nic_tx_submit`. -/
theorem TxRing.publish (ring : TxRing capacity tx published outcomes completed reclaimed)
    (room : published.length < reclaimed + capacity) (descriptor : NicDescriptor)
    (owner : descriptor.owner = .device) (holds : Holds descriptor frame) :
    TxRing capacity (Function.update tx (published.length % capacity) descriptor)
      (published ++ [frame]) outcomes completed reclaimed := by
  obtain ⟨reclaimedLe, completedLe, publishedLe, done, pending, free⟩ := ring
  have read : ∀ k, reclaimed ≤ k → k < reclaimed + capacity →
      Function.update tx (published.length % capacity) descriptor (k % capacity) =
        if k = published.length then descriptor else tx (k % capacity) :=
    fun k low high => update_slot tx descriptor (by omega) room low high
  have length : (published ++ [frame]).length = published.length + 1 := by simp
  refine ⟨reclaimedLe, by omega, by omega, ?_, ?_, ?_⟩
  · intro k low high
    rw [read k low (by omega), if_neg (by omega)]
    exact done k low high
  · intro k other low known
    have high := lt_of_getElem?_eq_some known
    rw [read k (by omega) (by omega)]
    split_ifs with here
    · subst here
      obtain rfl : frame = other := by simpa using known
      exact ⟨owner, holds⟩
    · rw [List.getElem?_append_left (by omega)] at known
      exact pending k other low known
  · intro k low high
    rw [read k (by omega) high, if_neg (by omega)]
    exact free k (by omega) high

/-- The error flag of the oldest pending descriptor. -/
theorem TxRing.mark (ring : TxRing capacity tx published outcomes completed reclaimed)
    (busy : completed < published.length) (error : Nat) :
    TxRing capacity
      (Function.update tx (completed % capacity) { tx (completed % capacity) with error })
      published outcomes completed reclaimed := by
  obtain ⟨reclaimedLe, completedLe, publishedLe, done, pending, free⟩ := ring
  have read : ∀ k, reclaimed ≤ k → k < reclaimed + capacity →
      Function.update tx (completed % capacity) { tx (completed % capacity) with error }
          (k % capacity) =
        if k = completed then { tx (completed % capacity) with error } else tx (k % capacity) :=
    fun k low high => update_slot tx _ reclaimedLe (by omega) low high
  refine ⟨reclaimedLe, completedLe, publishedLe, ?_, ?_, ?_⟩
  · intro k low high
    rw [read k low (by omega), if_neg (by omega)]
    exact done k low high
  · intro k frame low known
    have high := lt_of_getElem?_eq_some known
    rw [read k (by omega) (by omega)]
    split_ifs with here
    · subst here
      obtain ⟨owner, length, bytes⟩ := pending k frame low known
      exact ⟨owner, length, bytes⟩
    · exact pending k frame low known
  · intro k low high
    rw [read k (by omega) high, if_neg (by omega)]
    exact free k low high

/-- The outcome of the oldest pending frame is decided. -/
theorem TxRing.finish (ring : TxRing capacity tx published outcomes completed reclaimed)
    (decided : outcomes.length = completed) (outcome : Outcome) :
    TxRing capacity tx published (outcomes ++ [outcome]) completed reclaimed := by
  refine { ring with done := ?_ }
  intro k low high
  rw [List.getElem?_append_left (by omega)]
  exact ring.done k low high

/-- The device marks the oldest pending descriptor done. -/
theorem TxRing.complete (ring : TxRing capacity tx published outcomes completed reclaimed)
    (busy : completed < published.length)
    (flag : (tx (completed % capacity)).error ≠ 0 ↔ outcomes[completed]? = some .error) :
    TxRing capacity
      (Function.update tx (completed % capacity) { tx (completed % capacity) with owner := .done })
      published outcomes (completed + 1) reclaimed := by
  obtain ⟨reclaimedLe, completedLe, publishedLe, done, pending, free⟩ := ring
  have read : ∀ k, reclaimed ≤ k → k < reclaimed + capacity →
      Function.update tx (completed % capacity)
          { tx (completed % capacity) with owner := .done } (k % capacity) =
        if k = completed then { tx (completed % capacity) with owner := .done }
        else tx (k % capacity) :=
    fun k low high => update_slot tx _ reclaimedLe (by omega) low high
  refine ⟨by omega, by omega, publishedLe, ?_, ?_, ?_⟩
  · intro k low high
    rw [read k low (by omega)]
    split_ifs with here
    · subst here
      exact ⟨rfl, flag⟩
    · exact done k low (by omega)
  · intro k frame low known
    have high := lt_of_getElem?_eq_some known
    rw [read k (by omega) (by omega), if_neg (by omega)]
    exact pending k frame (by omega) known
  · intro k low high
    rw [read k (by omega) high, if_neg (by omega)]
    exact free k low high

/-- The driver frees the oldest done descriptor. -/
theorem TxRing.reclaim (ring : TxRing capacity tx published outcomes completed reclaimed)
    (some : reclaimed < completed) :
    TxRing capacity
      (Function.update tx (reclaimed % capacity) { tx (reclaimed % capacity) with owner := .free })
      published outcomes completed (reclaimed + 1) := by
  obtain ⟨reclaimedLe, completedLe, publishedLe, done, pending, free⟩ := ring
  have read : ∀ k, reclaimed ≤ k → k < reclaimed + capacity →
      Function.update tx (reclaimed % capacity)
          { tx (reclaimed % capacity) with owner := .free } (k % capacity) =
        if k = reclaimed then { tx (reclaimed % capacity) with owner := .free }
        else tx (k % capacity) :=
    fun k low high => update_slot tx _ (Nat.le_refl _) (by omega) low high
  refine ⟨by omega, completedLe, by omega, ?_, ?_, ?_⟩
  · intro k low high
    rw [read k (by omega) (by omega), if_neg (by omega)]
    exact done k (by omega) high
  · intro k frame low known
    have high := lt_of_getElem?_eq_some known
    rw [read k (by omega) (by omega), if_neg (by omega)]
    exact pending k frame low known
  · intro k low high
    by_cases wrapped : k = reclaimed + capacity
    · subst wrapped
      rw [Nat.add_mod_right, Function.update_self]
    · rw [read k (by omega) (by omega), if_neg (by omega)]
      exact free k low (by omega)

end Tx

/-! ## The RX ring -/

structure RxRing (capacity : Nat) (rx : Nat → NicDescriptor) (delivered : List Frame)
    (taken : Nat) : Prop where
  takenLe : taken ≤ delivered.length
  deliveredLe : delivered.length ≤ taken + capacity
  done : ∀ k frame, taken ≤ k → delivered[k]? = some frame →
    (rx (k % capacity)).owner = .done ∧ Holds (rx (k % capacity)) frame
  device : ∀ k, delivered.length ≤ k → k < taken + capacity →
    (rx (k % capacity)).owner = .device

section Rx
variable {capacity : Nat} {rx : Nat → NicDescriptor} {delivered : List Frame} {taken : Nat}
  {frame : Frame}

/-- Data written into the next buffer the device may fill. -/
theorem RxRing.fill (ring : RxRing capacity rx delivered taken)
    (room : delivered.length < taken + capacity) (descriptor : NicDescriptor)
    (stillDevice : descriptor.owner = .device) :
    RxRing capacity (Function.update rx (delivered.length % capacity) descriptor) delivered
      taken := by
  obtain ⟨takenLe, deliveredLe, done, device⟩ := ring
  have read : ∀ k, taken ≤ k → k < taken + capacity →
      Function.update rx (delivered.length % capacity) descriptor (k % capacity) =
        if k = delivered.length then descriptor else rx (k % capacity) :=
    fun k low high => update_slot rx descriptor takenLe room low high
  refine ⟨takenLe, deliveredLe, ?_, ?_⟩
  · intro k frame low known
    have high := lt_of_getElem?_eq_some known
    rw [read k low (by omega), if_neg (by omega)]
    exact done k frame low known
  · intro k low high
    rw [read k (by omega) high]
    split_ifs with here
    · exact stillDevice
    · exact device k low high

/-- The device publishes a filled buffer. -/
theorem RxRing.deliver (ring : RxRing capacity rx delivered taken)
    (room : delivered.length < taken + capacity) (descriptor : NicDescriptor)
    (owner : descriptor.owner = .done) (holds : Holds descriptor frame) :
    RxRing capacity (Function.update rx (delivered.length % capacity) descriptor)
      (delivered ++ [frame]) taken := by
  obtain ⟨takenLe, deliveredLe, done, device⟩ := ring
  have read : ∀ k, taken ≤ k → k < taken + capacity →
      Function.update rx (delivered.length % capacity) descriptor (k % capacity) =
        if k = delivered.length then descriptor else rx (k % capacity) :=
    fun k low high => update_slot rx descriptor takenLe room low high
  have length : (delivered ++ [frame]).length = delivered.length + 1 := by simp
  refine ⟨by omega, by omega, ?_, ?_⟩
  · intro k other low known
    have high := lt_of_getElem?_eq_some known
    rw [read k low (by omega)]
    split_ifs with here
    · subst here
      obtain rfl : frame = other := by simpa using known
      exact ⟨owner, holds⟩
    · rw [List.getElem?_append_left (by omega)] at known
      exact done k other low known
  · intro k low high
    rw [read k (by omega) high, if_neg (by omega)]
    exact device k (by omega) high

/-- The driver gives the oldest done buffer back. -/
theorem RxRing.take (ring : RxRing capacity rx delivered taken)
    (some : taken < delivered.length) :
    RxRing capacity
      (Function.update rx (taken % capacity) { rx (taken % capacity) with owner := .device })
      delivered (taken + 1) := by
  obtain ⟨takenLe, deliveredLe, done, device⟩ := ring
  have read : ∀ k, taken ≤ k → k < taken + capacity →
      Function.update rx (taken % capacity) { rx (taken % capacity) with owner := .device }
          (k % capacity) =
        if k = taken then { rx (taken % capacity) with owner := .device }
        else rx (k % capacity) :=
    fun k low high => update_slot rx _ (Nat.le_refl _) (by omega) low high
  refine ⟨by omega, by omega, ?_, ?_⟩
  · intro k frame low known
    have high := lt_of_getElem?_eq_some known
    rw [read k (by omega) (by omega), if_neg (by omega)]
    exact done k frame (by omega) known
  · intro k low high
    by_cases wrapped : k = taken + capacity
    · subst wrapped
      rw [Nat.add_mod_right, Function.update_self]
    · rw [read k (by omega) (by omega), if_neg (by omega)]
      exact device k low (by omega)

end Rx

end EmbeddedRuntime.Nic.Rings
