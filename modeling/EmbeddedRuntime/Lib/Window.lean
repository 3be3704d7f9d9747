import Mathlib.Data.Nat.ModEq
import Mathlib.Logic.Function.Basic

/-!
# Windows of an unbounded count, folded onto a ring

A ring of `capacity` slots is addressed by counts that never wrap: count `k`
lives in slot `k % capacity`.  A window of at most `capacity` consecutive
counts meets every slot at most once, and a full window meets each exactly
once.  `advance_slot` is the cursor update `(cursor + 1) % capacity` seen on
counts.
-/

set_option autoImplicit false

namespace EmbeddedRuntime.Lib.Window

theorem slot_injective {capacity first left right : Nat}
    (leftLow : first ≤ left) (leftHigh : left < first + capacity)
    (rightLow : first ≤ right) (rightHigh : right < first + capacity)
    (sameSlot : left % capacity = right % capacity) : left = right := by
  have congruent : left - first ≡ right - first [MOD capacity] := by
    apply Nat.ModEq.add_left_cancel' first
    rw [Nat.add_sub_cancel' leftLow, Nat.add_sub_cancel' rightLow]
    exact sameSlot
  have equal : left - first = right - first :=
    Nat.ModEq.eq_of_lt_of_lt congruent (by omega) (by omega)
  omega

theorem slot_ne {capacity left right : Nat} (first : Nat)
    (leftLow : first ≤ left) (leftHigh : left < first + capacity)
    (rightLow : first ≤ right) (rightHigh : right < first + capacity)
    (different : left ≠ right) : left % capacity ≠ right % capacity :=
  fun same => different (slot_injective leftLow leftHigh rightLow rightHigh same)

/-- A full window meets every slot. -/
theorem slot_surjective {capacity : Nat} (first slot : Nat) (inRing : slot < capacity) :
    ∃ count, first ≤ count ∧ count < first + capacity ∧ count % capacity = slot := by
  have positive : 0 < capacity := by omega
  have remainder := Nat.mod_lt first positive
  have split := Nat.div_add_mod first capacity
  by_cases ahead : first % capacity ≤ slot
  · refine ⟨capacity * (first / capacity) + slot, by omega, by omega, ?_⟩
    rw [Nat.mul_add_mod, Nat.mod_eq_of_lt inRing]
  · refine ⟨capacity * (first / capacity) + (slot + capacity), by omega, by omega, ?_⟩
    rw [Nat.mul_add_mod, Nat.add_mod_right, Nat.mod_eq_of_lt inRing]

/-- A store to the slot of one count of a window, read at another. -/
theorem update_slot {Slot : Type*} {capacity first here there : Nat} (slots : Nat → Slot)
    (value : Slot) (hereLow : first ≤ here) (hereHigh : here < first + capacity)
    (thereLow : first ≤ there) (thereHigh : there < first + capacity) :
    Function.update slots (here % capacity) value (there % capacity) =
      if there = here then value else slots (there % capacity) := by
  by_cases same : there = here
  · rw [same, if_pos rfl, Function.update_self]
  · rw [if_neg same, Function.update_of_ne]
    exact slot_ne _ thereLow thereHigh hereLow hereHigh same

theorem advance_slot (count capacity : Nat) :
    (count % capacity + 1) % capacity = (count + 1) % capacity :=
  Nat.mod_add_mod count capacity 1

end EmbeddedRuntime.Lib.Window
