import EmbeddedRuntime.Lib.Word64

/-!
# Shared helpers of `common/common.c`
-/

set_option autoImplicit false

namespace EmbeddedRuntime.Common

open EmbeddedRuntime.Lib.Word64

/-- `mlrt_round_up`; the sum wraps as `size_t` does. -/
def mlrtRoundUp (value alignment : Nat) : Nat :=
  if alignment = 0 then value
  else if value % alignment ≠ 0 then add64 value (alignment - value % alignment)
  else value

/-- Without wraparound the result is the least multiple from `value` on. -/
theorem mlrtRoundUp_spec (value alignment : Nat) (positive : 0 < alignment)
    (small : value + alignment < 2 ^ 64) :
    alignment ∣ mlrtRoundUp value alignment ∧ value ≤ mlrtRoundUp value alignment ∧
      mlrtRoundUp value alignment < value + alignment := by
  have below := Nat.mod_lt value positive
  unfold mlrtRoundUp
  rw [if_neg (by omega)]
  by_cases aligned : value % alignment = 0
  · rw [if_neg (not_not.mpr aligned)]
    exact ⟨Nat.dvd_of_mod_eq_zero aligned, Nat.le_refl _, by omega⟩
  · rw [if_pos aligned, add64_of_lt (by omega)]
    refine ⟨?_, by omega, by omega⟩
    have split := Nat.div_add_mod value alignment
    have next : value + (alignment - value % alignment) = alignment * (value / alignment + 1) := by
      rw [Nat.mul_add, Nat.mul_one]
      omega
    rw [next]
    exact Nat.dvd_mul_right ..

/-- Where the alignment divides the number of words, only a sum of `2^64` wraps, and to 0. -/
theorem mlrtRoundUp_cases (value alignment : Nat) (positive : 0 < alignment)
    (divides : alignment ∣ 2 ^ 64) (small : value < 2 ^ 64) :
    mlrtRoundUp value alignment = 0 ∨
      (alignment ∣ mlrtRoundUp value alignment ∧ value ≤ mlrtRoundUp value alignment) := by
  have below := Nat.mod_lt value positive
  unfold mlrtRoundUp
  rw [if_neg (by omega)]
  by_cases aligned : value % alignment = 0
  · rw [if_neg (not_not.mpr aligned)]
    exact Or.inr ⟨Nat.dvd_of_mod_eq_zero aligned, Nat.le_refl _⟩
  · rw [if_pos aligned]
    have split := Nat.div_add_mod value alignment
    have next : value + (alignment - value % alignment) = alignment * (value / alignment + 1) := by
      rw [Nat.mul_add, Nat.mul_one]
      omega
    obtain ⟨pages, words⟩ := divides
    have room : value / alignment + 1 ≤ pages := by
      apply Nat.succ_le_of_lt
      rw [Nat.div_lt_iff_lt_mul positive, Nat.mul_comm, ← words]
      exact small
    rcases Nat.lt_or_eq_of_le room with inside | last
    · have sum : value + (alignment - value % alignment) < 2 ^ 64 := by
        rw [next, words]
        exact Nat.mul_lt_mul_of_pos_left inside positive
      rw [add64_of_lt sum, next]
      exact Or.inr ⟨Nat.dvd_mul_right .., by omega⟩
    · refine Or.inl ?_
      rw [add64, next, last, ← words, Nat.mod_self]

end EmbeddedRuntime.Common
