import Mathlib.Algebra.Group.Nat.Defs

/-!
# Prefixes of addresses

The mask of a prefix length has the high bits of an address set.  Two addresses
have the same prefix when they agree after the division by the size of the
subnet; the remainder is the host part, all zeros for the address of the subnet
itself and all ones for its last address.
-/

set_option autoImplicit false

namespace EmbeddedRuntime.Lib.Prefix

variable {w : Nat}

/-- The mask of a prefix length. -/
def prefixMask (w length : Nat) : BitVec w := BitVec.allOnes w ^^^ (BitVec.allOnes w >>> length)

/-- The bits of the host part. -/
def hostPart (length : Nat) (address : BitVec w) : Nat := address.toNat % 2 ^ (w - length)

/-- The number of the subnet. -/
def subnet (length : Nat) (address : BitVec w) : Nat := address.toNat / 2 ^ (w - length)

theorem getLsbD_prefixMask (length : Nat) {i : Nat} (inside : i < w) :
    (prefixMask w length).getLsbD i = decide (w - length ≤ i) := by
  rw [prefixMask, BitVec.getLsbD_xor, BitVec.getLsbD_ushiftRight, BitVec.getLsbD_allOnes,
    BitVec.getLsbD_allOnes, decide_eq_true inside, Bool.true_xor, ← decide_not]
  exact decide_eq_decide.mpr (by omega)

theorem getLsbD_and_prefixMask (length : Nat) (address : BitVec w) {i : Nat} (inside : i < w) :
    (address &&& prefixMask w length).getLsbD i =
      (address.getLsbD i && decide (w - length ≤ i)) := by
  rw [BitVec.getLsbD_and, getLsbD_prefixMask length inside]

theorem subnet_eq_iff (length : Nat) (a b : BitVec w) :
    a &&& prefixMask w length = b &&& prefixMask w length ↔ subnet length a = subnet length b := by
  have divided (address : BitVec w) :
      subnet length address = (address >>> (w - length)).toNat := by
    rw [BitVec.toNat_ushiftRight, Nat.shiftRight_eq_div_pow, subnet]
  rw [divided, divided, BitVec.toNat_inj]
  constructor
  · intro same
    apply BitVec.eq_of_getLsbD_eq
    intro i _
    rw [BitVec.getLsbD_ushiftRight, BitVec.getLsbD_ushiftRight]
    by_cases inside : w - length + i < w
    · have bit := congrArg (fun v : BitVec w => v.getLsbD (w - length + i)) same
      simpa only [getLsbD_and_prefixMask length _ inside, Nat.le_add_right, decide_true,
        Bool.and_true] using bit
    · rw [BitVec.getLsbD_of_ge a _ (by omega), BitVec.getLsbD_of_ge b _ (by omega)]
  · intro same
    apply BitVec.eq_of_getLsbD_eq
    intro i inside
    rw [getLsbD_and_prefixMask length a inside, getLsbD_and_prefixMask length b inside]
    by_cases high : w - length ≤ i
    · have bit := congrArg (fun v : BitVec w => v.getLsbD (i - (w - length))) same
      simp only [BitVec.getLsbD_ushiftRight, Nat.add_sub_cancel' high] at bit
      rw [bit]
    · rw [decide_eq_false high, Bool.and_false, Bool.and_false]

/-- The low bits of an address, as a number of their own. -/
theorem hostPart_eq (length : Nat) (address : BitVec w) :
    hostPart length address = (address.setWidth (w - length)).toNat :=
  (BitVec.toNat_setWidth ..).symm

/-- Two addresses with the same prefix are told apart by their host parts. -/
theorem eq_iff_low (length : Nat) {value address : BitVec w}
    (high : ∀ i < w, w - length ≤ i → value.getLsbD i = address.getLsbD i) :
    value = address ↔ value.setWidth (w - length) = address.setWidth (w - length) := by
  constructor
  · intro same
    rw [same]
  · intro same
    apply BitVec.eq_of_getLsbD_eq
    intro i inside
    by_cases top : w - length ≤ i
    · exact high i inside top
    · have bit := congrArg (fun v : BitVec (w - length) => v.getLsbD i) same
      simpa only [BitVec.getLsbD_setWidth, Nat.lt_of_not_le top, decide_true, Bool.true_and]
        using bit

theorem and_prefixMask_eq_self_iff (length : Nat) (address : BitVec w) :
    address &&& prefixMask w length = address ↔ hostPart length address = 0 := by
  have low : (address &&& prefixMask w length).setWidth (w - length) = 0#(w - length) := by
    apply BitVec.eq_of_getLsbD_eq
    intro i low
    rw [BitVec.getLsbD_setWidth, getLsbD_and_prefixMask length address (by omega),
      decide_eq_false (Nat.not_le.mpr low), Bool.and_false, Bool.and_false, BitVec.getLsbD_zero]
  have high : ∀ i < w, w - length ≤ i →
      (address &&& prefixMask w length).getLsbD i = address.getLsbD i := by
    intro i inside top
    rw [getLsbD_and_prefixMask length address inside, decide_eq_true top, Bool.and_true]
  rw [eq_iff_low length high, low, hostPart_eq, ← BitVec.toNat_zero (w := w - length),
    BitVec.toNat_inj]
  exact eq_comm

/-- The last address of a subnet has a host part of ones. -/
theorem last_eq_self_iff (length : Nat) (address : BitVec w) :
    (address &&& prefixMask w length) ||| (prefixMask w length ^^^ BitVec.allOnes w) = address ↔
      hostPart length address = 2 ^ (w - length) - 1 := by
  have lastBit {i : Nat} (inside : i < w) :
      ((address &&& prefixMask w length) |||
        (prefixMask w length ^^^ BitVec.allOnes w)).getLsbD i =
          (address.getLsbD i || decide (¬ w - length ≤ i)) := by
    rw [BitVec.getLsbD_or, getLsbD_and_prefixMask length address inside, BitVec.getLsbD_xor,
      getLsbD_prefixMask length inside, BitVec.getLsbD_allOnes, decide_eq_true inside]
    by_cases high : w - length ≤ i <;> simp [high]
  have low : ((address &&& prefixMask w length) |||
      (prefixMask w length ^^^ BitVec.allOnes w)).setWidth (w - length) =
        BitVec.allOnes (w - length) := by
    apply BitVec.eq_of_getLsbD_eq
    intro i low
    rw [BitVec.getLsbD_setWidth, lastBit (by omega), decide_eq_true (Nat.not_le.mpr low),
      Bool.or_true, BitVec.getLsbD_allOnes, Bool.and_true]
  have high : ∀ i < w, w - length ≤ i →
      ((address &&& prefixMask w length) |||
        (prefixMask w length ^^^ BitVec.allOnes w)).getLsbD i = address.getLsbD i := by
    intro i inside top
    rw [lastBit inside, decide_eq_false (fun low => low top), Bool.or_false]
  rw [eq_iff_low length high, low, hostPart_eq, ← BitVec.toNat_allOnes, BitVec.toNat_inj]
  exact eq_comm

end EmbeddedRuntime.Lib.Prefix
