import EmbeddedRuntime.Lib.Crc
import Mathlib.Data.ZMod.Basic
import Mathlib.Algebra.Field.ZMod
import Mathlib.RingTheory.AdjoinRoot
import Mathlib.Tactic.LinearCombination

/-!
# The check value as the remainder of a division

A message is a polynomial over the field of two elements, its first bit the
leading coefficient.  `remainderCheck` divides the message, followed by `w`
zeros, by `X ^ w` plus the polynomial whose low coefficients are given in the
usual order, after the initial value was added to its first `w` bits; the bits of the
remainder are reversed at the end.

The register of `Lib.Crc` holds the reversed remainder of the bits it was fed:
one shift multiplies by `X` and subtracts the divisor when it fits.
-/

set_option autoImplicit false

namespace EmbeddedRuntime.Lib.CrcPolynomial

open EmbeddedRuntime.Lib.Crc
open Polynomial

section Division
variable {w : Nat}

/-- The polynomial with the bits of a number as coefficients. -/
noncomputable def polynomialOf (value : BitVec w) : (ZMod 2)[X] :=
  ∑ i ∈ Finset.range w, if value.getLsbD i then X ^ i else 0

/-- The bits of a message as coefficients, the first one leading. -/
noncomputable def messagePolynomial : List Bool → (ZMod 2)[X]
  | [] => 0
  | bit :: rest => (if bit then X ^ rest.length else 0) + messagePolynomial rest

noncomputable def divisor (poly : BitVec w) : (ZMod 2)[X] := X ^ w + polynomialOf poly

/-- The message and `w` zeros, the initial value added to the first bits. -/
noncomputable def dividend (initial : BitVec w) (message : List Bool) : (ZMod 2)[X] :=
  messagePolynomial message * X ^ w + polynomialOf initial * X ^ message.length

/-- The low coefficients of a polynomial. -/
noncomputable def coefficients (w : Nat) (p : (ZMod 2)[X]) : BitVec w :=
  (BitVec.ofBoolListLE ((List.range w).map fun i => decide (p.coeff i = 1))).setWidth w

/-- The check value by polynomial division. -/
noncomputable def remainderCheck (poly initial final : BitVec w) (message : List UInt8) :
    BitVec w :=
  (coefficients w (dividend initial (messageBits message) %ₘ divisor poly)).reverse ^^^ final

/-! ## Numbers and polynomials -/

theorem coeff_polynomialOf (value : BitVec w) (i : Nat) :
    (polynomialOf value).coeff i = if value.getLsbD i then 1 else 0 := by
  have term (j : Nat) : (if value.getLsbD j then (X : (ZMod 2)[X]) ^ j else 0).coeff i =
      if i = j then (if value.getLsbD i then 1 else 0) else 0 := by
    by_cases here : i = j
    · subst here
      cases value.getLsbD i <;> simp
    · cases value.getLsbD j <;> simp [coeff_X_pow, here]
  simp only [polynomialOf, finsetSum_coeff, term, Finset.sum_ite_eq, Finset.mem_range]
  by_cases inside : i < w
  · rw [if_pos inside]
  · rw [if_neg inside, BitVec.getLsbD_of_ge value i (by omega)]
    rfl

theorem polynomialOf_zero : polynomialOf (0#w) = 0 := by
  ext i
  simp [coeff_polynomialOf]

theorem polynomialOf_xor (a b : BitVec w) :
    polynomialOf (a ^^^ b) = polynomialOf a + polynomialOf b := by
  ext i
  rw [coeff_add, coeff_polynomialOf, coeff_polynomialOf, coeff_polynomialOf, BitVec.getLsbD_xor]
  cases a.getLsbD i <;> cases b.getLsbD i <;> decide

theorem degree_polynomialOf_lt (value : BitVec w) : (polynomialOf value).degree < w := by
  rw [degree_lt_iff_coeff_zero]
  intro i above
  rw [coeff_polynomialOf, BitVec.getLsbD_of_ge value i above]
  rfl

theorem coefficients_polynomialOf (value : BitVec w) :
    coefficients w (polynomialOf value) = value := by
  apply BitVec.eq_of_getLsbD_eq
  intro i inside
  rw [coefficients, BitVec.getLsbD_setWidth, decide_eq_true inside, Bool.true_and,
    BitVec.getLsbD_ofBoolListLE, List.getD_eq_getElem?_getD, List.getElem?_map,
    List.getElem?_range inside, Option.map_some, Option.getD_some, coeff_polynomialOf]
  cases value.getLsbD i <;> decide

theorem divisor_monic (poly : BitVec w) : (divisor poly).Monic :=
  monic_X_pow_add (degree_polynomialOf_lt poly)

theorem degree_divisor (poly : BitVec w) : (divisor poly).degree = w :=
  (degree_add_eq_left_of_degree_lt (by rw [degree_X_pow]; exact degree_polynomialOf_lt poly)).trans
    (degree_X_pow w)

/-! ## One shift -/

/-- A shift of the register, seen with the leading coefficient on top. -/
theorem reverse_shift (positive : 0 < w) (poly register : BitVec w) :
    (shift poly.reverse register).reverse =
      register.reverse <<< 1 ^^^ if register.reverse.getLsbD (w - 1) then poly else 0#w := by
  have lowest : register.reverse.getLsbD (w - 1) = register.getLsbD 0 := by
    rw [BitVec.getLsbD_reverse, BitVec.getMsbD_eq_getLsbD]
    simp [positive]
  rw [lowest]
  apply BitVec.eq_of_getLsbD_eq
  intro i inside
  have reversed (value : BitVec w) (k : Nat) (low : k < w) :
      value.reverse.getLsbD k = value.getLsbD (w - 1 - k) := by
    rw [BitVec.getLsbD_reverse, BitVec.getMsbD_eq_getLsbD, decide_eq_true low, Bool.true_and]
  have moved : (register >>> 1).getLsbD (w - 1 - i) = (register.reverse <<< 1).getLsbD i := by
    rw [BitVec.getLsbD_ushiftRight, BitVec.getLsbD_shiftLeft]
    cases i with
    | zero => simp [BitVec.getLsbD_of_ge register (1 + (w - 1)) (by omega)]
    | succ i =>
        rw [reversed register (i + 1 - 1) (by omega)]
        have same : 1 + (w - 1 - (i + 1)) = w - 1 - (i + 1 - 1) := by omega
        simp [same, inside]
  rw [reversed _ i inside, shift, BitVec.getLsbD_xor, BitVec.getLsbD_xor, moved]
  cases register.getLsbD 0
  · simp
  · rw [if_pos rfl, if_pos rfl, reversed poly (w - 1 - i) (by omega)]
    have same : w - 1 - (w - 1 - i) = i := by omega
    rw [same]

/-- Multiplication by `X` moves the bits up; the top one leaves the number. -/
theorem X_mul_polynomialOf (positive : 0 < w) (value : BitVec w) :
    X * polynomialOf value =
      polynomialOf (value <<< 1) + if value.getLsbD (w - 1) then X ^ w else 0 := by
  have top (i : Nat) : (if value.getLsbD (w - 1) then (X : (ZMod 2)[X]) ^ w else 0).coeff i =
      if i = w ∧ value.getLsbD (w - 1) then 1 else 0 := by
    cases value.getLsbD (w - 1) <;> simp [coeff_X_pow]
  ext i
  rw [coeff_add, coeff_polynomialOf, top, BitVec.getLsbD_shiftLeft]
  cases i with
  | zero =>
      have notTop : ¬ 0 = w := by omega
      simp [notTop]
  | succ i =>
      rw [coeff_X_mul, coeff_polynomialOf]
      rcases Nat.lt_trichotomy (i + 1) w with below | rfl | above
      · have notTop : ¬ i + 1 = w := by omega
        simp [below, notTop]
      · simp
      · have beyond : value.getLsbD i = false := BitVec.getLsbD_of_ge value i (by omega)
        have notTop : ¬ i + 1 = w := by omega
        simp [beyond, notTop]

/-- The remainder that a register holds. -/
noncomputable def held (register : BitVec w) : (ZMod 2)[X] := polynomialOf register.reverse

theorem mk_held_shift (positive : 0 < w) (poly register : BitVec w) :
    AdjoinRoot.mk (divisor poly) (held (shift poly.reverse register)) =
      AdjoinRoot.mk (divisor poly) (X * held register) := by
  rw [AdjoinRoot.mk_eq_mk, held, held, reverse_shift positive, polynomialOf_xor,
    X_mul_polynomialOf positive]
  cases register.reverse.getLsbD (w - 1)
  · simp [polynomialOf_zero]
  · refine ⟨-1, ?_⟩
    have double : polynomialOf poly + polynomialOf poly = 0 := CharTwo.add_self_eq_zero _
    simp only [if_true, divisor]
    linear_combination double

theorem held_low (positive : 0 < w) (bit : Bool) :
    held (low bit : BitVec w) = if bit then X ^ (w - 1) else 0 := by
  ext i
  rw [held, coeff_polynomialOf, BitVec.getLsbD_reverse, BitVec.getMsbD_eq_getLsbD]
  cases bit
  · simp [low]
  · by_cases top : i = w - 1
    · subst top
      have inside : w - 1 < w := by omega
      simp [low, inside, Nat.pos_iff_ne_zero.mp positive]
    · simp only [low, BitVec.getLsbD_setWidth, if_true, coeff_X_pow, if_neg top]
      by_cases inside : i < w
      · have notLow : ¬ w - 1 - i = 0 := by omega
        simp [notLow]
      · simp [inside]

theorem held_xor (a b : BitVec w) : held (a ^^^ b) = held a + held b := by
  have reversed : (a ^^^ b).reverse = a.reverse ^^^ b.reverse := by
    apply BitVec.eq_of_getLsbD_eq
    intro i inside
    simp only [BitVec.getLsbD_xor, BitVec.getLsbD_reverse, BitVec.getMsbD_xor]
  rw [held, reversed, polynomialOf_xor, held, held]

theorem mk_held_feed (positive : 0 < w) (poly register : BitVec w) (bit : Bool) :
    AdjoinRoot.mk (divisor poly) (held (feed poly.reverse register bit)) =
      AdjoinRoot.mk (divisor poly) (X * held register + if bit then X ^ w else 0) := by
  have power : X * (if bit then X ^ (w - 1) else 0) =
      if bit then (X : (ZMod 2)[X]) ^ w else 0 := by
    cases bit
    · simp
    · simp only [if_true]
      rw [← pow_succ', Nat.sub_add_cancel positive]
  rw [feed, mk_held_shift positive, held_xor, held_low positive, mul_add, power]

/-! ## The whole message -/

/-- The bits fed so far and the initial value leave the remainder of their dividend. -/
theorem mk_held_foldl (positive : 0 < w) (poly register : BitVec w) (message : List Bool) :
    AdjoinRoot.mk (divisor poly) (held (message.foldl (feed poly.reverse) register)) =
      AdjoinRoot.mk (divisor poly) (dividend register.reverse message) := by
  induction message generalizing register with
  | nil => simp [dividend, messagePolynomial, held]
  | cons bit rest ih =>
      rw [List.foldl_cons, ih, dividend, map_add, map_mul _ (polynomialOf _)]
      change _ + AdjoinRoot.mk (divisor poly) (held (feed poly.reverse register bit)) * _ = _
      rw [mk_held_feed positive, ← map_mul, ← map_add]
      congr 1
      rw [dividend, messagePolynomial, List.length_cons, held, pow_succ]
      cases bit
      · simp only [Bool.false_eq_true, if_false]
        ring
      · simp only [if_true]
        ring

/-- The register is the reversed remainder. -/
theorem check_eq_remainderCheck (positive : 0 < w) (poly initial final : BitVec w)
    (message : List UInt8) :
    check poly.reverse initial.reverse final message =
      remainderCheck poly initial final message := by
  have congruent := mk_held_foldl positive poly initial.reverse (messageBits message)
  rw [AdjoinRoot.mk_eq_mk, BitVec.reverse_reverse_eq] at congruent
  have small : (held ((messageBits message).foldl (feed poly.reverse) initial.reverse)).degree <
      (divisor poly).degree := by
    rw [degree_divisor]
    exact degree_polynomialOf_lt _
  have remainder : dividend initial (messageBits message) %ₘ divisor poly =
      held ((messageBits message).foldl (feed poly.reverse) initial.reverse) := by
    rw [← modByMonic_eq_of_dvd_sub (divisor_monic poly) congruent]
    exact (modByMonic_eq_self_iff (divisor_monic poly)).mpr small
  rw [remainderCheck, remainder, held, coefficients_polynomialOf, BitVec.reverse_reverse_eq, check]

end Division

/-- CRC-32 of IEEE 802.3 by division: the polynomial is 0x04C11DB7, the initial value is all
ones and the remainder is complemented. -/
noncomputable def ieeeRemainder (message : List UInt8) : UInt32 :=
  UInt32.ofBitVec
    (remainderCheck 0x04C11DB7#32 (BitVec.allOnes 32) (BitVec.allOnes 32) message)

theorem ieee_eq_ieeeRemainder (message : List UInt8) : ieee message = ieeeRemainder message := by
  have polynomial : (0x04C11DB7#32).reverse = ieeePolynomial := by decide +kernel
  have ones : (BitVec.allOnes 32).reverse = BitVec.allOnes 32 := by decide +kernel
  rw [ieee, ieeeRemainder, ← check_eq_remainderCheck (by decide), polynomial, ones]

end EmbeddedRuntime.Lib.CrcPolynomial
