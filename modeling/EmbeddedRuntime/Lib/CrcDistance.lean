import EmbeddedRuntime.Lib.ByteOrder
import EmbeddedRuntime.Lib.Crc
import Mathlib.Data.List.Range

/-!
# The errors that a check value shows

The registers of two messages of one length differ by the sum, for exclusive
or, of one weight for each bit in which the messages differ.  The weight of a
bit is the register of a single one followed by zeros: a power of the shift.
Within `w` consecutive bits the weights are independent, and two of them are
equal only at a distance that is a period of the shift.
-/

set_option autoImplicit false

namespace EmbeddedRuntime.Lib.CrcDistance

open EmbeddedRuntime.Lib.ByteOrder
open EmbeddedRuntime.Lib.Crc

/-! ## The bits of a message -/

/-- Bit `position % 8`, the least significant one first, of byte `position / 8`. -/
def bitAt (message : List UInt8) (position : Nat) : Bool :=
  (message.getD (position / 8) 0).toBitVec.getLsbD (position % 8)

/-- The positions in which two messages of one length differ. -/
def differences (first second : List UInt8) : List Nat :=
  (List.range (8 * first.length)).filter fun position =>
    bitAt first position ≠ bitAt second position

section Bits
variable {w : Nat}

theorem bits_eq_map (value : BitVec w) (count : Nat) :
    bits value count = (List.range count).map value.getLsbD := by
  induction count generalizing value with
  | zero => rfl
  | succ count ih =>
      rw [bits, ih, List.range_succ_eq_map, List.map_cons, List.map_map]
      congr 1
      apply List.map_congr_left
      intro i _
      rw [BitVec.getLsbD_ushiftRight, Function.comp_apply, Nat.succ_eq_add_one, Nat.add_comm]

theorem bitAt_cons_low (byte : UInt8) (rest : List UInt8) {i : Nat} (inside : i < 8) :
    bitAt (byte :: rest) i = byte.toBitVec.getLsbD i := by
  have first : i / 8 = 0 := by omega
  have same : i % 8 = i := by omega
  rw [bitAt, first, same, List.getD_cons_zero]

theorem bitAt_cons_high (byte : UInt8) (rest : List UInt8) (i : Nat) :
    bitAt (byte :: rest) (8 + i) = bitAt rest i := by
  have next : (8 + i) / 8 = i / 8 + 1 := by omega
  have same : (8 + i) % 8 = i % 8 := by omega
  rw [bitAt, next, same, List.getD_cons_succ, bitAt]

theorem messageBits_eq_map (message : List UInt8) :
    messageBits message = (List.range (8 * message.length)).map (bitAt message) := by
  induction message with
  | nil => rfl
  | cons byte rest ih =>
      have length : 8 * (byte :: rest).length = 8 + 8 * rest.length := by
        rw [List.length_cons]
        omega
      rw [length, List.range_add, List.map_append, List.map_map, messageBits, List.flatMap_cons]
      change bits byte.toBitVec 8 ++ messageBits rest = _
      rw [ih, bits_eq_map]
      refine congrArg₂ (· ++ ·) (List.map_congr_left ?_) (List.map_congr_left ?_)
      · intro i member
        exact (bitAt_cons_low byte rest (List.mem_range.mp member)).symm
      · intro i _
        exact (bitAt_cons_high byte rest i).symm

theorem mem_differences {first second : List UInt8} {position : Nat} :
    position ∈ differences first second ↔
      position < 8 * first.length ∧ bitAt first position ≠ bitAt second position := by
  simp [differences]

theorem differences_nodup (first second : List UInt8) : (differences first second).Nodup :=
  List.nodup_range.filter _

/-- Messages without a different bit are equal. -/
theorem eq_of_bits {first second : List UInt8} (lengths : first.length = second.length)
    (same : ∀ position, position < 8 * first.length →
      bitAt first position = bitAt second position) : first = second := by
  apply List.ext_getElem lengths
  intro index inside inside'
  apply UInt8.toBitVec_inj.mp
  apply BitVec.eq_of_getLsbD_eq
  intro bit inByte
  have here := same (8 * index + bit) (by omega)
  have byteIndex : (8 * index + bit) / 8 = index := by omega
  have bitIndex : (8 * index + bit) % 8 = bit := by omega
  rw [bitAt, bitAt, byteIndex, bitIndex, List.getD_eq_getElem first 0 inside,
    List.getD_eq_getElem second 0 inside'] at here
  exact here

theorem differences_ne_nil {first second : List UInt8} (lengths : first.length = second.length)
    (differ : first ≠ second) : differences first second ≠ [] := by
  intro none
  apply differ
  apply eq_of_bits lengths
  intro position inside
  by_contra other
  have member := mem_differences.mpr ⟨inside, other⟩
  rw [none] at member
  cases member

end Bits

/-! ## Sums of weights -/

section Sums
variable {w : Nat}

/-- The exclusive or of the weights of some positions. -/
def total (weight : Nat → BitVec w) (positions : List Nat) : BitVec w :=
  positions.foldr (fun position sum => weight position ^^^ sum) 0#w

@[simp] theorem total_nil (weight : Nat → BitVec w) : total weight [] = 0#w := rfl

@[simp] theorem total_cons (weight : Nat → BitVec w) (position : Nat) (rest : List Nat) :
    total weight (position :: rest) = weight position ^^^ total weight rest := rfl

theorem total_append (weight : Nat → BitVec w) (first second : List Nat) :
    total weight (first ++ second) = total weight first ^^^ total weight second := by
  induction first with
  | nil => exact BitVec.zero_xor.symm
  | cons position rest ih => rw [List.cons_append, total_cons, ih, total_cons, BitVec.xor_assoc]

theorem total_congr {weight weight' : Nat → BitVec w} {positions : List Nat}
    (same : ∀ position ∈ positions, weight position = weight' position) :
    total weight positions = total weight' positions := by
  induction positions with
  | nil => rfl
  | cons position rest ih =>
      rw [total_cons, total_cons, same position List.mem_cons_self,
        ih fun other member => same other (List.mem_cons_of_mem position member)]

theorem total_map (weight : Nat → BitVec w) (place : Nat → Nat) (positions : List Nat) :
    total weight (positions.map place) = total (fun position => weight (place position))
      positions := by
  induction positions with
  | nil => rfl
  | cons position rest ih => rw [List.map_cons, total_cons, total_cons, ih]

theorem total_perm (weight : Nat → BitVec w) {first second : List Nat}
    (perm : first.Perm second) : total weight first = total weight second := by
  induction perm with
  | nil => rfl
  | cons position _ ih => rw [total_cons, total_cons, ih]
  | swap one other rest =>
      rw [total_cons, total_cons, total_cons, total_cons, ← BitVec.xor_assoc, ← BitVec.xor_assoc,
        BitVec.xor_comm (weight other)]
  | trans _ _ ih ih' => exact ih.trans ih'

theorem shift_zero (poly : BitVec w) : shift poly 0#w = 0#w := by
  simp [shift]

theorem shift_total (poly : BitVec w) (weight : Nat → BitVec w) (positions : List Nat) :
    shift poly (total weight positions) =
      total (fun position => shift poly (weight position)) positions := by
  induction positions with
  | nil => exact shift_zero poly
  | cons position rest ih => rw [total_cons, total_cons, shift_xor, ih]

theorem iterate_shift_total (poly : BitVec w) (count : Nat) (weight : Nat → BitVec w)
    (positions : List Nat) :
    (shift poly)^[count] (total weight positions) =
      total (fun position => (shift poly)^[count] (weight position)) positions := by
  induction count generalizing weight with
  | zero => rfl
  | succ count ih =>
      rw [Function.iterate_succ_apply, shift_total, ih]
      rfl

theorem total_getLsbD_other (place : Nat → Nat) {positions : List Nat} {bit : Nat}
    (other : ∀ position ∈ positions, place position ≠ bit) :
    (total (fun position => BitVec.twoPow w (place position)) positions).getLsbD bit = false := by
  induction positions with
  | nil => simp
  | cons position rest ih =>
      have here := other position List.mem_cons_self
      have later := ih fun next member => other next (List.mem_cons_of_mem position member)
      rw [total_cons, BitVec.getLsbD_xor, later, BitVec.getLsbD_twoPow]
      simp [here]

/-- Distinct powers of two do not cancel. -/
theorem total_twoPow_ne_zero (place : Nat → Nat) {positions : List Nat}
    (nonempty : positions ≠ []) (inside : ∀ position ∈ positions, place position < w)
    (apart : positions.Pairwise fun first second => place first ≠ place second) :
    total (fun position => BitVec.twoPow w (place position)) positions ≠ 0#w := by
  intro zero
  obtain ⟨position, rest, rfl⟩ := List.exists_cons_of_ne_nil nonempty
  have others : (total (fun position => BitVec.twoPow w (place position)) rest).getLsbD
      (place position) = false :=
    total_getLsbD_other place fun next member => ((List.pairwise_cons.mp apart).1 next member).symm
  have here := inside position List.mem_cons_self
  have bit := congrArg (fun value : BitVec w => value.getLsbD (place position)) zero
  rw [total_cons] at bit
  simp only [BitVec.getLsbD_xor, others, BitVec.getLsbD_twoPow] at bit
  simp [here] at bit

/-- A word is the sum of its bits. -/
theorem eq_total_twoPow (value : BitVec w) :
    value = total (BitVec.twoPow w) ((List.range w).filter value.getLsbD) := by
  have upTo (count : Nat) (bit : Nat) (inside : bit < w) :
      (total (BitVec.twoPow w) ((List.range count).filter value.getLsbD)).getLsbD bit =
        (decide (bit < count) && value.getLsbD bit) := by
    induction count with
    | zero => simp
    | succ count ih =>
        have final : total (BitVec.twoPow w) ([count].filter value.getLsbD) =
            if value.getLsbD count then BitVec.twoPow w count else 0#w := by
          rw [List.filter_cons, List.filter_nil]
          split_ifs <;> simp
        rw [List.range_succ, List.filter_append, total_append, BitVec.getLsbD_xor, ih, final]
        by_cases last : bit = count
        · subst last
          cases value.getLsbD bit <;> simp [inside]
        · have order : decide (bit < count + 1) = decide (bit < count) := by
            simp only [decide_eq_decide]
            omega
          rw [order]
          cases value.getLsbD count <;> simp [BitVec.getLsbD_twoPow, Ne.symm last]
  apply BitVec.eq_of_getLsbD_eq
  intro bit inside
  rw [upTo w bit inside]
  simp [inside]

end Sums

/-! ## Powers of the shift -/

section Powers
variable {w : Nat} (poly : BitVec w)

/-- The top bit alone, after some shifts. -/
def power (count : Nat) : BitVec w := (shift poly)^[count] (BitVec.twoPow w (w - 1))

theorem shift_twoPow {bit : Nat} (inside : bit + 1 < w) :
    shift poly (BitVec.twoPow w (bit + 1)) = BitVec.twoPow w bit := by
  rw [shift_even poly _ (by simp [BitVec.getLsbD_twoPow])]
  apply BitVec.eq_of_getLsbD_eq
  intro other _
  rw [BitVec.getLsbD_ushiftRight, BitVec.getLsbD_twoPow, BitVec.getLsbD_twoPow]
  have fits : bit < w := by omega
  simp only [inside, fits, decide_true, Bool.true_and, decide_eq_decide]
  omega

theorem iterate_shift_twoPow {bit count : Nat} (inside : bit + count < w) :
    (shift poly)^[count] (BitVec.twoPow w (bit + count)) = BitVec.twoPow w bit := by
  induction count with
  | zero => rfl
  | succ count ih =>
      have fits : bit + count + 1 < w := inside
      rw [Function.iterate_succ_apply, ← Nat.add_assoc, shift_twoPow poly fits]
      exact ih (by omega)

theorem twoPow_eq_power {bit : Nat} (inside : bit < w) :
    BitVec.twoPow w bit = power poly (w - 1 - bit) := by
  have whole : bit + (w - 1 - bit) = w - 1 := by omega
  have shifted : (shift poly)^[w - 1 - bit] (BitVec.twoPow w (bit + (w - 1 - bit))) =
      BitVec.twoPow w bit := iterate_shift_twoPow poly (by omega)
  rw [whole] at shifted
  exact shifted.symm

theorem low_true (positive : 0 < w) : (low true : BitVec w) = power poly (w - 1) := by
  have one : (low true : BitVec w) = BitVec.twoPow w 0 := by
    apply BitVec.eq_of_getLsbD_eq
    intro bit _
    rw [BitVec.getLsbD_twoPow]
    cases bit <;> simp [low, positive]
  rw [one, twoPow_eq_power poly positive, Nat.sub_zero]

theorem shift_power (count : Nat) : shift poly (power poly count) = power poly (count + 1) :=
  (Function.iterate_succ_apply' ..).symm

theorem iterate_shift_power (count start : Nat) :
    (shift poly)^[count] (power poly start) = power poly (count + start) := by
  rw [power, power, Function.iterate_add_apply]

variable {poly}

theorem iterate_shift_eq_zero (top : poly.msb = true) (count : Nat) {value : BitVec w}
    (zero : (shift poly)^[count] value = 0#w) : value = 0#w := by
  induction count generalizing value with
  | zero => exact zero
  | succ count ih =>
      rw [Function.iterate_succ_apply] at zero
      exact shift_eq_zero poly top value (ih zero)

theorem power_ne_zero (top : poly.msb = true) (positive : 0 < w) (count : Nat) :
    power poly count ≠ 0#w := by
  intro zero
  have start := iterate_shift_eq_zero top count zero
  have bit := congrArg (fun value : BitVec w => value.getLsbD (w - 1)) start
  have inside : w - 1 < w := by omega
  simp [inside] at bit

/-- No power up to the limit returns to the top bit. -/
def NoReturn (poly : BitVec w) (limit : Nat) : Prop :=
  ∀ count, 0 < count → count ≤ limit → power poly count ≠ power poly 0

theorem power_ne_of_lt (top : poly.msb = true) {limit : Nat} (noReturn : NoReturn poly limit)
    {first second : Nat} (order : first < second) (bound : second ≤ limit) :
    power poly first ≠ power poly second := by
  intro same
  apply noReturn (second - first) (by omega) (by omega)
  apply (shift_injective poly top).iterate first
  rw [iterate_shift_power, iterate_shift_power, Nat.add_sub_cancel' order.le]
  exact same.symm

/-- The walk along the powers, for evaluation. -/
def avoids (poly target : BitVec w) : Nat → BitVec w → Bool
  | 0, _ => true
  | count + 1, register =>
      shift poly register != target && avoids poly target count (shift poly register)

theorem avoids_spec (target : BitVec w) {limit : Nat} {register : BitVec w}
    (avoided : avoids poly target limit register = true) {count : Nat} (positive : 0 < count)
    (bound : count ≤ limit) : (shift poly)^[count] register ≠ target := by
  induction limit generalizing register count with
  | zero => omega
  | succ limit ih =>
      simp only [avoids, Bool.and_eq_true, bne_iff_ne] at avoided
      obtain ⟨count, rfl⟩ := Nat.exists_eq_succ_of_ne_zero positive.ne'
      rw [Function.iterate_succ_apply]
      rcases Nat.eq_zero_or_pos count with rfl | later
      · exact avoided.1
      · exact ih avoided.2 later (by omega)

theorem noReturn_of_avoids {limit : Nat}
    (avoided : avoids poly (power poly 0) limit (power poly 0) = true) : NoReturn poly limit :=
  fun _ positive bound => avoids_spec (power poly 0) avoided positive bound

/-! ## The registers of two messages -/

theorem feed_xor (first second : BitVec w) (bit bit' : Bool) :
    feed poly first bit ^^^ feed poly second bit' =
      shift poly ((first ^^^ second) ^^^ (low bit ^^^ low bit')) := by
  rw [feed, feed, ← shift_xor]
  congr 1
  ac_rfl

theorem low_xor_low (bit bit' : Bool) :
    (low bit ^^^ low bit' : BitVec w) = if bit ≠ bit' then low true else 0#w := by
  cases bit <;> cases bit' <;> simp [low]

/-- The registers after two bit strings differ by the weights of the bits in which these differ:
each has been shifted once more for every bit behind it. -/
theorem foldl_feed_xor (positive : 0 < w) (first second : Nat → Bool) (register : BitVec w)
    (length : Nat) :
    ((List.range length).map first).foldl (feed poly) register ^^^
        ((List.range length).map second).foldl (feed poly) register =
      total (fun position => power poly (w - 1 + (length - position)))
        ((List.range length).filter fun position => first position ≠ second position) := by
  induction length with
  | zero => simp
  | succ length ih =>
      rw [List.range_succ, List.map_append, List.map_append, List.foldl_append, List.foldl_append]
      simp only [List.map_cons, List.map_nil, List.foldl_cons, List.foldl_nil]
      rw [feed_xor, ih, shift_xor, shift_total, low_xor_low, List.filter_append, total_append]
      congr 1
      · apply total_congr
        intro position member
        have inside := List.mem_range.mp (List.mem_of_mem_filter member)
        have later : w - 1 + (length + 1 - position) = w - 1 + (length - position) + 1 := by omega
        rw [later, ← shift_power]
      · have behind : w - 1 + (length + 1 - length) = w - 1 + 1 := by omega
        rw [List.filter_cons, List.filter_nil]
        by_cases differ : first length ≠ second length
        · rw [if_pos differ, if_pos (by simpa using differ), total_cons, total_nil, BitVec.xor_zero,
            behind, ← shift_power, low_true poly positive]
        · rw [if_neg differ, if_neg (by simpa using differ), total_nil, shift_zero]

/-- The weight of a bit of a message of some length. -/
def weight (poly : BitVec w) (length position : Nat) : BitVec w :=
  power poly (w - 1 + (8 * length - position))

theorem check_xor (positive : 0 < w) (initial final : BitVec w) {first second : List UInt8}
    (lengths : first.length = second.length) :
    check poly initial final first ^^^ check poly initial final second =
      total (weight poly first.length) (differences first second) := by
  have cancel (one other : BitVec w) : one ^^^ final ^^^ (other ^^^ final) = one ^^^ other := by
    have none : final ^^^ final = 0#w := BitVec.xor_self
    calc one ^^^ final ^^^ (other ^^^ final) = (one ^^^ other) ^^^ (final ^^^ final) := by ac_rfl
      _ = one ^^^ other := by rw [none, BitVec.xor_zero]
  rw [check, check, cancel, messageBits_eq_map, messageBits_eq_map, ← lengths]
  exact foldl_feed_xor positive (bitAt first) (bitAt second) initial (8 * first.length)

/-- All differences lie among `width` consecutive bits. -/
def Within (width : Nat) (positions : List Nat) : Prop :=
  ∃ start, ∀ position ∈ positions, start ≤ position ∧ position < start + width

/-- The check value shows every error within as many consecutive bits as it has. -/
theorem check_burst (top : poly.msb = true) (positive : 0 < w) (initial final : BitVec w)
    {first second : List UInt8} (lengths : first.length = second.length)
    (burst : Within w (differences first second)) (differ : first ≠ second) :
    check poly initial final first ≠ check poly initial final second := by
  intro same
  obtain ⟨start, window⟩ := burst
  have zero : total (weight poly first.length) (differences first second) = 0#w := by
    rw [← check_xor positive initial final lengths, same, BitVec.xor_self]
  have shifted : total (weight poly first.length) (differences first second) =
      (shift poly)^[8 * first.length - start] (total (fun position =>
        BitVec.twoPow w (position - start)) (differences first second)) := by
    rw [iterate_shift_total]
    apply total_congr
    intro position member
    have inside := (mem_differences.mp member).1
    obtain ⟨low, high⟩ := window position member
    have exponent : w - 1 + (8 * first.length - position) =
        8 * first.length - start + (w - 1 - (position - start)) := by omega
    rw [twoPow_eq_power poly (by omega), iterate_shift_power, weight, exponent]
  refine total_twoPow_ne_zero (w := w) (fun position => position - start)
    (differences_ne_nil lengths differ) ?_ ?_ (iterate_shift_eq_zero top _ (shifted.symm.trans zero))
  · intro position member
    obtain ⟨low, high⟩ := window position member
    omega
  · refine List.Pairwise.imp_of_mem ?_ (differences_nodup first second)
    intro one other member member' distinct same
    have low := (window one member).1
    have low' := (window other member').1
    omega

/-- One or two distinct powers do not cancel before the shift returns. -/
theorem total_few_ne_zero (top : poly.msb = true) (positive : 0 < w) {limit : Nat}
    (noReturn : NoReturn poly limit) (exponent : Nat → Nat) {positions : List Nat}
    (few : positions.length = 1 ∨ positions.length = 2)
    (distinct : positions.Pairwise fun first second => exponent first ≠ exponent second)
    (bound : ∀ position ∈ positions, exponent position ≤ limit) :
    total (fun position => power poly (exponent position)) positions ≠ 0#w := by
  intro zero
  rcases few with one | two
  · obtain ⟨position, rfl⟩ := List.length_eq_one_iff.mp one
    rw [total_cons, total_nil, BitVec.xor_zero] at zero
    exact power_ne_zero top positive _ zero
  · obtain ⟨first, second, rfl⟩ := List.length_eq_two.mp two
    rw [total_cons, total_cons, total_nil, BitVec.xor_zero] at zero
    have same := BitVec.xor_eq_zero_iff.mp zero
    have differ := (List.pairwise_cons.mp distinct).1 second (by simp)
    have fits := bound first (by simp)
    have fits' := bound second (by simp)
    rcases Nat.lt_or_gt_of_ne differ with order | order
    · exact power_ne_of_lt top noReturn order fits' same
    · exact power_ne_of_lt top noReturn order fits same.symm

end Powers

/-! ## The IEEE 802.3 check -/

theorem ieee_msb : ieeePolynomial.msb = true := by decide

theorem ieee_xor {first second : List UInt8} (lengths : first.length = second.length) :
    (ieee first).toBitVec ^^^ (ieee second).toBitVec =
      total (weight ieeePolynomial first.length) (differences first second) :=
  check_xor (by decide) _ _ lengths

theorem ieee_burst {first second : List UInt8} (lengths : first.length = second.length)
    (burst : Within 32 (differences first second)) (differ : first ≠ second) :
    ieee first ≠ ieee second := by
  intro same
  exact check_burst ieee_msb (by decide) _ _ lengths burst differ (congrArg UInt32.toBitVec same)

/-! ## Big-endian words in a message -/

/-- The word whose most significant byte is at `offset`. -/
def beWord (message : List UInt8) (offset : Nat) : UInt32 :=
  ofBe32 (message.getD offset 0) (message.getD (offset + 1) 0) (message.getD (offset + 2) 0)
    (message.getD (offset + 3) 0)

/-- The bit of the word that bit `position` of a big-endian field is. -/
def place (position : Nat) : Nat := 8 * (3 - position / 8) + position % 8

theorem place_lt {position : Nat} (inside : position < 32) : place position < 32 := by
  unfold place
  omega

theorem place_injective {first second : Nat} (inside : first < 32) (inside' : second < 32)
    (same : place first = place second) : first = second := by
  unfold place at same
  omega

theorem place_perm : ((List.range 32).map place).Perm (List.range 32) := by decide

theorem beWord_getLsbD (message : List UInt8) (offset : Nat) {position : Nat}
    (inside : position < 32) :
    (beWord message offset).toBitVec.getLsbD (place position) =
      bitAt message (8 * offset + position) := by
  have inByte : position % 8 < 8 := Nat.mod_lt _ (by decide)
  obtain ⟨byte0, byte1, byte2, byte3⟩ := ofBe32_getLsbD (message.getD offset 0)
    (message.getD (offset + 1) 0) (message.getD (offset + 2) 0) (message.getD (offset + 3) 0) inByte
  have index : (8 * offset + position) / 8 = offset + position / 8 := by omega
  have bit : (8 * offset + position) % 8 = position % 8 := by omega
  rw [bitAt, index, bit, place, beWord]
  have which : position / 8 = 0 ∨ position / 8 = 1 ∨ position / 8 = 2 ∨ position / 8 = 3 := by
    omega
  rcases which with first | second | third | fourth
  · rw [first]
    exact byte0
  · rw [second]
    exact byte1
  · rw [third]
    exact byte2
  · rw [fourth, Nat.sub_self, Nat.mul_zero, Nat.zero_add]
    exact byte3

/-- Two words differ by the weights of the bits in which they do. -/
theorem beWord_xor (first second : List UInt8) (offset : Nat) :
    (beWord first offset).toBitVec ^^^ (beWord second offset).toBitVec =
      total (fun position => power ieeePolynomial (31 - place position))
        ((List.range 32).filter fun position =>
          bitAt first (8 * offset + position) ≠ bitAt second (8 * offset + position)) := by
  rw [eq_total_twoPow ((beWord first offset).toBitVec ^^^ (beWord second offset).toBitVec),
    total_perm _ (place_perm.symm.filter _), List.filter_map, total_map]
  have members : (List.range 32).filter (((beWord first offset).toBitVec ^^^
      (beWord second offset).toBitVec).getLsbD ∘ place) = (List.range 32).filter fun position =>
        bitAt first (8 * offset + position) ≠ bitAt second (8 * offset + position) := by
    apply List.filter_congr
    intro position member
    have inside := List.mem_range.mp member
    rw [Function.comp_apply, BitVec.getLsbD_xor, beWord_getLsbD first offset inside,
      beWord_getLsbD second offset inside]
    cases bitAt first (8 * offset + position) <;> cases bitAt second (8 * offset + position) <;>
      rfl
  rw [members]
  apply total_congr
  intro position member
  have inside := List.mem_range.mp (List.mem_of_mem_filter member)
  exact twoPow_eq_power ieeePolynomial (place_lt inside)

theorem beWord_eq_iff (first second : List UInt8) (offset : Nat) :
    beWord first offset = beWord second offset ↔ ∀ position, position < 32 →
      bitAt first (8 * offset + position) = bitAt second (8 * offset + position) := by
  constructor
  · intro same position inside
    rw [← beWord_getLsbD first offset inside, ← beWord_getLsbD second offset inside, same]
  · intro same
    have none : (List.range 32).filter (fun position =>
        bitAt first (8 * offset + position) ≠ bitAt second (8 * offset + position)) = [] :=
      List.filter_eq_nil_iff.mpr fun position member => by
        simpa using same position (List.mem_range.mp member)
    have field := beWord_xor first second offset
    rw [none, total_nil, BitVec.xor_eq_zero_iff] at field
    exact UInt32.toBitVec_inj.mp field

end EmbeddedRuntime.Lib.CrcDistance
