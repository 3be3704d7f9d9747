import Mathlib.Algebra.Group.Nat.Defs
import Mathlib.Data.List.Basic

/-!
# Big-endian and little-endian words

The bytes of a 16-bit or 32-bit word, most significant first, and the word
that such bytes spell.  The two maps are inverse to each other.  `littleEndian`
reads a number of any width, least significant byte first; words of 16, 32 and
64 bits are also written that way.
-/

set_option autoImplicit false

namespace EmbeddedRuntime.Lib.ByteOrder

def be16 (value : UInt16) : List UInt8 :=
  [(value >>> 8).toUInt8, value.toUInt8]

def be32 (value : UInt32) : List UInt8 :=
  [(value >>> 24).toUInt8, (value >>> 16).toUInt8, (value >>> 8).toUInt8, value.toUInt8]

def ofBe16 (b0 b1 : UInt8) : UInt16 :=
  (b0.toUInt16 <<< 8) ||| b1.toUInt16

def ofBe32 (b0 b1 b2 b3 : UInt8) : UInt32 :=
  (b0.toUInt32 <<< 24) ||| (b1.toUInt32 <<< 16) ||| (b2.toUInt32 <<< 8) ||| b3.toUInt32

@[simp] theorem length_be16 (value : UInt16) : (be16 value).length = 2 := rfl

@[simp] theorem length_be32 (value : UInt32) : (be32 value).length = 4 := rfl

theorem ofBe16_be16 (value : UInt16) :
    ofBe16 (value >>> 8).toUInt8 value.toUInt8 = value := by
  apply UInt16.toBitVec_inj.mp
  apply BitVec.eq_of_getLsbD_eq
  intro bit inWord
  simp [ofBe16, -UInt16.toUInt16_toUInt8]
  grind

theorem ofBe32_be32 (value : UInt32) :
    ofBe32 (value >>> 24).toUInt8 (value >>> 16).toUInt8 (value >>> 8).toUInt8 value.toUInt8 =
      value := by
  apply UInt32.toBitVec_inj.mp
  apply BitVec.eq_of_getLsbD_eq
  intro bit inWord
  simp [ofBe32, -UInt32.toUInt32_toUInt8]
  grind

theorem be16_ofBe16 (b0 b1 : UInt8) : be16 (ofBe16 b0 b1) = [b0, b1] := by
  have high : (ofBe16 b0 b1 >>> 8).toUInt8 = b0 := by
    apply UInt8.toBitVec_inj.mp
    apply BitVec.eq_of_getLsbD_eq
    intro bit inByte
    simp [ofBe16]
    grind
  have low : (ofBe16 b0 b1).toUInt8 = b1 := by
    apply UInt8.toBitVec_inj.mp
    apply BitVec.eq_of_getLsbD_eq
    intro bit inByte
    simp [ofBe16]
  rw [be16, high, low]

theorem be32_ofBe32 (b0 b1 b2 b3 : UInt8) :
    be32 (ofBe32 b0 b1 b2 b3) = [b0, b1, b2, b3] := by
  have bytes : (ofBe32 b0 b1 b2 b3 >>> 24).toUInt8 = b0 ∧
      (ofBe32 b0 b1 b2 b3 >>> 16).toUInt8 = b1 ∧
      (ofBe32 b0 b1 b2 b3 >>> 8).toUInt8 = b2 ∧ (ofBe32 b0 b1 b2 b3).toUInt8 = b3 := by
    refine ⟨?_, ?_, ?_, ?_⟩
    all_goals
      apply UInt8.toBitVec_inj.mp
      apply BitVec.eq_of_getLsbD_eq
      intro bit inByte
      simp [ofBe32]
    all_goals grind
  rw [be32, bytes.1, bytes.2.1, bytes.2.2.1, bytes.2.2.2]

/-- The bits of the word, byte by byte. -/
theorem ofBe32_getLsbD (b0 b1 b2 b3 : UInt8) {bit : Nat} (inside : bit < 8) :
    (ofBe32 b0 b1 b2 b3).toBitVec.getLsbD (24 + bit) = b0.toBitVec.getLsbD bit ∧
      (ofBe32 b0 b1 b2 b3).toBitVec.getLsbD (16 + bit) = b1.toBitVec.getLsbD bit ∧
      (ofBe32 b0 b1 b2 b3).toBitVec.getLsbD (8 + bit) = b2.toBitVec.getLsbD bit ∧
      (ofBe32 b0 b1 b2 b3).toBitVec.getLsbD bit = b3.toBitVec.getLsbD bit := by
  refine ⟨?_, ?_, ?_, ?_⟩
  all_goals simp [ofBe32]
  all_goals grind

def littleEndian (bytes : Nat → UInt8) (offset : Nat) : Nat → Nat
  | 0 => 0
  | width + 1 => (bytes offset).toNat + 256 * littleEndian bytes (offset + 1) width

theorem littleEndian_lt (bytes : Nat → UInt8) (offset width : Nat) :
    littleEndian bytes offset width < 256 ^ width := by
  induction width generalizing offset with
  | zero => exact Nat.one_pos
  | succ width ih =>
    have low := (bytes offset).toNat_lt
    have high := ih (offset + 1)
    rw [littleEndian, Nat.pow_succ]
    omega

/-- The bytes after a number has been written at an offset. -/
def storeLittleEndian (bytes : Nat → UInt8) (offset width value : Nat) : Nat → UInt8 :=
  fun address =>
    if offset ≤ address ∧ address < offset + width then
      UInt8.ofNat (value / 256 ^ (address - offset))
    else bytes address

theorem storeLittleEndian_outside (bytes : Nat → UInt8) (value : Nat)
    {offset width address : Nat} (outside : address < offset ∨ offset + width ≤ address) :
    storeLittleEndian bytes offset width value address = bytes address :=
  if_neg (by omega)

/-- Only the bytes of a number matter. -/
theorem littleEndian_congr {bytes bytes' : Nat → UInt8} {offset width : Nat}
    (same : ∀ address, offset ≤ address → address < offset + width →
      bytes' address = bytes address) :
    littleEndian bytes' offset width = littleEndian bytes offset width := by
  induction width generalizing offset with
  | zero => rfl
  | succ width ih =>
    rw [littleEndian, littleEndian, same offset (Nat.le_refl _) (by omega)]
    rw [ih fun address low high => same address (by omega) (by omega)]

theorem littleEndian_store_apart (bytes : Nat → UInt8) (value : Nat)
    {offset width offset' width' : Nat}
    (apart : offset' + width' ≤ offset ∨ offset + width ≤ offset') :
    littleEndian (storeLittleEndian bytes offset width value) offset' width' =
      littleEndian bytes offset' width' :=
  littleEndian_congr fun _ low high => storeLittleEndian_outside bytes value (by omega)

/-- The rest of a number follows its first byte. -/
theorem littleEndian_store_succ (bytes : Nat → UInt8) (offset width value : Nat) :
    littleEndian (storeLittleEndian bytes offset (width + 1) value) (offset + 1) width =
      littleEndian (storeLittleEndian bytes (offset + 1) width (value / 256)) (offset + 1)
        width := by
  refine littleEndian_congr fun address low high => ?_
  obtain ⟨index, rfl⟩ := Nat.exists_eq_add_of_le low
  have first : offset + 1 + index - offset = index + 1 := by omega
  have later : offset + 1 + index - (offset + 1) = index := by omega
  rw [storeLittleEndian, storeLittleEndian, if_pos (by omega), if_pos (by omega), first, later,
    Nat.pow_succ', Nat.div_div_eq_div_mul]

theorem littleEndian_store (bytes : Nat → UInt8) (offset width value : Nat) :
    littleEndian (storeLittleEndian bytes offset width value) offset width =
      value % 256 ^ width := by
  induction width generalizing offset value with
  | zero => rw [littleEndian, Nat.pow_zero, Nat.mod_one]
  | succ width ih =>
    have low : (storeLittleEndian bytes offset (width + 1) value offset).toNat = value % 256 := by
      rw [storeLittleEndian, if_pos (by omega), Nat.sub_self, Nat.pow_zero, Nat.div_one]
      exact UInt8.toNat_ofNat'
    rw [littleEndian, low, littleEndian_store_succ, ih, Nat.pow_succ', Nat.mod_mul]

/-! ## Little-endian words -/

def le16 (value : UInt16) : List UInt8 := [value.toUInt8, (value >>> 8).toUInt8]

def le32 (value : UInt32) : List UInt8 :=
  [value.toUInt8, (value >>> 8).toUInt8, (value >>> 16).toUInt8, (value >>> 24).toUInt8]

def le64 (value : UInt64) : List UInt8 :=
  (List.range 8).map fun i => (value >>> UInt64.ofNat (8 * i)).toUInt8

def ofLe16 (b0 b1 : UInt8) : UInt16 := b0.toUInt16 ||| (b1.toUInt16 <<< 8)

def ofLe32 (b0 b1 b2 b3 : UInt8) : UInt32 :=
  b0.toUInt32 ||| (b1.toUInt32 <<< 8) ||| (b2.toUInt32 <<< 16) ||| (b3.toUInt32 <<< 24)

/-- The last byte is shifted in first. -/
def ofLe64 (bytes : List UInt8) : UInt64 :=
  bytes.foldr (fun byte value => (value <<< 8) ||| byte.toUInt64) 0

@[simp] theorem length_le16 (value : UInt16) : (le16 value).length = 2 := rfl

@[simp] theorem length_le32 (value : UInt32) : (le32 value).length = 4 := rfl

@[simp] theorem length_le64 (value : UInt64) : (le64 value).length = 8 := rfl

theorem ofLe16_eq (b0 b1 : UInt8) : ofLe16 b0 b1 = ofBe16 b1 b0 := UInt16.or_comm ..

theorem ofLe32_eq (b0 b1 b2 b3 : UInt8) : ofLe32 b0 b1 b2 b3 = ofBe32 b3 b2 b1 b0 := by
  rw [ofLe32, ofBe32, UInt32.or_comm _ (b3.toUInt32 <<< 24), UInt32.or_comm _ (b2.toUInt32 <<< 16),
    UInt32.or_comm b0.toUInt32, UInt32.or_assoc, UInt32.or_assoc]

theorem ofLe16_le16 (value : UInt16) :
    ofLe16 value.toUInt8 (value >>> 8).toUInt8 = value := by
  rw [ofLe16_eq, ofBe16_be16]

theorem ofLe32_le32 (value : UInt32) :
    ofLe32 value.toUInt8 (value >>> 8).toUInt8 (value >>> 16).toUInt8 (value >>> 24).toUInt8 =
      value := by
  rw [ofLe32_eq, ofBe32_be32]

theorem le16_ofLe16 (b0 b1 : UInt8) : le16 (ofLe16 b0 b1) = [b0, b1] := by
  have reversed := congrArg List.reverse (be16_ofBe16 b1 b0)
  rw [ofLe16_eq]
  exact reversed

theorem le32_ofLe32 (b0 b1 b2 b3 : UInt8) : le32 (ofLe32 b0 b1 b2 b3) = [b0, b1, b2, b3] := by
  have reversed := congrArg List.reverse (be32_ofBe32 b3 b2 b1 b0)
  rw [ofLe32_eq]
  exact reversed

/-- The number that bytes spell, the least significant first. -/
def ofBytes : List UInt8 → Nat
  | [] => 0
  | byte :: rest => byte.toNat + 256 * ofBytes rest

theorem ofBytes_lt (bytes : List UInt8) : ofBytes bytes < 256 ^ bytes.length := by
  induction bytes with
  | nil => exact Nat.one_pos
  | cons byte rest ih =>
      have low := byte.toNat_lt
      rw [ofBytes, List.length_cons, Nat.pow_succ]
      omega

theorem ofBytes_injective {first second : List UInt8} (lengths : first.length = second.length)
    (same : ofBytes first = ofBytes second) : first = second := by
  induction first generalizing second with
  | nil => exact (List.eq_nil_of_length_eq_zero lengths.symm).symm
  | cons byte rest ih =>
      cases second with
      | nil => cases lengths
      | cons other others =>
          have low := byte.toNat_lt
          have low' := other.toNat_lt
          simp only [ofBytes] at same
          have here : byte = other := UInt8.toNat_inj.mp (by omega)
          have later : ofBytes rest = ofBytes others := by omega
          rw [here, ih (Nat.succ.inj lengths) later]

theorem toNat_ofLe64 (bytes : List UInt8) (fits : bytes.length ≤ 8) :
    (ofLe64 bytes).toNat = ofBytes bytes := by
  induction bytes with
  | nil => rfl
  | cons byte rest ih =>
      have shorter : rest.length ≤ 7 := by
        rw [List.length_cons] at fits
        omega
      have bound : ofBytes rest < 256 ^ 7 :=
        Nat.lt_of_lt_of_le (ofBytes_lt rest) (Nat.pow_le_pow_right (by decide) shorter)
      have low : byte.toNat < 2 ^ 8 := byte.toNat_lt
      have value : (ofLe64 rest).toNat = ofBytes rest := ih (by omega)
      show ((ofLe64 rest <<< 8) ||| byte.toUInt64).toNat = _
      rw [UInt64.toNat_or, UInt64.toNat_shiftLeft, UInt8.toNat_toUInt64, value]
      have eight : UInt64.toNat 8 % 64 = 8 := rfl
      have small : ofBytes rest <<< 8 < 2 ^ 64 := by
        rw [Nat.shiftLeft_eq]
        omega
      rw [eight, Nat.mod_eq_of_lt small, ← Nat.shiftLeft_add_eq_or_of_lt low, Nat.shiftLeft_eq,
        ofBytes]
      omega

theorem toNat_shiftedByte (value : UInt64) {i : Nat} (inside : i < 8) :
    (value >>> UInt64.ofNat (8 * i)).toUInt8.toNat = value.toNat / 2 ^ (8 * i) % 256 := by
  have shift : (UInt64.ofNat (8 * i)).toNat = 8 * i :=
    UInt64.toNat_ofNat_of_lt' (by simp only [UInt64.size]; omega)
  have small : 8 * i < 64 := by omega
  rw [UInt64.toNat_toUInt8, UInt64.toNat_shiftRight, shift, Nat.mod_eq_of_lt small,
    Nat.shiftRight_eq_div_pow]

theorem ofBytes_le64 (value : UInt64) : ofBytes (le64 value) = value.toNat := by
  have bound := value.toNat_lt
  simp (disch := decide) only [le64, List.range, List.range.loop, List.map_cons, List.map_nil,
    ofBytes, toNat_shiftedByte]
  omega

theorem ofBytes_le16 (value : UInt16) : ofBytes (le16 value) = value.toNat := by
  have bound := value.toNat_lt
  have high : (value >>> 8).toUInt8.toNat = value.toNat / 256 % 256 := by
    rw [UInt16.toNat_toUInt8, UInt16.toNat_shiftRight]
    exact congrArg (· % 256) (Nat.shiftRight_eq_div_pow value.toNat 8)
  simp only [le16, ofBytes, high, UInt16.toNat_toUInt8]
  omega

theorem ofBytes_le32 (value : UInt32) : ofBytes (le32 value) = value.toNat := by
  have bound := value.toNat_lt
  have second : (value >>> 8).toUInt8.toNat = value.toNat / 2 ^ 8 % 256 := by
    rw [UInt32.toNat_toUInt8, UInt32.toNat_shiftRight]
    exact congrArg (· % 256) (Nat.shiftRight_eq_div_pow value.toNat 8)
  have third : (value >>> 16).toUInt8.toNat = value.toNat / 2 ^ 16 % 256 := by
    rw [UInt32.toNat_toUInt8, UInt32.toNat_shiftRight]
    exact congrArg (· % 256) (Nat.shiftRight_eq_div_pow value.toNat 16)
  have fourth : (value >>> 24).toUInt8.toNat = value.toNat / 2 ^ 24 % 256 := by
    rw [UInt32.toNat_toUInt8, UInt32.toNat_shiftRight]
    exact congrArg (· % 256) (Nat.shiftRight_eq_div_pow value.toNat 24)
  simp only [le32, ofBytes, second, third, fourth, UInt32.toNat_toUInt8]
  omega

theorem ofLe64_le64 (value : UInt64) : ofLe64 (le64 value) = value := by
  apply UInt64.toNat_inj.mp
  rw [toNat_ofLe64 (le64 value) (Nat.le_refl 8), ofBytes_le64]

theorem le64_ofLe64 (bytes : List UInt8) (whole : bytes.length = 8) :
    le64 (ofLe64 bytes) = bytes := by
  apply ofBytes_injective (by rw [whole]; rfl)
  rw [ofBytes_le64, toNat_ofLe64 bytes (by omega)]

theorem le32_injective {a b : UInt32} (same : le32 a = le32 b) : a = b := by
  simp only [le32, List.cons.injEq, and_true] at same
  rw [← ofLe32_le32 a, same.1, same.2.1, same.2.2.1, same.2.2.2, ofLe32_le32]

end EmbeddedRuntime.Lib.ByteOrder
