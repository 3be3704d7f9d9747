import EmbeddedRuntime.Firmware.BitFlips

/-!
# The image format

`IsImage` says what an image file is, in numbers without a bound: the fields of
the header, the length of the file and the CRC of what follows the header.  The
verifiers compute with 64-bit words, and accept exactly these files.
-/

set_option autoImplicit false

namespace EmbeddedRuntime.Firmware.Format

open EmbeddedRuntime.Lib.Buffer
open EmbeddedRuntime.Lib.ByteOrder
open EmbeddedRuntime.Lib.Crc
open EmbeddedRuntime.Protocol.Crc32
open EmbeddedRuntime.Firmware.Image
open EmbeddedRuntime.Firmware.PackVerify
open EmbeddedRuntime.Firmware.BitFlips

/-- The number in `width` bytes, least significant first. -/
def field (file : List UInt8) (offset width : Nat) : Nat := ofBytes (readAt file offset width)

/-- An MLFW image of format version 1. -/
structure IsImage (file : List UInt8) : Prop where
  magic : field file 0 4 = 0x4d4c4657
  format : field file 4 2 = 1
  headerSize : field file 14 2 = 40
  size : file.length = 40 + field file 16 8
  small : field file 16 8 ≤ 64 * 1024 * 1024
  crc : (ieee (file.drop 40)).toNat = field file 24 4

section Fields
variable {file : List UInt8}

theorem length_readAt {bytes : List UInt8} {offset width : Nat}
    (inside : offset + width ≤ bytes.length) : (readAt bytes offset width).length = width := by
  rw [readAt, List.length_take, List.length_drop]
  omega

/-- The parser reads the fields from the first forty bytes. -/
theorem readAt_take {offset width : Nat} (inside : offset + width ≤ fwHeaderSize) :
    readAt (file.take fwHeaderSize) offset width = readAt file offset width := by
  rw [readAt, readAt, List.drop_take, List.take_take, Nat.min_eq_left (by omega)]

theorem readAt_eq_of_field {offset width : Nat} {bytes : List UInt8}
    (inside : offset + width ≤ file.length) (width_eq : bytes.length = width)
    (value : field file offset width = ofBytes bytes) : readAt file offset width = bytes :=
  ofBytes_injective ((length_readAt inside).trans width_eq.symm) value

theorem isImage_of_validAs {h : FwHeader} (valid : ValidAs file h) : IsImage file := by
  have enough := valid.enough
  have count := valid.count
  have spells := valid.spells
  rw [List.length_drop] at count
  have header : fwHeaderSize = 40 := rfl
  have imageSize : field file 16 8 = h.imageSize.toNat := by
    rw [field, ← readAt_take (by decide), spells.imageSize, ofBytes_le64]
  refine ⟨?_, ?_, ?_, by omega, imageSize ▸ valid.small, ?_⟩
  · rw [field, ← readAt_take (by decide), spells.magic, ofBytes_le32]
    rfl
  · rw [field, ← readAt_take (by decide), spells.format, ofBytes_le16]
    rfl
  · rw [field, ← readAt_take (by decide), spells.headerSize, ofBytes_le16]
    rfl
  · have crc := valid.crc
    rw [mlrtCrc32_eq_ieee] at crc
    rw [field, ← readAt_take (by decide), spells.crc32, ofBytes_le32, ← crc]
    rfl

/-- The header of an image. -/
def headerOf (file : List UInt8) : FwHeader where
  arch := getU16Le (file.take fwHeaderSize) 6
  major := getU16Le (file.take fwHeaderSize) 8
  minor := getU16Le (file.take fwHeaderSize) 10
  patch := getU16Le (file.take fwHeaderSize) 12
  imageSize := getU64Le (file.take fwHeaderSize) 16
  crc32 := getU32Le (file.take fwHeaderSize) 24

theorem validAs_of_isImage (image : IsImage file) : ValidAs file (headerOf file) := by
  have size := image.size
  have enough : fwHeaderSize ≤ file.length := by
    rw [size]
    exact Nat.le_add_right 40 _
  have taken : (file.take fwHeaderSize).length = 40 := by
    rw [List.length_take]
    exact Nat.min_eq_left enough
  have long : 40 ≤ file.length := enough
  have imageSize : (headerOf file).imageSize.toNat = field file 16 8 := by
    change (ofLe64 (readAt (file.take fwHeaderSize) 16 8)).toNat = _
    rw [toNat_ofLe64 _ (Nat.le_of_eq (length_readAt (by omega))), readAt_take (by decide), field]
  have crc : (headerOf file).crc32.toNat = field file 24 4 := by
    have bytes := (getU32Le_eq_iff (file.take fwHeaderSize) 24 _ (by omega)).mp rfl
    rw [field, ← readAt_take (by decide), bytes, ofBytes_le32]
    rfl
  refine ⟨enough, ⟨?_, ?_, ?_, ?_, ?_, ?_, ?_, ?_, ?_⟩, ?_, ?_, ?_, ?_⟩
  · rw [readAt_take (by decide)]
    exact readAt_eq_of_field (by omega) rfl (image.magic.trans (ofBytes_le32 fwMagic).symm)
  · rw [readAt_take (by decide)]
    exact readAt_eq_of_field (by omega) rfl
      (image.format.trans (ofBytes_le16 fwFormatVersion).symm)
  · exact (getU16Le_eq_iff (file.take fwHeaderSize) 6 _ (by omega)).mp rfl
  · exact (getU16Le_eq_iff (file.take fwHeaderSize) 8 _ (by omega)).mp rfl
  · exact (getU16Le_eq_iff (file.take fwHeaderSize) 10 _ (by omega)).mp rfl
  · exact (getU16Le_eq_iff (file.take fwHeaderSize) 12 _ (by omega)).mp rfl
  · rw [readAt_take (by decide)]
    exact readAt_eq_of_field (by omega) rfl
      (image.headerSize.trans (ofBytes_le16 (UInt16.ofNat fwHeaderSize)).symm)
  · exact (getU64Le_eq_iff (file.take fwHeaderSize) 16 _ (by omega)).mp rfl
  · exact (getU32Le_eq_iff (file.take fwHeaderSize) 24 _ (by omega)).mp rfl
  · -- the sum of the code does not wrap
    apply UInt64.toNat_inj.mp
    have small := image.small
    have header : (UInt64.ofNat fwHeaderSize).toNat = 40 := rfl
    rw [UInt64.toNat_add, imageSize, header,
      UInt64.toNat_ofNat_of_lt' (by simp only [UInt64.size]; omega)]
    omega
  · rw [imageSize]
    exact image.small
  · rw [imageSize, List.length_drop, size]
    exact Nat.add_sub_cancel_left 40 _
  · apply UInt32.toNat_inj.mp
    rw [crc, mlrtCrc32_eq_ieee]
    exact image.crc

theorem isImage_iff : IsImage file ↔ ∃ h, ValidAs file h := by
  constructor
  · exact fun image => ⟨headerOf file, validAs_of_isImage image⟩
  · rintro ⟨h, valid⟩
    exact isImage_of_validAs valid

end Fields

theorem inspectOrVerify_iff (calls : ReadCalls) (size : Nat) :
    (inspectOrVerify calls size true).1 = 0 ↔ Verified calls size := by
  constructor
  · intro success
    by_contra failed
    rw [inspectOrVerify_of_not_verified failed] at success
    cases success
  · rintro ⟨report, verified, sizeOk, crcOk⟩
    unfold verifyImageFile at verified
    unfold inspectOrVerify
    cases verdict : examine calls size with
    | error error =>
        rw [verdict] at verified
        cases verified
    | ok found =>
        rw [verdict] at verified
        obtain rfl := Option.some.inj verified
        simp [sizeOk, crcOk]

/-- However the reads of a file are cut, `fw verify` returns 0 exactly on an image, and so does
`verify_image_file` with both checks passed. -/
theorem verifiers_accept_format (calls : ReadCalls) (file : List UInt8)
    (reads : Reads calls file) :
    ((inspectOrVerify calls file.length true).1 = 0 ↔ IsImage file) ∧
      (Verified calls file.length ↔ IsImage file) := by
  have verified : Verified calls file.length ↔ IsImage file :=
    (verified_iff reads).trans isImage_iff.symm
  exact ⟨(inspectOrVerify_iff calls file.length).trans verified, verified⟩

/-- The image of two bytes. -/
theorem verifiers_accept_format_two_bytes :
    let file := imageOf versionOneTwoThree [0x4d, 0x4c]
    (inspectOrVerify (readsOf file) file.length true).1 = 0 ∧
      Verified (readsOf file) file.length := by
  intro file
  have some : file ≠ [] := by
    rw [← List.length_pos_iff, length_imageOf]
    decide
  have image : IsImage file :=
    isImage_of_validAs (validAs_imageOf versionOneTwoThree [0x4d, 0x4c] (by decide))
  have accepts := verifiers_accept_format (readsOf file) file (reads_readsOf some)
  exact ⟨accepts.1.mpr image, accepts.2.mpr image⟩

end EmbeddedRuntime.Firmware.Format
