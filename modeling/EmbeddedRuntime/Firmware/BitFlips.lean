import EmbeddedRuntime.Firmware.PackVerify

/-!
# Which bit flips of an image the verifiers notice

The CRC covers the payload.  A flip of the magic, the format version, the header
size, the payload size, the CRC or the payload is noticed; one of the
architecture, the version or the reserved bytes gives another valid image.
-/

set_option autoImplicit false

namespace EmbeddedRuntime.Firmware.BitFlips

open EmbeddedRuntime.Lib.Buffer
open EmbeddedRuntime.Lib.ByteOrder
open EmbeddedRuntime.Lib.Crc
open EmbeddedRuntime.Lib.Deliveries
open EmbeddedRuntime.Protocol.Crc32
open EmbeddedRuntime.Firmware.Image
open EmbeddedRuntime.Firmware.PackVerify

/-- The header and the two checks of a file that the verifiers accept. -/
structure ValidAs (file : List UInt8) (h : FwHeader) : Prop where
  enough : fwHeaderSize ≤ file.length
  spells : Spells (file.take fwHeaderSize) h
  size : UInt64.ofNat file.length = UInt64.ofNat fwHeaderSize + h.imageSize
  small : h.imageSize.toNat ≤ fwMaxImage
  count : (file.drop fwHeaderSize).length = h.imageSize.toNat
  crc : mlrtCrc32 (file.drop fwHeaderSize) = h.crc32

/-- The calls read a file without failing. -/
structure Reads (calls : ReadCalls) (file : List UInt8) : Prop where
  opened : calls.opens = true
  stat : calls.fstat = true
  steady : Steady calls.reads
  bytes : contents calls.reads = file

/-- `verify_image_file` returns 0 with both checks passed. -/
def Verified (calls : ReadCalls) (size : Nat) : Prop :=
  ∃ report, verifyImageFile calls size = some report ∧ report.sizeOk = true ∧ report.crcOk = true

theorem verified_iff {calls : ReadCalls} {file : List UInt8} (reads : Reads calls file) :
    Verified calls file.length ↔ ∃ h, ValidAs file h := by
  have verdict := examine_steady calls reads.opened reads.stat reads.steady
  rw [reads.bytes] at verdict
  have taken (enough : fwHeaderSize ≤ file.length) :
      (file.take fwHeaderSize).length = fwHeaderSize := by
    rw [List.length_take, Nat.min_eq_left enough]
  constructor
  · rintro ⟨report, verified, sizeOk, crcOk⟩
    rw [verifyImageFile, verdict] at verified
    split_ifs at verified with enough
    cases parsed : parseHeader (file.take fwHeaderSize) with
    | none =>
        rw [parsed] at verified
        cases verified
    | some h =>
        rw [parsed] at verified
        obtain rfl := Option.some.inj verified
        obtain ⟨size, small, count, crc⟩ := of_decide_eq_true crcOk
        exact ⟨h, enough, (parseHeader_eq_some_iff _ h (taken enough)).mp parsed, size, small,
          count, crc⟩
  · rintro ⟨h, valid⟩
    have parsed := (parseHeader_eq_some_iff _ h (taken valid.enough)).mpr valid.spells
    refine ⟨reportOf file h, ?_, decide_eq_true valid.size,
      decide_eq_true ⟨valid.size, valid.small, valid.count, valid.crc⟩⟩
    rw [verifyImageFile, verdict, if_pos valid.enough, parsed]

/-- An update is accepted only from a verified file. -/
theorem verified_of_accepted {calls : ReadCalls} {size : Nat} {current : List Char}
    {allowDowngrade : Bool} (accepted : (checkUpdatePolicy calls size current allowDowngrade).1 = 0) :
    Verified calls size := by
  revert accepted
  unfold checkUpdatePolicy
  split
  · exact fun accepted => absurd accepted (by decide)
  · simp only
    split
    · exact fun accepted => absurd accepted (by decide)
    next candidate verified =>
      split_ifs with bad
      · exact fun accepted => absurd accepted (by decide)
      all_goals
        intro _
        simp only [Bool.not_eq_true', not_or, Bool.not_eq_false] at bad
        exact ⟨candidate, verified, bad.1, bad.2⟩

/-- The ways a verification fails when no call does. -/
theorem rejected_iff {calls : ReadCalls} {file : List UInt8} (reads : Reads calls file)
    (size : Nat) :
    (readImageHeader calls.reads = none ∨ ∃ report, verifyImageFile calls size = some report ∧
      (report.sizeOk = false ∨ report.crcOk = false)) ↔ ¬ Verified calls size := by
  unfold Verified verifyImageFile examine
  simp only [reads.opened, reads.stat, Bool.not_true, Bool.false_eq_true, if_false]
  cases readImageHeader calls.reads with
  | none => simp
  | some found =>
      simp only [reduceCtorEq, false_or, Option.some.injEq, exists_eq_left', not_and,
        Bool.not_eq_true]
      constructor
      · rintro (size | crc) sizeOk
        · rw [sizeOk] at size
          cases size
        · exact crc
      · intro both
        by_cases sizeOk : (UInt64.ofNat size = UInt64.ofNat fwHeaderSize + found.1.imageSize)
        · exact Or.inr (both (decide_eq_true sizeOk))
        · exact Or.inl (decide_eq_false sizeOk)

theorem inspectOrVerify_of_not_verified {calls : ReadCalls} {size : Nat}
    (failed : ¬ Verified calls size) : (inspectOrVerify calls size true).1 = 1 := by
  unfold inspectOrVerify
  cases verdict : examine calls size with
  | error error => rfl
  | ok report =>
      have bad : ¬ (report.sizeOk = true ∧ report.crcOk = true) := by
        intro both
        exact failed ⟨report, by rw [verifyImageFile, verdict], both.1, both.2⟩
      simp only [bad, not_false_eq_true, and_self, if_true]

/-! ## A byte of the image replaced -/

/-- The bytes of the header that no check covers: architecture, version and reserved. -/
def Unprotected (index : Nat) : Prop := (6 ≤ index ∧ index < 14) ∨ (28 ≤ index ∧ index < 40)

instance (index : Nat) : Decidable (Unprotected index) := inferInstanceAs (Decidable (_ ∨ _))

theorem validAs_imageOf (given : FwHeader) (payload : List UInt8)
    (small : payload.length ≤ fwMaxImage) :
    ValidAs (imageOf given payload) (headerFor given payload) where
  enough := by
    rw [length_imageOf]
    omega
  spells := by
    rw [take_imageOf]
    exact spells_serializeHeader _
  size := by
    rw [length_imageOf, UInt64.ofNat_add]
    rfl
  small := by
    rw [headerFor, toNat_size small]
    exact small
  count := by
    rw [drop_imageOf, headerFor, toNat_size small]
  crc := by rw [drop_imageOf, headerFor]

section Replaced
variable {file : List UInt8} {h : FwHeader} {index : Nat} {byte : UInt8}

theorem not_valid_payload (valid : ValidAs file h) (inside : index < file.length)
    (differ : file[index] ≠ byte) (later : fwHeaderSize ≤ index) (other : FwHeader) :
    ¬ ValidAs (file.set index byte) other := by
  intro bad
  have header : (file.set index byte).take fwHeaderSize = file.take fwHeaderSize :=
    List.take_set_of_le later
  have crcSame : other.crc32 = h.crc32 := by
    apply le32_injective
    rw [← bad.spells.crc32, header, valid.spells.crc32]
  have payload : (file.set index byte).drop fwHeaderSize =
      (file.drop fwHeaderSize).set (index - fwHeaderSize) byte := by
    rw [List.drop_set, if_neg (by omega)]
  have crc := bad.crc
  rw [payload, crcSame, ← valid.crc, mlrtCrc32_eq_ieee, mlrtCrc32_eq_ieee] at crc
  apply ieee_set _ _ crc
  · rw [List.length_drop]
    omega
  · rw [List.getElem_drop]
    simpa only [Nat.add_sub_cancel' later] using differ

theorem drop_set (early : index < fwHeaderSize) :
    (file.set index byte).drop fwHeaderSize = file.drop fwHeaderSize := by
  rw [List.drop_set, if_pos early]

theorem not_valid_header (valid : ValidAs file h) (differ : file.getD index 0 ≠ byte)
    (early : index < fwHeaderSize) (covered : ¬ Unprotected index) (other : FwHeader) :
    ¬ ValidAs (file.set index byte) other := by
  intro bad
  have enough := valid.enough
  have length : (file.take fwHeaderSize).length = fwHeaderSize := by
    rw [List.length_take, Nat.min_eq_left enough]
  have spells := bad.spells
  rw [List.take_set] at spells
  have bound : index < (file.take fwHeaderSize).length := by omega
  have here : (file.take fwHeaderSize)[index] ≠ byte := by
    rw [List.getElem_take, ← List.getD_eq_getElem file 0 (by omega)]
    exact differ
  -- the field that holds the byte is not the one of the valid file
  have field (offset count : Nat) (within : offset ≤ index ∧ index < offset + count) :=
    readAt_set_inside (file.take fwHeaderSize) index byte offset count within bound here
  have size : other.imageSize = h.imageSize := by
    have same := bad.size
    rw [List.length_set, valid.size] at same
    exact (UInt64.add_right_inj _).mp same.symm
  have crc : other.crc32 = h.crc32 := by
    rw [← bad.crc, drop_set early, valid.crc]
  unfold Unprotected at covered
  simp only [fwHeaderSize] at early
  have place : index < 4 ∨ (4 ≤ index ∧ index < 6) ∨ (14 ≤ index ∧ index < 16) ∨
      (16 ≤ index ∧ index < 24) ∨ (24 ≤ index ∧ index < 28) := by omega
  rcases place with magic | format | headerSize | imageSize | crc32
  · exact field 0 4 ⟨Nat.zero_le _, by omega⟩ (spells.magic.trans valid.spells.magic.symm)
  · exact field 4 2 format (spells.format.trans valid.spells.format.symm)
  · exact field 14 2 headerSize (spells.headerSize.trans valid.spells.headerSize.symm)
  · apply field 16 8 imageSize
    rw [spells.imageSize, valid.spells.imageSize, size]
  · apply field 24 4 crc32
    rw [spells.crc32, valid.spells.crc32, crc]

/-- Other values of the unprotected bytes give another valid image. -/
theorem valid_unprotected (valid : ValidAs file h) (free : Unprotected index) :
    ∃ other, ValidAs (file.set index byte) other := by
  have enough := valid.enough
  have early : index < fwHeaderSize := by
    unfold Unprotected at free
    simp only [fwHeaderSize]
    omega
  have length : ((file.take fwHeaderSize).set index byte).length = 40 := by
    rw [List.length_set, List.length_take, Nat.min_eq_left enough]
    rfl
  have kept (offset count : Nat) (outside : index < offset ∨ offset + count ≤ index) :=
    readAt_set_outside (file.take fwHeaderSize) index byte offset count outside
  have read (offset : Nat) (within : offset + 2 ≤ 40) :=
    (getU16Le_eq_iff ((file.take fwHeaderSize).set index byte) offset _ (by omega)).mp rfl
  unfold Unprotected at free
  refine ⟨{ h with
    arch := getU16Le ((file.take fwHeaderSize).set index byte) 6
    major := getU16Le ((file.take fwHeaderSize).set index byte) 8
    minor := getU16Le ((file.take fwHeaderSize).set index byte) 10
    patch := getU16Le ((file.take fwHeaderSize).set index byte) 12 }, ?_⟩
  refine ⟨by rw [List.length_set]; exact enough, ?_, ?_, valid.small, ?_, ?_⟩
  · rw [List.take_set]
    refine ⟨?_, ?_, read 6 (by omega), read 8 (by omega), read 10 (by omega), read 12 (by omega),
      ?_, ?_, ?_⟩
    · rw [kept 0 4 (by omega), valid.spells.magic]
    · rw [kept 4 2 (by omega), valid.spells.format]
    · rw [kept 14 2 (by omega), valid.spells.headerSize]
    · rw [kept 16 8 (by omega), valid.spells.imageSize]
    · rw [kept 24 4 (by omega), valid.spells.crc32]
  · rw [List.length_set, valid.size]
  · rw [drop_set early, valid.count]
  · rw [drop_set early, valid.crc]

end Replaced

/-- A flipped image is valid exactly when the bit is in an unprotected byte. -/
theorem valid_flipBit_iff {file : List UInt8} {h : FwHeader} (valid : ValidAs file h)
    {index : Nat} (inside : index < file.length) (bit : Fin 8) :
    (∃ other, ValidAs (flipBit file index bit) other) ↔ Unprotected index := by
  constructor
  · rintro ⟨other, bad⟩
    by_contra covered
    by_cases early : index < fwHeaderSize
    · exact not_valid_header valid (flip_ne _ bit) early covered other bad
    · exact not_valid_payload valid inside (getElem_ne_flip inside bit) (Nat.le_of_not_lt early)
        other bad
  · exact valid_unprotected valid

/-- Verification of a packed image with one bit flipped fails exactly when the bit lies outside
the architecture, version and reserved bytes; then no update policy accepts the file. -/
theorem flipped_image_rejected_iff (calls : PackCalls) (output : String)
    (old payload : List UInt8) (given : FwHeader) (proper : Proper calls.reads)
    (reads : contents calls.reads = payload)
    (packed : (packImage calls payload.length output old given).status = 0) (index : Nat)
    (inside : index < (packImage calls payload.length output old given).file.length)
    (bit : Fin 8) (later : ReadCalls)
    (flipped : Reads later
      (flipBit (packImage calls payload.length output old given).file index bit)) :
    let size := (packImage calls payload.length output old given).file.length
    (((readImageHeader later.reads = none ∨ ∃ report, verifyImageFile later size = some report ∧
        (report.sizeOk = false ∨ report.crcOk = false)) ↔ ¬ Unprotected index) ∧
      (¬ Unprotected index → (inspectOrVerify later size true).1 = 1 ∧
        ∀ current allowDowngrade,
          (checkUpdatePolicy later size current allowDowngrade).1 ≠ 0)) := by
  obtain ⟨small, image⟩ := packImage_file calls output old payload given proper reads packed
  simp only
  rw [image] at inside flipped ⊢
  have valid := validAs_imageOf given payload small
  have length : (flipBit (imageOf given payload) index bit).length =
      (imageOf given payload).length := List.length_set
  have verified := (verified_iff flipped).trans (valid_flipBit_iff valid inside bit)
  rw [length] at verified
  refine ⟨(rejected_iff flipped _).trans (not_congr verified), ?_⟩
  intro covered
  have failed := fun accepted => covered (verified.mp accepted)
  refine ⟨inspectOrVerify_of_not_verified failed, ?_⟩
  intro current allowDowngrade accepted
  exact failed (verified_of_accepted accepted)

/-- A file read in one piece. -/
def readsOf (file : List UInt8) : ReadCalls := ⟨true, true, [.data file]⟩

theorem reads_readsOf {file : List UInt8} (some : file ≠ []) : Reads (readsOf file) file := by
  refine ⟨rfl, rfl, ⟨?_, ?_⟩, List.append_nil file⟩
  · intro here
    rw [readsOf, List.mem_singleton] at here
    exact some (Delivery.data.inj here).symm
  · intro here
    rw [readsOf, List.mem_singleton] at here
    cases here

def versionOneTwoThree : FwHeader := ⟨1, 2, 3, FwArch.arm64.code, 0, 0⟩

theorem packed_two_bytes :
    (packImage twoByteCalls 2 "a.img" [] versionOneTwoThree).status = 0 ∧
      (packImage twoByteCalls 2 "a.img" [] versionOneTwoThree).file =
        imageOf versionOneTwoThree [0x4d, 0x4c] := by
  have steady : Steady twoByteCalls.reads := ⟨by decide, by decide⟩
  have packed := packImage_complete twoByteCalls "a.img" [] [0x4d, 0x4c] versionOneTwoThree
    ⟨rfl, rfl, rfl, rfl⟩ steady rfl rfl (by decide)
  exact ⟨packed, (packImage_file twoByteCalls "a.img" [] [0x4d, 0x4c] versionOneTwoThree
    steady.proper rfl packed).2⟩

theorem flipBit_ne_nil {file : List UInt8} (some : file ≠ []) (index : Nat) (bit : Fin 8) :
    flipBit file index bit ≠ [] := by
  rw [← List.length_pos_iff, flipBit, List.length_set]
  exact List.length_pos_iff.mpr some

theorem flipped_magic_rejected :
    let file := (packImage twoByteCalls 2 "a.img" [] versionOneTwoThree).file
    ∀ current allowDowngrade,
      (checkUpdatePolicy (readsOf (flipBit file 0 0)) file.length current allowDowngrade).1 ≠ 0 := by
  obtain ⟨packed, image⟩ := packed_two_bytes
  have some : (packImage twoByteCalls 2 "a.img" [] versionOneTwoThree).file ≠ [] := by
    rw [image, ← List.length_pos_iff, length_imageOf]
    decide
  have rejected := flipped_image_rejected_iff twoByteCalls "a.img" [] [0x4d, 0x4c]
    versionOneTwoThree (by decide) rfl packed 0 (List.length_pos_iff.mpr some) 0 _
    (reads_readsOf (flipBit_ne_nil some 0 0))
  exact (rejected.2 (by decide)).2

/-- One bit of the version: an image of 1.2.3 becomes one of 3.2.3, which replaces 2.0.0. -/
theorem flipped_version_accepted :
    let file := (packImage twoByteCalls 2 "a.img" [] versionOneTwoThree).file
    (packImage twoByteCalls 2 "a.img" [] versionOneTwoThree).status = 0 ∧ 8 < file.length ∧
      Reads (readsOf (flipBit file 8 1)) (flipBit file 8 1) ∧
      (checkUpdatePolicy (readsOf file) file.length "2.0.0".toList false).1 = 1 ∧
      Verified (readsOf (flipBit file 8 1)) file.length ∧
      (checkUpdatePolicy (readsOf (flipBit file 8 1)) file.length "2.0.0".toList false).1 = 0 := by
  obtain ⟨packed, image⟩ := packed_two_bytes
  simp only
  rw [image]
  have some : imageOf versionOneTwoThree [0x4d, 0x4c] ≠ [] := by
    rw [← List.length_pos_iff, length_imageOf]
    decide
  have length : (imageOf versionOneTwoThree [0x4d, 0x4c]).length = 42 := length_imageOf _ _
  have flippedLength : (flipBit (imageOf versionOneTwoThree [0x4d, 0x4c]) 8 1).length = 42 :=
    List.length_set.trans length
  have reads := reads_readsOf some
  have flipped := reads_readsOf (flipBit_ne_nil some 8 1)
  have current : versionParse "2.0.0".toList = .some (2, 0, 0) := by decide
  have before : verifyImageFile (readsOf (imageOf versionOneTwoThree [0x4d, 0x4c])) 42 =
      .some ⟨⟨1, 2, 3, 2, 2, 0x7b642e0c⟩, true, true⟩ := by
    have verdict := examine_steady _ reads.opened reads.stat reads.steady
    rw [reads.bytes, length] at verdict
    rw [verifyImageFile, verdict]
    decide +kernel
  have after : verifyImageFile (readsOf (flipBit (imageOf versionOneTwoThree [0x4d, 0x4c]) 8 1)) 42 =
      .some ⟨⟨3, 2, 3, 2, 2, 0x7b642e0c⟩, true, true⟩ := by
    have verdict := examine_steady _ flipped.opened flipped.stat flipped.steady
    rw [flipped.bytes, flippedLength] at verdict
    rw [verifyImageFile, verdict]
    decide +kernel
  rw [length]
  refine ⟨packed, by decide, flipped, ?_, ⟨_, after, rfl, rfl⟩, ?_⟩
  · rw [checkUpdatePolicy, current]
    simp only [before]
    decide
  · rw [checkUpdatePolicy, current]
    simp only [after]
    decide

end EmbeddedRuntime.Firmware.BitFlips
