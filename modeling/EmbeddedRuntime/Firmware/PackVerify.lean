import EmbeddedRuntime.Firmware.Image

/-!
# What `pack_image` writes the verifiers accept

The header is written last, over the placeholder, and the CRC is accumulated
from whatever chunks the reads return.  `examine_steady` gives the verdict of
the two verifiers on any file as a function of its bytes alone.
-/

set_option autoImplicit false

namespace EmbeddedRuntime.Firmware.PackVerify

open EmbeddedRuntime.Lib.Buffer
open EmbeddedRuntime.Lib.ByteOrder
open EmbeddedRuntime.Lib.Deliveries
open EmbeddedRuntime.Protocol.Crc32
open EmbeddedRuntime.Protocol.Stream
open EmbeddedRuntime.Firmware.Image

/-! ## The header -/

theorem serializeHeader_eq (h : FwHeader) :
    serializeHeader h =
      le32 fwMagic ++ le16 fwFormatVersion ++ le16 h.arch ++ le16 h.major ++ le16 h.minor ++
        le16 h.patch ++ le16 (UInt16.ofNat fwHeaderSize) ++ le64 h.imageSize ++ le32 h.crc32 ++
        le32 0 ++ le64 0 := by
  have magic := writeAt_append [] (List.replicate fwHeaderSize (0 : UInt8)) 0 (le32 fwMagic) rfl
  simp only [List.nil_append, length_le32] at magic
  simp only [serializeHeader, putU16Le, putU32Le, putU64Le, magic]
  rw [writeAt_append _ _ 4 _ (by simp), writeAt_append _ _ 6 _ (by simp),
    writeAt_append _ _ 8 _ (by simp), writeAt_append _ _ 10 _ (by simp),
    writeAt_append _ _ 12 _ (by simp), writeAt_append _ _ 14 _ (by simp),
    writeAt_append _ _ 16 _ (by simp), writeAt_append _ _ 24 _ (by simp),
    writeAt_append _ _ 28 _ (by simp), writeAt_append _ _ 32 _ (by simp)]
  simp [fwHeaderSize]

theorem length_serializeHeader (h : FwHeader) : (serializeHeader h).length = fwHeaderSize := by
  rw [serializeHeader_eq]
  simp [fwHeaderSize]

/-- A field is the word its bytes spell. -/
theorem getU16Le_eq_iff (bytes : List UInt8) (offset : Nat) (value : UInt16)
    (inside : offset + 2 ≤ bytes.length) :
    getU16Le bytes offset = value ↔ readAt bytes offset 2 = le16 value := by
  have cells : readAt bytes offset 2 = [bytes.getD offset 0, bytes.getD (offset + 1) 0] :=
    readAt_eq_map bytes offset 2 0 inside
  rw [cells, ← le16_ofLe16]
  constructor
  · intro same
    rw [← same]
    rfl
  · intro same
    rw [le16_ofLe16] at same
    simp only [le16, List.cons.injEq, and_true] at same
    rw [getU16Le, same.1, same.2, ofLe16_le16]

theorem getU32Le_eq_iff (bytes : List UInt8) (offset : Nat) (value : UInt32)
    (inside : offset + 4 ≤ bytes.length) :
    getU32Le bytes offset = value ↔ readAt bytes offset 4 = le32 value := by
  have cells : readAt bytes offset 4 = [bytes.getD offset 0, bytes.getD (offset + 1) 0,
      bytes.getD (offset + 2) 0, bytes.getD (offset + 3) 0] :=
    readAt_eq_map bytes offset 4 0 inside
  rw [cells, ← le32_ofLe32]
  constructor
  · intro same
    rw [← same]
    rfl
  · intro same
    rw [le32_ofLe32] at same
    simp only [le32, List.cons.injEq, and_true] at same
    rw [getU32Le, same.1, same.2.1, same.2.2.1, same.2.2.2, ofLe32_le32]

theorem getU64Le_eq_iff (bytes : List UInt8) (offset : Nat) (value : UInt64)
    (inside : offset + 8 ≤ bytes.length) :
    getU64Le bytes offset = value ↔ readAt bytes offset 8 = le64 value := by
  have length : (readAt bytes offset 8).length = 8 := by
    rw [readAt, List.length_take, List.length_drop]
    omega
  constructor
  · intro same
    rw [← same, getU64Le, le64_ofLe64 _ length]
  · intro same
    rw [getU64Le, same, ofLe64_le64]

/-- The bytes of a header that the parser accepts as `h`; the last twelve are free. -/
structure Spells (bytes : List UInt8) (h : FwHeader) : Prop where
  magic : readAt bytes 0 4 = le32 fwMagic
  format : readAt bytes 4 2 = le16 fwFormatVersion
  arch : readAt bytes 6 2 = le16 h.arch
  major : readAt bytes 8 2 = le16 h.major
  minor : readAt bytes 10 2 = le16 h.minor
  patch : readAt bytes 12 2 = le16 h.patch
  headerSize : readAt bytes 14 2 = le16 (UInt16.ofNat fwHeaderSize)
  imageSize : readAt bytes 16 8 = le64 h.imageSize
  crc32 : readAt bytes 24 4 = le32 h.crc32

theorem parseHeader_eq_some_iff (bytes : List UInt8) (h : FwHeader)
    (whole : bytes.length = fwHeaderSize) : parseHeader bytes = some h ↔ Spells bytes h := by
  have size : bytes.length = 40 := whole
  have magic := getU32Le_eq_iff bytes 0 fwMagic (by omega)
  have format := getU16Le_eq_iff bytes 4 fwFormatVersion (by omega)
  have arch := getU16Le_eq_iff bytes 6 h.arch (by omega)
  have major := getU16Le_eq_iff bytes 8 h.major (by omega)
  have minor := getU16Le_eq_iff bytes 10 h.minor (by omega)
  have patch := getU16Le_eq_iff bytes 12 h.patch (by omega)
  have headerSize := getU16Le_eq_iff bytes 14 (UInt16.ofNat fwHeaderSize) (by omega)
  have imageSize := getU64Le_eq_iff bytes 16 h.imageSize (by omega)
  have crc32 := getU32Le_eq_iff bytes 24 h.crc32 (by omega)
  constructor
  · intro parsed
    unfold parseHeader at parsed
    split_ifs at parsed with noMagic noFormat
    simp only [not_not, not_or] at noMagic noFormat
    have fields := Option.some.inj parsed
    subst fields
    exact ⟨magic.mp noMagic, format.mp noFormat.1, arch.mp rfl, major.mp rfl, minor.mp rfl,
      patch.mp rfl, headerSize.mp noFormat.2, imageSize.mp rfl, crc32.mp rfl⟩
  · intro spells
    unfold parseHeader
    rw [if_neg (not_not.mpr (magic.mpr spells.magic)),
      if_neg (not_or.mpr ⟨not_not.mpr (format.mpr spells.format),
        not_not.mpr (headerSize.mpr spells.headerSize)⟩),
      arch.mpr spells.arch, major.mpr spells.major, minor.mpr spells.minor,
      patch.mpr spells.patch, imageSize.mpr spells.imageSize, crc32.mpr spells.crc32]

theorem spells_serializeHeader (h : FwHeader) : Spells (serializeHeader h) h := by
  rw [serializeHeader_eq]
  exact ⟨rfl, rfl, rfl, rfl, rfl, rfl, rfl, rfl, rfl⟩

theorem parseHeader_serializeHeader (h : FwHeader) : parseHeader (serializeHeader h) = some h :=
  (parseHeader_eq_some_iff _ h (length_serializeHeader h)).mpr (spells_serializeHeader h)

/-! ## The write loop -/

/-- The next write appends. -/
def AtEnd (file : OutFile) : Prop := file.offset = file.bytes.length

theorem store_atEnd {file : OutFile} (atEnd : AtEnd file) (data : List UInt8) :
    (file.store data).bytes = file.bytes ++ data ∧ AtEnd (file.store data) := by
  have bytes : (file.store data).bytes = file.bytes ++ data := by
    have appended := writeAt_append file.bytes [] file.offset data atEnd.symm
    rw [List.append_nil, List.drop_nil, List.append_nil] at appended
    exact appended
  refine ⟨bytes, ?_⟩
  show file.offset + data.length = (file.store data).bytes.length
  rw [bytes, List.length_append, atEnd]

/-- What one `write` call can do. -/
theorem write_cases (file : OutFile) (data : List UInt8) :
    (∃ writes, file.write data = (.interrupted, { file with writes })) ∨
    (∃ writes, file.write data = (.failed, { file with writes })) ∨
    (∃ n writes, n ≤ data.length ∧
      file.write data = (.moved n, { file.store (data.take n) with writes })) := by
  unfold OutFile.write
  split
  · refine Or.inr (Or.inr ⟨data.length, file.writes, Nat.le_refl _, ?_⟩)
    rw [List.take_length]
    rfl
  next writes _ => exact Or.inl ⟨writes, rfl⟩
  next writes _ => exact Or.inr (Or.inl ⟨writes, rfl⟩)
  next count writes _ => exact Or.inr (Or.inr ⟨_, writes, Nat.min_le_right .., rfl⟩)

theorem write_interrupted {file next : OutFile} {data : List UInt8}
    (result : file.write data = (.interrupted, next)) : ∃ writes, next = { file with writes } := by
  rcases write_cases file data with ⟨writes, same⟩ | ⟨writes, same⟩ | ⟨n, writes, -, same⟩
  · rw [same] at result
    exact ⟨writes, (congrArg Prod.snd result).symm⟩
  · rw [same] at result
    cases congrArg Prod.fst result
  · rw [same] at result
    cases congrArg Prod.fst result

theorem write_failed {file next : OutFile} {data : List UInt8}
    (result : file.write data = (.failed, next)) : ∃ writes, next = { file with writes } := by
  rcases write_cases file data with ⟨writes, same⟩ | ⟨writes, same⟩ | ⟨n, writes, -, same⟩
  · rw [same] at result
    cases congrArg Prod.fst result
  · rw [same] at result
    exact ⟨writes, (congrArg Prod.snd result).symm⟩
  · rw [same] at result
    cases congrArg Prod.fst result

theorem write_moved {file next : OutFile} {data : List UInt8} {count : Nat}
    (result : file.write data = (.moved count, next)) :
    count ≤ data.length ∧ ∃ writes, next = { file.store (data.take count) with writes } := by
  rcases write_cases file data with ⟨writes, same⟩ | ⟨writes, same⟩ | ⟨n, writes, fits, same⟩
  · rw [same] at result
    cases congrArg Prod.fst result
  · rw [same] at result
    cases congrArg Prod.fst result
  · rw [same] at result
    obtain rfl : n = count := by simpa using congrArg Prod.fst result
    exact ⟨fits, writes, (congrArg Prod.snd result).symm⟩

/-- The loop that does not fail has stored everything. -/
theorem writeAll_ok (file : OutFile) (data : List UInt8) (atEnd : AtEnd file)
    (ok : (file.writeAll data).1 = true) :
    (file.writeAll data).2.bytes = file.bytes ++ data ∧ AtEnd (file.writeAll data).2 := by
  fun_induction OutFile.writeAll file data with
  | case1 file => exact ⟨(List.append_nil _).symm, atEnd⟩
  | case2 file data some next result ih =>
      obtain ⟨writes, rfl⟩ := write_interrupted result
      exact ih atEnd ok
  | case3 file data some next result => cases ok
  | case4 file data some count next result ih =>
      obtain ⟨-, writes, rfl⟩ := write_moved result
      obtain ⟨stored, ended⟩ := store_atEnd atEnd (data.take count)
      obtain ⟨bytes, last⟩ := ih ended ok
      refine ⟨?_, last⟩
      rw [bytes]
      show (file.store (data.take count)).bytes ++ data.drop count = _
      rw [stored, List.append_assoc, List.take_append_drop]

/-- Writes that are never cut short. -/
theorem writeAll_unscheduled (file : OutFile) (data : List UInt8) (calls : file.writes = []) :
    (file.writeAll data).1 = true ∧ (file.writeAll data).2.writes = [] := by
  rw [OutFile.writeAll]
  split
  · exact ⟨rfl, calls⟩
  · have whole : file.write data = (.moved data.length, file.store data) := by
      unfold OutFile.write
      rw [calls]
    split
    next next result => rw [whole] at result; cases congrArg Prod.fst result
    next next result => rw [whole] at result; cases congrArg Prod.fst result
    next count next result =>
      rw [whole] at result
      obtain rfl := congrArg Prod.snd result
      have moved : data.length = count := by simpa using congrArg Prod.fst result
      rw [← moved, List.drop_length, OutFile.writeAll]
      simp only [dif_pos]
      exact ⟨trivial, calls⟩

/-! ## The copy loop -/

/-- A copy that succeeds has read all, stored all and summed all. -/
theorem copyLoop_ok (expected : UInt64) (total : Nat) (state : UInt32)
    (input : List (Delivery UInt8)) (file : OutFile) (proper : Proper input)
    (atEnd : AtEnd file) {crc : UInt32} {out : Option OutFile}
    (copied : copyLoop expected total state input (some file) = (some crc, out)) :
    total + (contents input).length = expected.toNat ∧
      crc = mlrtCrc32End (mlrtCrc32Update state (contents input)) ∧
      ∃ after, out = some after ∧ after.bytes = file.bytes ++ contents input ∧ AtEnd after := by
  generalize here : some file = given at copied
  fun_induction copyLoop expected total state input given generalizing file with
  | case1 total state input given rest result ih =>
      have first := read_interrupted result
      subst first
      exact ih file proper.tail atEnd here copied
  | case2 => simp at copied
  | case3 total state input given rest result =>
      obtain ⟨none, -⟩ := proper.atEnd (by decide) result
      simp only [Prod.mk.injEq, ne_eq, ite_not, Option.ite_none_right_eq_some,
        Option.some.injEq] at copied
      obtain ⟨⟨counted, summed⟩, rfl⟩ := copied
      rw [none]
      exact ⟨counted, summed.symm, file, here.symm, (List.append_nil _).symm, atEnd⟩
  | case4 => simp at copied
  | case5 total state input given chunk rest result some total' within state' stored ok ih =>
      subst here
      obtain ⟨bytes, ended⟩ := writeAll_ok file chunk atEnd ok
      obtain ⟨counted, summed, after, same, contentsOk, last⟩ :=
        ih (file.writeAll chunk).2 (proper.read result) ended rfl copied
      have front := contents_read result
      refine ⟨?_, ?_, after, same, ?_, last⟩
      · rw [front, List.length_append]
        simp only [total'] at counted
        omega
      · rw [summed, front, mlrtCrc32Update_append]
      · rw [contentsOk, bytes, front, List.append_assoc]
  | case6 => simp at copied

/-- Without an output file the copy sums the contents if there are as many bytes as expected. -/
theorem copyLoop_none (expected : UInt64) (total : Nat) (state : UInt32)
    (input : List (Delivery UInt8)) (steady : Steady input) :
    copyLoop expected total state input none =
      (if total + (contents input).length = expected.toNat then
        some (mlrtCrc32End (mlrtCrc32Update state (contents input))) else none, none) := by
  generalize here : (none : Option OutFile) = given
  fun_induction copyLoop expected total state input given with
  | case1 total state input given rest result ih =>
      have first := read_interrupted result
      subst first
      exact ih steady.tail here
  | case2 total state input given rest result =>
      exact absurd (read_failed result ▸ List.mem_cons_self) steady.noFailure
  | case3 total state input given rest result =>
      obtain ⟨none, -⟩ := steady.proper.atEnd (by decide) result
      rw [none]
      simp [mlrtCrc32Update]
  | case4 total state input given chunk rest result some total' beyond =>
      have front := contents_read result
      have many : total + (contents input).length ≠ expected.toNat := by
        rw [front, List.length_append]
        simp only [total'] at beyond
        omega
      rw [if_neg many]
  | case5 total state input given chunk rest result some total' within state' stored ok ih =>
      subst here
      have front := contents_read result
      rw [ih (steady.read result) rfl, front, List.length_append, mlrtCrc32Update_append,
        ← Nat.add_assoc]
      rfl
  | case6 total state input given chunk rest result some total' within stored failed =>
      subst here
      exact absurd rfl failed

/-- A copy that nothing disturbs succeeds. -/
theorem copyLoop_complete (expected : UInt64) (total : Nat) (state : UInt32)
    (input : List (Delivery UInt8)) (file : OutFile) (steady : Steady input)
    (calls : file.writes = []) (counted : total + (contents input).length = expected.toNat) :
    ∃ crc after, copyLoop expected total state input (some file) = (some crc, some after) ∧
      after.writes = [] := by
  generalize here : some file = given
  fun_induction copyLoop expected total state input given generalizing file with
  | case1 total state input given rest result ih =>
      have first := read_interrupted result
      subst first
      exact ih file steady.tail calls counted here
  | case2 total state input given rest result =>
      exact absurd (read_failed result ▸ List.mem_cons_self) steady.noFailure
  | case3 total state input given rest result =>
      obtain ⟨none, -⟩ := steady.proper.atEnd (by decide) result
      rw [none, List.length_nil, Nat.add_zero] at counted
      refine ⟨mlrtCrc32End state, file, ?_, calls⟩
      rw [if_neg (not_not.mpr counted), here]
  | case4 total state input given chunk rest result some total' beyond =>
      have front := contents_read result
      rw [front, List.length_append] at counted
      simp only [total'] at beyond
      omega
  | case5 total state input given chunk rest result some total' within state' stored ok ih =>
      subst here
      have front := contents_read result
      rw [front, List.length_append] at counted
      obtain ⟨_, unscheduled⟩ := writeAll_unscheduled file chunk calls
      exact ih (file.writeAll chunk).2 (steady.read result) unscheduled
        (by simp only [total']; omega) rfl
  | case6 total state input given chunk rest result some total' within stored failed =>
      subst here
      exact absurd (writeAll_unscheduled file chunk calls).1 failed

/-! ## The verifiers -/

/-- The two checks of a file with this header, as functions of its bytes. -/
def reportOf (file : List UInt8) (h : FwHeader) : Report where
  header := h
  sizeOk := decide (UInt64.ofNat file.length = UInt64.ofNat fwHeaderSize + h.imageSize)
  crcOk := decide (UInt64.ofNat file.length = UInt64.ofNat fwHeaderSize + h.imageSize ∧
    h.imageSize.toNat ≤ fwMaxImage ∧ (file.drop fwHeaderSize).length = h.imageSize.toNat ∧
    mlrtCrc32 (file.drop fwHeaderSize) = h.crc32)

theorem readImageHeader_steady {reads : List (Delivery UInt8)} (steady : Steady reads)
    (enough : fwHeaderSize ≤ (contents reads).length) :
    ∃ rest, Steady rest ∧ contents rest = (contents reads).drop fwHeaderSize ∧
      readImageHeader reads =
        (parseHeader ((contents reads).take fwHeaderSize)).map fun h => (h, rest) := by
  obtain ⟨rest, steadyRest, left, filled⟩ := fill_steady fwHeaderSize reads steady
  refine ⟨rest, steadyRest, left, ?_⟩
  rw [if_pos enough] at filled
  rw [readImageHeader, filled]

theorem readImageHeader_short {reads : List (Delivery UInt8)} (steady : Steady reads)
    (short : ¬ fwHeaderSize ≤ (contents reads).length) : readImageHeader reads = none := by
  obtain ⟨rest, -, -, filled⟩ := fill_steady fwHeaderSize reads steady
  rw [if_neg short] at filled
  rw [readImageHeader, filled]

/-- The verdict of the verifiers on a file, however its reads are cut. -/
theorem examine_steady (calls : ReadCalls) (opened : calls.opens = true)
    (stat : calls.fstat = true) (steady : Steady calls.reads) :
    examine calls (contents calls.reads).length =
      if fwHeaderSize ≤ (contents calls.reads).length then
        match parseHeader ((contents calls.reads).take fwHeaderSize) with
        | none => .error .header
        | some h => .ok (reportOf (contents calls.reads) h)
      else .error .header := by
  unfold examine
  simp only [opened, stat, Bool.not_true, Bool.false_eq_true, if_false]
  by_cases enough : fwHeaderSize ≤ (contents calls.reads).length
  · obtain ⟨rest, steadyRest, left, equal⟩ := readImageHeader_steady steady enough
    rw [if_pos enough, equal]
    cases parseHeader ((contents calls.reads).take fwHeaderSize) with
    | none => rfl
    | some h =>
        simp only [Option.map_some, copyAndCrc, copyLoop_none _ _ _ rest steadyRest, left,
          Nat.zero_add, reportOf]
        congr 2
        by_cases both : UInt64.ofNat (contents calls.reads).length =
            UInt64.ofNat fwHeaderSize + h.imageSize ∧ h.imageSize.toNat ≤ fwMaxImage
        · rw [if_pos (by simpa using both)]
          by_cases counted :
              ((contents calls.reads).drop fwHeaderSize).length = h.imageSize.toNat
          · rw [if_pos counted]
            simp only [both.1, both.2, counted, true_and]
            rfl
          · rw [if_neg counted, eq_comm, decide_eq_false_iff_not]
            exact fun all => counted all.2.2.1
        · rw [if_neg (by simpa using both), eq_comm, decide_eq_false_iff_not]
          exact fun all => both ⟨all.1, all.2.1⟩
  · rw [if_neg enough, readImageHeader_short steady enough]

/-! ## Packing -/

/-- The header of a packed payload. -/
def headerFor (given : FwHeader) (payload : List UInt8) : FwHeader :=
  { given with imageSize := UInt64.ofNat payload.length, crc32 := mlrtCrc32 payload }

/-- The image of a payload. -/
def imageOf (given : FwHeader) (payload : List UInt8) : List UInt8 :=
  serializeHeader (headerFor given payload) ++ payload

theorem length_imageOf (given : FwHeader) (payload : List UInt8) :
    (imageOf given payload).length = fwHeaderSize + payload.length := by
  rw [imageOf, List.length_append, length_serializeHeader]

/-- A write that reports all of its bytes has stored them. -/
theorem write_whole {file next : OutFile} {data : List UInt8} {count : Nat}
    (written : file.write data = (.moved count, next)) (whole : data.length = count) :
    next.bytes = writeAt file.bytes file.offset data ∧
      next.offset = file.offset + data.length := by
  subst whole
  obtain ⟨-, writes, rfl⟩ := write_moved written
  rw [List.take_length]
  exact ⟨rfl, rfl⟩

theorem toNat_size {size : Nat} (small : size ≤ fwMaxImage) :
    (UInt64.ofNat size).toNat = size := by
  simp only [fwMaxImage] at small
  exact UInt64.toNat_ofNat_of_lt' (by simp only [UInt64.size]; omega)

/-- The calls of a `pack_image` that returns 0. -/
theorem packImage_ok {calls : PackCalls} {size : Nat} {output : String} {old : List UInt8}
    {given : FwHeader} (packed : (packImage calls size output old given).status = 0) :
    size ≤ fwMaxImage ∧ packImage calls size output old given = packInto calls size output given := by
  unfold packImage at packed ⊢
  split_ifs at packed ⊢ with noInput bad noOutput
  refine ⟨?_, rfl⟩
  simp only [not_or, Nat.not_lt] at bad
  exact bad.2

/-- The three writes of a `pack_image` that returns 0. -/
theorem packInto_ok {calls : PackCalls} {size : Nat} {output : String} {given : FwHeader}
    (packed : (packInto calls size output given).status = 0) :
    ∃ crc placeholder copied final,
      OutFile.write ⟨[], 0, calls.writes⟩ (List.replicate fwHeaderSize 0) =
        (.moved 40, placeholder) ∧
      copyAndCrc calls.reads (some placeholder) (UInt64.ofNat size) = (some crc, some copied) ∧
      OutFile.write { copied with offset := 0 }
        (serializeHeader { given with imageSize := UInt64.ofNat size, crc32 := crc }) =
        (.moved 40, final) ∧
      (packInto calls size output given).file = final.bytes := by
  revert packed
  unfold packInto
  simp only
  split
  next placeholder first =>
    split
    next crc copied second =>
      split
      · split
        next final third => exact fun _ => ⟨crc, placeholder, copied, final, first, second, third, rfl⟩
        next => exact fun packed => absurd packed Nat.one_ne_zero
      · exact fun packed => absurd packed Nat.one_ne_zero
    next => exact fun packed => absurd packed Nat.one_ne_zero
  next => exact fun packed => absurd packed Nat.one_ne_zero

/-- A `pack_image` that returns 0 leaves the image of its input. -/
theorem packImage_file (calls : PackCalls) (output : String) (old payload : List UInt8)
    (given : FwHeader) (proper : Proper calls.reads) (reads : contents calls.reads = payload)
    (packed : (packImage calls payload.length output old given).status = 0) :
    payload.length ≤ fwMaxImage ∧
      (packImage calls payload.length output old given).file = imageOf given payload := by
  obtain ⟨small, into⟩ := packImage_ok packed
  refine ⟨small, ?_⟩
  rw [into] at packed ⊢
  obtain ⟨crc, placeholder, copied, final, first, second, third, left⟩ := packInto_ok packed
  obtain ⟨zeros, ended⟩ := write_whole first (List.length_replicate ..)
  have zeroBytes : placeholder.bytes = List.replicate fwHeaderSize 0 := by
    rw [zeros]
    rfl
  have atEnd : AtEnd placeholder := by
    rw [AtEnd, ended, zeroBytes]
    rfl
  obtain ⟨-, summed, after, same, bytes, -⟩ := copyLoop_ok _ _ _ _ _ proper atEnd second
  obtain rfl := Option.some.inj same
  obtain ⟨header, -⟩ := write_whole third (length_serializeHeader _)
  have crcOk : crc = mlrtCrc32 payload := by rw [summed, reads]; rfl
  rw [left, header, bytes, zeroBytes, reads, crcOk]
  simp only [writeAt, List.take_zero, List.nil_append, Nat.zero_add, length_serializeHeader]
  rw [List.drop_left' (List.length_replicate ..)]
  rfl

/-- Packing a small payload succeeds when no call fails or is cut short. -/
theorem packImage_complete (calls : PackCalls) (output : String) (old payload : List UInt8)
    (given : FwHeader) (opens : calls.openInput = true ∧ calls.fstat = true ∧
      calls.openOutput = true ∧ calls.lseek = true) (steady : Steady calls.reads)
    (writes : calls.writes = []) (reads : contents calls.reads = payload)
    (small : payload.length ≤ fwMaxImage) :
    (packImage calls payload.length output old given).status = 0 := by
  obtain ⟨opensInput, fstat, opensOutput, lseek⟩ := opens
  have unscheduled (file : OutFile) (data : List UInt8) (none : file.writes = []) :
      file.write data = (.moved data.length, file.store data) := by
    unfold OutFile.write
    rw [none]
  unfold packImage
  simp only [opensInput, fstat, opensOutput, Bool.not_true, Bool.false_eq_true, false_or,
    if_false, if_neg (Nat.not_lt.mpr small)]
  unfold packInto
  simp only
  rw [unscheduled _ _ writes]
  simp only [List.length_replicate, fwHeaderSize, lseek, if_true]
  obtain ⟨crc, after, copied, none⟩ := copyLoop_complete (UInt64.ofNat payload.length) 0
    mlrtCrc32Begin calls.reads
    (OutFile.store ⟨[], 0, calls.writes⟩ (List.replicate 40 0)) steady writes (by
      rw [Nat.zero_add, reads, toNat_size small])
  rw [copyAndCrc, copied]
  simp only
  rw [unscheduled { after with offset := 0 } _ none, length_serializeHeader]
  rfl

/-! ## The image and its verdict -/

theorem take_imageOf (given : FwHeader) (payload : List UInt8) :
    (imageOf given payload).take fwHeaderSize = serializeHeader (headerFor given payload) :=
  List.take_left' (length_serializeHeader _)

theorem drop_imageOf (given : FwHeader) (payload : List UInt8) :
    (imageOf given payload).drop fwHeaderSize = payload :=
  List.drop_left' (length_serializeHeader _)

theorem reportOf_imageOf (given : FwHeader) (payload : List UInt8)
    (small : payload.length ≤ fwMaxImage) :
    reportOf (imageOf given payload) (headerFor given payload) =
      { header := headerFor given payload, sizeOk := true, crcOk := true } := by
  have size : UInt64.ofNat (imageOf given payload).length =
      UInt64.ofNat fwHeaderSize + (headerFor given payload).imageSize := by
    rw [length_imageOf, UInt64.ofNat_add]
    rfl
  have count : (headerFor given payload).imageSize.toNat = payload.length := toNat_size small
  have crc : mlrtCrc32 payload = (headerFor given payload).crc32 := rfl
  unfold reportOf
  simp only [size, drop_imageOf, count, small, crc, and_self, decide_true]

/-- A `pack_image` that returns 0 leaves the serialized header and the payload; the header reads
back, and both verifiers find size and CRC valid. -/
theorem packImage_verifies (calls : PackCalls) (output : String) (old payload : List UInt8)
    (given : FwHeader) (proper : Proper calls.reads) (reads : contents calls.reads = payload)
    (packed : (packImage calls payload.length output old given).status = 0) :
    let file := (packImage calls payload.length output old given).file
    let h := { given with imageSize := UInt64.ofNat payload.length, crc32 := mlrtCrc32 payload }
    file = serializeHeader h ++ payload ∧ (serializeHeader h).length = 40 ∧
      h.imageSize.toNat = payload.length ∧
      ∀ later : ReadCalls, later.opens = true → later.fstat = true → Steady later.reads →
        contents later.reads = file →
        (∃ rest, readImageHeader later.reads = some (h, rest)) ∧
        verifyImageFile later file.length =
          some { header := h, sizeOk := true, crcOk := true } ∧
        ∀ verify, inspectOrVerify later file.length verify =
          (0, Report.text { header := h, sizeOk := true, crcOk := true } verify) := by
  obtain ⟨small, image⟩ := packImage_file calls output old payload given proper reads packed
  simp only
  refine ⟨image, length_serializeHeader _, toNat_size small, ?_⟩
  rw [image]
  intro later opened stat steady bytes
  have enough : fwHeaderSize ≤ (contents later.reads).length := by
    rw [bytes, length_imageOf]
    omega
  have parsed : parseHeader ((contents later.reads).take fwHeaderSize) =
      some (headerFor given payload) := by
    rw [bytes, take_imageOf, parseHeader_serializeHeader]
  have verdict : examine later (imageOf given payload).length =
      .ok { header := headerFor given payload, sizeOk := true, crcOk := true } := by
    rw [← bytes, examine_steady later opened stat steady, if_pos enough, parsed, bytes]
    simp only [reportOf_imageOf given payload small]
  refine ⟨?_, ?_, ?_⟩
  · obtain ⟨rest, -, -, equal⟩ := readImageHeader_steady steady enough
    rw [parsed] at equal
    exact ⟨rest, equal⟩
  · rw [verifyImageFile, verdict]
    rfl
  · intro verify
    rw [inspectOrVerify, verdict]
    simp
    rfl

/-- Two bytes read one at a time with an interruption between them. -/
def twoByteCalls : PackCalls where
  openInput := true
  fstat := true
  openOutput := true
  reads := [.data [0x4d], .interrupted, .data [0x4c]]
  writes := []
  lseek := true

theorem packImage_verifies_two_bytes :
    (packImage twoByteCalls 2 "a.img" [] ⟨1, 2, 3, FwArch.arm64.code, 0, 0⟩).file =
      serializeHeader ⟨1, 2, 3, FwArch.arm64.code, 2, mlrtCrc32 [0x4d, 0x4c]⟩ ++ [0x4d, 0x4c] := by
  have steady : Steady twoByteCalls.reads := ⟨by decide, by decide⟩
  have packed := packImage_complete twoByteCalls "a.img" [] [0x4d, 0x4c]
    ⟨1, 2, 3, FwArch.arm64.code, 0, 0⟩ ⟨rfl, rfl, rfl, rfl⟩ steady rfl rfl (by decide)
  exact (packImage_verifies twoByteCalls "a.img" [] [0x4d, 0x4c]
    ⟨1, 2, 3, FwArch.arm64.code, 0, 0⟩ steady.proper rfl packed).1

end EmbeddedRuntime.Firmware.PackVerify
