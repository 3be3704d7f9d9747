import EmbeddedRuntime.Loader.Progress

/-!
# The memory image a load builds

Where no sum of a header wraps, the file-backed pages, the zeroed bytes behind the
file and the anonymous pages meet without gap or overlap: together they are the
pages the segment touches.
-/

set_option autoImplicit false

namespace EmbeddedRuntime.Loader.ImageMemory

open EmbeddedRuntime.Elf.Image
open EmbeddedRuntime.Lib.AddressSpace
open EmbeddedRuntime.Lib.Word64
open EmbeddedRuntime.Loader.Model
open EmbeddedRuntime.Loader.Layout
open EmbeddedRuntime.Loader.Contents
open EmbeddedRuntime.Loader.Progress

/-- The pages an address range touches. -/
def touchedPages (kernel : Kernel) (addr length : Nat) : Range :=
  let first := addr / kernel.page * kernel.page
  let last := (addr + length + kernel.page - 1) / kernel.page * kernel.page
  { addr := first, length := last - first }

/-- The sums of the header stay below `2 ^ 64`. -/
structure NoWrap (kernel : Kernel) (p : Phdr) : Prop where
  file : p.offset + p.filesz < 2 ^ 64
  memory : p.vaddr + p.memsz + kernel.page < 2 ^ 64

variable {kernel : Kernel} {file : File} {p : Phdr}

theorem segmentError_none (words : Words p) (passes : segmentError kernel file p = none) :
    p.filesz ≤ p.memsz ∧ add64 p.offset p.filesz ≤ file.size ∧
      p.offset = (layout kernel p).mapOffset + (layout kernel p).delta := by
  unfold segmentError at passes
  dsimp only at passes
  split at passes
  · cases passes
  next ordered =>
    split at passes
    · cases passes
    next inFile =>
      split at passes
      · cases passes
      next congruent =>
        have below := Nat.mod_le p.offset kernel.page
        have down := layout_mapOffset kernel words
        have same := not_not.mp congruent
        rw [sub64_of_le (by omega) words.offset] at same
        exact ⟨Nat.le_of_not_lt ordered, Nat.le_of_not_lt inFile, by omega⟩

/-- Every page of the file-backed part has a byte of the file in it, also where a sum
has wrapped. -/
theorem mapped_pages_reach_file (located : Located kernel file p) (words : Words p)
    (mapped : (layout kernel p).fileTotal ≠ 0) :
    (layout kernel p).mapOffset + (layout kernel p).fileTotal < file.size + kernel.page := by
  obtain ⟨-, inFile, offsetSplit⟩ := segmentError_none words located.passes
  have offsetEnd := located.offsetEnd mapped
  have small := page_le kernel
  have low := delta_lt kernel words
  have word := words.filesz
  obtain ⟨-, cases⟩ := fileTotal_cases kernel words
  unfold add64 at inFile
  omega

/-- A multiple of the page in the page from `value` on is `value` rounded up. -/
theorem rounded_eq (value multiple : Nat) (whole : kernel.page ∣ multiple) (above : value ≤ multiple)
    (below : multiple < value + kernel.page) :
    (value + kernel.page - 1) / kernel.page * kernel.page = multiple := by
  have positive := page_pos kernel
  obtain ⟨count, rfl⟩ := whole
  have quotient : (value + kernel.page - 1) / kernel.page = count := by
    apply Nat.div_eq_of_lt_le
    · rw [Nat.mul_comm]
      omega
    · rw [Nat.add_mul, Nat.mul_comm count]
      omega
  rw [quotient, Nat.mul_comm]

/-- Without wraparound the segment's pages are the ones it touches. -/
theorem touchedPages_contains (words : Words p)
    (room : (layout kernel p).delta + p.memsz + kernel.page ≤ 2 ^ 64) (a : Nat) :
    (touchedPages kernel p.vaddr p.memsz).Contains a ↔
      (layout kernel p).mapVaddr ≤ a ∧
        a < (layout kernel p).mapVaddr + (layout kernel p).memTotal := by
  have split := mapVaddr_add_delta kernel words
  have down : p.vaddr / kernel.page * kernel.page = (layout kernel p).mapVaddr := by
    have parts := Nat.div_add_mod p.vaddr kernel.page
    rw [layout_mapVaddr kernel words, Nat.mul_comm]
    omega
  obtain ⟨whole, cases⟩ := memTotal_cases kernel words
  have up : (p.vaddr + p.memsz + kernel.page - 1) / kernel.page * kernel.page =
      (layout kernel p).mapVaddr + (layout kernel p).memTotal :=
    rounded_eq _ _ (Nat.dvd_add (page_dvd_mapVaddr kernel words) whole) (by omega) (by omega)
  simp only [touchedPages, down, up, Nat.add_sub_cancel_left, Range.Contains]

/-- What the numbers of a loaded header satisfy when its rounded size does not wrap. -/
structure Placed (kernel : Kernel) (file : File) (p : Phdr) : Prop where
  ordered : p.filesz ≤ p.memsz
  inFile : p.offset + p.filesz ≤ file.size
  offsetSplit : p.offset = (layout kernel p).mapOffset + (layout kernel p).delta
  vaddrSplit : (layout kernel p).mapVaddr + (layout kernel p).delta = p.vaddr
  fileEmpty : p.filesz = 0 → (layout kernel p).fileTotal = 0
  filePart : p.filesz ≠ 0 → (layout kernel p).delta + p.filesz ≤ (layout kernel p).fileTotal
  memPart : (layout kernel p).delta + p.memsz ≤ (layout kernel p).memTotal
  totals : (layout kernel p).fileTotal ≤ (layout kernel p).memTotal
  tailAddr : (anonymousRange kernel p).addr =
    (layout kernel p).mapVaddr + (layout kernel p).fileTotal
  ends : (layout kernel p).mapVaddr + (layout kernel p).memTotal ≤ kernel.limit

theorem multiple_le {first second : Nat} (firstWhole : kernel.page ∣ first)
    (secondWhole : kernel.page ∣ second) (close : first < second + kernel.page) :
    first ≤ second := by
  obtain ⟨i, rfl⟩ := firstWhole
  obtain ⟨j, rfl⟩ := secondWhole
  rw [← Nat.mul_succ] at close
  exact Nat.mul_le_mul_left _ (Nat.le_of_lt_succ (Nat.lt_of_mul_lt_mul_left close))

theorem placed_of_room (located : Located kernel file p) (words : Words p)
    (positive : p.memsz ≠ 0) (room : (layout kernel p).delta + p.memsz + kernel.page ≤ 2 ^ 64) :
    Placed kernel file p := by
  obtain ⟨ordered, inFile, offsetSplit⟩ := segmentError_none words located.passes
  have vaddrSplit := mapVaddr_add_delta kernel words
  have limit := kernel.limitSmall
  have page := page_pos kernel
  have offsetWord := words.offset
  have vaddrWord := words.vaddr
  obtain ⟨memWhole, memCases⟩ := memTotal_cases kernel words
  obtain ⟨fileWhole, fileCases⟩ := fileTotal_cases kernel words
  have totals : (layout kernel p).fileTotal ≤ (layout kernel p).memTotal :=
    multiple_le fileWhole memWhole (by omega)
  have tailAddr : (anonymousRange kernel p).addr =
      (layout kernel p).mapVaddr + (layout kernel p).fileTotal := by
    apply add64_of_lt
    by_cases empty : (layout kernel p).fileTotal = 0
    · omega
    · have ends := located.fileEnd empty
      omega
  have ends : (layout kernel p).mapVaddr + (layout kernel p).memTotal ≤ kernel.limit := by
    by_cases more : (layout kernel p).memTotal > (layout kernel p).fileTotal
    · have last := located.tailEnd more
      rw [tailAddr] at last
      simp only [anonymousRange] at last
      omega
    · have last := located.fileEnd (by omega)
      omega
  have whole : p.offset + p.filesz ≤ file.size := by
    rw [add64_of_lt] at inFile
    · exact inFile
    · by_cases empty : p.filesz = 0
      · omega
      · have last := located.offsetEnd (by omega)
        omega
  exact ⟨ordered, whole, offsetSplit, vaddrSplit, by omega, by omega, by omega, totals, tailAddr,
    ends⟩

/-! ## The bytes of a placed segment -/

section Bytes

variable {mem : Memory Cell} (present : Present kernel file p mem) (placed : Placed kernel file p)

include present placed

/-- Below the file's end the segment holds the file. -/
theorem file_byte (i : Nat) (below : i < p.filesz) :
    mem (p.vaddr + i) =
      some { byte := file.data (p.offset + i), prot := flagsToProt p.flags } := by
  obtain ⟨ordered, inFile, offsetSplit, vaddrSplit, -, filePart, memPart, totals, tailAddr, ends⟩ :=
    placed
  have limit := kernel.limitSmall
  have part := filePart (by omega)
  have inside : (fileRange kernel p).Contains (p.vaddr + i) := by
    constructor
    · simp only [fileRange]
      omega
    · simp only [fileRange]
      omega
  have start : (zeroRange (layout kernel p) p).addr = p.vaddr + p.filesz :=
    add64_of_lt (by omega)
  have untouched : ¬ (zeroRange (layout kernel p) p).Contains (p.vaddr + i) := by
    rintro ⟨above, -⟩
    omega
  have position : (layout kernel p).mapOffset + (p.vaddr + i - (layout kernel p).mapVaddr) =
      p.offset + i := by omega
  rw [present.fileCells _ inside, fileCell, if_neg untouched, position, fileByte,
    if_pos (by omega)]

/-- From the file's end to the segment's end it holds zeros. -/
theorem zero_byte (i : Nat) (above : p.filesz ≤ i) (below : i < p.memsz) :
    mem (p.vaddr + i) = some { byte := 0, prot := flagsToProt p.flags } := by
  obtain ⟨ordered, inFile, offsetSplit, vaddrSplit, fileEmpty, filePart, memPart, totals, tailAddr,
    ends⟩ := placed
  have limit := kernel.limitSmall
  by_cases inFilePages : p.vaddr + i < (layout kernel p).mapVaddr + (layout kernel p).fileTotal
  · have inside : (fileRange kernel p).Contains (p.vaddr + i) := by
      constructor
      · simp only [fileRange]
        omega
      · exact inFilePages
    have start : add64 p.vaddr p.filesz = p.vaddr + p.filesz := add64_of_lt (by omega)
    have stop : add64 p.vaddr p.memsz = p.vaddr + p.memsz := add64_of_lt (by omega)
    have pageEnd : add64 (layout kernel p).mapVaddr (layout kernel p).fileTotal =
        (layout kernel p).mapVaddr + (layout kernel p).fileTotal := add64_of_lt (by omega)
    have last : p.vaddr + i < zeroEnd (layout kernel p) p := by
      unfold zeroEnd
      dsimp only
      rw [stop, pageEnd]
      split <;> omega
    have zeroed : (zeroRange (layout kernel p) p).Contains (p.vaddr + i) := by
      simp only [zeroRange, Range.Contains, start]
      rw [if_pos (by omega)]
      omega
    rw [present.fileCells _ inside, fileCell, if_pos zeroed]
  · have inside : (anonymousRange kernel p).Contains (p.vaddr + i) := by
      constructor
      · omega
      · rw [tailAddr]
        simp only [anonymousRange]
        omega
    rw [present.tailCells _ inside, zeroCell]

/-- The pages of the segment are mapped with the protection of its flags. -/
theorem page_protection (a : Nat) (above : (layout kernel p).mapVaddr ≤ a)
    (below : a < (layout kernel p).mapVaddr + (layout kernel p).memTotal) :
    ∃ cell, mem a = some cell ∧ cell.prot = flagsToProt p.flags := by
  by_cases inFilePages : a < (layout kernel p).mapVaddr + (layout kernel p).fileTotal
  · exact ⟨_, present.fileCells a ⟨above, inFilePages⟩, rfl⟩
  · refine ⟨_, present.tailCells a ⟨?_, ?_⟩, rfl⟩
    · rw [placed.tailAddr]
      omega
    · rw [placed.tailAddr]
      have totals := placed.totals
      simp only [anonymousRange] at *
      omega

omit present

/-- The recorded ranges of the header are exactly its pages. -/
theorem segmentRanges_cover (a : Nat) :
    (∃ range ∈ segmentRanges kernel p, range.Contains a) ↔
      (layout kernel p).mapVaddr ≤ a ∧
        a < (layout kernel p).mapVaddr + (layout kernel p).memTotal := by
  have totals := placed.totals
  have tailAddr := placed.tailAddr
  have tail : (anonymousRange kernel p).Contains a ↔
      (layout kernel p).mapVaddr + (layout kernel p).fileTotal ≤ a ∧
        a < (layout kernel p).mapVaddr + (layout kernel p).memTotal := by
    rw [Range.Contains, tailAddr]
    simp only [anonymousRange]
    omega
  constructor
  · rintro ⟨range, mem, inside⟩
    obtain ⟨-, rfl⟩ | ⟨-, rfl⟩ := mem_segmentRanges.mp mem
    · obtain ⟨above, below⟩ := inside
      simp only [fileRange] at above below
      exact ⟨above, by omega⟩
    · rw [tail] at inside
      exact ⟨by omega, by omega⟩
  · rintro ⟨above, below⟩
    by_cases inFilePages : a < (layout kernel p).mapVaddr + (layout kernel p).fileTotal
    · exact ⟨fileRange kernel p, mem_segmentRanges.mpr (Or.inl ⟨by omega, rfl⟩), above,
        inFilePages⟩
    · exact ⟨anonymousRange kernel p, mem_segmentRanges.mpr (Or.inr ⟨by omega, rfl⟩),
        tail.mpr (by omega)⟩

end Bytes

/-! ## The image -/

/-- The memory a header describes: the file's bytes, zeros behind them, and pages
with the protection of the flags. -/
structure Described (kernel : Kernel) (file : File) (p : Phdr) (mem : Memory Cell) : Prop where
  fileBytes : ∀ i < p.filesz, p.offset + i < file.size ∧
    mem (p.vaddr + i) = some { byte := file.data (p.offset + i), prot := flagsToProt p.flags }
  zeroBytes : ∀ i, p.filesz ≤ i → i < p.memsz →
    mem (p.vaddr + i) = some { byte := 0, prot := flagsToProt p.flags }
  protection : ∀ a, (touchedPages kernel p.vaddr p.memsz).Contains a →
    ∃ cell, mem a = some cell ∧ cell.prot = flagsToProt p.flags

/-- A load that succeeds builds the memory the headers describe, and records
disjoint mappings that are exactly the pages of the segments. -/
theorem loader_builds_image (kernel : Kernel) (image : ElfImage) (start final : LoaderState)
    (run : (loaderMapImage kernel image false start).value = .ok final)
    (noWrap : ∀ index < image.header.phnum, loads (image.phdr index) →
      NoWrap kernel (image.phdr index)) :
    (∀ index < image.header.phnum, loads (image.phdr index) →
      Described kernel image.file (image.phdr index) final.mem) ∧
    final.mappings.items.Pairwise Range.Disjoint ∧
    ∀ a, (∃ mapping ∈ final.mappings.items, mapping.Contains a) ↔
      ∃ index < image.header.phnum, loads (image.phdr index) ∧
        (touchedPages kernel (image.phdr index).vaddr (image.phdr index).memsz).Contains a := by
  obtain ⟨sound, presents, items⟩ := loaderMapImage_ok image start final run
  have room (index : Nat) (below : index < image.header.phnum)
      (loaded : loads (image.phdr index)) :
      (layout kernel (image.phdr index)).delta + (image.phdr index).memsz + kernel.page ≤
        2 ^ 64 := by
    have split := mapVaddr_add_delta kernel (words_phdr image index)
    have memory := (noWrap index below loaded).memory
    omega
  have placed (index : Nat) (below : index < image.header.phnum)
      (loaded : loads (image.phdr index)) : Placed kernel image.file (image.phdr index) :=
    placed_of_room (presents index below loaded).toLocated (words_phdr image index) loaded.2
      (room index below loaded)
  have pages (index : Nat) (below : index < image.header.phnum)
      (loaded : loads (image.phdr index)) :=
    touchedPages_contains (words_phdr image index) (room index below loaded)
  refine ⟨?_, sound.tracks.disjoint, ?_⟩
  · intro index below loaded
    have present := presents index below loaded
    have fits := placed index below loaded
    refine ⟨fun i inFile => ⟨?_, file_byte present fits i inFile⟩, zero_byte present fits, ?_⟩
    · have inside := fits.inFile
      omega
    · intro a inside
      obtain ⟨above, under⟩ := (pages index below loaded a).mp inside
      exact page_protection present fits a above under
  · intro a
    constructor
    · rintro ⟨mapping, mem, inside⟩
      obtain ⟨index, below, loaded, recorded⟩ := (items mapping).mp mem
      refine ⟨index, below, loaded, (pages index below loaded a).mpr ?_⟩
      exact (segmentRanges_cover (placed index below loaded) a).mp ⟨mapping, recorded, inside⟩
    · rintro ⟨index, below, loaded, inside⟩
      obtain ⟨mapping, recorded, contains⟩ :=
        (segmentRanges_cover (placed index below loaded) a).mpr
          ((pages index below loaded a).mp inside)
      exact ⟨mapping, (items mapping).mpr ⟨index, below, loaded, recorded⟩, contains⟩

/-- The first byte of the file and the first byte behind it. -/
theorem loader_builds_image_text : ∃ final,
    (loaderMapImage userKernel (execImage textFile) false freshState).value = .ok final ∧
      final.mem 0x400000 = some { byte := 0x7f, prot := ⟨true, false, true⟩ } ∧
      final.mem 0x400078 = some { byte := 0, prot := ⟨true, false, true⟩ } := by
  obtain ⟨final, run⟩ := textFile_runs
  obtain ⟨count, header⟩ := textFile_phdr
  have noWrap : ∀ index < (execImage textFile).header.phnum,
      loads ((execImage textFile).phdr index) →
        NoWrap userKernel ((execImage textFile).phdr index) := by
    intro index below _
    obtain rfl : index = 0 := by omega
    rw [header]
    exact ⟨by decide, by decide⟩
  have described :=
    (loader_builds_image userKernel (execImage textFile) freshState final run noWrap).1 0
      (by omega) (by rw [header]; decide)
  rw [header] at described
  refine ⟨final, run, ?_, ?_⟩
  · exact (described.fileBytes 0 (by decide)).2
  · exact described.zeroBytes 120 (by decide) (by decide)

end EmbeddedRuntime.Loader.ImageMemory
