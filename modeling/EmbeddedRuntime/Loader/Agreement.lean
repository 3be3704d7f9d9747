import EmbeddedRuntime.Loader.ImageMemory

/-!
# The inspector and the loader

`elf_vaddr_to_offset` takes the first `PT_LOAD` whose file range holds the address;
`loader_map_image` maps every `PT_LOAD` that has a memory size.  They agree where
the selected header is one the loader maps.  A header with a file size and no
memory size is skipped before its sizes are compared, so the inspector finds
addresses in it that the loader never maps.
-/

set_option autoImplicit false

namespace EmbeddedRuntime.Loader.Agreement

open EmbeddedRuntime.Elf.Image
open EmbeddedRuntime.Elf.Readers
open EmbeddedRuntime.Lib.AddressSpace
open EmbeddedRuntime.Lib.ReadLog
open EmbeddedRuntime.Lib.Word64
open EmbeddedRuntime.Loader.Model
open EmbeddedRuntime.Loader.Layout
open EmbeddedRuntime.Loader.Contents
open EmbeddedRuntime.Loader.ImageMemory
open EmbeddedRuntime.Loader.Progress

/-- The address is in a recorded mapping and holds file byte `offset`. -/
def HoldsFileByte (file : File) (final : LoaderState) (vaddr offset : Nat) : Prop :=
  (∃ mapping ∈ final.mappings.items, mapping.Contains vaddr) ∧ offset < file.size ∧
    ∃ prot, final.mem vaddr = some { byte := file.data offset, prot }

/-- The header `elf_vaddr_to_offset` uses for an address. -/
def Selected (image : ElfImage) (vaddr index : Nat) : Prop :=
  index < image.header.phnum ∧ selects (image.phdr index) vaddr ∧
    ∀ earlier < index, ¬ selects (image.phdr earlier) vaddr

/-- The header is mapped, and its file part rounds up to pages without wrapping. -/
def FileMapped (kernel : Kernel) (p : Phdr) : Prop :=
  p.memsz ≠ 0 ∧ p.vaddr % kernel.page + p.filesz + kernel.page ≤ 2 ^ 64

instance (kernel : Kernel) (p : Phdr) : Decidable (FileMapped kernel p) :=
  inferInstanceAs (Decidable (_ ∧ _))

/-- Some mapped header's pages have the byte at the address. -/
def SameByte (kernel : Kernel) (image : ElfImage) (vaddr offset : Nat) : Prop :=
  offset < image.file.size ∧ ∃ index < image.header.phnum, loads (image.phdr index) ∧
    ((fileRange kernel (image.phdr index)).Contains vaddr ∧
        (fileCell kernel image.file (image.phdr index) vaddr).byte = image.file.data offset ∨
      (anonymousRange kernel (image.phdr index)).Contains vaddr ∧ image.file.data offset = 0)

/-- A list of numbers from zero on, split at one of them. -/
theorem range_split {count index : Nat} {before after : List Nat}
    (split : List.range count = before ++ index :: after) :
    index < count ∧ ∀ earlier < index, earlier ∈ before := by
  have size := congrArg List.length split
  simp only [List.length_range, List.length_append, List.length_cons] at size
  have here : (List.range count)[before.length]? = some index := by
    rw [split]
    simp
  rw [List.getElem?_range (by omega)] at here
  obtain rfl : before.length = index := Option.some.inj here
  refine ⟨by omega, fun earlier less => ?_⟩
  have entry : (List.range count)[earlier]? = some earlier := List.getElem?_range (by omega)
  rw [split, List.getElem?_append_left less] at entry
  exact List.mem_of_getElem? entry

theorem elfVaddrToOffset_some (image : ElfImage) (vaddr offset : Nat)
    (found : (elfVaddrToOffset image vaddr).value = some offset) :
    ∃ index, Selected image vaddr index ∧
      offset = add64 (image.phdr index).offset (vaddr - (image.phdr index).vaddr) := by
  rw [elfVaddrToOffset, firstSome_value] at found
  obtain ⟨before, index, after, split, here, passedOver⟩ :=
    List.findSome?_eq_some_iff.mp found
  obtain ⟨below, earlier⟩ := range_split split
  have turn (number : Nat) : (do
      let p ← readPhdr image number
      if selects p vaddr then return some (add64 p.offset (vaddr - p.vaddr))
      else return none : Reading (Option Nat)).value =
      if selects (image.phdr number) vaddr then
        some (add64 (image.phdr number).offset (vaddr - (image.phdr number).vaddr))
      else none := by
    rw [bind_value, readPhdr, note_value]
    split <;> rfl
  rw [turn] at here
  split at here
  next selected =>
    refine ⟨index, ⟨below, selected, fun other less chosen => ?_⟩, (Option.some.inj here).symm⟩
    have passed := passedOver other (earlier other less)
    rw [turn, if_pos chosen] at passed
    cases passed
  · cases here

theorem Selected.unique {image : ElfImage} {vaddr first second : Nat}
    (firstSelected : Selected image vaddr first) (secondSelected : Selected image vaddr second) :
    first = second := by
  obtain ⟨-, firstHere, firstNew⟩ := firstSelected
  obtain ⟨-, secondHere, secondNew⟩ := secondSelected
  rcases Nat.lt_trichotomy first second with less | same | more
  · exact absurd firstHere (secondNew first less)
  · exact same
  · exact absurd secondHere (firstNew second more)

variable {kernel : Kernel}

/-- The bytes of a header whose file part does not wrap are the file's. -/
theorem file_part {file : File} {p : Phdr} {mem : Memory Cell}
    (present : Present kernel file p mem) (words : Words p) (vaddr : Nat)
    (selected : selects p vaddr)
    (room : p.vaddr % kernel.page + p.filesz + kernel.page ≤ 2 ^ 64) :
    (fileRange kernel p).Contains vaddr ∧
      add64 p.offset (vaddr - p.vaddr) < file.size ∧
      (fileCell kernel file p vaddr).byte = file.data (add64 p.offset (vaddr - p.vaddr)) := by
  obtain ⟨-, above, under⟩ := selected
  obtain ⟨ordered, inFile, offsetSplit⟩ := segmentError_none words present.passes
  have vaddrSplit := mapVaddr_add_delta kernel words
  have limit := kernel.limitSmall
  have small := page_le kernel
  rw [← layout_delta kernel words] at room
  obtain ⟨-, cases⟩ := fileTotal_cases kernel words
  have vaddrWord := words.vaddr
  have nonempty : p.filesz ≠ 0 := by
    intro empty
    rw [empty, add64_of_lt (by omega)] at under
    omega
  have mapped : (layout kernel p).fileTotal ≠ 0 := by omega
  have fileEnd := present.fileEnd mapped
  have offsetEnd := present.offsetEnd mapped
  have stop : add64 p.vaddr p.filesz = p.vaddr + p.filesz := add64_of_lt (by omega)
  have fileStop : add64 p.offset p.filesz = p.offset + p.filesz := add64_of_lt (by omega)
  rw [stop] at under
  rw [fileStop] at inFile
  have position : add64 p.offset (vaddr - p.vaddr) = p.offset + (vaddr - p.vaddr) :=
    add64_of_lt (by omega)
  have untouched : ¬ (zeroRange (layout kernel p) p).Contains vaddr := by
    rintro ⟨start, -⟩
    change add64 p.vaddr p.filesz ≤ vaddr at start
    omega
  have same : (layout kernel p).mapOffset + (vaddr - (layout kernel p).mapVaddr) =
      p.offset + (vaddr - p.vaddr) := by omega
  refine ⟨⟨?_, ?_⟩, by omega, ?_⟩
  · simp only [fileRange]
    omega
  · simp only [fileRange]
    omega
  · rw [fileCell, position]
    dsimp only
    rw [if_neg untouched, same, fileByte, if_pos (by omega)]

/-- A byte of a mapped header's pages is what the load has put there. -/
theorem holds_of_sameByte (image : ElfImage) (start final : LoaderState)
    (run : (loaderMapImage kernel image false start).value = .ok final) (vaddr offset : Nat)
    (same : SameByte kernel image vaddr offset) :
    HoldsFileByte image.file final vaddr offset := by
  obtain ⟨-, presents, items⟩ := loaderMapImage_ok image start final run
  obtain ⟨inFile, index, below, loaded, bytes⟩ := same
  have present := presents index below loaded
  -- a range that contains an address is not empty, so it is recorded
  obtain ⟨⟨above, under⟩, byte⟩ | ⟨⟨above, under⟩, zero⟩ := bytes
  · have recorded : fileRange kernel (image.phdr index) ∈
        segmentRanges kernel (image.phdr index) := by
      simp only [fileRange] at above under
      exact mem_segmentRanges.mpr (Or.inl ⟨by omega, rfl⟩)
    refine ⟨⟨_, (items _).mpr ⟨index, below, loaded, recorded⟩, above, under⟩, inFile,
      flagsToProt (image.phdr index).flags, ?_⟩
    rw [present.fileCells vaddr ⟨above, under⟩, ← byte]
    rfl
  · have recorded : anonymousRange kernel (image.phdr index) ∈
        segmentRanges kernel (image.phdr index) := by
      simp only [anonymousRange] at above under
      exact mem_segmentRanges.mpr (Or.inr ⟨by omega, rfl⟩)
    refine ⟨⟨_, (items _).mpr ⟨index, below, loaded, recorded⟩, above, under⟩, inFile,
      flagsToProt (image.phdr index).flags, ?_⟩
    rw [present.tailCells vaddr ⟨above, under⟩, zeroCell, zero]

theorem sameByte_of_holds (image : ElfImage) (start final : LoaderState)
    (run : (loaderMapImage kernel image false start).value = .ok final) (vaddr offset : Nat)
    (holds : HoldsFileByte image.file final vaddr offset) :
    SameByte kernel image vaddr offset := by
  obtain ⟨-, presents, items⟩ := loaderMapImage_ok image start final run
  obtain ⟨⟨mapping, mem, inside⟩, inFile, prot, cell⟩ := holds
  obtain ⟨index, below, loaded, recorded⟩ := (items mapping).mp mem
  have present := presents index below loaded
  refine ⟨inFile, index, below, loaded, ?_⟩
  obtain ⟨-, rfl⟩ | ⟨-, rfl⟩ := mem_segmentRanges.mp recorded
  · rw [present.fileCells vaddr inside] at cell
    exact Or.inl ⟨inside, congrArg Cell.byte (Option.some.inj cell)⟩
  · rw [present.tailCells vaddr inside] at cell
    exact Or.inr ⟨inside, (congrArg Cell.byte (Option.some.inj cell)).symm⟩

/-- Eight bytes of file and no memory. -/
def fileOnlyHeader : Phdr where
  type := 1
  offset := 0
  vaddr := 0x400000
  filesz := 8
  memsz := 0
  flags := 4
  align := 4096

def fileOnlyFile : File := File.ofBytes (execBytes 56 [fileOnlyHeader]) (by decide)

end EmbeddedRuntime.Loader.Agreement
