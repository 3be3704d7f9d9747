import EmbeddedRuntime.Loader.ImageMemory

/-!
# Headers that slip through by wraparound

`range_ok` of the ELF parser compares without adding; `map_one_segment` adds first.
A header whose page offset and size round up past `2 ^ 64` gets a rounded size of
zero or of one page, passes every check, and is not mapped.
-/

set_option autoImplicit false

namespace EmbeddedRuntime.Loader.Wraparound

open EmbeddedRuntime.Elf.Image
open EmbeddedRuntime.Lib.AddressSpace
open EmbeddedRuntime.Loader.Model
open EmbeddedRuntime.Loader.Layout
open EmbeddedRuntime.Loader.Steps
open EmbeddedRuntime.Loader.Contents
open EmbeddedRuntime.Loader.ImageMemory
open EmbeddedRuntime.Loader.Progress

/-- The header is in order, over unbounded integers. -/
def Bounded (file : File) (p : Phdr) : Prop :=
  p.filesz ≤ p.memsz ∧ p.offset + p.filesz ≤ file.size ∧ p.vaddr + p.memsz ≤ 2 ^ 64

/-- Every address of the segment is in a recorded mapping. -/
def Covered (mappings : List LoaderMapping) (p : Phdr) : Prop :=
  ∀ a, p.vaddr ≤ a → a < p.vaddr + p.memsz → ∃ mapping ∈ mappings, mapping.Contains a

/-- The segment's offset in its page and its size can be rounded up to pages. -/
def RoundsUp (kernel : Kernel) (p : Phdr) : Prop :=
  p.vaddr % kernel.page + p.memsz + kernel.page ≤ 2 ^ 64

instance (kernel : Kernel) (p : Phdr) : Decidable (RoundsUp kernel p) :=
  inferInstanceAs (Decidable (_ ≤ _))

variable {kernel : Kernel}

/-- No recorded mapping reaches beyond the user address space. -/
theorem recorded_below {file : File} {p : Phdr} (located : Located kernel file p)
    (mapping : Range) (recorded : mapping ∈ segmentRanges kernel p) (a : Nat)
    (inside : mapping.Contains a) : a < kernel.limit := by
  obtain ⟨-, below⟩ := inside
  obtain ⟨nonempty, rfl⟩ | ⟨more, rfl⟩ := mem_segmentRanges.mp recorded
  · exact Nat.lt_of_lt_of_le below (located.fileEnd nonempty)
  · exact Nat.lt_of_lt_of_le below (located.tailEnd more)

/-- Of the headers of a load that returns 0, exactly the ones that round up are in
order and covered. -/
theorem loaded_header_iff (image : ElfImage) (forceFixed : Bool) (start final : LoaderState)
    (run : (loaderMapImage kernel image forceFixed start).value = .ok final) (index : Nat)
    (below : index < image.header.phnum) (loaded : loads (image.phdr index)) :
    Bounded image.file (image.phdr index) ∧ Covered final.mappings.items (image.phdr index) ↔
      RoundsUp kernel (image.phdr index) := by
  obtain ⟨locateds, items⟩ := loaderMapImage_located image start final run
  have words := words_phdr image index
  have delta := layout_delta kernel words
  have limit := kernel.limitSmall
  constructor
  · rintro ⟨-, covered⟩
    by_contra wraps
    have page := page_le kernel
    have inPage := Nat.mod_lt (image.phdr index).vaddr (page_pos kernel)
    unfold RoundsUp at wraps
    -- more than half of all addresses would have to be mapped
    obtain ⟨mapping, mem, inside⟩ := covered ((image.phdr index).vaddr + 2 ^ 63) (by omega)
      (by omega)
    obtain ⟨other, otherBelow, otherLoaded, recorded⟩ := (items mapping).mp mem
    have small := recorded_below (locateds other otherBelow otherLoaded) mapping recorded _ inside
    omega
  · intro room
    have placed := placed_of_room (locateds index below loaded) words loaded.2
      (by rw [delta]; exact room)
    have ends := placed.ends
    have vaddrSplit := placed.vaddrSplit
    have memPart := placed.memPart
    refine ⟨⟨placed.ordered, placed.inFile, by omega⟩, fun a above under => ?_⟩
    obtain ⟨mapping, recorded, inside⟩ :=
      (segmentRanges_cover placed a).mpr ⟨by omega, by omega⟩
    exact ⟨mapping, (items mapping).mpr ⟨index, below, loaded, recorded⟩, inside⟩

/-- A segment of `2 ^ 64 - 1` bytes without file contents. -/
def hugeHeader : Phdr where
  type := 1
  offset := 0
  vaddr := 0x400000
  filesz := 0
  memsz := 2 ^ 64 - 1
  flags := 6
  align := 4096

def hugeFile : File := File.ofBytes (execBytes 56 [hugeHeader]) (by decide)

end EmbeddedRuntime.Loader.Wraparound
