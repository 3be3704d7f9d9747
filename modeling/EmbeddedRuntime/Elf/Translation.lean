import EmbeddedRuntime.Elf.Bounds
import EmbeddedRuntime.Loader.Agreement

/-!
# From virtual addresses to file offsets

`Backs` and `target` say in numbers without a bound which headers have an address
in their file part, and at which offset.  `elf_vaddr_to_offset` computes with
64-bit words: for ELF64 it passes over a header that ends at 2^64 or beyond, which
the wider sum of its ELF32 branch never does, and it does not compare the offset
with the size of the file.
-/

set_option autoImplicit false

namespace EmbeddedRuntime.Elf.Translation

open EmbeddedRuntime.Elf.Image
open EmbeddedRuntime.Elf.Readers
open EmbeddedRuntime.Elf.Bounds
open EmbeddedRuntime.Lib.ByteOrder
open EmbeddedRuntime.Lib.ReadLog
open EmbeddedRuntime.Lib.Word64
open EmbeddedRuntime.Loader.Agreement

/-- The file part of a `PT_LOAD` contains the address. -/
def Backs (p : Phdr) (vaddr : Nat) : Prop :=
  p.type = ptLoad ∧ p.vaddr ≤ vaddr ∧ vaddr < p.vaddr + p.filesz

instance (p : Phdr) (vaddr : Nat) : Decidable (Backs p vaddr) :=
  inferInstanceAs (Decidable (_ ∧ _ ∧ _))

def target (p : Phdr) (vaddr : Nat) : Nat := p.offset + (vaddr - p.vaddr)

/-- The end of the file part is a 64-bit word. -/
def EndFits (p : Phdr) : Prop := p.vaddr + p.filesz < 2 ^ 64

section Image
variable (image : ElfImage) (vaddr : Nat)

/-- The first entry of the table with a property. -/
structure First (property : Phdr → Prop) (index : Nat) : Prop where
  inTable : index < image.header.phnum
  here : property (image.phdr index)
  earlier : ∀ other < index, ¬ property (image.phdr other)

/-- What the translation of an address should be. -/
def Exact : Prop :=
  ((elfVaddrToOffset image vaddr).value.isSome = true ↔
    ∃ index < image.header.phnum, Backs (image.phdr index) vaddr) ∧
  ∀ offset, (elfVaddrToOffset image vaddr).value = some offset →
    ∃ index, First image (fun p => Backs p vaddr) index ∧
      offset = target (image.phdr index) vaddr ∧ offset < image.file.size

/-- No header backs the address, or the first that does leads into the file and ends at a 64-bit
word; or else the first that does both leads to the same offset. -/
def LeadsIntoFile : Prop :=
  (∀ index < image.header.phnum, ¬ Backs (image.phdr index) vaddr) ∨
  ∃ first, First image (fun p => Backs p vaddr) first ∧
    target (image.phdr first) vaddr < image.file.size ∧
    (EndFits (image.phdr first) ∨
      ∃ other, First image (fun p => Backs p vaddr ∧ EndFits p) other ∧
        target (image.phdr other) vaddr % 2 ^ 64 = target (image.phdr first) vaddr)

end Image

section Headers
variable {image : ElfImage} {vaddr : Nat}

/-- The comparison of the code, without words. -/
theorem selects_iff (index : Nat) :
    selects (image.phdr index) vaddr ↔
      Backs (image.phdr index) vaddr ∧ EndFits (image.phdr index) := by
  obtain ⟨-, start, size, -⟩ := image.phdr_lt index
  unfold selects Backs EndFits
  by_cases fits : (image.phdr index).vaddr + (image.phdr index).filesz < 2 ^ 64
  · rw [add64_of_lt fits]
    exact (and_iff_left fits).symm
  · have wrapped : add64 (image.phdr index).vaddr (image.phdr index).filesz <
        (image.phdr index).vaddr ∨ (image.phdr index).filesz = 0 := by
      unfold add64
      omega
    refine iff_of_false ?_ fun both => fits both.2
    rintro ⟨-, above, below⟩
    omega

/-- Every header of an ELF32 image ends at a word. -/
theorem endFits_elf32 (narrow : image.elfClass = .elf32) (index : Nat) :
    EndFits (image.phdr index) := by
  unfold EndFits ElfImage.phdr
  rw [narrow]
  have start := littleEndian_lt image.file.data (image.phdrAt index + 8) 4
  have size := littleEndian_lt image.file.data (image.phdrAt index + 16) 4
  change littleEndian image.file.data (image.phdrAt index + 8) 4 +
    littleEndian image.file.data (image.phdrAt index + 16) 4 < 2 ^ 64
  omega

theorem selected_iff (index : Nat) :
    Selected image vaddr index ↔ First image (fun p => Backs p vaddr ∧ EndFits p) index := by
  constructor
  · rintro ⟨inTable, here, earlier⟩
    exact ⟨inTable, (selects_iff index).mp here,
      fun other less both => earlier other less ((selects_iff other).mpr both)⟩
  · rintro ⟨inTable, here, earlier⟩
    exact ⟨inTable, (selects_iff index).mpr here,
      fun other less chosen => earlier other less ((selects_iff other).mp chosen)⟩

theorem value_isSome {index : Nat} (inTable : index < image.header.phnum)
    (chosen : selects (image.phdr index) vaddr) :
    (elfVaddrToOffset image vaddr).value.isSome = true := by
  rw [elfVaddrToOffset, firstSome_value, List.findSome?_isSome_iff]
  refine ⟨index, List.mem_range.mpr inTable, ?_⟩
  rw [bind_value, readPhdr, note_value, if_pos chosen]
  rfl

/-- What the code returns: the offset of the first header it does not pass over, as a word. -/
theorem value_eq_some_iff (offset : Nat) :
    (elfVaddrToOffset image vaddr).value = some offset ↔
      ∃ index, First image (fun p => Backs p vaddr ∧ EndFits p) index ∧
        offset = target (image.phdr index) vaddr % 2 ^ 64 := by
  constructor
  · intro found
    obtain ⟨index, selected, value⟩ := elfVaddrToOffset_some image vaddr offset found
    exact ⟨index, (selected_iff index).mp selected, value⟩
  · rintro ⟨index, first, rfl⟩
    have selected := (selected_iff index).mpr first
    obtain ⟨other, found⟩ := Option.isSome_iff_exists.mp (value_isSome selected.1 selected.2.1)
    obtain ⟨chosen, again, value⟩ := elfVaddrToOffset_some image vaddr other found
    obtain rfl := selected.unique again
    rw [found, value]
    rfl

theorem First.weaken {index : Nat}
    (first : First image (fun p => Backs p vaddr) index) (fits : EndFits (image.phdr index)) :
    First image (fun p => Backs p vaddr ∧ EndFits p) index :=
  ⟨first.inTable, ⟨first.here, fits⟩, fun other less both => first.earlier other less both.1⟩

theorem target_mod {index : Nat} (inside : target (image.phdr index) vaddr < image.file.size) :
    target (image.phdr index) vaddr % 2 ^ 64 = target (image.phdr index) vaddr := by
  have size := image.file.sizeSmall
  exact Nat.mod_eq_of_lt (by omega)

end Headers

/-- A file part that ends at 2^64. -/
def topFile : File :=
  File.ofBytes (execBytes 56 [⟨1, 0, 2 ^ 64 - 120, 120, 120, 5, 4096⟩]) (by decide)

/-- A file part behind the end of the file. -/
def beyondFile : File :=
  File.ofBytes (execBytes 56 [⟨1, 0x1000, 0x400000, 8, 8, 5, 4096⟩]) (by decide)

end EmbeddedRuntime.Elf.Translation
