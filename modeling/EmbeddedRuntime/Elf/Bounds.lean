import EmbeddedRuntime.Loader.Model

/-!
# Which records are read inside the file

`elf_image_open` checks that a table of `count` entries of `entsize` bytes lies in
the file and that `entsize` is not zero.  The readers fetch whole records at these
distances, so a record is inside the file when the entry size and the bytes behind
the table make up for its size.
-/

set_option autoImplicit false

namespace EmbeddedRuntime.Elf.Bounds

open EmbeddedRuntime.Elf.Image
open EmbeddedRuntime.Elf.Readers
open EmbeddedRuntime.Lib.ReadLog
open EmbeddedRuntime.Loader.Model

def InBounds {α : Type} (image : ElfImage) (reading : Reading α) : Prop :=
  ∀ record ∈ reading.log, record.Inside image.file

/-- No function that works on an open image reads a record past the end of the file. -/
structure ReadsInBounds (image : ElfImage) : Prop where
  vaddrToOffset : ∀ vaddr, InBounds image (elfVaddrToOffset image vaddr)
  segments : InBounds image (elfPrintSegments image)
  memoryMap : InBounds image (elfPrintMemoryMap image)
  sections : InBounds image (elfPrintSections image)
  symbols : InBounds image (elfPrintSymbols image)
  interp : InBounds image (imageHasInterp image)
  mapImage : ∀ kernel forceFixed start,
    InBounds image (loaderMapImage kernel image forceFixed start)

/-- One entry and the bytes behind the table hold a record. -/
def Slack (file : File) (offset count entsize size : Nat) : Prop :=
  count = 0 ∨ size ≤ entsize + (file.size - (offset + count * entsize))

instance (file : File) (offset count entsize size : Nat) :
    Decidable (Slack file offset count entsize size) :=
  inferInstanceAs (Decidable (_ ∨ _))

/-- The section is a symbol table that `elf_print_symbols` prints. -/
def printed (image : ElfImage) (s : Shdr) : Prop :=
  symbolSection image s ∧
    rangeOk image.file (image.shdr s.link).offset (image.shdr s.link).size

structure TablesHaveSlack (image : ElfImage) : Prop where
  program : Slack image.file image.header.phoff image.header.phnum image.header.phentsize
    (phdrSize image.elfClass)
  sections : Slack image.file image.header.shoff image.header.shnum image.header.shentsize
    (shdrSize image.elfClass)
  symbols : ∀ index < image.header.shnum, printed image (image.shdr index) →
    Slack image.file (image.shdr index).offset
      ((image.shdr index).size / (image.shdr index).entsize) (image.shdr index).entsize
      (symSize image.elfClass)

/-! ## One table -/

/-- All records of a table inside the file are inside it exactly with slack. -/
theorem records_inside_iff (file : File) (offset count entsize size : Nat)
    (table : offset + count * entsize ≤ file.size) :
    (∀ index < count, (⟨offset + index * entsize, size⟩ : Record).Inside file) ↔
      Slack file offset count entsize size := by
  constructor
  · intro inside
    cases count with
    | zero => exact Or.inl rfl
    | succ last =>
      have final : offset + last * entsize + size ≤ file.size :=
        inside last (Nat.lt_succ_self last)
      rw [Nat.succ_mul] at table
      refine Or.inr ?_
      rw [Nat.succ_mul]
      omega
  · rintro (empty | slack) index below
    · omega
    · have distance : (index + 1) * entsize ≤ count * entsize :=
        Nat.mul_le_mul_right _ below
      rw [Nat.add_mul, Nat.one_mul] at distance
      change offset + index * entsize + size ≤ file.size
      omega

theorem tableOk_end {file : File} {offset count entsize : Nat}
    (table : tableOk file offset count entsize) (nonempty : count ≠ 0) :
    offset + count * entsize ≤ file.size := by
  obtain ⟨-, above, range⟩ := table.resolve_left nonempty
  rw [Nat.mul_comm] at range
  omega

/-- The records of a table of the header. -/
theorem header_records_iff {file : File} {offset count entsize : Nat} (size : Nat)
    (table : tableOk file offset count entsize) :
    (∀ index < count, (⟨offset + index * entsize, size⟩ : Record).Inside file) ↔
      Slack file offset count entsize size := by
  by_cases empty : count = 0
  · subst empty
    exact ⟨fun _ => Or.inl rfl, fun _ index below => absurd below (Nat.not_lt_zero index)⟩
  · exact records_inside_iff file offset count entsize size (tableOk_end table empty)

/-! ## The logs -/

/-- Program headers of the table. -/
def phdrRecord (image : ElfImage) (index : Nat) : Record :=
  ⟨image.phdrAt index, phdrSize image.elfClass⟩

def shdrRecord (image : ElfImage) (index : Nat) : Record :=
  ⟨image.shdrAt index, shdrSize image.elfClass⟩

def symRecord (image : ElfImage) (table : Shdr) (index : Nat) : Record :=
  ⟨table.offset + index * table.entsize, symSize image.elfClass⟩

variable {image : ElfImage}

theorem mem_segments_log (record : Record) :
    record ∈ (elfPrintSegments image).log ↔
      ∃ index < image.header.phnum, record = phdrRecord image index := by
  rw [elfPrintSegments, mem_each_log]
  simp only [bind_log, readPhdr, note_log, pure_log, List.append_nil, List.mem_singleton,
    List.mem_range, phdrRecord]

/-- A turn of a loop that reads one program header and nothing else. -/
theorem mem_header_log {α : Type} {index : Nat} {next : Phdr → Reading α} {record : Record}
    (silent : ∀ p, (next p).log = []) (mem : record ∈ (readPhdr image index >>= next).log) :
    record = phdrRecord image index := by
  rw [bind_log, readPhdr, note_log, note_value, silent, List.append_nil] at mem
  exact List.mem_singleton.mp mem

theorem mem_memoryMap_log (record : Record) (mem : record ∈ (elfPrintMemoryMap image).log) :
    ∃ index < image.header.phnum, record = phdrRecord image index := by
  rw [elfPrintMemoryMap, bind_log, pure_log, List.append_nil, mem_each_log] at mem
  obtain ⟨index, below, logged⟩ := mem
  refine ⟨index, List.mem_range.mp below, mem_header_log (fun p => ?_) logged⟩
  split <;> rfl

theorem mem_interp_log (record : Record) (mem : record ∈ (imageHasInterp image).log) :
    ∃ index < image.header.phnum, record = phdrRecord image index := by
  rw [imageHasInterp, bind_log, pure_log, List.append_nil] at mem
  obtain ⟨index, below, logged⟩ := mem_firstSome_log _ _ record mem
  refine ⟨index, List.mem_range.mp below, mem_header_log (fun p => ?_) logged⟩
  split <;> rfl

theorem mem_vaddrToOffset_log (vaddr : Nat) (record : Record)
    (mem : record ∈ (elfVaddrToOffset image vaddr).log) :
    ∃ index < image.header.phnum, record = phdrRecord image index := by
  obtain ⟨index, below, logged⟩ := mem_firstSome_log _ _ record mem
  refine ⟨index, List.mem_range.mp below, mem_header_log (fun p => ?_) logged⟩
  split <;> rfl

theorem mem_mapSegments_log (kernel : Kernel) (forceFixed : Bool) (indices : List Nat)
    (state : LoaderState) (record : Record)
    (mem : record ∈ (mapSegments kernel image forceFixed indices state).log) :
    ∃ index ∈ indices, record = phdrRecord image index := by
  induction indices generalizing state with
  | nil => cases mem
  | cons index rest ih =>
    have later (next : LoaderState)
        (logged : record ∈ (mapSegments kernel image forceFixed rest next).log) :
        ∃ other ∈ index :: rest, record = phdrRecord image other := by
      obtain ⟨other, inside, same⟩ := ih next logged
      exact ⟨other, List.mem_cons_of_mem _ inside, same⟩
    rw [mapSegments, bind_log, readPhdr, note_log, note_value, List.singleton_append] at mem
    obtain rfl | logged := List.mem_cons.mp mem
    · exact ⟨index, List.mem_cons_self, rfl⟩
    · split at logged
      · split at logged
        · exact later _ logged
        · cases logged
        · cases logged
      · exact later _ logged

theorem mem_mapImage_log (kernel : Kernel) (forceFixed : Bool) (start : LoaderState)
    (record : Record) (mem : record ∈ (loaderMapImage kernel image forceFixed start).log) :
    ∃ index < image.header.phnum, record = phdrRecord image index := by
  unfold loaderMapImage at mem
  dsimp only at mem
  split at mem
  · cases mem
  · rw [bind_log, List.mem_append] at mem
    obtain interp | logged := mem
    · exact mem_interp_log record interp
    · split at logged
      · cases logged
      · obtain ⟨index, below, same⟩ := mem_mapSegments_log _ _ _ _ _ logged
        exact ⟨index, List.mem_range.mp below, same⟩

theorem mem_sectionNames_log (record : Record) (mem : record ∈ (sectionNames image).log) :
    ∃ index < image.header.shnum, record = shdrRecord image index := by
  unfold sectionNames at mem
  split at mem
  next below =>
    refine ⟨_, below, ?_⟩
    rw [bind_log, readShdr, note_log, note_value] at mem
    split at mem <;> exact List.mem_singleton.mp mem
  · cases mem

theorem mem_sections_log (record : Record) :
    record ∈ (elfPrintSections image).log ↔
      ∃ index < image.header.shnum, record = shdrRecord image index := by
  have table : (∃ index ∈ List.range image.header.shnum, record ∈ [shdrRecord image index]) ↔
      ∃ index < image.header.shnum, record = shdrRecord image index := by
    simp only [List.mem_range, List.mem_singleton]
  rw [elfPrintSections, bind_log, List.mem_append, mem_each_log]
  constructor
  · rintro (names | rows)
    · exact mem_sectionNames_log record names
    · exact table.mp rows
  · exact fun rows => Or.inr (table.mpr rows)

/-- A turn of the loop of `elf_print_symbols` reads the section, the section it links
to, and the symbols of a table it prints. -/
theorem mem_symbolSection_log (index : Nat) (record : Record) :
    record ∈ (printSymbolSection image index).log ↔
      record = shdrRecord image index ∨
      symbolSection image (image.shdr index) ∧
        record = shdrRecord image (image.shdr index).link ∨
      printed image (image.shdr index) ∧
        ∃ number < (image.shdr index).size / (image.shdr index).entsize,
          record = symRecord image (image.shdr index) number := by
  rw [printSymbolSection, bind_log, readShdr, note_log, note_value, List.singleton_append,
    List.mem_cons]
  refine or_congr Iff.rfl ?_
  by_cases accepted : symbolSection image (image.shdr index)
  · rw [if_pos accepted, bind_log, readShdr, note_log, note_value, List.singleton_append,
      List.mem_cons]
    refine or_congr ⟨fun same => ⟨accepted, same⟩, And.right⟩ ?_
    by_cases named : rangeOk image.file (image.shdr (image.shdr index).link).offset
        (image.shdr (image.shdr index).link).size
    · rw [if_pos named, bind_log, pure_log, List.append_nil, mem_each_log]
      constructor
      · rintro ⟨number, below, logged⟩
        exact ⟨⟨accepted, named⟩, number, List.mem_range.mp below, List.mem_singleton.mp logged⟩
      · rintro ⟨-, number, below, same⟩
        exact ⟨number, List.mem_range.mpr below, List.mem_singleton.mpr same⟩
    · rw [if_neg named]
      exact ⟨fun none => absurd none List.not_mem_nil, fun shown => absurd shown.1.2 named⟩
  · rw [if_neg accepted]
    constructor
    · exact fun none => absurd none List.not_mem_nil
    · rintro (⟨shown, -⟩ | ⟨shown, -⟩)
      · exact absurd shown accepted
      · exact absurd shown.1 accepted

theorem mem_symbols_log (record : Record) :
    record ∈ (elfPrintSymbols image).log ↔
      ∃ index < image.header.shnum, record ∈ (printSymbolSection image index).log := by
  rw [elfPrintSymbols, bind_log, pure_log, List.append_nil, mem_each_log]
  simp only [List.mem_range]

/-! ## All readers -/

/-- A printed symbol table lies inside the file. -/
theorem printed_end {s : Shdr} (shown : printed image s) :
    s.offset + s.size / s.entsize * s.entsize ≤ image.file.size := by
  obtain ⟨⟨-, -, -, above, range⟩, -⟩ := shown
  have whole := Nat.div_mul_le_self s.size s.entsize
  omega

/-- On an accepted image every record that is read lies inside the file if and only
if each of its tables has enough slack. -/
theorem reads_in_bounds_iff (calls : OpenCalls) (file : File) (image : ElfImage)
    (opened : elfImageOpen calls file = .ok image) :
    ReadsInBounds image ↔ TablesHaveSlack image := by
  obtain ⟨programTable, sectionTable⟩ := elfImageOpen_accepted calls file image opened
  have program := header_records_iff (phdrSize image.elfClass) programTable
  have sections := header_records_iff (shdrSize image.elfClass) sectionTable
  constructor
  · intro reads
    refine ⟨program.mp fun index below => ?_, sections.mp fun index below => ?_,
      fun index below shown => ?_⟩
    · exact reads.segments _ ((mem_segments_log _).mpr ⟨index, below, rfl⟩)
    · exact reads.sections _ ((mem_sections_log _).mpr ⟨index, below, rfl⟩)
    · refine (records_inside_iff _ _ _ _ _ (printed_end shown)).mp fun number less => ?_
      refine reads.symbols _ ((mem_symbols_log _).mpr ⟨index, below, ?_⟩)
      exact (mem_symbolSection_log index _).mpr (Or.inr (Or.inr ⟨shown, number, less, rfl⟩))
  · intro slack
    have phdrs (record : Record)
        (known : ∃ index < image.header.phnum, record = phdrRecord image index) :
        record.Inside image.file := by
      obtain ⟨index, below, rfl⟩ := known
      exact program.mpr slack.program index below
    have shdrs (index : Nat) (below : index < image.header.shnum) :
        (shdrRecord image index).Inside image.file :=
      sections.mpr slack.sections index below
    refine ⟨?_, ?_, ?_, ?_, ?_, ?_, ?_⟩
    · exact fun vaddr record mem => phdrs record (mem_vaddrToOffset_log vaddr record mem)
    · exact fun record mem => phdrs record ((mem_segments_log record).mp mem)
    · exact fun record mem => phdrs record (mem_memoryMap_log record mem)
    · intro record mem
      obtain ⟨index, below, rfl⟩ := (mem_sections_log record).mp mem
      exact shdrs index below
    · intro record mem
      obtain ⟨index, below, logged⟩ := (mem_symbols_log record).mp mem
      obtain rfl | ⟨accepted, rfl⟩ | ⟨shown, number, less, rfl⟩ :=
        (mem_symbolSection_log index record).mp logged
      · exact shdrs index below
      · exact shdrs _ accepted.2.1
      · exact (records_inside_iff _ _ _ _ _ (printed_end shown)).mpr
          (slack.symbols index below shown) number less
    · exact fun record mem => phdrs record (mem_interp_log record mem)
    · exact fun kernel forceFixed start record mem =>
        phdrs record (mem_mapImage_log kernel forceFixed start record mem)

/-- An executable with one program header of the usual size. -/
def usualFile : File :=
  File.ofBytes (execBytes 56 [⟨1, 0, 0x400000, 120, 120, 5, 4096⟩]) (by decide)

theorem reads_in_bounds_usual : ReadsInBounds (execImage usualFile) := by
  have exec : IsExec usualFile := by decide +kernel
  have noSections : (execImage usualFile).header.shnum = 0 := by decide +kernel
  refine (reads_in_bounds_iff {} usualFile _ (open_exec usualFile exec)).mpr ⟨?_, ?_, ?_⟩
  · decide +kernel
  · decide +kernel
  · intro index below
    omega

/-- One program header of one byte at the end of the file. -/
def shortFile : File :=
  File.ofBytes ((execBytes 1 [⟨1, 0, 0x400000, 120, 120, 5, 4096⟩]).take 65) (by decide)

/-- The image is accepted, and the segment printer reads 55 bytes past its end. -/
theorem short_entry_read_past_end :
    elfImageOpen {} shortFile = .ok (execImage shortFile) ∧
      (⟨64, 56⟩ : Record) ∈ (elfPrintSegments (execImage shortFile)).log ∧
      ¬ ReadsInBounds (execImage shortFile) := by
  have exec : IsExec shortFile := by decide +kernel
  have read : (⟨64, 56⟩ : Record) ∈ (elfPrintSegments (execImage shortFile)).log := by
    decide +kernel
  refine ⟨open_exec shortFile exec, read, fun reads => ?_⟩
  have inside := reads.segments _ read
  revert inside
  decide +kernel

end EmbeddedRuntime.Elf.Bounds
