import EmbeddedRuntime.Loader.Rollback

/-!
# What a load puts into memory

`Located` says where a header's pages are, in the terms `map_one_segment` computes
with, wrapped or not, and `Present` what each of their bytes is.  Without
`force_fixed` a later segment is placed on free addresses, so what is present stays.
-/

set_option autoImplicit false

namespace EmbeddedRuntime.Loader.Contents

open EmbeddedRuntime.Elf.Image
open EmbeddedRuntime.Lib.AddressSpace
open EmbeddedRuntime.Lib.ReadLog
open EmbeddedRuntime.Lib.Word64
open EmbeddedRuntime.Loader.Model
open EmbeddedRuntime.Loader.Layout
open EmbeddedRuntime.Loader.Steps
open EmbeddedRuntime.Loader.Rollback

/-- A cell of the file-backed part, after `memset` and `mprotect`. -/
def fileCell (kernel : Kernel) (file : File) (p : Phdr) (a : Nat) : Cell where
  byte :=
    if (zeroRange (layout kernel p) p).Contains a then 0
    else fileByte file ((layout kernel p).mapOffset + (a - (layout kernel p).mapVaddr))
  prot := flagsToProt p.flags

/-- A cell of the anonymous part. -/
def zeroCell (p : Phdr) : Cell := { byte := 0, prot := flagsToProt p.flags }

/-- The mappings recorded for a header. -/
def segmentRanges (kernel : Kernel) (p : Phdr) : List Range :=
  (if (layout kernel p).fileTotal = 0 then [] else [fileRange kernel p]) ++
    if (layout kernel p).memTotal > (layout kernel p).fileTotal then [anonymousRange kernel p]
    else []

theorem mem_segmentRanges {kernel : Kernel} {p : Phdr} {range : Range} :
    range ∈ segmentRanges kernel p ↔
      (layout kernel p).fileTotal ≠ 0 ∧ range = fileRange kernel p ∨
      (layout kernel p).memTotal > (layout kernel p).fileTotal ∧
        range = anonymousRange kernel p := by
  rw [segmentRanges, List.mem_append]
  refine or_congr ?_ ?_
  · split
    next empty => simp [empty]
    next nonempty => simp [nonempty]
  · split
    next more => simp [more]
    next none => simp [none]

/-- The header passes the checks and its pages are below the limits. -/
structure Located (kernel : Kernel) (file : File) (p : Phdr) : Prop where
  passes : segmentError kernel file p = none
  fileEnd : (layout kernel p).fileTotal ≠ 0 →
    (layout kernel p).mapVaddr + (layout kernel p).fileTotal ≤ kernel.limit
  offsetEnd : (layout kernel p).fileTotal ≠ 0 →
    (layout kernel p).mapOffset + (layout kernel p).fileTotal ≤ 2 ^ 63
  tailEnd : (layout kernel p).memTotal > (layout kernel p).fileTotal →
    (anonymousRange kernel p).addr + (anonymousRange kernel p).length ≤ kernel.limit

structure Present (kernel : Kernel) (file : File) (p : Phdr) (mem : Memory Cell) : Prop
    extends Located kernel file p where
  fileCells : ∀ a, (fileRange kernel p).Contains a → mem a = some (fileCell kernel file p a)
  tailCells : ∀ a, (anonymousRange kernel p).Contains a → mem a = some (zeroCell p)

/-- Cells that exist are kept. -/
def Keeps (before after : Memory Cell) : Prop :=
  ∀ a cell, before a = some cell → after a = some cell

variable {kernel : Kernel} {file : File} {p : Phdr} {forceFixed : Bool}
  {state after : LoaderState}

theorem Present.kept {mem later : Memory Cell} (present : Present kernel file p mem)
    (keeps : Keeps mem later) : Present kernel file p later where
  toLocated := present.toLocated
  fileCells a inside := keeps a _ (present.fileCells a inside)
  tailCells a inside := keeps a _ (present.tailCells a inside)

/-! ## One segment -/

/-- The memory after the file's pages are mapped, zeroed behind the file and protected. -/
def withFile (kernel : Kernel) (file : File) (p : Phdr) (mem : Memory Cell) : Memory Cell :=
  ((mem.place (fileRange kernel p) (mappedCell file (fileRange kernel p)
    (.file (layout kernel p).mapOffset) { flagsToProt p.flags with write := true })).change
      (zeroRange (layout kernel p) p) fun cell => { cell with byte := 0 }).change
        (fileRange kernel p) fun cell => { cell with prot := flagsToProt p.flags }

theorem withFile_inside (mem : Memory Cell) (a : Nat) (inside : (fileRange kernel p).Contains a) :
    withFile kernel file p mem a = some (fileCell kernel file p a) := by
  rw [withFile, Memory.change_inside _ _ _ _ inside]
  by_cases zeroed : (zeroRange (layout kernel p) p).Contains a
  · rw [Memory.change_inside _ _ _ _ zeroed, Memory.place_inside _ _ _ _ inside, fileCell,
      if_pos zeroed]
    rfl
  · rw [Memory.change_outside _ _ _ _ zeroed, Memory.place_inside _ _ _ _ inside, fileCell,
      if_neg zeroed]
    rfl

theorem withFile_outside (mem : Memory Cell) (a : Nat) (words : Words p)
    (mapped : (layout kernel p).fileTotal ≠ 0)
    (below : (layout kernel p).mapVaddr + (layout kernel p).fileTotal ≤ kernel.limit)
    (outside : ¬ (fileRange kernel p).Contains a) : withFile kernel file p mem a = mem a := by
  have within := zeroRange_within kernel words mapped (Nat.le_trans below kernel.limitSmall)
  rw [withFile, Memory.change_outside _ _ _ _ outside,
    Memory.change_outside _ _ _ _ fun inside => outside (within a inside),
    Memory.place_outside _ _ _ _ outside]

/-- What the file-backed part of a segment does when it succeeds. -/
theorem mapFile_cases (words : Words p) (run : mapFile kernel file p forceFixed state = .ok after) :
    (layout kernel p).fileTotal = 0 ∧ after = state ∨
    (layout kernel p).fileTotal ≠ 0 ∧
      (forceFixed = false → state.mem.Free (fileRange kernel p)) ∧
      (layout kernel p).mapVaddr + (layout kernel p).fileTotal ≤ kernel.limit ∧
      (layout kernel p).mapOffset + (layout kernel p).fileTotal ≤ 2 ^ 63 ∧
      after.mem = withFile kernel file p state.mem ∧
      after.mappings.items = state.mappings.items ++ [fileRange kernel p] := by
  have whole : kernel.page ∣ (fileRange kernel p).length := page_dvd_fileTotal kernel words
  unfold mapFile at run
  dsimp only at run
  split at run
  next empty =>
    cases run
    exact Or.inl ⟨empty, rfl⟩
  next nonempty =>
    split at run
    · cases run
    next mapped call =>
      obtain ⟨⟨free, below, offset⟩, rfl⟩ := mmap_succeeds whole call
      split at run
      · cases run
      next listed add =>
        obtain ⟨sameMem, items⟩ := addMapping_succeeds add
        split at run
        · cases run
        next zeroed clear =>
          obtain ⟨changed, sameMappings⟩ := memset_succeeds clear
          split at run
          · cases run
          next protected_ protect =>
            obtain ⟨reprotected, stillMappings⟩ := mprotect_succeeds whole protect
            cases run
            refine Or.inr ⟨nonempty, free, below, offset _ rfl, ?_, ?_⟩
            · rw [reprotected, changed, sameMem]
              rfl
            · rw [stillMappings, sameMappings, items]
              rfl

/-- What the anonymous part of a segment does when it succeeds. -/
theorem mapAnonymous_cases (words : Words p)
    (run : mapAnonymous kernel file p forceFixed state = .ok after) :
    ¬ (layout kernel p).memTotal > (layout kernel p).fileTotal ∧ after = state ∨
    (layout kernel p).memTotal > (layout kernel p).fileTotal ∧
      (forceFixed = false → state.mem.Free (anonymousRange kernel p)) ∧
      (anonymousRange kernel p).addr + (anonymousRange kernel p).length ≤ kernel.limit ∧
      after.mem = state.mem.place (anonymousRange kernel p) (fun _ => zeroCell p) ∧
      after.mappings.items = state.mappings.items ++ [anonymousRange kernel p] := by
  have whole : kernel.page ∣ (anonymousRange kernel p).length := page_dvd_tail kernel words
  unfold mapAnonymous at run
  dsimp only at run
  split at run
  next more =>
    split at run
    · cases run
    next mapped call =>
      obtain ⟨⟨free, below, -⟩, rfl⟩ := mmap_succeeds whole call
      split at run
      · cases run
      next listed add =>
        obtain ⟨sameMem, items⟩ := addMapping_succeeds add
        cases run
        exact Or.inr ⟨more, free, below, sameMem, items⟩
  next none =>
    cases run
    exact Or.inl ⟨none, rfl⟩

theorem mapOneSegment_cases (run : mapOneSegment kernel file p forceFixed state = .ok after) :
    segmentError kernel file p = none ∧ ∃ middle,
      mapFile kernel file p forceFixed state = .ok middle ∧
        mapAnonymous kernel file p forceFixed middle = .ok after := by
  unfold mapOneSegment at run
  split at run
  · cases run
  next passes =>
    cases first : mapFile kernel file p forceFixed state with
    | error failure middle =>
      rw [first] at run
      cases run
    | fault =>
      rw [first] at run
      cases run
    | ok middle =>
      rw [first] at run
      exact ⟨passes, middle, rfl, run⟩

/-- Whether or not mappings are replaced, the header's pages are recorded and below
the limits. -/
theorem mapOneSegment_located (words : Words p)
    (run : mapOneSegment kernel file p forceFixed state = .ok after) :
    Located kernel file p ∧
      after.mappings.items = state.mappings.items ++ segmentRanges kernel p := by
  obtain ⟨passes, middle, first, second⟩ := mapOneSegment_cases run
  have firstPart : ((layout kernel p).fileTotal ≠ 0 →
      (layout kernel p).mapVaddr + (layout kernel p).fileTotal ≤ kernel.limit ∧
        (layout kernel p).mapOffset + (layout kernel p).fileTotal ≤ 2 ^ 63) ∧
      middle.mappings.items = state.mappings.items ++
        if (layout kernel p).fileTotal = 0 then [] else [fileRange kernel p] := by
    obtain ⟨empty, rfl⟩ | ⟨nonempty, -, below, offset, -, items⟩ := mapFile_cases words first
    · exact ⟨fun nonempty => absurd empty nonempty, by rw [if_pos empty, List.append_nil]⟩
    · exact ⟨fun _ => ⟨below, offset⟩, by rw [if_neg nonempty, items]⟩
  have secondPart : ((layout kernel p).memTotal > (layout kernel p).fileTotal →
      (anonymousRange kernel p).addr + (anonymousRange kernel p).length ≤ kernel.limit) ∧
      after.mappings.items = middle.mappings.items ++
        if (layout kernel p).memTotal > (layout kernel p).fileTotal then [anonymousRange kernel p]
        else [] := by
    obtain ⟨none, rfl⟩ | ⟨more, -, below, -, items⟩ := mapAnonymous_cases words second
    · exact ⟨fun more => absurd more none, by rw [if_neg none, List.append_nil]⟩
    · exact ⟨fun _ => below, by rw [if_pos more, items]⟩
  refine ⟨⟨passes, fun nonempty => (firstPart.1 nonempty).1,
    fun nonempty => (firstPart.1 nonempty).2, secondPart.1⟩, ?_⟩
  rw [secondPart.2, firstPart.2, List.append_assoc]
  rfl

theorem mapFile_ok (words : Words p) (run : mapFile kernel file p false state = .ok after) :
    Keeps state.mem after.mem ∧
      ∀ a, (fileRange kernel p).Contains a → after.mem a = some (fileCell kernel file p a) := by
  obtain ⟨empty, rfl⟩ | ⟨nonempty, free, below, -, built, -⟩ := mapFile_cases words run
  · refine ⟨fun _ _ present => present, ?_⟩
    rintro a ⟨above, below⟩
    simp only [fileRange] at above below
    omega
  · rw [built]
    refine ⟨fun a cell present => ?_, withFile_inside state.mem⟩
    -- a cell that exists is outside the fresh pages
    have outside : ¬ (fileRange kernel p).Contains a := by
      intro inside
      rw [free rfl a inside] at present
      cases present
    rw [withFile_outside state.mem a words nonempty below outside]
    exact present

theorem mapAnonymous_ok (words : Words p)
    (run : mapAnonymous kernel file p false state = .ok after) :
    Keeps state.mem after.mem ∧
      ∀ a, (anonymousRange kernel p).Contains a → after.mem a = some (zeroCell p) := by
  obtain ⟨none, rfl⟩ | ⟨-, free, -, placed, -⟩ := mapAnonymous_cases words run
  · refine ⟨fun _ _ present => present, ?_⟩
    rintro a ⟨above, below⟩
    simp only [anonymousRange] at above below
    omega
  · rw [placed]
    exact ⟨fun a cell present => Memory.place_of_some _ _ _ _ _ (free rfl) present,
      fun a inside => Memory.place_inside _ _ _ _ inside⟩

theorem mapOneSegment_ok (words : Words p)
    (run : mapOneSegment kernel file p false state = .ok after) :
    Keeps state.mem after.mem ∧ Present kernel file p after.mem := by
  obtain ⟨-, middle, first, second⟩ := mapOneSegment_cases run
  obtain ⟨keptFirst, fileCells⟩ := mapFile_ok words first
  obtain ⟨keptSecond, tailCells⟩ := mapAnonymous_ok words second
  refine ⟨fun a cell present => keptSecond a cell (keptFirst a cell present), ?_⟩
  exact ⟨(mapOneSegment_located words run).1, fun a inside => keptSecond a _ (fileCells a inside),
    tailCells⟩

/-! ## The whole table -/

/-- The first turn of a loop over the table that succeeds. -/
theorem mapSegments_cons_ok {image : ElfImage} {index : Nat} {rest : List Nat}
    {state final : LoaderState}
    (run : (mapSegments kernel image forceFixed (index :: rest) state).value = .ok final) :
    (loads (image.phdr index) ∧ ∃ middle,
      mapOneSegment kernel image.file (image.phdr index) forceFixed state = .ok middle ∧
        (mapSegments kernel image forceFixed rest middle).value = .ok final) ∨
    ¬ loads (image.phdr index) ∧
      (mapSegments kernel image forceFixed rest state).value = .ok final := by
  rw [mapSegments, bind_value, readPhdr, note_value] at run
  split at run
  next loaded =>
    split at run
    next middle step => exact Or.inl ⟨loaded, middle, step, run⟩
    · cases run
    · cases run
  next skipped => exact Or.inr ⟨skipped, run⟩

/-- Every header that is loaded is recorded. -/
theorem mapSegments_located (image : ElfImage) (indices : List Nat) (state final : LoaderState)
    (run : (mapSegments kernel image forceFixed indices state).value = .ok final) :
    (∀ index ∈ indices, loads (image.phdr index) →
      Located kernel image.file (image.phdr index)) ∧
      final.mappings.items = state.mappings.items ++
        (indices.filter fun index => loads (image.phdr index)).flatMap fun index =>
          segmentRanges kernel (image.phdr index) := by
  induction indices generalizing state with
  | nil =>
    cases run
    exact ⟨nofun, by simp⟩
  | cons index rest ih =>
    obtain ⟨loaded, middle, step, later⟩ | ⟨skipped, later⟩ := mapSegments_cons_ok run
    · obtain ⟨located, firstItems⟩ := mapOneSegment_located (words_phdr image index) step
      obtain ⟨locateds, restItems⟩ := ih middle later
      refine ⟨List.forall_mem_cons.mpr ⟨fun _ => located, locateds⟩, ?_⟩
      rw [restItems, firstItems, List.filter_cons_of_pos (by simpa using loaded),
        List.flatMap_cons, List.append_assoc]
    · obtain ⟨locateds, items⟩ := ih state later
      refine ⟨List.forall_mem_cons.mpr ⟨fun loaded => absurd loaded skipped, locateds⟩, ?_⟩
      rw [items, List.filter_cons_of_neg (by simpa using skipped)]

/-- Without `force_fixed` every header that is loaded is present at the end. -/
theorem mapSegments_ok (image : ElfImage) (indices : List Nat) (state final : LoaderState)
    (run : (mapSegments kernel image false indices state).value = .ok final) :
    Keeps state.mem final.mem ∧
      ∀ index ∈ indices, loads (image.phdr index) →
        Present kernel image.file (image.phdr index) final.mem := by
  induction indices generalizing state with
  | nil =>
    cases run
    exact ⟨fun _ _ present => present, nofun⟩
  | cons index rest ih =>
    obtain ⟨-, middle, step, later⟩ | ⟨skipped, later⟩ := mapSegments_cons_ok run
    · obtain ⟨keptFirst, present⟩ := mapOneSegment_ok (words_phdr image index) step
      obtain ⟨keptRest, presents⟩ := ih middle later
      exact ⟨fun a cell here => keptRest a cell (keptFirst a cell here),
        List.forall_mem_cons.mpr ⟨fun _ => present.kept keptRest, presents⟩⟩
    · obtain ⟨kept, presents⟩ := ih state later
      exact ⟨kept, List.forall_mem_cons.mpr ⟨fun loaded => absurd loaded skipped, presents⟩⟩

/-- A load that returns 0 has gone through the whole table. -/
theorem loaderMapImage_segments {image : ElfImage} {start final : LoaderState}
    (run : (loaderMapImage kernel image forceFixed start).value = .ok final) :
    (mapSegments kernel image forceFixed (List.range image.header.phnum)
      { start with mappings := {} }).value = .ok final := by
  unfold loaderMapImage at run
  dsimp only at run
  split at run
  · cases run
  · rw [bind_value] at run
    split at run
    · cases run
    · exact run

theorem loaderMapImage_located (image : ElfImage) (start final : LoaderState)
    (run : (loaderMapImage kernel image forceFixed start).value = .ok final) :
    (∀ index < image.header.phnum, loads (image.phdr index) →
      Located kernel image.file (image.phdr index)) ∧
      ∀ mapping, mapping ∈ final.mappings.items ↔ ∃ index < image.header.phnum,
        loads (image.phdr index) ∧ mapping ∈ segmentRanges kernel (image.phdr index) := by
  obtain ⟨locateds, items⟩ := mapSegments_located image _ _ final (loaderMapImage_segments run)
  refine ⟨fun index below => locateds index (List.mem_range.mpr below), ?_⟩
  intro mapping
  rw [items]
  simp [and_assoc]

theorem loaderMapImage_ok (image : ElfImage) (start final : LoaderState)
    (run : (loaderMapImage kernel image false start).value = .ok final) :
    Sound kernel start.mem final ∧
      (∀ index < image.header.phnum, loads (image.phdr index) →
        Present kernel image.file (image.phdr index) final.mem) ∧
      ∀ mapping, mapping ∈ final.mappings.items ↔ ∃ index < image.header.phnum,
        loads (image.phdr index) ∧ mapping ∈ segmentRanges kernel (image.phdr index) := by
  have settled := loaderMapImage_settled kernel image start
  rw [run] at settled
  obtain ⟨-, presents⟩ := mapSegments_ok image _ _ final (loaderMapImage_segments run)
  exact ⟨settled, fun index below => presents index (List.mem_range.mpr below),
    (loaderMapImage_located image start final run).2⟩

end EmbeddedRuntime.Loader.Contents
