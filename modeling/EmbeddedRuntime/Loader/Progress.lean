import EmbeddedRuntime.Loader.Contents

/-!
# Images that are loaded

A kernel that refuses nothing maps every header whose pages are free and below the
limits: the loader fails for no reason of its own.
-/

set_option autoImplicit false

namespace EmbeddedRuntime.Loader.Progress

open EmbeddedRuntime.Elf.Image
open EmbeddedRuntime.Lib.AddressSpace
open EmbeddedRuntime.Lib.ReadLog
open EmbeddedRuntime.Lib.Word64
open EmbeddedRuntime.Loader.Model
open EmbeddedRuntime.Loader.Layout
open EmbeddedRuntime.Loader.Steps
open EmbeddedRuntime.Loader.Contents

/-- No call is refused without a documented reason. -/
def Willing (kernel : Kernel) : Prop := ∀ call, kernel.refuses call = none

/-- The header passes the checks and its pages are below the limits. -/
structure Fits (kernel : Kernel) (file : File) (p : Phdr) : Prop where
  passes : segmentError kernel file p = none
  fileEnd : (layout kernel p).mapVaddr + (layout kernel p).fileTotal ≤ kernel.limit
  offsetEnd : (layout kernel p).mapOffset + (layout kernel p).fileTotal ≤ 2 ^ 63
  tailEnd : (layout kernel p).mapVaddr + (layout kernel p).memTotal ≤ kernel.limit

variable {kernel : Kernel} {file : File} {p : Phdr} {state : LoaderState}

theorem mmap_runs {range : Range} {source : Source} {prot : Prot} (willing : Willing kernel)
    (whole : kernel.page ∣ range.length) (nonempty : range.length ≠ 0)
    (aligned : kernel.page ∣ range.addr) (below : range.addr + range.length ≤ kernel.limit)
    (offset : kernel.offsetErrno range.length source = none) (free : state.mem.Free range) :
    ∃ after, mmap kernel file range source prot false state = (none, after) := by
  have success : kernel.mmapErrno state.mem state.calls range source false = none := by
    rw [Kernel.mmapErrno, if_neg (by simp [nonempty, Nat.mod_eq_zero_of_dvd aligned]),
      if_neg (Nat.not_lt.mpr below), offset]
    dsimp only
    rw [if_neg (by simp [free]), willing]
  unfold mmap
  rw [pages_of_dvd kernel range.addr range.length whole]
  dsimp only
  rw [success]
  exact ⟨_, rfl⟩

theorem addMapping_runs (state : LoaderState) (mapping : LoaderMapping)
    (willing : Willing kernel) :
    ∃ after, addMapping kernel mapping state = (true, after) := by
  unfold addMapping
  dsimp only
  split
  · rw [willing]
    exact ⟨_, rfl⟩
  · exact ⟨_, rfl⟩

theorem mprotect_runs (state : LoaderState) (range : Range) (prot : Prot)
    (willing : Willing kernel) :
    ∃ after, mprotect kernel range prot state = (none, after) := by
  unfold mprotect
  rw [willing]
  exact ⟨_, rfl⟩

theorem page_dvd_mapOffset (words : Words p) : kernel.page ∣ (layout kernel p).mapOffset := by
  rw [layout_mapOffset kernel words]
  exact Nat.dvd_sub_mod _

theorem memset_runs {range : Range} (writable : Writable state.mem range) :
    ∃ after, memset range state = some after :=
  ⟨_, if_pos writable⟩

/-- The anonymous pages begin where the file's pages end. -/
theorem tail_addr (fits : Fits kernel file p) : (anonymousRange kernel p).addr =
    (layout kernel p).mapVaddr + (layout kernel p).fileTotal :=
  add64_of_lt (Nat.lt_of_le_of_lt (Nat.le_trans fits.fileEnd kernel.limitSmall) (by decide))

theorem mapFile_runs (willing : Willing kernel) (words : Words p) (fits : Fits kernel file p)
    (free : state.mem.Free (fileRange kernel p)) :
    ∃ after, mapFile kernel file p false state = .ok after ∧
      ∀ a, ¬ (fileRange kernel p).Contains a → after.mem a = state.mem a := by
  have whole : kernel.page ∣ (fileRange kernel p).length := page_dvd_fileTotal kernel words
  by_cases empty : (layout kernel p).fileTotal = 0
  · refine ⟨state, ?_, fun _ _ => rfl⟩
    unfold mapFile
    exact if_pos empty
  · have offset : kernel.offsetErrno (layout kernel p).fileTotal
        (.file (layout kernel p).mapOffset) = none := by
      rw [Kernel.offsetErrno,
        if_neg (by simp [Nat.mod_eq_zero_of_dvd (page_dvd_mapOffset words)]),
        if_neg (Nat.not_lt.mpr fits.offsetEnd)]
    obtain ⟨mapped, call⟩ : ∃ mapped, mmap kernel file (fileRange kernel p)
        (.file (layout kernel p).mapOffset) { flagsToProt p.flags with write := true } false
        state = (none, mapped) :=
      mmap_runs willing whole empty (page_dvd_mapVaddr kernel words) fits.fileEnd offset free
    obtain ⟨listed, add⟩ := addMapping_runs mapped (fileRange kernel p) willing
    obtain ⟨within, writable⟩ := fresh_writable words empty call add
    obtain ⟨zeroed, clear⟩ := memset_runs writable
    obtain ⟨after, protect⟩ := mprotect_runs zeroed (fileRange kernel p) (flagsToProt p.flags)
      willing
    refine ⟨after, ?_, fun a outside => ?_⟩
    · simp only [mapFile, if_neg empty, call, add, clear, protect]
    · rw [(mprotect_succeeds whole protect).1, Memory.change_outside _ _ _ _ outside,
        (memset_succeeds clear).1,
        Memory.change_outside _ _ _ _ fun inside => outside (within a inside),
        (addMapping_succeeds add).1, (mmap_succeeds whole call).2]
      exact Memory.place_outside _ _ _ _ outside

theorem mapAnonymous_runs (willing : Willing kernel) (words : Words p) (fits : Fits kernel file p)
    (free : state.mem.Free (anonymousRange kernel p)) :
    ∃ after, mapAnonymous kernel file p false state = .ok after ∧
      ∀ a, ¬ (anonymousRange kernel p).Contains a → after.mem a = state.mem a := by
  have whole : kernel.page ∣ (anonymousRange kernel p).length := page_dvd_tail kernel words
  have tailAddr := tail_addr fits
  by_cases more : (layout kernel p).memTotal > (layout kernel p).fileTotal
  · have aligned : kernel.page ∣ (anonymousRange kernel p).addr := by
      rw [tailAddr]
      exact Nat.dvd_add (page_dvd_mapVaddr kernel words) (page_dvd_fileTotal kernel words)
    have below : (anonymousRange kernel p).addr + (anonymousRange kernel p).length ≤
        kernel.limit := by
      have last := fits.tailEnd
      rw [tailAddr]
      simp only [anonymousRange]
      omega
    obtain ⟨mapped, call⟩ : ∃ mapped, mmap kernel file (anonymousRange kernel p) .anonymous
        (flagsToProt p.flags) false state = (none, mapped) :=
      mmap_runs willing whole (Nat.sub_ne_zero_of_lt more) aligned below rfl free
    obtain ⟨after, add⟩ := addMapping_runs mapped (anonymousRange kernel p) willing
    refine ⟨after, ?_, fun a outside => ?_⟩
    · simp only [mapAnonymous, if_pos more, call, add]
    · rw [(addMapping_succeeds add).1, (mmap_succeeds whole call).2]
      exact Memory.place_outside _ _ _ _ outside
  · refine ⟨state, ?_, fun _ _ => rfl⟩
    simp only [mapAnonymous, if_neg more]

/-- A header that fits is mapped on free pages, and nothing else changes. -/
theorem mapOneSegment_runs (willing : Willing kernel) (words : Words p)
    (fits : Fits kernel file p) (freeFile : state.mem.Free (fileRange kernel p))
    (freeTail : state.mem.Free (anonymousRange kernel p)) :
    ∃ after, mapOneSegment kernel file p false state = .ok after ∧
      ∀ a, ¬ (fileRange kernel p).Contains a → ¬ (anonymousRange kernel p).Contains a →
        after.mem a = state.mem a := by
  obtain ⟨middle, first, keptFirst⟩ := mapFile_runs willing words fits freeFile
  have stillFree : middle.mem.Free (anonymousRange kernel p) := by
    intro a inside
    have outside : ¬ (fileRange kernel p).Contains a := by
      rintro ⟨-, below⟩
      have above := inside.1
      rw [tail_addr fits] at above
      simp only [fileRange] at below
      omega
    rw [keptFirst a outside]
    exact freeTail a inside
  obtain ⟨after, second, keptSecond⟩ := mapAnonymous_runs willing words fits stillFree
  refine ⟨after, ?_, fun a outFile outTail => ?_⟩
  · simp only [mapOneSegment, fits.passes, first, Run.andThen, second]
  · rw [keptSecond a outTail, keptFirst a outFile]

/-! ## The whole table -/

/-- The pages of one header. -/
def Covers (kernel : Kernel) (p : Phdr) (a : Nat) : Prop :=
  (fileRange kernel p).Contains a ∨ (anonymousRange kernel p).Contains a

theorem mapSegments_runs (willing : Willing kernel) (image : ElfImage) (indices : List Nat)
    (state : LoaderState)
    (fits : ∀ index ∈ indices, loads (image.phdr index) →
      Fits kernel image.file (image.phdr index))
    (free : ∀ index ∈ indices, loads (image.phdr index) → ∀ a,
      Covers kernel (image.phdr index) a → state.mem a = none)
    (apart : indices.Pairwise fun first second => loads (image.phdr first) →
      loads (image.phdr second) → ∀ a, Covers kernel (image.phdr first) a →
        ¬ Covers kernel (image.phdr second) a) :
    ∃ final, (mapSegments kernel image false indices state).value = .ok final := by
  induction indices generalizing state with
  | nil => exact ⟨state, rfl⟩
  | cons index rest ih =>
    obtain ⟨apartFirst, apartRest⟩ := List.pairwise_cons.mp apart
    have fitsRest (other : Nat) (mem : other ∈ rest) := fits other (List.mem_cons_of_mem _ mem)
    rw [mapSegments, bind_value, readPhdr, note_value]
    by_cases loaded : loads (image.phdr index)
    · rw [if_pos loaded]
      have here := free index List.mem_cons_self loaded
      obtain ⟨after, run, kept⟩ := mapOneSegment_runs willing (words_phdr image index)
        (fits index List.mem_cons_self loaded) (fun a inside => here a (Or.inl inside))
        fun a inside => here a (Or.inr inside)
      rw [run]
      refine ih after fitsRest (fun other mem otherLoads a covers => ?_) apartRest
      have outside : ¬ Covers kernel (image.phdr index) a := fun inside =>
        apartFirst other mem loaded otherLoads a inside covers
      rw [kept a (fun inside => outside (Or.inl inside)) fun inside => outside (Or.inr inside)]
      exact free other (List.mem_cons_of_mem _ mem) otherLoads a covers
    · rw [if_neg loaded]
      exact ih state fitsRest
        (fun other mem => free other (List.mem_cons_of_mem _ mem)) apartRest

/-- A static executable whose segments fit, on free and separate pages, is loaded. -/
theorem loaderMapImage_runs (willing : Willing kernel) (image : ElfImage) (start : LoaderState)
    (static : image.type = etExec ∧ (imageHasInterp image).value = false)
    (fits : ∀ index < image.header.phnum, loads (image.phdr index) →
      Fits kernel image.file (image.phdr index))
    (free : ∀ index < image.header.phnum, loads (image.phdr index) → ∀ a,
      Covers kernel (image.phdr index) a → start.mem a = none)
    (apart : ∀ first second, first < second → second < image.header.phnum →
      loads (image.phdr first) → loads (image.phdr second) → ∀ a,
        Covers kernel (image.phdr first) a → ¬ Covers kernel (image.phdr second) a) :
    ∃ final, (loaderMapImage kernel image false start).value = .ok final := by
  unfold loaderMapImage
  dsimp only
  rw [if_neg (not_not.mpr static.1), bind_value, static.2, if_neg Bool.false_ne_true]
  refine mapSegments_runs willing image _ _ (fun index mem => fits index (List.mem_range.mp mem))
    (fun index mem => free index (List.mem_range.mp mem)) ?_
  refine List.pairwise_lt_range.imp_of_mem ?_
  intro first second _ mem less
  exact apart first second less (List.mem_range.mp mem)

/-- An image with one program header. -/
theorem single_header_runs (willing : Willing kernel) (image : ElfImage) (start : LoaderState)
    (static : image.type = etExec ∧ (imageHasInterp image).value = false)
    (count : image.header.phnum = 1)
    (fits : loads (image.phdr 0) → Fits kernel image.file (image.phdr 0))
    (free : ∀ a, Covers kernel (image.phdr 0) a → start.mem a = none) :
    ∃ final, (loaderMapImage kernel image false start).value = .ok final := by
  have only (index : Nat) (below : index < image.header.phnum) : index = 0 := by omega
  refine loaderMapImage_runs willing image start static ?_ ?_ ?_
  · intro index below loaded
    obtain rfl := only index below
    exact fits loaded
  · intro index below _
    obtain rfl := only index below
    exact free
  · intro first second less below
    omega

/-! ## A small executable -/

/-- Pages of 4096 bytes, a 47-bit address space, and no refusals. -/
def userKernel : Kernel where
  pageBits := 12
  pageSmall := by decide
  limit := 2 ^ 47
  limitSmall := by decide
  refuses := fun _ => none

def freshState : LoaderState := { mem := fun _ => none, calls := 0, mappings := {} }

/-- 120 bytes of file at the start of a segment of 5000 bytes. -/
def textHeader : Phdr where
  type := 1
  offset := 0
  vaddr := 0x400000
  filesz := 120
  memsz := 5000
  flags := 5
  align := 4096

def textFile : File := File.ofBytes (execBytes 56 [textHeader]) (by decide)

theorem textFile_phdr : (execImage textFile).header.phnum = 1 ∧
    (execImage textFile).phdr 0 = textHeader := by
  decide +kernel

theorem textFile_runs :
    ∃ final, (loaderMapImage userKernel (execImage textFile) false freshState).value =
      .ok final := by
  obtain ⟨count, header⟩ := textFile_phdr
  refine single_header_runs (fun _ => rfl) _ _ ⟨rfl, by decide +kernel⟩ count ?_ (fun _ _ => rfl)
  intro _
  rw [header]
  exact ⟨by decide +kernel, by decide +kernel, by decide +kernel, by decide +kernel⟩

end EmbeddedRuntime.Loader.Progress
