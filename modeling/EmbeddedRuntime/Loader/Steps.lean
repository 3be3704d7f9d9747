import EmbeddedRuntime.Loader.Layout

/-!
# What the calls of the loader do

No call faults: the bytes that are zeroed are in pages just mapped writable.
`Sound kernel before state` is the invariant of a load without `force_fixed`: the
memory is `before` with the recorded mappings placed on free addresses.  Every step
keeps it, whether it succeeds or fails.
-/

set_option autoImplicit false

namespace EmbeddedRuntime.Loader.Steps

open EmbeddedRuntime.Elf.Image
open EmbeddedRuntime.Lib.AddressSpace
open EmbeddedRuntime.Lib.ReadLog
open EmbeddedRuntime.Lib.Word64
open EmbeddedRuntime.Loader.Model
open EmbeddedRuntime.Loader.Layout

variable {kernel : Kernel} {file : File} {forceFixed : Bool} {state after : LoaderState}

/-! ## One call -/

theorem offsetErrno_none {length offset : Nat}
    (success : kernel.offsetErrno length (.file offset) = none) : offset + length ≤ 2 ^ 63 := by
  simp only [Kernel.offsetErrno] at success
  split at success
  · cases success
  · split at success
    · cases success
    next fits => exact Nat.le_of_not_lt fits

/-- `mmap` succeeds only below the limits, and without `MAP_FIXED` only on free addresses. -/
theorem mmapErrno_none {mem : Memory Cell} {call : Nat} {range : Range} {source : Source}
    {replace : Bool} (success : kernel.mmapErrno mem call range source replace = none) :
    (replace = false → mem.Free range) ∧ range.addr + range.length ≤ kernel.limit ∧
      ∀ offset, source = .file offset → offset + range.length ≤ 2 ^ 63 := by
  unfold Kernel.mmapErrno at success
  split at success
  · cases success
  · split at success
    · cases success
    next below =>
      split at success
      · cases success
      next good =>
        split at success
        · cases success
        next free =>
          refine ⟨fun keep => not_not.mp fun taken => free ⟨keep, taken⟩,
            Nat.le_of_not_lt below, ?_⟩
          rintro offset rfl
          exact offsetErrno_none good

theorem mmap_fails {range : Range} {source : Source} {prot : Prot} {replace : Bool} {errno : Nat}
    (call : mmap kernel file range source prot replace state = (some errno, after)) :
    after = state.tick := by
  unfold mmap at call
  dsimp only at call
  split at call <;> cases call
  rfl

theorem mmap_succeeds {range : Range} {source : Source} {prot : Prot} {replace : Bool}
    (whole : kernel.page ∣ range.length)
    (call : mmap kernel file range source prot replace state = (none, after)) :
    ((replace = false → state.mem.Free range) ∧ range.addr + range.length ≤ kernel.limit ∧
      ∀ offset, source = .file offset → offset + range.length ≤ 2 ^ 63) ∧
      after = { state.tick with
        mem := state.mem.place range (mappedCell file range source prot) } := by
  unfold mmap at call
  rw [pages_of_dvd kernel range.addr range.length whole] at call
  dsimp only at call
  split at call
  · cases call
  next success =>
    cases call
    exact ⟨mmapErrno_none success, rfl⟩

theorem addMapping_fails {mapping : LoaderMapping}
    (call : addMapping kernel mapping state = (false, after)) : after = state.tick := by
  unfold addMapping at call
  dsimp only at call
  split at call
  · split at call <;> cases call
    rfl
  · cases call

theorem addMapping_succeeds {mapping : LoaderMapping}
    (call : addMapping kernel mapping state = (true, after)) :
    after.mem = state.mem ∧ after.mappings.items = state.mappings.items ++ [mapping] := by
  unfold addMapping at call
  dsimp only at call
  split at call
  · split at call <;> cases call
    exact ⟨rfl, rfl⟩
  · cases call
    exact ⟨rfl, rfl⟩

theorem mprotect_fails {range : Range} {prot : Prot} {errno : Nat}
    (call : mprotect kernel range prot state = (some errno, after)) : after = state.tick := by
  unfold mprotect at call
  split at call <;> cases call
  rfl

theorem mprotect_succeeds {range : Range} {prot : Prot} (whole : kernel.page ∣ range.length)
    (call : mprotect kernel range prot state = (none, after)) :
    after.mem = (state.mem.change range fun cell => { cell with prot }) ∧
      after.mappings = state.mappings := by
  unfold mprotect at call
  rw [pages_of_dvd kernel range.addr range.length whole] at call
  split at call <;> cases call
  exact ⟨rfl, rfl⟩

theorem memset_succeeds {range : Range} (call : memset range state = some after) :
    after.mem = (state.mem.change range fun cell => { cell with byte := 0 }) ∧
      after.mappings = state.mappings := by
  unfold memset at call
  split at call <;> cases call
  exact ⟨rfl, rfl⟩

/-! ## No step faults -/

variable {p : Phdr}

/-- Once its pages are mapped and recorded, the bytes to be zeroed are in them and
can be written. -/
theorem fresh_writable (words : Words p) (nonempty : (layout kernel p).fileTotal ≠ 0)
    {mapped listed : LoaderState}
    (call : mmap kernel file (fileRange kernel p) (.file (layout kernel p).mapOffset)
      { flagsToProt p.flags with write := true } forceFixed state = (none, mapped))
    (add : addMapping kernel (fileRange kernel p) mapped = (true, listed)) :
    (∀ a, (zeroRange (layout kernel p) p).Contains a → (fileRange kernel p).Contains a) ∧
      Writable listed.mem (zeroRange (layout kernel p) p) := by
  obtain ⟨⟨-, below, -⟩, rfl⟩ := mmap_succeeds (page_dvd_fileTotal kernel words) call
  obtain ⟨sameMem, -⟩ := addMapping_succeeds add
  have within := zeroRange_within kernel words nonempty (Nat.le_trans below kernel.limitSmall)
  refine ⟨within, fun a inside => ?_⟩
  rw [sameMem]
  dsimp only
  rw [Memory.place_inside _ _ _ _ (within a inside)]
  rfl

theorem mapFile_returns (words : Words p) : mapFile kernel file p forceFixed state ≠ .fault := by
  unfold mapFile
  dsimp only
  split
  · nofun
  next nonempty =>
    split
    · nofun
    next mapped call =>
      split
      · nofun
      next listed add =>
        obtain ⟨-, writable⟩ := fresh_writable words nonempty call add
        rw [memset, if_pos writable]
        dsimp only
        split <;> nofun

theorem mapAnonymous_returns : mapAnonymous kernel file p forceFixed state ≠ .fault := by
  unfold mapAnonymous
  dsimp only
  split
  · split
    · nofun
    · split <;> nofun
  · nofun

theorem mapOneSegment_returns (words : Words p) :
    mapOneSegment kernel file p forceFixed state ≠ .fault := by
  unfold mapOneSegment
  split
  · nofun
  · cases run : mapFile kernel file p forceFixed state with
    | ok mapped => exact mapAnonymous_returns
    | error failure mapped => nofun
    | fault => exact absurd run (mapFile_returns words)

theorem mapSegments_returns (image : ElfImage) (indices : List Nat) (state : LoaderState) :
    (mapSegments kernel image forceFixed indices state).value ≠ .fault := by
  induction indices generalizing state with
  | nil => nofun
  | cons index rest ih =>
    rw [mapSegments, bind_value, readPhdr, note_value]
    split
    · split
      · exact ih _
      · nofun
      next killed => exact absurd killed (mapOneSegment_returns (words_phdr image index))
    · exact ih state

theorem loaderMapImage_returns (image : ElfImage) (start : LoaderState) :
    (loaderMapImage kernel image forceFixed start).value ≠ .fault := by
  unfold loaderMapImage
  dsimp only
  split
  · nofun
  · rw [bind_value]
    split
    · nofun
    · exact mapSegments_returns image _ _

/-! ## The invariant of a load -/

structure Sound (kernel : Kernel) (before : Memory Cell) (state : LoaderState) : Prop where
  tracks : Tracks before state.mem state.mappings.items
  whole : ∀ mapping ∈ state.mappings.items, kernel.page ∣ mapping.length

/-- How a run ends, unless the process is killed. -/
def Run.Holds (P : LoaderState → Prop) : Run → Prop
  | .ok state => P state
  | .error _ state => P state
  | .fault => False

variable {before : Memory Cell}

theorem Sound.congr (sound : Sound kernel before state) (sameMem : after.mem = state.mem)
    (sameItems : after.mappings.items = state.mappings.items) : Sound kernel before after where
  tracks := by
    rw [sameMem, sameItems]
    exact sound.tracks
  whole := by
    rw [sameItems]
    exact sound.whole

/-- A mapping is placed on free addresses and recorded. -/
theorem Sound.record (sound : Sound kernel before state) (range : Range) (cells : Nat → Cell)
    (whole : kernel.page ∣ range.length) (free : state.mem.Free range)
    (placed : after.mem = state.mem.place range cells)
    (recorded : after.mappings.items = state.mappings.items ++ [range]) :
    Sound kernel before after where
  tracks := by
    rw [placed, recorded]
    exact sound.tracks.place range cells free
  whole := by
    intro mapping mem
    rw [recorded] at mem
    obtain old | new := List.mem_append.mp mem
    · exact sound.whole mapping old
    · exact List.mem_singleton.mp new ▸ whole

/-- Cells of a recorded mapping are changed. -/
theorem Sound.change (sound : Sound kernel before state) (range part : Range)
    (edit : Cell → Cell) (recorded : range ∈ state.mappings.items)
    (within : ∀ a, part.Contains a → range.Contains a)
    (changed : after.mem = state.mem.change part edit)
    (sameMappings : after.mappings = state.mappings) : Sound kernel before after where
  tracks := by
    rw [changed, sameMappings]
    exact sound.tracks.change range part edit recorded within
  whole := by
    rw [sameMappings]
    exact sound.whole

/-- A mapping that could not be recorded is taken away again. -/
theorem Sound.munmap (sound : Sound kernel before state) (range : Range) (cells : Nat → Cell)
    (whole : kernel.page ∣ range.length) (free : state.mem.Free range)
    (placed : after.mem = state.mem.place range cells)
    (sameMappings : after.mappings = state.mappings) :
    Sound kernel before (munmap kernel range after) := by
  refine sound.congr ?_ (by rw [Model.munmap, sameMappings])
  rw [Model.munmap, placed, pages_of_dvd kernel range.addr range.length whole]
  exact Memory.remove_place state.mem range cells free

theorem mapAnonymous_sound (words : Words p) (sound : Sound kernel before state) :
    Run.Holds (Sound kernel before) (mapAnonymous kernel file p false state) := by
  have whole : kernel.page ∣ (anonymousRange kernel p).length := page_dvd_tail kernel words
  unfold mapAnonymous
  dsimp only
  split
  · split
    next errno mapped call =>
      obtain rfl := mmap_fails call
      exact sound.congr rfl rfl
    next mapped call =>
      obtain ⟨⟨free, -⟩, rfl⟩ := mmap_succeeds whole call
      split
      next listed add =>
        obtain rfl := addMapping_fails add
        exact sound.munmap _ _ whole (free rfl) rfl rfl
      next listed add =>
        obtain ⟨sameMem, items⟩ := addMapping_succeeds add
        exact sound.record _ _ whole (free rfl) sameMem items
  · exact sound

theorem mapFile_sound (words : Words p) (sound : Sound kernel before state) :
    Run.Holds (Sound kernel before) (mapFile kernel file p false state) := by
  have whole : kernel.page ∣ (fileRange kernel p).length := page_dvd_fileTotal kernel words
  unfold mapFile
  dsimp only
  split
  · exact sound
  next nonempty =>
    split
    next errno mapped call =>
      obtain rfl := mmap_fails call
      exact sound.congr rfl rfl
    next mapped call =>
      split
      next listed add =>
        obtain ⟨⟨free, -⟩, rfl⟩ := mmap_succeeds whole call
        obtain rfl := addMapping_fails add
        exact sound.munmap _ _ whole (free rfl) rfl rfl
      next listed add =>
        obtain ⟨within, writable⟩ := fresh_writable words nonempty call add
        obtain ⟨⟨free, -⟩, rfl⟩ := mmap_succeeds whole call
        obtain ⟨sameMem, items⟩ := addMapping_succeeds add
        have recorded := sound.record _ _ whole (free rfl) sameMem items
        have member : fileRange kernel p ∈ listed.mappings.items := by
          rw [items]
          exact List.mem_append_right _ List.mem_cons_self
        split
        next fault =>
          -- the zeroed bytes are in the fresh pages, which are still writable
          rw [memset, if_pos writable] at fault
          cases fault
        next zeroed clear =>
          obtain ⟨changed, sameMappings⟩ := memset_succeeds clear
          have soundZeroed := recorded.change _ _ _ member within changed sameMappings
          split
          next errno protected_ protect =>
            obtain rfl := mprotect_fails protect
            exact soundZeroed.congr rfl rfl
          next protected_ protect =>
            obtain ⟨reprotected, stillMappings⟩ := mprotect_succeeds whole protect
            exact soundZeroed.change _ _ _ (by rw [sameMappings]; exact member)
              (fun _ inside => inside) reprotected stillMappings

theorem mapOneSegment_sound (words : Words p) (sound : Sound kernel before state) :
    Run.Holds (Sound kernel before) (mapOneSegment kernel file p false state) := by
  unfold mapOneSegment
  split
  · exact sound
  · have first : Run.Holds (Sound kernel before) (mapFile kernel file p false state) :=
      mapFile_sound words sound
    cases run : mapFile kernel file p false state with
    | ok mapped =>
      rw [run] at first
      exact mapAnonymous_sound words first
    | error failure mapped =>
      rw [run] at first
      exact first
    | fault =>
      rw [run] at first
      exact first

/-- Taking every recorded mapping away restores the memory. -/
theorem Sound.unmapAll (sound : Sound kernel before state) :
    (loaderUnmapAll kernel state).mem = before ∧ (loaderUnmapAll kernel state).mappings = {} := by
  refine ⟨?_, rfl⟩
  have same : (state.mappings.items.map fun mapping => kernel.pages mapping.addr mapping.length) =
      state.mappings.items := by
    refine (List.map_congr_left fun mapping mem => ?_).trans (List.map_id _)
    exact pages_of_dvd kernel mapping.addr mapping.length (sound.whole mapping mem)
  rw [loaderUnmapAll, same]
  exact sound.tracks.removeAll

end EmbeddedRuntime.Loader.Steps
