import EmbeddedRuntime.Loader.Steps

/-!
# A failed load leaves the address space as it was

The kernel may refuse any of the calls, so the loop over the program headers can
stop before or after each mapping is recorded; the invariant of `Steps` holds at
each of these points, and `loader_unmap_all` undoes what it describes.
-/

set_option autoImplicit false

namespace EmbeddedRuntime.Loader.Rollback

open EmbeddedRuntime.Elf.Image
open EmbeddedRuntime.Lib.AddressSpace
open EmbeddedRuntime.Lib.ReadLog
open EmbeddedRuntime.Loader.Model
open EmbeddedRuntime.Loader.Layout
open EmbeddedRuntime.Loader.Steps

/-- What a run leaves behind: the invariant when it returns 0, the old memory and
an empty list when it returns -1. -/
def Settled (kernel : Kernel) (before : Memory Cell) : Run → Prop
  | .ok state => Sound kernel before state
  | .error _ state => state.mem = before ∧ state.mappings = {}
  | .fault => False

theorem mapSegments_settled (kernel : Kernel) (image : ElfImage) (before : Memory Cell)
    (indices : List Nat) (state : LoaderState) (sound : Sound kernel before state) :
    Settled kernel before (mapSegments kernel image false indices state).value := by
  induction indices generalizing state with
  | nil => exact sound
  | cons index rest ih =>
    rw [mapSegments, bind_value]
    split
    · have step : Run.Holds (Sound kernel before)
          (mapOneSegment kernel image.file (image.phdr index) false state) :=
        mapOneSegment_sound (words_phdr image index) sound
      split
      next mapped run =>
        rw [readPhdr, note_value] at run
        rw [run] at step
        exact ih mapped step
      next failure mapped run =>
        rw [readPhdr, note_value] at run
        rw [run] at step
        exact step.unmapAll
      next run =>
        rw [readPhdr, note_value] at run
        rw [run] at step
        exact step
    · exact ih state sound

theorem loaderMapImage_settled (kernel : Kernel) (image : ElfImage) (start : LoaderState) :
    Settled kernel start.mem (loaderMapImage kernel image false start).value := by
  unfold loaderMapImage
  dsimp only
  split
  · exact ⟨rfl, rfl⟩
  · rw [bind_value]
    split
    · exact ⟨rfl, rfl⟩
    · exact mapSegments_settled kernel image start.mem _ _
        ⟨Tracks.start start.mem, fun _ mem => absurd mem List.not_mem_nil⟩

/-- Whatever call fails, the memory and the list are restored; after a load that
succeeds `loader_unmap_all` restores them. -/
theorem loader_rollback (kernel : Kernel) (image : ElfImage) (start : LoaderState) :
    (∀ failure state, (loaderMapImage kernel image false start).value = .error failure state →
      state.mem = start.mem ∧ state.mappings = {}) ∧
    (∀ state, (loaderMapImage kernel image false start).value = .ok state →
      (loaderUnmapAll kernel state).mem = start.mem ∧
        (loaderUnmapAll kernel state).mappings = {}) ∧
    (loaderMapImage kernel image false start).value ≠ .fault := by
  have settled := loaderMapImage_settled kernel image start
  refine ⟨?_, ?_, ?_⟩
  · intro failure state failed
    rw [failed] at settled
    exact settled
  · intro state loaded
    rw [loaded] at settled
    exact settled.unmapAll
  · intro killed
    rw [killed] at settled
    exact settled

end EmbeddedRuntime.Loader.Rollback
