import EmbeddedRuntime.Allocator.Calls
import EmbeddedRuntime.Lib.Machine

/-!
# Runs of the allocator

A process is the heap together with its live pointers and the sizes they were
requested with.  A run is any sequence of `my_malloc` and `my_free` calls, with
arbitrary stores to live payloads between them.  Every such run keeps the
blocks tiling the arenas and every live pointer backed by a block of its own.
-/

set_option autoImplicit false

namespace EmbeddedRuntime.Allocator.HeapRun

open EmbeddedRuntime.Allocator.Model
open EmbeddedRuntime.Allocator.BlockList
open EmbeddedRuntime.Allocator.Walks
open EmbeddedRuntime.Allocator.Arenas
open EmbeddedRuntime.Allocator.Calls
open EmbeddedRuntime.Lib.LinkedList
open EmbeddedRuntime.Lib.Machine
open EmbeddedRuntime.Lib.Tiling
open EmbeddedRuntime.Lib.Word64

/-- The regions `mmap` may answer a request with. -/
def Answers (pageLong : Int) (heap : Heap) (size : Nat) (mmap : Option Nat) : Prop :=
  ∀ base ∈ mmap, FreshRegion (pageSize pageLong) heap.arenas base (arenaTotal pageLong size)

/-! ## The process -/

/-- The heap with the live pointers and the sizes they were requested with. -/
structure Process where
  heap : Heap
  live : List (Nat × Nat)

inductive Call where
  | malloc (size : Nat) (mmap : Option Nat)
  | free (ptr : Nat)
  | store (mem : Nat → BlockHeader)

def start (mem : Nat → BlockHeader) : Process := ⟨⟨mem, 0, 0, []⟩, []⟩

def step (pageLong : Int) (process : Process) : Call → Option Process
  | .malloc size mmap =>
      (myMalloc pageLong mmap process.heap size).map fun (ptr, heap) =>
        ⟨heap, if ptr = 0 then process.live else (ptr, size) :: process.live⟩
  | .free ptr =>
      some ⟨myFree process.heap ptr, process.live.filter fun entry => entry.1 ≠ ptr⟩
  | .store mem => some ⟨{ process.heap with mem }, process.live⟩

/-- The calls a correct program makes: requests of at most `2^63` bytes answered
by the system as it promises, frees of null or of a live pointer, and stores
inside one live payload. -/
def Valid (pageLong : Int) (process : Process) : Call → Prop
  | .malloc size mmap =>
      size ≤ 2 ^ 63 ∧ Answers pageLong process.heap (alignedSize size) mmap
  | .free ptr => ptr = 0 ∨ ∃ size, (ptr, size) ∈ process.live
  | .store mem =>
      ∃ entry ∈ process.live, ∀ address,
        address + sizeofBlockHeader ≤ entry.1 ∨ entry.1 + entry.2 ≤ address →
          mem address = process.heap.mem address

/-- Live pointers and allocated blocks correspond. -/
structure Owned (live : List (Nat × Nat)) (taken : List Block) : Prop where
  positive : ∀ entry ∈ live, 0 < entry.2
  backed : ∀ entry ∈ live, ∃ block ∈ taken, entry.1 = block.payload ∧ entry.2 ≤ block.size
  owned : ∀ block ∈ taken, ∃ size, (block.payload, size) ∈ live
  distinct : (live.map Prod.fst).Nodup

structure Sound (process : Process) (blocks : List Block) : Prop where
  tiled : Tiled process.heap blocks
  owned : Owned process.live (used blocks)

theorem mem_used {blocks : List Block} {block : Block} :
    block ∈ used blocks ↔ block ∈ blocks ∧ block.free = false := by
  simp [used]

theorem Owned.add {live : List (Nat × Nat)} {left right : List Block} {block : Block}
    {size : Nat} (owned : Owned live (left ++ right)) (positive : 0 < size)
    (fits : size ≤ block.size)
    (fresh : ∀ other ∈ left ++ right, other.payload ≠ block.payload) :
    Owned ((block.payload, size) :: live) (left ++ block :: right) where
  positive entry member := by
    rcases List.mem_cons.mp member with rfl | member
    · exact positive
    · exact owned.positive entry member
  backed entry member := by
    rcases List.mem_cons.mp member with rfl | member
    · exact ⟨block, by simp, rfl, fits⟩
    · obtain ⟨other, inside, payload, large⟩ := owned.backed entry member
      refine ⟨other, ?_, payload, large⟩
      rcases List.mem_append.mp inside with inside | inside <;> simp [inside]
  owned other member := by
    by_cases new : other = block
    · exact ⟨size, by simp [new]⟩
    · obtain ⟨n, known⟩ := owned.owned other (by simpa [new] using member)
      exact ⟨n, List.mem_cons_of_mem _ known⟩
  distinct := by
    rw [List.map_cons, List.nodup_cons]
    refine ⟨?_, owned.distinct⟩
    intro known
    obtain ⟨entry, member, payload⟩ := List.mem_map.mp known
    obtain ⟨other, inside, isPayload, -⟩ := owned.backed entry member
    exact fresh other inside (isPayload.symm.trans payload)

theorem Owned.remove {live : List (Nat × Nat)} {left right : List Block} {block : Block}
    (owned : Owned live (left ++ block :: right))
    (distinct : ∀ other ∈ left ++ right, other.payload ≠ block.payload) :
    Owned (live.filter fun entry => entry.1 ≠ block.payload) (left ++ right) where
  positive entry member := owned.positive entry (List.mem_of_mem_filter member)
  backed entry member := by
    obtain ⟨inLive, notFreed⟩ := List.mem_filter.mp member
    obtain ⟨other, inside, payload, large⟩ := owned.backed entry inLive
    refine ⟨other, ?_, payload, large⟩
    have notBlock : other ≠ block := by
      rintro rfl
      simp [payload] at notFreed
    simpa [notBlock] using inside
  owned other member := by
    obtain ⟨size, known⟩ := owned.owned other (by
      rcases List.mem_append.mp member with member | member <;> simp [member])
    exact ⟨size, List.mem_filter.mpr ⟨known, by simpa using distinct other member⟩⟩
  distinct := owned.distinct.sublist (List.Sublist.map _ (List.filter_sublist ..))

/-- In a tiling the other allocated blocks have other payloads. -/
theorem used_payload_ne {left right : List Block} {block : Block}
    (apart : Apart blockShape (left ++ block :: right)) (other : Block)
    (member : other ∈ used left ++ used right) : other.payload ≠ block.payload := by
  obtain ⟨before, -, after⟩ := apart_sides apart
  have wide := block_lt_stop block
  unfold Block.payload
  rcases List.mem_append.mp member with member | member
  · have lower := before other (mem_used.mp member).1
    omega
  · have upper := after other (mem_used.mp member).1
    omega

/-- The payload of a live pointer meets no header. -/
theorem Sound.clear {process : Process} {blocks : List Block} (sound : Sound process blocks)
    {entry : Nat × Nat} (member : entry ∈ process.live) (block : Block) (inside : block ∈ blocks) :
    block.addr + 48 ≤ entry.1 ∨ entry.1 + entry.2 ≤ block.addr := by
  obtain ⟨backing, taken, payload, large⟩ := sound.owned.backed entry member
  have stopEq : backing.stop = backing.addr + 48 + backing.size := rfl
  have wide := block_lt_stop block
  rw [payload, Block.payload]
  rcases sound.tiled.apart.sides (mem_used.mp taken).1 inside with rfl | before | after
  · exact Or.inl (Nat.le_refl _)
  · change backing.stop ≤ block.addr at before
    omega
  · change block.stop ≤ backing.addr at after
    omega

section Steps
variable {pageLong : Int} {process : Process} {blocks : List Block}

/-- What a call does to the list of blocks. -/
inductive Change (pageLong : Int) (blocks : List Block) : Call → List Block → Prop where
  | kept (call : Call) : Change pageLong blocks call blocks
  | taken {size : Nat} {mmap : Option Nat} {left right tail : List Block} {block front : Block}
      (positive : 0 < alignedSize size) (isFree : block.free = true)
      (found : Found pageLong mmap (alignedSize size) blocks left block right)
      (taken : Taken block (alignedSize size) front tail) :
      Change pageLong blocks (.malloc size mmap) (left ++ front :: (tail ++ right))
  | freed {left right init rest : List Block} {block merged : Block}
      (split : blocks = left ++ block :: right) (allocated : block.free = false)
      (released : Released left block right init merged rest) :
      Change pageLong blocks (.free block.payload) (init ++ merged :: rest)

/-- A request whose size does not wrap, with regions that hold it, returns null or a block that
no allocation held. -/
theorem malloc_change (page : PageSize pageLong) (sound : Sound process blocks) {size : Nat}
    {mmap : Option Nat} (aligned : 16 ∣ alignedSize size) (large : size ≤ alignedSize size)
    (region : ∀ base ∈ mmap, Region pageLong process.heap (alignedSize size) base ∧
      48 + alignedSize size ≤ arenaTotal pageLong (alignedSize size)) :
    ∃ next blocks', step pageLong process (.malloc size mmap) = some next ∧
      Sound next blocks' ∧ Change pageLong blocks (.malloc size mmap) blocks' := by
  unfold step
  rcases myMalloc_cases sound.tiled page aligned large region
    with ⟨failed, -⟩ |
      ⟨heap', left, block, right, front, tail, answer, tiled, positive, isFree, found, taken⟩
  · exact ⟨process, blocks, by simp [failed], sound, .kept _⟩
  · have nonnull : front.payload ≠ 0 := by
      unfold Block.payload
      omega
    refine ⟨⟨heap', (front.payload, size) :: process.live⟩, left ++ front :: (tail ++ right),
      by simp [answer, nonnull], ⟨tiled, ?_⟩, .taken (by omega) isFree found taken⟩
    have owned := sound.owned
    rw [found.used_eq isFree, used_append] at owned
    have apart : ∀ other ∈ used left ++ used right, other.payload ≠ front.payload := by
      have others := used_payload_ne tiled.apart
      rw [used_append, taken.used_tail] at others
      exact others
    rw [used_append, used_cons_taken taken.taken, used_append, taken.used_tail, List.nil_append]
    exact owned.add positive (large.trans taken.fits) apart

theorem free_change (sound : Sound process blocks) {ptr : Nat}
    (valid : Valid pageLong process (.free ptr)) :
    ∃ next blocks', step pageLong process (.free ptr) = some next ∧ Sound next blocks' ∧
      Change pageLong blocks (.free ptr) blocks' := by
  unfold step
  rcases valid with rfl | ⟨size, member⟩
  · refine ⟨process, blocks, ?_, sound, .kept _⟩
    have kept : process.live.filter (fun entry => entry.1 ≠ 0) = process.live := by
      refine List.filter_eq_self.mpr fun entry member => ?_
      obtain ⟨block, -, payload, -⟩ := sound.owned.backed entry member
      simp [payload, Block.payload]
    dsimp only
    rw [kept]
    rfl
  · obtain ⟨block, taken, payload, large⟩ := sound.owned.backed _ member
    have positive := sound.owned.positive _ member
    dsimp only at payload large positive
    obtain ⟨inside, notFree⟩ := mem_used.mp taken
    obtain ⟨left, right, rfl⟩ := List.append_of_mem inside
    obtain ⟨init, merged, rest, tiled, released⟩ := myFree_cases sound.tiled (by omega)
    rw [payload]
    refine ⟨_, init ++ merged :: rest, rfl, ⟨tiled, ?_⟩, .freed rfl notFree released⟩
    have owned := sound.owned
    rw [used_append, used_cons_taken notFree] at owned
    rw [released.used_eq, used_append]
    exact owned.remove (used_payload_ne sound.tiled.apart)

theorem store_sound (sound : Sound process blocks) {mem : Nat → BlockHeader}
    (valid : Valid pageLong process (.store mem)) :
    ∃ next, step pageLong process (.store mem) = some next ∧ Sound next blocks := by
  obtain ⟨entry, member, agree⟩ := valid
  refine ⟨_, rfl, ⟨?_, sound.tiled.apart, sound.tiled.covered, sound.tiled.mapped⟩, sound.owned⟩
  refine sound.tiled.stores.congr rfl fun block inside => ?_
  have clear := sound.clear member block inside
  have size : sizeofBlockHeader = 40 := rfl
  exact agree block.addr (by omega)

theorem answers_region (page : PageSize pageLong) {heap : Heap} {size : Nat} {mmap : Option Nat}
    (bound : size ≤ 2 ^ 63) (answers : Answers pageLong heap size mmap) (base : Nat)
    (answer : base ∈ mmap) :
    Region pageLong heap size base ∧ 48 + size ≤ arenaTotal pageLong size := by
  obtain ⟨aligned, large⟩ := arenaTotal_spec page bound
  exact ⟨⟨aligned, by omega, answers base answer⟩, large⟩

theorem step_change (page : PageSize pageLong) (sound : Sound process blocks) (call : Call)
    (valid : Valid pageLong process call) :
    ∃ next blocks', step pageLong process call = some next ∧ Sound next blocks' ∧
      Change pageLong blocks call blocks' := by
  cases call with
  | malloc size mmap =>
      obtain ⟨aligned, large, bound⟩ := alignedSize_spec valid.1
      exact malloc_change page sound aligned large (answers_region page bound valid.2)
  | free ptr => exact free_change sound valid
  | store mem =>
      obtain ⟨next, stepped, kept⟩ := store_sound sound valid
      exact ⟨next, blocks, stepped, kept, .kept _⟩

theorem step_sound (page : PageSize pageLong) (sound : ∃ blocks, Sound process blocks)
    (call : Call) (valid : Valid pageLong process call) :
    ∃ next, step pageLong process call = some next ∧ ∃ blocks, Sound next blocks := by
  obtain ⟨blocks, sound⟩ := sound
  obtain ⟨next, blocks', stepped, kept, -⟩ := step_change page sound call valid
  exact ⟨next, stepped, blocks', kept⟩

end Steps

theorem start_sound (mem : Nat → BlockHeader) : Sound (start mem) [] where
  tiled :=
    { stores := ⟨rfl, trivial⟩
      apart := List.Pairwise.nil
      covered := by simp [Covers, Mapped, start]
      mapped := rfl }
  owned := ⟨by simp [start], by simp [start], by simp [used], by simp [start]⟩

/-! ## The invariant of every run -/

/-- What a user of the allocator can rely on. -/
structure HeapInvariant (process : Process) (blocks : List Block) : Prop where
  linked : Stores process.heap blocks
  ordered : blocks.Pairwise fun left right => left.addr < right.addr
  noOverlap : Apart blockShape blocks
  noGap : ∀ address, (∃ block ∈ blocks, block.addr ≤ address ∧
    address < block.addr + 48 + block.size) ↔ Mapped process.heap.arenas address
  sizes : ∀ block ∈ blocks, 16 ∣ block.size
  live : ∀ entry ∈ process.live, 16 ∣ entry.1 ∧ ∃ block ∈ blocks, block.free = false ∧
    entry.1 = block.addr + 48 ∧ entry.2 ≤ block.size
  livesApart : process.live.Pairwise fun first second =>
    first.1 + first.2 ≤ second.1 ∨ second.1 + second.2 ≤ first.1
  headersApart : ∀ entry ∈ process.live, ∀ block ∈ blocks,
    block.addr + 48 ≤ entry.1 ∨ entry.1 + entry.2 ≤ block.addr
  stats : ∃ stats, myAllocatorGetStats process.heap = some stats ∧
    stats.mappedBytes = stats.allocatedBytes + stats.freeBytes +
      48 * (stats.allocatedBlocks + stats.freeBlocks)

theorem Sound.stats {process : Process} {blocks : List Block} (sound : Sound process blocks) :
    ∃ stats, myAllocatorGetStats process.heap = some stats ∧
      stats.mappedBytes = stats.allocatedBytes + stats.freeBytes +
        48 * (stats.allocatedBlocks + stats.freeBlocks) := by
  obtain ⟨stores, apart, -, mapped⟩ := sound.tiled
  let zero : MyAllocatorStats := ⟨process.heap.mappedBytes, 0, 0, 0, 0⟩
  have small := extent_lt apart
  have none : tallied zero = 0 := rfl
  have total := tallied_foldl blocks zero
  have answer := statsLoop_spec stores.chain (length_lt_walkFuel apart) zero (by omega)
  refine ⟨blocks.foldl tally zero, ?_, ?_⟩
  · rw [myAllocatorGetStats, stores.head]
    exact answer
  · calc (blocks.foldl tally zero).mappedBytes
        = process.heap.mappedBytes := foldl_tally_mappedBytes blocks zero
      _ = extent blockShape blocks := mapped
      _ = tallied (blocks.foldl tally zero) := by omega

theorem Sound.livesApart {process : Process} {blocks : List Block}
    (sound : Sound process blocks) :
    process.live.Pairwise fun first second =>
      first.1 + first.2 ≤ second.1 ∨ second.1 + second.2 ≤ first.1 := by
  have distinct : process.live.Pairwise fun first second => first.1 ≠ second.1 :=
    List.pairwise_map.mp sound.owned.distinct
  refine List.Pairwise.imp_of_mem ?_ distinct
  intro first second member member' differ
  obtain ⟨block, taken, payload, large⟩ := sound.owned.backed first member
  obtain ⟨block', taken', payload', large'⟩ := sound.owned.backed second member'
  have stopEq : block.stop = block.addr + 48 + block.size := rfl
  have stopEq' : block'.stop = block'.addr + 48 + block'.size := rfl
  rw [payload, payload', Block.payload, Block.payload] at differ ⊢
  rcases sound.tiled.apart.sides (mem_used.mp taken).1 (mem_used.mp taken').1
    with rfl | before | after
  · exact absurd rfl differ
  · change block.stop ≤ block'.addr at before
    omega
  · change block'.stop ≤ block.addr at after
    omega

theorem Sound.invariant {process : Process} {blocks : List Block}
    (sound : Sound process blocks) : HeapInvariant process blocks where
  linked := sound.tiled.stores
  ordered := apart_sorted sound.tiled.apart
  noOverlap := sound.tiled.apart
  noGap := sound.tiled.covered
  sizes block _ := block.sizeAligned
  live entry member := by
    obtain ⟨block, taken, payload, large⟩ := sound.owned.backed entry member
    have aligned := block.addrAligned
    obtain ⟨inside, notFree⟩ := mem_used.mp taken
    refine ⟨?_, block, inside, notFree, payload, large⟩
    rw [payload, Block.payload]
    omega
  livesApart := sound.livesApart
  headersApart _ member := sound.clear member
  stats := sound.stats

/-- From the empty heap every sequence of valid calls goes through, and ends in
a heap with the invariant. -/
theorem heap_run_invariant (pageLong : Int) (page : PageSize pageLong)
    (mem : Nat → BlockHeader) (calls : List Call)
    (valid : AdmitsPartial (step pageLong) (Valid pageLong) (start mem) calls) :
    ∃ process blocks, runPartial (step pageLong) (start mem) calls = some process ∧
      HeapInvariant process blocks := by
  obtain ⟨process, ran, blocks, sound⟩ := runPartial_invariant
    (fun process => ∃ blocks, Sound process blocks)
    (fun process call sound valid => step_sound page sound call valid)
    (start mem) calls ⟨[], start_sound mem⟩ valid
  exact ⟨process, blocks, ran, sound.invariant⟩

/-- Two allocations from one arena, the second with `mmap` failing, and a free. -/
theorem heap_run_invariant_two_allocations :
    PageSize 4096 ∧
      ∃ process blocks, runPartial (step 4096) (start fun _ => ⟨0, 0, false, 0, 0⟩)
          [.malloc 24 (some 65536), .malloc 100 none, .free 65584] = some process ∧
        HeapInvariant process blocks := by
  have page : PageSize 4096 := ⟨by decide, by decide⟩
  refine ⟨page, heap_run_invariant 4096 page _ _ ⟨⟨by decide, ?_⟩, ?_⟩⟩
  · rintro base ⟨⟩
    exact ⟨by decide, by decide, by decide, by simp [start]⟩
  · intro first firstStep
    refine ⟨⟨by decide, by simp [Answers]⟩, ?_⟩
    intro second secondStep
    have live : ((step 4096 (start fun _ => ⟨0, 0, false, 0, 0⟩) (.malloc 24 (some 65536))).bind
        fun process => (step 4096 process (.malloc 100 none)).map Process.live) =
          some [(65664, 100), (65584, 24)] := by
      decide +kernel
    rw [firstStep, Option.bind_some, secondStep] at live
    have isLive : second.live = [(65664, 100), (65584, 24)] := Option.some.inj live
    exact ⟨Or.inr ⟨24, by simp [isLive]⟩, fun _ _ => trivial⟩

end EmbeddedRuntime.Allocator.HeapRun
