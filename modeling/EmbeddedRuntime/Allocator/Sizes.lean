import EmbeddedRuntime.Allocator.HeapRun

/-!
# Requests of every size

Rounding a request up to 16, adding the header, rounding to a page and the
threshold of `split_block` are sums of 64-bit words, and each of them can wrap.
A request within 64 bytes of the end is served only when it cannot be served.
-/

set_option autoImplicit false

namespace EmbeddedRuntime.Allocator.Sizes

open EmbeddedRuntime.Allocator.Model
open EmbeddedRuntime.Allocator.BlockList
open EmbeddedRuntime.Allocator.Walks
open EmbeddedRuntime.Allocator.Arenas
open EmbeddedRuntime.Allocator.Calls
open EmbeddedRuntime.Allocator.HeapRun
open EmbeddedRuntime.Lib.LinkedList
open EmbeddedRuntime.Lib.Machine
open EmbeddedRuntime.Lib.Tiling
open EmbeddedRuntime.Lib.Word64

/-! ## Calls of any size -/

/-- What `mmap` promises for any length: it refuses 0, and a region it returns lies in the
address space. -/
def Grants (pageLong : Int) (heap : Heap) (size : Nat) (mmap : Option Nat) : Prop :=
  ∀ base ∈ mmap, 0 < arenaTotal pageLong size ∧
    FreshRegion (pageSize pageLong) heap.arenas base (arenaTotal pageLong size)

/-- As `Valid`, for a request of any 64-bit size. -/
def AnySize (pageLong : Int) (process : Process) : Call → Prop
  | .malloc size mmap =>
      size < 2 ^ 64 ∧ Grants pageLong process.heap (alignedSize size) mmap
  | .free ptr => Valid pageLong process (.free ptr)
  | .store mem => Valid pageLong process (.store mem)

def NoFree (heap : Heap) : Prop :=
  ∀ blocks, Stores heap blocks → ∀ block ∈ blocks, block.free = false

/-- The request is at most `2^64 - 64`; or `mmap` fails, and it is at most `2^64 - 16` or no block
is free. -/
def Meets (heap : Heap) (size : Nat) (mmap : Option Nat) : Prop :=
  size + 64 ≤ 2 ^ 64 ∨ mmap = none ∧ (size + 16 ≤ 2 ^ 64 ∨ NoFree heap)

def Handled (pageLong : Int) (process : Process) (call : Call) : Prop :=
  AnySize pageLong process call ∧
    match call with
    | .malloc size mmap => Meets process.heap size mmap
    | .free _ => True
    | .store _ => True

/-! ## What the caller relies on -/

/-- No two arenas meet or touch. -/
def Separate (arenas : List (Nat × Nat)) : Prop :=
  ∀ first ∈ arenas, ∀ second ∈ arenas,
    first = second ∨ first.1 + first.2 < second.1 ∨ second.1 + second.2 < first.1

/-- A block of the recorded size, wholly in mapped memory; in one arena, unless arenas that touch
were joined. -/
structure Served (heap : Heap) (size : Nat) (block : Block) : Prop where
  taken : block.free = false
  fits : size ≤ block.size
  mapped : ∀ address, block.addr ≤ address → address < block.stop → Mapped heap.arenas address
  oneArena : Separate heap.arenas →
    ∃ arena ∈ heap.arenas, arena.1 ≤ block.addr ∧ block.stop ≤ arena.1 + arena.2

/-- The blocks tile the arenas, and the pointer is null or that of a block that serves the
request. -/
def Safe (heap : Heap) (ptr size : Nat) : Prop :=
  ∃ blocks, Tiled heap blocks ∧
    (ptr = 0 ∨ ∃ block ∈ blocks, ptr = block.payload ∧ Served heap size block)

/-- `my_malloc` returns, and safely. -/
def SafeCall (pageLong : Int) (mmap : Option Nat) (heap : Heap) (size : Nat) : Prop :=
  ∃ ptr heap', myMalloc pageLong mmap heap size = some (ptr, heap') ∧ Safe heap' ptr size

/-- Memory mapped without a gap by arenas that do not touch is mapped by one of them. -/
theorem mapped_oneArena {arenas : List (Nat × Nat)} (separate : Separate arenas) {low high : Nat}
    (nonempty : low < high) (mapped : ∀ address, low ≤ address → address < high →
      Mapped arenas address) :
    ∃ arena ∈ arenas, arena.1 ≤ low ∧ high ≤ arena.1 + arena.2 := by
  have detached : Detached ⟨Prod.fst, fun arena => arena.1 + arena.2⟩ arenas := separate
  exact detached.covers_one nonempty mapped

theorem tiled_served {heap : Heap} {blocks : List Block} (tiled : Tiled heap blocks)
    {block : Block} (member : block ∈ blocks) {size : Nat} (taken : block.free = false)
    (fits : size ≤ block.size) : Served heap size block := by
  have mapped (address : Nat) (low : block.addr ≤ address) (high : address < block.stop) :
      Mapped heap.arenas address := (tiled.covered address).mp ⟨block, member, low, high⟩
  have wide := block_lt_stop block
  exact ⟨taken, fits, mapped, fun separate => mapped_oneArena separate (by omega) mapped⟩

/-! ## The requests that are served -/

section Serving
variable {heap : Heap} {blocks : List Block} {pageLong : Int} {mmap : Option Nat} {size : Nat}

/-- A request that does not wrap, with regions that hold it. -/
theorem safe_of_room (tiled : Tiled heap blocks) (page : PageSize pageLong)
    (aligned : 16 ∣ alignedSize size) (large : size ≤ alignedSize size)
    (region : ∀ base ∈ mmap, Region pageLong heap (alignedSize size) base ∧
      48 + alignedSize size ≤ arenaTotal pageLong (alignedSize size)) :
    SafeCall pageLong mmap heap size := by
  rcases myMalloc_cases tiled page aligned large region
    with ⟨failed, -⟩ |
      ⟨heap', left, block, right, front, tail, answer, tiled', positive, isFree, found, taken⟩
  · exact ⟨0, heap, failed, blocks, tiled, Or.inl rfl⟩
  · have member : front ∈ left ++ front :: (tail ++ right) := by simp
    exact ⟨front.payload, heap', answer, _, tiled', Or.inr ⟨front, member, rfl,
      tiled_served tiled' member taken.taken (large.trans taken.fits)⟩⟩

theorem grants_region (page : PageSize pageLong) (power : pageSize pageLong ∣ 2 ^ 64)
    (bound : size + 64 ≤ 2 ^ 64) (grants : Grants pageLong heap size mmap) (base : Nat)
    (answer : base ∈ mmap) :
    Region pageLong heap size base ∧ 48 + size ≤ arenaTotal pageLong size := by
  obtain ⟨positive, fresh⟩ := grants base answer
  rcases arenaTotal_cases page power bound with none | ⟨aligned, large⟩
  · omega
  · exact ⟨⟨aligned, by omega, fresh⟩, large⟩

/-- The same call when the aligned size is at most `2^64 - 64`. -/
theorem alignedSize_bound (bound : size + 64 ≤ 2 ^ 64) :
    16 ∣ alignedSize size ∧ size ≤ alignedSize size ∧ alignedSize size + 64 ≤ 2 ^ 64 := by
  rcases alignedSize_cases (n := size) (by omega) with ⟨-, aligned, large, close⟩ | ⟨wraps, -⟩
  · exact ⟨aligned, large, by omega⟩
  · omega

/-- Without a free block and without a new arena there is nothing to return. -/
theorem myMalloc_null (tiled : Tiled heap blocks) (page : PageSize pageLong)
    (noFree : ∀ block ∈ blocks, block.free = false) :
    myMalloc pageLong none heap size = some (0, heap) := by
  unfold myMalloc
  by_cases zero : size = 0
  · exact if_pos zero
  · rw [if_neg zero]
    rcases @fitOrArena_cases heap blocks pageLong none (alignedSize size) tiled page nofun
      with ⟨failed, -⟩ | ⟨heap', left, block, right, -, -, isFree, found⟩
    · dsimp only
      rw [failed]
      rfl
    · cases found with
      | fit split fits =>
          have busy := noFree block (by rw [split]; simp)
          rw [isFree] at busy
          cases busy
      | arena base answer => cases answer

theorem safe_of_meets (tiled : Tiled heap blocks) (page : PageSize pageLong)
    (power : pageSize pageLong ∣ 2 ^ 64) (small : size < 2 ^ 64)
    (grants : Grants pageLong heap (alignedSize size) mmap) (meets : Meets heap size mmap) :
    SafeCall pageLong mmap heap size := by
  rcases meets with bound | ⟨rfl, bound | noFree⟩
  · obtain ⟨aligned, large, alignedBound⟩ := alignedSize_bound bound
    exact safe_of_room tiled page aligned large (grants_region page power alignedBound grants)
  · rcases alignedSize_cases small with ⟨-, aligned, large, -⟩ | ⟨wraps, -⟩
    · exact safe_of_room tiled page aligned large nofun
    · omega
  · have answer : myMalloc pageLong none heap size = some (0, heap) :=
      myMalloc_null tiled page (noFree blocks tiled.stores)
    exact ⟨0, heap, answer, blocks, tiled, Or.inl rfl⟩

end Serving

/-! ## The requests that are not -/

section Wrapping
variable {heap : Heap} {blocks : List Block} {pageLong : Int} {mmap : Option Nat} {size : Nat}

/-- The size that `split_block` leaves in the header. -/
theorem splitBlock_size (heap : Heap) (address size : Nat) :
    (((splitBlock heap address size).modify address fun b => { b with free := false }).mem
        address).size =
      if (heap.mem address).size < add64 (add64 size headerSize) alignment then
        (heap.mem address).size
      else size := by
  unfold splitBlock
  split_ifs <;> simp

/-- A block is found, and the size left in its header is too small or too large. -/
theorem unsafe_of_header (positive : 0 < size) {heap' : Heap} {left right : List Block}
    {block : Block}
    (answer : fitOrArena pageLong mmap heap (alignedSize size) = some (block.addr, heap'))
    (stores : Stores heap' (left ++ block :: right)) (nonempty : 0 < block.size)
    (wrong : ∀ recorded, recorded =
        (if block.size < add64 (add64 (alignedSize size) headerSize) alignment then block.size
        else alignedSize size) →
      recorded < size ∨ 2 ^ 64 < 64 + recorded) :
    ¬ SafeCall pageLong mmap heap size := by
  rintro ⟨ptr, final, called, others, tiled, served⟩
  have inside := block.inside
  have header := stores.header
  have payloadEq : add64 block.addr headerSize = block.payload := by
    rw [headerSize_eq, add64_of_lt (by omega), Block.payload]
  unfold myMalloc at called
  rw [if_neg positive.ne'] at called
  dsimp only at called
  rw [answer] at called
  simp only [Option.map_some, if_neg block.nonnull.ne', payloadEq] at called
  obtain ⟨rfl, rfl⟩ := Prod.mk.inj (Option.some.inj called)
  rcases served with null | ⟨other, member, same, -, fits, -⟩
  · exact absurd null (by unfold Block.payload; omega)
  · obtain ⟨before, after, rfl⟩ := List.append_of_mem member
    have sameAddr : other.addr = block.addr := by
      unfold Block.payload at same
      omega
    have recorded := splitBlock_size heap' block.addr (alignedSize size)
    rw [header] at recorded
    have otherHeader := tiled.stores.header
    rw [sameAddr] at otherHeader
    rw [otherHeader] at recorded
    have otherInside := other.inside
    have otherNonnull := other.nonnull
    have otherAligned := other.addrAligned
    rcases wrong other.size recorded with low | high
    · omega
    · omega

theorem region_min (page : PageSize pageLong) (power : pageSize pageLong ∣ 2 ^ 64)
    (grants : Grants pageLong heap size mmap) (base : Nat) (answer : base ∈ mmap) :
    Region pageLong heap size base ∧ arenaMin ≤ arenaTotal pageLong size := by
  obtain ⟨positive, fresh⟩ := grants base answer
  have least : 48 ≤ arenaMin := by decide
  rcases arenaTotal_min page power size with none | ⟨aligned, large⟩
  · omega
  · exact ⟨⟨aligned, by omega, fresh⟩, large⟩

/-- The aligned size does not wrap, but what is added to it does: a fresh arena is far too small
and its block is split all the same. -/
theorem unsafe_near (tiled : Tiled heap blocks) (page : PageSize pageLong)
    (power : pageSize pageLong ∣ 2 ^ 64) (positive : 0 < size)
    (grants : Grants pageLong heap (alignedSize size) mmap) (answered : mmap ≠ none)
    (aligned : 16 ∣ alignedSize size) (near : 2 ^ 64 < alignedSize size + 64)
    (small : alignedSize size < 2 ^ 64) : ¬ SafeCall pageLong mmap heap size := by
  have region := region_min page power grants
  rcases fitOrArena_cases tiled page fun base answer => (region base answer).1
    with ⟨-, noAnswer, -⟩ | ⟨heap', left, block, right, answer, tiled', isFree, found⟩
  · exact absurd noAnswer answered
  · have inside := block.inside
    have nonnull := block.nonnull
    have addrAligned := block.addrAligned
    cases found with
    | fit split fits => omega
    | arena base mapped split noFit addr stop =>
        have least := (region base mapped).2
        have stopEq : block.stop = block.addr + 48 + block.size := rfl
        have arenaMinEq : arenaMin = 65536 := rfl
        have threshold : add64 (add64 (alignedSize size) headerSize) alignment < 64 := by
          rw [headerSize_eq, alignment]
          unfold add64
          omega
        refine unsafe_of_header positive answer tiled'.stores (by omega) ?_
        rintro recorded rfl
        rw [if_neg (by omega)]
        exact Or.inr (by omega)

/-- The aligned size wraps to 0: any block will do. -/
theorem unsafe_zero (tiled : Tiled heap blocks) (nonempty : ∀ block ∈ blocks, 0 < block.size)
    (page : PageSize pageLong) (power : pageSize pageLong ∣ 2 ^ 64) (large : 64 ≤ size)
    (grants : Grants pageLong heap (alignedSize size) mmap) (zero : alignedSize size = 0)
    (other : ¬ (mmap = none ∧ NoFree heap)) : ¬ SafeCall pageLong mmap heap size := by
  have region := region_min page power grants
  have threshold : add64 (add64 (alignedSize size) headerSize) alignment = 64 := by
    rw [zero]
    decide
  rcases fitOrArena_cases tiled page fun base answer => (region base answer).1
    with ⟨-, noAnswer, noFit⟩ | ⟨heap', left, block, right, answer, tiled', isFree, found⟩
  · refine absurd ⟨noAnswer, fun others stores block member => ?_⟩ other
    rw [stores.unique tiled.stores] at member
    have busy := noFit block member
    rw [zero] at busy
    simpa using busy
  · have positive : 0 < block.size := by
      cases found with
      | fit split fits => exact nonempty block (by rw [split]; simp)
      | arena base mapped split noFit addr stop =>
          have least := (region base mapped).2
          have stopEq : block.stop = block.addr + 48 + block.size := rfl
          have arenaMinEq : arenaMin = 65536 := rfl
          omega
    refine unsafe_of_header (by omega) answer tiled'.stores positive ?_
    rintro recorded rfl
    rw [threshold, zero]
    refine Or.inl ?_
    split_ifs <;> omega

theorem unsafe_of_not_meets (tiled : Tiled heap blocks)
    (nonempty : ∀ block ∈ blocks, 0 < block.size) (page : PageSize pageLong)
    (power : pageSize pageLong ∣ 2 ^ 64) (small : size < 2 ^ 64)
    (grants : Grants pageLong heap (alignedSize size) mmap) (fails : ¬ Meets heap size mmap) :
    ¬ SafeCall pageLong mmap heap size := by
  have near : 2 ^ 64 < size + 64 := by
    by_contra bound
    exact fails (Or.inl (by omega))
  have other : ¬ (mmap = none ∧ (size + 16 ≤ 2 ^ 64 ∨ NoFree heap)) :=
    fun both => fails (Or.inr both)
  rcases alignedSize_cases small with ⟨bound, aligned, large, close⟩ | ⟨-, zero⟩
  · exact unsafe_near tiled page power (by omega) grants
      (fun none => other ⟨none, Or.inl bound⟩) aligned (by omega) (by omega)
  · exact unsafe_zero tiled nonempty page power (by omega) grants zero
      fun both => other ⟨both.1, Or.inr both.2⟩

end Wrapping

/-! ## Runs -/

/-- The heap is sound, and no block is empty. -/
def Filled (process : Process) : Prop :=
  ∃ blocks, Sound process blocks ∧ ∀ block ∈ blocks, 0 < block.size

section Runs
variable {pageLong : Int} {process : Process} {blocks : List Block}

theorem change_nonempty {call : Call} {blocks' : List Block}
    (change : Change pageLong blocks call blocks') (nonempty : ∀ block ∈ blocks, 0 < block.size) :
    ∀ block ∈ blocks', 0 < block.size := by
  cases change with
  | kept => exact nonempty
  | @taken size mmap left right tail block front positive isFree found taken =>
      have outside : ∀ other ∈ left ++ right, 0 < other.size := by
        intro other member
        cases found with
        | fit split fits =>
            apply nonempty other
            rw [split]
            simp only [List.mem_append, List.mem_cons] at member ⊢
            exact member.imp id Or.inr
        | arena base answer split => exact nonempty other (by rw [split]; exact member)
      intro other member
      simp only [List.mem_append, List.mem_cons] at member
      rcases member with before | rfl | inTail | after
      · exact outside other (List.mem_append_left _ before)
      · exact positive.trans_le taken.fits
      · rcases taken.rest with ⟨rfl, -⟩ | ⟨rest, rfl, -, -, -, room, -⟩
        · cases inTail
        · rw [List.mem_singleton.mp inTail]
          exact room
      · exact outside other (List.mem_append_right _ after)
  | @freed left right init rest block merged split allocated released =>
      subst split
      intro other member
      simp only [List.mem_append, List.mem_cons] at member
      rcases member with before | rfl | after
      · exact nonempty other (List.mem_append_left _ (released.init_sublist.subset before))
      · obtain ⟨low, high⟩ := released.covers
        have positive := nonempty block (by simp)
        change block.addr + 48 + block.size ≤ other.addr + 48 + other.size at high
        omega
      · exact nonempty other (List.mem_append_right _
          (List.mem_cons_of_mem _ (released.rest_sublist.subset after)))

theorem filled_of_change {call : Call} (nonempty : ∀ block ∈ blocks, 0 < block.size)
    (changed : ∃ next blocks', step pageLong process call = some next ∧ Sound next blocks' ∧
      Change pageLong blocks call blocks') :
    ∃ next, step pageLong process call = some next ∧ Filled next := by
  obtain ⟨next, blocks', stepped, sound, change⟩ := changed
  exact ⟨next, stepped, blocks', sound, change_nonempty change nonempty⟩

theorem step_filled (page : PageSize pageLong) (power : pageSize pageLong ∣ 2 ^ 64)
    (filled : Filled process) (call : Call) (handled : Handled pageLong process call) :
    ∃ next, step pageLong process call = some next ∧ Filled next := by
  obtain ⟨blocks, sound, nonempty⟩ := filled
  cases call with
  | malloc size mmap =>
      obtain ⟨⟨small, grants⟩, bound | ⟨rfl, bound | noFree⟩⟩ := handled
      · obtain ⟨aligned, large, alignedBound⟩ := alignedSize_bound bound
        exact filled_of_change nonempty (malloc_change page sound aligned large
          (grants_region page power alignedBound grants))
      · rcases alignedSize_cases small with ⟨-, aligned, large, -⟩ | ⟨wraps, -⟩
        · exact filled_of_change nonempty (malloc_change page sound aligned large nofun)
        · omega
      · refine ⟨process, ?_, blocks, sound, nonempty⟩
        have answer : myMalloc pageLong none process.heap size = some (0, process.heap) :=
          myMalloc_null sound.tiled page (noFree blocks sound.tiled.stores)
        rw [step, answer]
        rfl
  | free ptr => exact filled_of_change nonempty (free_change sound handled.1)
  | store mem =>
      obtain ⟨next, stepped, kept⟩ := store_sound sound handled.1
      exact ⟨next, stepped, blocks, kept, nonempty⟩

end Runs

theorem grants_fresh (mem : Nat → BlockHeader) (size : Nat)
    (total : arenaTotal 4096 size = 65536) :
    Grants 4096 (start mem).heap size (some 65536) := by
  rintro base ⟨⟩
  rw [total]
  exact ⟨by decide, by decide, by decide, by decide, by simp [start]⟩

end EmbeddedRuntime.Allocator.Sizes
