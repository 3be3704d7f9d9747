import EmbeddedRuntime.Allocator.ByteCalls
import EmbeddedRuntime.Allocator.Sizes

/-!
# What a client keeps in its payloads

`my_malloc` and `my_free` on bytes make the blocks that they make on records.
The headers they write are those of blocks, which no live payload meets, so in
every run a byte that the client has stored is there until it is overwritten or
freed.
-/

set_option autoImplicit false

namespace EmbeddedRuntime.Allocator.Bytes

open EmbeddedRuntime.Allocator.Model
  (BlockHeader Heap alignment blockMagic headerSize alignedSize arenaTotal walkBefore walkFuel
    findFit adjacent)
open EmbeddedRuntime.Allocator.Arenas
open EmbeddedRuntime.Allocator.BlockList
open EmbeddedRuntime.Allocator.Calls
open EmbeddedRuntime.Allocator.Sizes
open EmbeddedRuntime.Allocator.HeapRun (Answers Change HeapInvariant)
open EmbeddedRuntime.Lib.Machine
open EmbeddedRuntime.Lib.Tiling
open EmbeddedRuntime.Lib.Word64

/-! ## Allocation -/

theorem fitOrArena_follows {sites listed : List Nat} (spaced : Spaced sites)
    {before bytes : ByteHeap} {heap : Heap} (follows : Follows sites before heap bytes)
    (within : ∀ site ∈ listed, site ∈ sites) (closed : Closed listed heap) {pageLong : Int}
    {mmap : Option Nat} {size block : Nat} {heap' : Heap}
    (fresh : ∀ base ∈ mmap, base ≠ 0 ∧ base ∉ listed) (member : block ≠ 0 → block ∈ sites)
    (found : Model.fitOrArena pageLong mmap heap size = some (block, heap')) :
    ∃ bytes', fitOrArena pageLong mmap bytes size = some (block, bytes') ∧
      Follows sites before heap' bytes' := by
  obtain ⟨sameFit, -⟩ := findFit_follows
    (fun site inside => follows.headers site (within site inside)) closed.next size walkFuel
    closed.head
  unfold Model.fitOrArena at found
  unfold fitOrArena
  rw [follows.head, sameFit]
  obtain ⟨fit, answer, rest⟩ := Option.bind_eq_some_iff.mp found
  rw [answer, Option.bind_some]
  by_cases none : fit = 0
  · rw [if_pos none] at rest ⊢
    cases mmap with
    | none =>
        obtain ⟨rfl, rfl⟩ := Prod.mk.inj (Option.some.inj rest)
        exact ⟨bytes, rfl, follows⟩
    | some base =>
        obtain ⟨nonnull, unlisted⟩ := fresh base rfl
        have isBase : block = base := by
          unfold Model.mapArena at rest
          dsimp only at rest
          obtain ⟨_, -, same⟩ := Option.map_eq_some_iff.mp rest
          exact (Prod.mk.inj same).1.symm
        subst isBase
        exact mapArena_follows spaced follows within closed (member nonnull) unlisted rest
  · rw [if_neg none] at rest ⊢
    obtain ⟨rfl, rfl⟩ := Prod.mk.inj (Option.some.inj rest)
    exact ⟨bytes, rfl, follows⟩

/-- The tail that `split_block` writes is the block after the one taken. -/
theorem taken_tail {heap : Heap} {left right tail : List Block} {block front : Block} {size : Nat}
    (stores : Stores heap (left ++ block :: right)) (taken : Taken block size front tail)
    (stores' : Stores ((Model.splitBlock heap block.addr size).modify block.addr fun b =>
      { b with free := false }) (left ++ front :: (tail ++ right)))
    (bound : size ≤ 2 ^ 63)
    (room : ¬ (heap.mem block.addr).size < add64 (add64 size headerSize) alignment) :
    ∃ rest, tail = [rest] ∧ rest.addr = add64 (add64 block.addr headerSize) size ∧
      rest.addr ≠ block.addr := by
  have inside := block.inside
  have header := stores'.header
  have cut := splitBlock_size heap block.addr size
  rw [taken.addr] at header
  rw [if_neg room, header] at cut
  rw [splitThreshold (by omega), stores.header] at room
  have large : ¬ block.size < size + 64 := room
  rcases taken.rest with ⟨-, -, short⟩ | ⟨rest, isTail, -, restAddr, -, -, -⟩
  · exact absurd short large
  · have stopEq : front.stop = front.addr + 48 + front.size := rfl
    have sameAddr := taken.addr
    have frontSize : front.size = size := cut
    refine ⟨rest, isTail, ?_, by omega⟩
    rw [headerSize_eq, @add64_of_lt block.addr _ (by omega), add64_of_lt (by omega)]
    omega

theorem mem_sites {blocks : List Block} {block : Block} (member : block ∈ blocks) :
    block.addr ∈ blocks.map Block.addr := List.mem_map_of_mem member

/-- `my_malloc`: all that is written is headers of the blocks afterwards. -/
theorem myMalloc_follows {before : ByteHeap} {blocks blocks' : List Block} {pageLong : Int}
    {mmap : Option Nat} {n ptr : Nat} {heap' : Heap} (page : PageSize pageLong)
    (tiled : Tiled before.view blocks) (bound : n ≤ 2 ^ 63)
    (answers : Answers pageLong before.view (alignedSize n) mmap)
    (ran : Model.myMalloc pageLong mmap before.view n = some (ptr, heap'))
    (tiled' : Tiled heap' blocks') :
    ∃ bytes', myMalloc pageLong mmap before n = some (ptr, bytes') ∧
      Follows (blocks'.map Block.addr) before heap' bytes' := by
  obtain ⟨aligned, large, small⟩ := alignedSize_spec bound
  have region := HeapRun.answers_region page small answers
  have spaced := spaced_of_apart tiled'.apart
  have start := follows_view (blocks'.map Block.addr) before
  have fresh : ∀ base ∈ mmap, base ≠ 0 ∧ base ∉ blocks.map Block.addr := by
    intro base answer
    obtain ⟨⟨-, roomy, free⟩, -⟩ := region base answer
    refine ⟨free.nonnull.ne', fun listed => ?_⟩
    obtain ⟨block, member, same⟩ := List.mem_map.mp listed
    have clear := region_apart tiled.covered free (by omega) block member
    have wide := block_lt_stop block
    omega
  unfold Model.myMalloc at ran
  unfold myMalloc
  by_cases zero : n = 0
  · rw [if_pos zero] at ran ⊢
    obtain ⟨rfl, rfl⟩ := Prod.mk.inj (Option.some.inj ran)
    exact ⟨before, rfl, start⟩
  · rw [if_neg zero] at ran ⊢
    dsimp only at ran ⊢
    rcases fitOrArena_cases tiled page fun base answer => (region base answer).1
      with ⟨failed, -⟩ | ⟨heap₁, left, block, right, answer, tiled₁, -, source⟩
    · rw [failed] at ran
      obtain ⟨rfl, rfl⟩ := Prod.mk.inj (Option.some.inj ran)
      have same := tiled.stores.unique tiled'.stores
      subst same
      obtain ⟨bytes', answer, follows⟩ := fitOrArena_follows spaced start (fun _ inside => inside)
        (stores_closed tiled.stores) fresh (fun nonnull => absurd rfl nonnull) failed
      rw [answer]
      exact ⟨bytes', rfl, follows⟩
    · have fits : alignedSize n ≤ block.size := by
        cases source with
        | fit split fits => exact fits
        | arena base mapped split noFit addr stop =>
            have roomy := (region base mapped).2
            have stopEq : block.stop = block.addr + 48 + block.size := rfl
            omega
      obtain ⟨front, tail, taken, split⟩ := tiled₁.take aligned fits
      rw [answer, Option.map_some] at ran
      dsimp only at ran
      rw [if_neg block.nonnull.ne'] at ran
      obtain ⟨rfl, rfl⟩ := Prod.mk.inj (Option.some.inj ran)
      have same := split.stores.unique tiled'.stores
      subst same
      have here : block.addr ∈ (left ++ front :: (tail ++ right)).map Block.addr := by
        rw [← taken.addr]
        exact mem_sites (by simp)
      have within : ∀ site ∈ (left ++ block :: right).map Block.addr,
          site ∈ (left ++ front :: (tail ++ right)).map Block.addr := by
        intro site member
        obtain ⟨other, inside, rfl⟩ := List.mem_map.mp member
        rcases List.mem_append.mp inside with inside | inside
        · exact mem_sites (by simp [inside])
        · rcases List.mem_cons.mp inside with rfl | inside
          · exact here
          · exact mem_sites (by simp [inside])
      have older : ∀ site ∈ blocks.map Block.addr,
          site ∈ (left ++ block :: right).map Block.addr := by
        cases source with
        | fit split _ =>
            rw [split]
            exact fun _ inside => inside
        | arena base _ split _ _ _ =>
            rw [split]
            intro site member
            obtain ⟨other, inside, rfl⟩ := List.mem_map.mp member
            rcases List.mem_append.mp inside with inside | inside
            · exact mem_sites (by simp [inside])
            · exact mem_sites (by simp [inside])
      obtain ⟨bytes₁, answer', follows⟩ := fitOrArena_follows spaced start
        (fun site inside => within site (older site inside)) (stores_closed tiled.stores) fresh
        (fun _ => here) answer
      have closed := stores_closed tiled₁.stores
      have next := (closed.next block.addr (mem_sites (by simp))).mono within
      have cut : Follows _ before (Model.splitBlock heap₁ block.addr (alignedSize n))
          (splitBlock bytes₁ block.addr (alignedSize n)) :=
        splitBlock_follows spaced follows here next (by omega) fun room => by
          obtain ⟨rest, rfl, restAddr, apart⟩ :=
            taken_tail tiled₁.stores taken split.stores small room
          rw [← restAddr]
          exact ⟨mem_sites (by simp), apart⟩
      rw [answer', Option.map_some]
      dsimp only
      rw [if_neg block.nonnull.ne']
      exact ⟨_, rfl, cut.set spaced here (.free false) (fits_free false)⟩

/-! ## Release -/

theorem myFree_follows {before : ByteHeap} {left right : List Block} {block : Block}
    (tiled : Tiled before.view (left ++ block :: right)) (nonempty : 0 < block.size) :
    Follows ((left ++ block :: right).map Block.addr) before
      (Model.myFree before.view block.payload) (myFree before block.payload) := by
  have inside := block.inside
  have blockEq : sub64 block.payload headerSize = block.addr := by
    rw [headerSize_eq, Block.payload, sub64_of_le (by omega) (by omega)]
    omega
  have header : before.header block.addr = _ := tiled.stores.header
  have here : block.addr ∈ (left ++ block :: right).map Block.addr := mem_sites (by simp)
  have spaced := spaced_of_apart tiled.apart
  have marked := tiled.mark true
  have sameSites : (left ++ block.withFree true :: right).map Block.addr =
      (left ++ block :: right).map Block.addr := by
    rw [List.map_append, List.map_append]
    rfl
  have closed := stores_closed marked.stores
  rw [sameSites] at closed
  obtain ⟨joined, rest, listEq, sameAddr, -, after⟩ :=
    mergeNext_cases (block.withFree true) right
  have closed' := stores_closed marked.coalesce.stores
  rw [listEq] at closed'
  have within : ∀ site ∈ (left ++ joined :: rest).map Block.addr,
      site ∈ (left ++ block :: right).map Block.addr := by
    intro site member
    obtain ⟨other, known, rfl⟩ := List.mem_map.mp member
    rcases List.mem_append.mp known with known | known
    · exact mem_sites (by simp [known])
    · rcases List.mem_cons.mp known with rfl | known
      · rw [sameAddr]
        exact here
      · rcases after with ⟨rfl, -, -⟩ | ⟨next, rfl, -⟩
        · exact mem_sites (by simp [known])
        · exact mem_sites (by simp [known])
  have joinedHere : block.addr ∈ (left ++ joined :: rest).map Block.addr := by
    have same : joined.addr = block.addr := sameAddr
    rw [← same]
    exact mem_sites (by simp)
  rw [myFree_eq tiled.stores nonempty]
  unfold myFree
  dsimp only
  rw [if_neg (by unfold Block.payload; omega), blockEq, header, if_neg (by simp)]
  have first := (follows_view _ before).set spaced here (.free true) (fits_free true)
  have second := coalesceWithNext_follows spaced first (fun _ inside => inside) closed here
  exact coalesceWithPrev_follows spaced second within closed' joinedHere

/-! ## Runs -/

/-- The process without what it keeps in its payloads. -/
def Process.records (process : Process) : HeapRun.Process := ⟨process.heap.view, process.live⟩

/-- The calls a correct program makes: requests of at most `2^63` bytes answered by the system as
it promises, frees of null or of a live pointer, and stores into a live payload. -/
def Valid (pageLong : Int) (process : Process) : Call → Prop
  | .malloc size mmap =>
      size ≤ 2 ^ 63 ∧ Answers pageLong process.heap.view (alignedSize size) mmap
  | .free ptr => ptr = 0 ∨ ∃ size, (ptr, size) ∈ process.live
  | .store address _ => InPayload process.live address

structure Sound (process : Process) (blocks : List Block) : Prop where
  records : HeapRun.Sound process.records blocks
  stored : ∀ address byte, process.stored address = some byte →
    InPayload process.live address ∧ process.heap.bytes address = byte

theorem start_sound (bytes : Nat → UInt8) : Sound (start bytes) [] where
  records := HeapRun.start_sound _
  stored := nofun

/-- A heap of bytes that follows one of records stores the same blocks. -/
theorem Follows.tiled {sites : List Nat} {before bytes : ByteHeap} {heap : Heap}
    {blocks : List Block} (follows : Follows sites before heap bytes)
    (within : ∀ block ∈ blocks, block.addr ∈ sites) (tiled : Tiled heap blocks) :
    Tiled bytes.view blocks :=
  tiled.congr
    (tiled.stores.congr follows.head fun block member =>
      follows.headers block.addr (within block member))
    ⟨follows.head, follows.mappedBytes, follows.arenas⟩

/-- A payload byte is outside the headers. -/
theorem payload_clear {process : HeapRun.Process} {blocks : List Block}
    (sound : HeapRun.Sound process blocks) {address : Nat}
    (inside : InPayload process.live address) :
    ∀ site ∈ blocks.map Block.addr, address < site ∨ site + 40 ≤ address := by
  intro site member
  obtain ⟨block, known, rfl⟩ := List.mem_map.mp member
  obtain ⟨entry, live, low, high⟩ := inside
  have clear := sound.clear live block known
  omega

section Steps
variable {pageLong : Int} {process : Process} {blocks : List Block}

theorem malloc_sound (page : PageSize pageLong) (sound : Sound process blocks) {size : Nat}
    {mmap : Option Nat} (valid : Valid pageLong process (.malloc size mmap)) :
    ∃ next, step pageLong process (.malloc size mmap) = some next ∧
      ∃ blocks', Sound next blocks' := by
  obtain ⟨bound, answers⟩ := valid
  obtain ⟨aligned, large, small⟩ := alignedSize_spec bound
  obtain ⟨next, blocks', stepped, sound', -⟩ := HeapRun.malloc_change page sound.records aligned
    large (HeapRun.answers_region page small answers)
  obtain ⟨⟨ptr, heap'⟩, ran, rfl⟩ := Option.map_eq_some_iff.mp stepped
  obtain ⟨bytes', answer, follows⟩ :=
    myMalloc_follows page sound.records.tiled bound answers ran sound'.tiled
  refine ⟨_, by rw [step, answer]; rfl, blocks', ?_, fun address byte known => ?_⟩
  · exact ⟨follows.tiled (fun block member => mem_sites member) sound'.tiled, sound'.owned⟩
  · obtain ⟨⟨entry, member, bounds⟩, kept⟩ := sound.stored address byte known
    have live : InPayload (if ptr = 0 then process.live else (ptr, size) :: process.live)
        address := by
      refine ⟨entry, ?_, bounds⟩
      split_ifs
      · exact member
      · exact List.mem_cons_of_mem _ member
    refine ⟨live, ?_⟩
    rw [← kept]
    exact follows.rest address (payload_clear sound' live)

/-- The blocks after a free begin where blocks before it began. -/
theorem freed_sites {ptr : Nat} {blocks' : List Block}
    (change : Change pageLong blocks (.free ptr) blocks') (block : Block)
    (member : block ∈ blocks') : block.addr ∈ blocks.map Block.addr := by
  cases change with
  | kept => exact mem_sites member
  | freed split allocated released =>
      rw [split]
      rcases List.mem_append.mp member with member | member
      · exact mem_sites (List.mem_append_left _ (released.init_sublist.subset member))
      · rcases List.mem_cons.mp member with rfl | member
        · rcases released.before with ⟨-, same, -⟩ | ⟨prev, rfl, -, -, same⟩
          · rw [same]
            exact mem_sites (by simp)
          · rw [same]
            exact mem_sites (by simp)
        · exact mem_sites (by simp [released.rest_sublist.subset member])

theorem free_sound (sound : Sound process blocks) {ptr : Nat}
    (valid : Valid pageLong process (.free ptr)) :
    ∃ next, step pageLong process (.free ptr) = some next ∧ ∃ blocks', Sound next blocks' := by
  obtain ⟨next, blocks', stepped, sound', change⟩ :=
    @HeapRun.free_change pageLong _ _ sound.records _ valid
  obtain rfl := Option.some.inj stepped
  have follows : Follows (blocks.map Block.addr) process.heap
      (Model.myFree process.heap.view ptr) (myFree process.heap ptr) := by
    rcases valid with rfl | ⟨size, member⟩
    · exact follows_view _ _
    · obtain ⟨block, taken, payload, large⟩ := sound.records.owned.backed _ member
      have positive := sound.records.owned.positive _ member
      dsimp only at payload large positive
      obtain ⟨left, right, rfl⟩ := List.append_of_mem (HeapRun.mem_used.mp taken).1
      rw [payload]
      exact myFree_follows sound.records.tiled (by omega)
  refine ⟨_, rfl, blocks', ?_, fun address byte known => ?_⟩
  · exact ⟨follows.tiled (freed_sites change) sound'.tiled, sound'.owned⟩
  · obtain ⟨live, known⟩ := Option.ite_none_right_eq_some.mp known
    obtain ⟨inside, kept⟩ := sound.stored address byte known
    refine ⟨live, ?_⟩
    rw [← kept]
    exact follows.rest address (payload_clear sound.records inside)

theorem store_sound (sound : Sound process blocks) {address : Nat} {byte : UInt8}
    (valid : Valid pageLong process (.store address byte)) :
    ∃ next, step pageLong process (.store address byte) = some next ∧
      ∃ blocks', Sound next blocks' := by
  have clear := payload_clear sound.records valid
  refine ⟨_, rfl, blocks, ?_, fun other value known => ?_⟩
  · obtain ⟨tiled, owned⟩ := sound.records
    refine ⟨tiled.congr (tiled.stores.congr rfl fun block member => ?_) ⟨rfl, rfl, rfl⟩, owned⟩
    refine header_congr fun other low high => if_neg ?_
    have outside := clear block.addr (mem_sites member)
    omega
  · dsimp only at known ⊢
    by_cases same : other = address
    · rw [if_pos same] at known ⊢
      exact ⟨same ▸ valid, Option.some.inj known⟩
    · rw [if_neg same] at known ⊢
      exact sound.stored other value known

theorem step_sound (page : PageSize pageLong) (sound : ∃ blocks, Sound process blocks)
    (call : Call) (valid : Valid pageLong process call) :
    ∃ next, step pageLong process call = some next ∧ ∃ blocks, Sound next blocks := by
  obtain ⟨blocks, sound⟩ := sound
  cases call with
  | malloc size mmap => exact malloc_sound page sound valid
  | free ptr => exact free_sound sound valid
  | store address byte => exact store_sound sound valid

end Steps

/-- Every sequence of valid calls goes through on the bytes, with the invariant of the heap, and
no call ever changes a byte that the client keeps in a live payload. -/
theorem payloads_kept (pageLong : Int) (page : PageSize pageLong) (bytes : Nat → UInt8)
    (calls : List Call)
    (valid : AdmitsPartial (step pageLong) (Valid pageLong) (start bytes) calls) :
    ∃ process blocks, runPartial (step pageLong) (start bytes) calls = some process ∧
      HeapInvariant process.records blocks ∧
      ∀ address byte, process.stored address = some byte → process.heap.bytes address = byte := by
  obtain ⟨process, ran, blocks, sound⟩ := runPartial_invariant
    (fun process => ∃ blocks, Sound process blocks)
    (fun process call sound valid => step_sound page sound call valid)
    (start bytes) calls ⟨[], start_sound bytes⟩ valid
  exact ⟨process, blocks, ran, sound.records.invariant,
    fun address byte known => (sound.stored address byte known).2⟩

/-- A byte kept in one payload while a second one is taken from the same arena and freed. -/
theorem payloads_kept_two_allocations :
    PageSize 4096 ∧
      ∃ process blocks, runPartial (step 4096) (start fun _ => 0)
          [.malloc 24 (some 65536), .store 65584 7, .malloc 100 none, .free 65664] =
            some process ∧
        HeapInvariant process.records blocks ∧
        ∀ address byte, process.stored address = some byte →
          process.heap.bytes address = byte := by
  have page : PageSize 4096 := ⟨by decide, by decide⟩
  have live : ((step 4096 (start fun _ => 0) (.malloc 24 (some 65536))).map Process.live,
      ((step 4096 (start fun _ => 0) (.malloc 24 (some 65536))).bind fun process =>
        (step 4096 process (.store 65584 7)).bind fun process =>
          (step 4096 process (.malloc 100 none)).map Process.live)) =
        (some [(65584, 24)], some [(65664, 100), (65584, 24)]) := by
    decide +kernel
  obtain ⟨early, late⟩ := Prod.mk.inj live
  refine ⟨page, payloads_kept 4096 page _ _ ⟨⟨by decide, ?_⟩, ?_⟩⟩
  · rintro base ⟨⟩
    exact ⟨by decide, by decide, by decide, by simp [start, ByteHeap.view]⟩
  · intro first firstStep
    rw [firstStep] at early late
    have isEarly : first.live = [(65584, 24)] := Option.some.inj early
    refine ⟨⟨(65584, 24), by simp [isEarly], by decide⟩, fun second secondStep => ?_⟩
    rw [Option.bind_some, secondStep, Option.bind_some] at late
    refine ⟨⟨by decide, by simp [Answers]⟩, fun third thirdStep => ?_⟩
    rw [thirdStep] at late
    have isLate : third.live = [(65664, 100), (65584, 24)] := Option.some.inj late
    exact ⟨Or.inr ⟨100, by simp [isLate]⟩, fun _ _ => trivial⟩

end EmbeddedRuntime.Allocator.Bytes
