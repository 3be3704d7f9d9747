import EmbeddedRuntime.Allocator.Coalescing

/-!
# The order of frees

Where free blocks are joined, the arenas and the allocated blocks determine the
whole list: the free blocks are the gaps that the allocated ones leave.  So two
orders of freeing the same pointers end in the same heap.
-/

set_option autoImplicit false

namespace EmbeddedRuntime.Allocator.FreeOrder

open EmbeddedRuntime.Allocator.Model
open EmbeddedRuntime.Allocator.BlockList
open EmbeddedRuntime.Allocator.Walks
open EmbeddedRuntime.Allocator.Arenas
open EmbeddedRuntime.Allocator.Calls
open EmbeddedRuntime.Allocator.HeapRun
open EmbeddedRuntime.Allocator.Coalescing
open EmbeddedRuntime.Lib.Machine
open EmbeddedRuntime.Lib.Tiling

/-! ## The list that the arenas and the allocated blocks determine -/

def freeBlocks (blocks : List Block) : List Block := blocks.filter Block.free

section Canonical
variable {heap heap' : Heap} {blocks others : List Block}

theorem mem_freeBlocks {block : Block} :
    block ∈ freeBlocks blocks ↔ block ∈ blocks ∧ block.free = true := by
  simp [freeBlocks]

theorem freeBlocks_detached (apart : Apart blockShape blocks) (unjoined : Unjoined blocks) :
    Detached blockShape (freeBlocks blocks) := by
  apply detached_of_pairwise
  refine List.Pairwise.imp_of_mem ?_ ((apart.and unjoined).filter Block.free)
  intro first second member member' both
  obtain ⟨before, noTouch⟩ := both
  have touches : first.stop ≠ second.addr := fun touch =>
    noTouch ⟨(mem_freeBlocks.mp member).2, (mem_freeBlocks.mp member').2, touch⟩
  change first.stop ≤ second.addr at before
  exact Or.inl (Nat.lt_of_le_of_ne before touches)

/-- The free blocks cover what is mapped and not allocated. -/
theorem covers_freeBlocks (tiled : Tiled heap blocks) (address : Nat) :
    Covers blockShape (freeBlocks blocks) address ↔
      Mapped heap.arenas address ∧ ¬ Covers blockShape (used blocks) address := by
  constructor
  · rintro ⟨block, member, low, high⟩
    obtain ⟨inside, isFree⟩ := mem_freeBlocks.mp member
    refine ⟨(tiled.covered address).mp ⟨block, inside, low, high⟩, ?_⟩
    rintro ⟨other, member', low', high'⟩
    obtain ⟨inside', taken⟩ := mem_used.mp member'
    rcases tiled.apart.sides inside inside' with rfl | before | after
    · rw [isFree] at taken
      cases taken
    · omega
    · omega
  · rintro ⟨mapped, notUsed⟩
    obtain ⟨block, inside, within⟩ := (tiled.covered address).mpr mapped
    cases isFree : block.free with
    | true => exact ⟨block, mem_freeBlocks.mpr ⟨inside, isFree⟩, within⟩
    | false => exact absurd ⟨block, mem_used.mpr ⟨inside, isFree⟩, within⟩ notUsed

theorem block_ext_stop {first second : Block} (sameAddr : first.addr = second.addr)
    (sameStop : first.stop = second.stop) (sameFree : first.free = second.free) :
    first = second := by
  apply Block.ext sameAddr ?_ sameFree
  unfold Block.stop at sameStop
  omega

theorem mem_of_sameUsed (tiled : Tiled heap blocks) (tiled' : Tiled heap' others)
    (unjoined : Unjoined blocks) (unjoined' : Unjoined others)
    (sameArenas : heap'.arenas = heap.arenas) (sameUsed : used others = used blocks)
    {block : Block} (member : block ∈ blocks) : block ∈ others := by
  cases isFree : block.free with
  | false =>
      have taken : block ∈ used blocks := mem_used.mpr ⟨member, isFree⟩
      rw [← sameUsed] at taken
      exact (mem_used.mp taken).1
  | true =>
      have sameCover (address : Nat) : Covers blockShape (freeBlocks blocks) address ↔
          Covers blockShape (freeBlocks others) address := by
        rw [covers_freeBlocks tiled, covers_freeBlocks tiled', sameArenas, sameUsed]
      have detached := freeBlocks_detached tiled.apart unjoined
      have detached' := freeBlocks_detached tiled'.apart unjoined'
      obtain ⟨other, inside, starts, stops⟩ := detached.exists_same detached'
        (fun tile _ => (Nat.lt_add_of_pos_right (by decide)).trans_le (block_lt_stop tile))
        sameCover (mem_freeBlocks.mpr ⟨member, isFree⟩)
      obtain ⟨inOthers, otherFree⟩ := mem_freeBlocks.mp inside
      have same : other = block := block_ext_stop starts stops (otherFree.trans isFree.symm)
      exact same ▸ inOthers

/-- Two joined lists over the same arenas with the same allocated blocks are the same. -/
theorem blocks_unique (tiled : Tiled heap blocks) (tiled' : Tiled heap' others)
    (unjoined : Unjoined blocks) (unjoined' : Unjoined others)
    (sameArenas : heap'.arenas = heap.arenas) (sameUsed : used others = used blocks) :
    blocks = others := by
  have sorted := apart_sorted tiled.apart
  have sorted' := apart_sorted tiled'.apart
  have same : blocks.Perm others := by
    rw [List.perm_ext_iff_of_nodup (sorted.imp fun below same => by simp [same] at below)
      (sorted'.imp fun below same => by simp [same] at below)]
    intro block
    constructor
    · exact mem_of_sameUsed tiled tiled' unjoined unjoined' sameArenas sameUsed
    · exact mem_of_sameUsed tiled' tiled unjoined' unjoined sameArenas.symm sameUsed.symm
  refine List.Perm.eq_of_pairwise ?_ sorted sorted' same
  intro first second _ _ below above
  omega

end Canonical

/-! ## The arenas along a run -/

def arenaShape : Shape (Nat × Nat) := ⟨Prod.fst, fun arena => arena.1 + arena.2⟩

/-- `mmap` never placed an arena right before or right behind an earlier one. -/
def Untouching (arenas : List (Nat × Nat)) : Prop :=
  arenas.Pairwise fun later earlier =>
    later.1 + later.2 ≠ earlier.1 ∧ earlier.1 + earlier.2 ≠ later.1

/-- What `FreshRegion` makes of the list of arenas. -/
structure ArenasApart (arenas : List (Nat × Nat)) : Prop where
  positive : ∀ arena ∈ arenas, 0 < arena.2
  disjoint : arenas.Pairwise fun later earlier =>
    later.1 + later.2 ≤ earlier.1 ∨ earlier.1 + earlier.2 ≤ later.1

section ArenaLists
variable {heap heap' : Heap} {arenas : List (Nat × Nat)} {pageLong : Int} {mmap : Option Nat}
  {size : Nat}

theorem ArenasApart.cons (apart : ArenasApart arenas) {page base total : Nat}
    (positive : 0 < total) (fresh : FreshRegion page arenas base total) :
    ArenasApart ((base, total) :: arenas) where
  positive arena member := by
    rcases List.mem_cons.mp member with rfl | earlier
    · exact positive
    · exact apart.positive arena earlier
  disjoint := List.pairwise_cons.mpr ⟨fresh.disjoint, apart.disjoint⟩

theorem ArenasApart.detached (apart : ArenasApart arenas) (untouching : Untouching arenas) :
    Detached arenaShape arenas := by
  apply detached_of_pairwise
  refine (apart.disjoint.and untouching).imp ?_
  intro later earlier both
  obtain ⟨sides, ends, begins⟩ := both
  change later.1 + later.2 < earlier.1 ∨ earlier.1 + earlier.2 < later.1
  omega

theorem ArenasApart.nodup (apart : ArenasApart arenas) : arenas.Nodup := by
  refine List.Pairwise.imp_of_mem ?_ apart.disjoint
  intro later earlier member _ sides same
  have positive := apart.positive later member
  rw [same] at sides positive
  omega

/-- The arenas after a call that maps one when `mmap` answers. -/
def withArena (mmap : Option Nat) (total : Nat) (arenas : List (Nat × Nat)) : List (Nat × Nat) :=
  match mmap with
  | none => arenas
  | some base => (base, total) :: arenas

theorem insertFront_arenas (heap : Heap) (block : Nat) :
    (insertFront heap block).arenas = heap.arenas := by
  unfold insertFront
  dsimp only
  split_ifs <;> rfl

theorem insertSorted_arenas {block : Nat} (inserted : insertSorted heap block = some heap') :
    heap'.arenas = heap.arenas := by
  unfold insertSorted at inserted
  split_ifs at inserted
  · obtain rfl := Option.some.inj inserted
    exact insertFront_arenas heap block
  · obtain ⟨cur, -, rfl⟩ := Option.map_eq_some_iff.mp inserted
    exact (insertAfter_sameSpace heap block cur).arenas

theorem mapArena_arenas {block : Nat}
    (mapped : mapArena pageLong mmap heap size = some (block, heap')) :
    heap'.arenas = withArena mmap (arenaTotal pageLong size) heap.arenas := by
  unfold mapArena at mapped
  cases mmap with
  | none =>
      obtain ⟨-, rfl⟩ := Prod.mk.inj (Option.some.inj mapped)
      rfl
  | some base =>
      obtain ⟨final, inserted, same⟩ := Option.map_eq_some_iff.mp mapped
      obtain ⟨-, rfl⟩ := Prod.mk.inj same
      exact insertSorted_arenas inserted

/-- `my_malloc` maps an arena exactly when it asks the system, that is when no block fits. -/
theorem myMalloc_arenas {ptr : Nat}
    (called : myMalloc pageLong mmap heap size = some (ptr, heap')) :
    heap'.arenas =
      if 0 < size ∧ findFit heap.mem (alignedSize size) walkFuel heap.head = some 0 then
        withArena mmap (arenaTotal pageLong (alignedSize size)) heap.arenas
      else heap.arenas := by
  unfold myMalloc at called
  by_cases zero : size = 0
  · rw [if_pos zero] at called
    obtain ⟨-, rfl⟩ := Prod.mk.inj (Option.some.inj called)
    rw [if_neg (by omega)]
  · rw [if_neg zero] at called
    obtain ⟨⟨block, found⟩, source, answer⟩ := Option.map_eq_some_iff.mp called
    have kept : heap'.arenas = found.arenas := by
      dsimp only at answer
      split_ifs at answer
      · obtain ⟨-, rfl⟩ := Prod.mk.inj answer
        rfl
      · obtain ⟨-, rfl⟩ := Prod.mk.inj answer
        exact (splitBlock_sameSpace found block (alignedSize size)).arenas
    obtain ⟨fit, fitEq, chosen⟩ := Option.bind_eq_some_iff.mp source
    rw [kept, fitEq]
    by_cases noFit : fit = 0
    · rw [if_pos noFit] at chosen
      rw [if_pos ⟨Nat.pos_of_ne_zero zero, by rw [noFit]⟩]
      exact mapArena_arenas chosen
    · rw [if_neg noFit] at chosen
      obtain ⟨-, rfl⟩ := Prod.mk.inj (Option.some.inj chosen)
      rw [if_neg fun both => noFit (Option.some.inj both.2)]

theorem coalesceWithPrev_arenas (heap : Heap) (block : Nat) :
    (coalesceWithPrev heap block).arenas = heap.arenas := by
  unfold coalesceWithPrev
  dsimp only
  split_ifs
  · exact (coalesceWithNext_sameSpace ..).arenas
  · rfl

theorem myFree_arenas (heap : Heap) (ptr : Nat) : (myFree heap ptr).arenas = heap.arenas := by
  unfold myFree
  dsimp only
  split_ifs
  · rfl
  · rfl
  · rw [coalesceWithPrev_arenas, (coalesceWithNext_sameSpace ..).arenas, modify_arenas]

end ArenaLists

/-! ## Runs up to the frees -/

/-- The invariant: as long as no two arenas touch, the free blocks are joined. -/
def Placed (process : Process) : Prop :=
  ∃ blocks, Sound process blocks ∧ ArenasApart process.heap.arenas ∧
    (Untouching process.heap.arenas → Unjoined blocks)

section Steps
variable {pageLong : Int} {process next : Process} {blocks : List Block}

/-- The arenas a call leaves: those before, or one more in a fresh region. -/
theorem step_arenas (page : PageSize pageLong) {call : Call}
    (valid : Valid pageLong process call) (stepped : step pageLong process call = some next) :
    next.heap.arenas = process.heap.arenas ∨
      ∃ base total, 0 < total ∧ next.heap.arenas = (base, total) :: process.heap.arenas ∧
        FreshRegion (pageSize pageLong) process.heap.arenas base total := by
  cases call with
  | malloc size mmap =>
      obtain ⟨⟨ptr, heap'⟩, called, rfl⟩ := Option.map_eq_some_iff.mp stepped
      have arenas := myMalloc_arenas called
      obtain ⟨-, -, bound⟩ := alignedSize_spec valid.1
      obtain ⟨-, large⟩ := arenaTotal_spec page bound
      split_ifs at arenas
      · cases mmap with
        | none => exact Or.inl arenas
        | some base => exact Or.inr ⟨base, _, by omega, arenas, valid.2 base rfl⟩
      · exact Or.inl arenas
  | free ptr =>
      obtain rfl := Option.some.inj stepped
      exact Or.inl (myFree_arenas process.heap ptr)
  | store mem =>
      obtain rfl := Option.some.inj stepped
      exact Or.inl rfl

theorem untouching_before (grown : next.heap.arenas = process.heap.arenas ∨
      ∃ base total, 0 < total ∧ next.heap.arenas = (base, total) :: process.heap.arenas ∧
        FreshRegion (pageSize pageLong) process.heap.arenas base total)
    (untouching : Untouching next.heap.arenas) : Untouching process.heap.arenas := by
  rcases grown with same | ⟨base, total, -, arenas, -⟩
  · exact same ▸ untouching
  · rw [arenas] at untouching
    exact (List.pairwise_cons.mp untouching).2

/-- An arena right below a free block touches the arena of that block. -/
theorem touching_of_splits (page : PageSize pageLong) (sound : Sound process blocks)
    {call : Call} (valid : Valid pageLong process call)
    (splits : SplitsBelowFree pageLong process call)
    (stepped : step pageLong process call = some next) : ¬ Untouching next.heap.arenas := by
  intro untouching
  cases call with
  | malloc size mmap =>
      obtain ⟨asked, base, others, above, rfl, stores, noFit, -, member, -, begins⟩ := splits
      obtain rfl := stores.unique sound.tiled.stores
      obtain ⟨⟨ptr, heap'⟩, called, rfl⟩ := Option.map_eq_some_iff.mp stepped
      have search : findFit process.heap.mem (alignedSize size) walkFuel process.heap.head =
          some 0 := by
        rw [stores.head]
        rcases findFit_spec (alignedSize size) stores.chain (length_lt_walkFuel sound.tiled.apart)
          with ⟨answer, -⟩ | ⟨left, block, right, rfl, isFree, fits, -⟩
        · exact answer
        · exact absurd ⟨isFree, fits⟩ (noFit block (by simp))
      have arenas : heap'.arenas = (base, arenaTotal pageLong (alignedSize size)) ::
          process.heap.arenas := (myMalloc_arenas called).trans (if_pos ⟨asked, search⟩)
      have wide := block_lt_stop above
      obtain ⟨arena, mapped, low, high⟩ := (sound.tiled.covered above.addr).mp
        ⟨above, member, Nat.le_refl above.addr, (by omega : above.addr < above.stop)⟩
      have fresh := (valid.2 base rfl).disjoint arena mapped
      obtain ⟨-, -, bound⟩ := alignedSize_spec valid.1
      obtain ⟨-, large⟩ := arenaTotal_spec page bound
      change Untouching heap'.arenas at untouching
      rw [arenas] at untouching
      have apart := (List.pairwise_cons.mp untouching).1 arena mapped
      omega
  | free ptr => exact splits
  | store mem => exact splits

theorem step_placed (page : PageSize pageLong) (placed : Placed process) (call : Call)
    (valid : Valid pageLong process call) :
    ∃ next, step pageLong process call = some next ∧ Placed next := by
  obtain ⟨blocks, sound, apart, joined⟩ := placed
  obtain ⟨next, blocks', stepped, sound', -⟩ := step_change page sound call valid
  have grown := step_arenas page valid stepped
  refine ⟨next, stepped, blocks', sound', ?_, ?_⟩
  · rcases grown with same | ⟨base, total, positive, arenas, fresh⟩
    · exact same ▸ apart
    · exact arenas ▸ apart.cons positive fresh
  · intro untouching
    have unjoined := joined (untouching_before grown untouching)
    obtain ⟨next', others, stepped', sound'', kept⟩ := step_unjoined page sound unjoined call valid
      fun splits => touching_of_splits page sound valid splits stepped untouching
    obtain rfl := Option.some.inj (stepped.symm.trans stepped')
    rw [sound'.tiled.stores.unique sound''.tiled.stores]
    exact kept

theorem start_placed (mem : Nat → BlockHeader) : Placed (start mem) :=
  ⟨[], start_sound mem, ⟨nofun, List.Pairwise.nil⟩, fun _ => List.Pairwise.nil⟩

/-! ## The frees -/

variable (pageLong) in
/-- One free takes one allocated block away and leaves the arenas alone. -/
theorem free_step (sound : Sound process blocks) (unjoined : Unjoined blocks) {ptr size : Nat}
    (live : (ptr, size) ∈ process.live) :
    ∃ next blocks', step pageLong process (.free ptr) = some next ∧ Sound next blocks' ∧
      Unjoined blocks' ∧ next.heap.arenas = process.heap.arenas ∧
      used blocks' = (used blocks).filter fun block => block.payload ≠ ptr := by
  have valid : Valid pageLong process (.free ptr) := Or.inr ⟨size, live⟩
  obtain ⟨next, blocks', stepped, sound', -⟩ := free_change sound valid
  obtain ⟨block, taken, payload, large⟩ := sound.owned.backed _ live
  have positive := sound.owned.positive _ live
  dsimp only at payload large positive
  obtain ⟨inside, notFree⟩ := mem_used.mp taken
  obtain ⟨left, right, rfl⟩ := List.append_of_mem inside
  obtain ⟨init, merged, rest, tiled, released⟩ := myFree_cases sound.tiled (by omega)
  rw [← payload] at tiled
  obtain rfl := Option.some.inj stepped
  have same : blocks' = init ++ merged :: rest := sound'.tiled.stores.unique tiled.stores
  refine ⟨_, blocks', rfl, sound', ?_, myFree_arenas .., ?_⟩
  · rw [same]
    exact unjoined_released released sound.tiled.apart unjoined
  · have others := used_payload_ne sound.tiled.apart
    rw [same, released.used_eq, used_append, used_append, used_cons_taken notFree,
      List.filter_append, List.filter_cons_of_neg (by simp [payload]), ← List.filter_append]
    refine (List.filter_eq_self.mpr fun other member => ?_).symm
    simpa [payload] using others other member

theorem filter_cons_ptr {Entry : Type} (key : Entry → Nat) (entries : List Entry) (ptr : Nat)
    (rest : List Nat) :
    (entries.filter fun entry => key entry ≠ ptr).filter (fun entry => key entry ∉ rest) =
      entries.filter fun entry => key entry ∉ ptr :: rest := by
  rw [List.filter_filter]
  apply List.filter_congr
  intro entry _
  simp [Bool.and_comm]

variable (pageLong) in
/-- After frees of distinct live pointers exactly their blocks are no longer allocated. -/
theorem frees_run {ptrs : List Nat} (sound : Sound process blocks) (unjoined : Unjoined blocks)
    (distinct : ptrs.Nodup) (live : ∀ ptr ∈ ptrs, ∃ size, (ptr, size) ∈ process.live) :
    ∃ final blocks', runPartial (step pageLong) process (ptrs.map .free) = some final ∧
      Sound final blocks' ∧ Unjoined blocks' ∧ final.heap.arenas = process.heap.arenas ∧
      used blocks' = (used blocks).filter (fun block => block.payload ∉ ptrs) ∧
      final.live = process.live.filter fun entry => entry.1 ∉ ptrs := by
  induction ptrs generalizing process blocks with
  | nil => exact ⟨process, blocks, rfl, sound, unjoined, rfl, by simp, by simp⟩
  | cons ptr rest ih =>
      obtain ⟨fresh, restDistinct⟩ := List.nodup_cons.mp distinct
      obtain ⟨size, here⟩ := live ptr List.mem_cons_self
      obtain ⟨next, middle, stepped, sound', unjoined', arenas, taken⟩ :=
        free_step pageLong sound unjoined here
      have liveEq : next.live = process.live.filter fun entry => entry.1 ≠ ptr := by
        obtain rfl := Option.some.inj stepped
        rfl
      have later : ∀ other ∈ rest, ∃ size, (other, size) ∈ next.live := by
        intro other member
        obtain ⟨size, known⟩ := live other (List.mem_cons_of_mem ptr member)
        refine ⟨size, ?_⟩
        rw [liveEq]
        refine List.mem_filter.mpr ⟨known, ?_⟩
        have differ : other ≠ ptr := fun same => fresh (same ▸ member)
        simpa using differ
      obtain ⟨final, blocks', ran, kept, joined, sameArenas, usedEq, liveEq'⟩ :=
        ih sound' unjoined' restDistinct later
      refine ⟨final, blocks', ?_, kept, joined, sameArenas.trans arenas, ?_, ?_⟩
      · rw [List.map_cons, runPartial, stepped, Option.bind_some]
        exact ran
      · rw [usedEq, taken]
        exact filter_cons_ptr Block.payload (used blocks) ptr rest
      · rw [liveEq', liveEq]
        exact filter_cons_ptr Prod.fst process.live ptr rest

end Steps

/-! ## Two orders -/

/-- The two heaps hold the same list: its blocks and, link by link, their headers. -/
structure SameHeap (first second : Heap) (blocks : List Block) : Prop where
  stores : Stores first blocks
  stores' : Stores second blocks
  head : first.head = second.head
  headers : ∀ block ∈ blocks, first.mem block.addr = second.mem block.addr
  mappedBytes : first.mappedBytes = second.mappedBytes
  arenas : first.arenas = second.arenas

/-- One free block for each arena, without its header of 48 bytes. -/
structure Emptied (heap : Heap) (blocks : List Block) : Prop where
  free : ∀ block ∈ blocks, block.free = true
  wholeArenas : (blocks.map fun block => (block.addr, block.size + 48)).Perm heap.arenas

section Orders
variable {heap heap' : Heap} {blocks : List Block}

theorem stores_header_eq (stores : Stores heap blocks) (stores' : Stores heap' blocks)
    {block : Block} (member : block ∈ blocks) : heap.mem block.addr = heap'.mem block.addr := by
  obtain ⟨left, right, rfl⟩ := List.append_of_mem member
  exact stores.header.trans stores'.header.symm

theorem sameHeap_of_tiled (tiled : Tiled heap blocks) (tiled' : Tiled heap' blocks)
    (arenas : heap.arenas = heap'.arenas) : SameHeap heap heap' blocks where
  stores := tiled.stores
  stores' := tiled'.stores
  head := tiled.stores.head.trans tiled'.stores.head.symm
  headers _ member := stores_header_eq tiled.stores tiled'.stores member
  mappedBytes := tiled.mapped.trans tiled'.mapped.symm
  arenas := arenas

/-- Without an allocated block the joined list is that of the arenas. -/
theorem emptied_of_used (tiled : Tiled heap blocks) (unjoined : Unjoined blocks)
    (apart : ArenasApart heap.arenas) (untouching : Untouching heap.arenas)
    (none : used blocks = []) : Emptied heap blocks := by
  have allFree : ∀ block ∈ blocks, block.free = true := by
    intro block member
    by_contra taken
    have inUsed := mem_used.mpr ⟨member, Bool.eq_false_iff.mpr taken⟩
    rw [none] at inUsed
    cases inUsed
  have detached := freeBlocks_detached tiled.apart unjoined
  rw [freeBlocks, List.filter_eq_self.mpr allFree] at detached
  have detached' := apart.detached untouching
  have sameCover (address : Nat) :
      Covers blockShape blocks address ↔ Covers arenaShape heap.arenas address :=
    tiled.covered address
  have wide (block : Block) : block.addr < block.stop :=
    (Nat.lt_add_of_pos_right (by decide)).trans_le (block_lt_stop block)
  have stopEq (block : Block) : block.addr + (block.size + 48) = block.stop := by
    unfold Block.stop
    omega
  refine ⟨allFree, (List.perm_ext_iff_of_nodup ?_ apart.nodup).mpr ?_⟩
  · rw [List.Nodup, List.pairwise_map]
    refine (apart_sorted tiled.apart).imp ?_
    intro first second below same
    have sameAddr := congrArg Prod.fst same
    dsimp only at sameAddr
    omega
  · intro arena
    constructor
    · intro member
      obtain ⟨block, inside, rfl⟩ := List.mem_map.mp member
      obtain ⟨arena, mapped, starts, stops⟩ := detached.exists_same detached'
        (fun tile _ => wide tile) sameCover inside
      change arena.1 = block.addr at starts
      change arena.1 + arena.2 = block.stop at stops
      have ends := stopEq block
      have same : arena = (block.addr, block.size + 48) := by
        apply Prod.ext starts
        dsimp only
        omega
      exact same ▸ mapped
    · intro mapped
      obtain ⟨block, inside, starts, stops⟩ := detached'.exists_same detached
        (fun tile member => Nat.lt_add_of_pos_right (apart.positive tile member))
        (fun address => (sameCover address).symm) mapped
      change block.addr = arena.1 at starts
      change block.stop = arena.1 + arena.2 at stops
      have ends := stopEq block
      refine List.mem_map.mpr ⟨block, inside, Prod.ext starts ?_⟩
      dsimp only
      omega

end Orders

/-- From every heap reached with arenas that do not touch, two orders of freeing the same live
pointers end in the same heap; when they are all the live pointers, it has one free block for
each arena. -/
theorem free_order_irrelevant (pageLong : Int) (page : PageSize pageLong)
    (mem : Nat → BlockHeader) (calls : List Call)
    (valid : AdmitsPartial (step pageLong) (Valid pageLong) (start mem) calls) (process : Process)
    (reached : runPartial (step pageLong) (start mem) calls = some process)
    (untouching : Untouching process.heap.arenas) (first second : List Nat)
    (distinct : first.Nodup) (live : ∀ ptr ∈ first, ∃ size, (ptr, size) ∈ process.live)
    (reordered : first.Perm second) :
    ∃ one two blocks, runPartial (step pageLong) process (first.map .free) = some one ∧
      runPartial (step pageLong) process (second.map .free) = some two ∧
      SameHeap one.heap two.heap blocks ∧ one.live = two.live ∧
      ((∀ entry ∈ process.live, entry.1 ∈ first) → Emptied one.heap blocks) := by
  obtain ⟨process', reached', blocks, sound, apart, joined⟩ := runPartial_invariant Placed
    (fun _ call placed ok => step_placed page placed call ok)
    (start mem) calls (start_placed mem) valid
  obtain rfl := Option.some.inj (reached.symm.trans reached')
  have unjoined := joined untouching
  obtain ⟨one, blocks', ranOne, soundOne, unjoinedOne, arenasOne, usedOne, liveOne⟩ :=
    frees_run pageLong sound unjoined distinct live
  obtain ⟨two, others, ranTwo, soundTwo, unjoinedTwo, arenasTwo, usedTwo, liveTwo⟩ :=
    frees_run pageLong sound unjoined (reordered.nodup_iff.mp distinct)
      fun ptr member => live ptr (reordered.mem_iff.mpr member)
  have sameMembers (ptr : Nat) : ptr ∈ second ↔ ptr ∈ first := reordered.mem_iff.symm
  simp only [sameMembers] at usedTwo liveTwo
  have arenas : two.heap.arenas = one.heap.arenas := arenasTwo.trans arenasOne.symm
  obtain rfl : blocks' = others := blocks_unique soundOne.tiled soundTwo.tiled unjoinedOne
    unjoinedTwo arenas (usedTwo.trans usedOne.symm)
  refine ⟨one, two, blocks', ranOne, ranTwo,
    sameHeap_of_tiled soundOne.tiled soundTwo.tiled arenas.symm, liveOne.trans liveTwo.symm, ?_⟩
  intro all
  rw [← arenasOne] at apart untouching
  refine emptied_of_used soundOne.tiled unjoinedOne apart untouching ?_
  rw [usedOne]
  refine List.filter_eq_nil_iff.mpr fun block member => ?_
  obtain ⟨size, known⟩ := sound.owned.owned block member
  simpa using all _ known

/-- Two allocations from one arena, freed from the front and from the back. -/
def twoAllocations : List Call := [.malloc 24 (some 65536), .malloc 100 none]

theorem twoAllocations_valid :
    AdmitsPartial (step 4096) (Valid 4096) (start zeroed) twoAllocations := by
  refine ⟨⟨by decide, ?_⟩, fun next _ => ⟨⟨by decide, nofun⟩, fun _ _ => trivial⟩⟩
  rintro base ⟨⟩
  exact ⟨by decide, by decide, by decide, by simp [start]⟩

theorem free_order_irrelevant_two :
    ∃ process, runPartial (step 4096) (start zeroed) twoAllocations = some process ∧
      ∃ one two blocks,
        runPartial (step 4096) process ([65584, 65664].map .free) = some one ∧
        runPartial (step 4096) process ([65664, 65584].map .free) = some two ∧
        SameHeap one.heap two.heap blocks ∧ one.live = two.live ∧ Emptied one.heap blocks := by
  have facts : (runPartial (step 4096) (start zeroed) twoAllocations).map
      (fun process => (process.live, process.heap.arenas)) =
      some ([(65664, 100), (65584, 24)], [(65536, 65536)]) := by decide +kernel
  obtain ⟨process, reached, observed⟩ := Option.map_eq_some_iff.mp facts
  obtain ⟨live, arenas⟩ := Prod.mk.inj observed
  obtain ⟨one, two, blocks, ranOne, ranTwo, same, sameLive, emptied⟩ :=
    free_order_irrelevant 4096 page4096 zeroed twoAllocations twoAllocations_valid process reached
      (by rw [arenas]; exact List.pairwise_singleton _ _) [65584, 65664] [65664, 65584] (by decide)
      (by rw [live]; simp) (List.Perm.swap 65664 65584 [])
  exact ⟨process, reached, one, two, blocks, ranOne, ranTwo, same, sameLive,
    emptied (by rw [live]; simp)⟩

end EmbeddedRuntime.Allocator.FreeOrder
