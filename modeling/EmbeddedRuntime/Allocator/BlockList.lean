import EmbeddedRuntime.Allocator.Model
import EmbeddedRuntime.Lib.LinkedList
import EmbeddedRuntime.Lib.Tiling

/-!
# The block list behind the allocator's memory

A `Block` is a header together with what makes it well placed: a non-null
16-byte aligned address, a size that is a multiple of 16, and an end inside the
address space.  `Stores heap blocks` says that the memory holds exactly these
blocks as a doubly linked list from `head`.  Each operation on headers is shown
to be the corresponding edit of the list.
-/

set_option autoImplicit false

namespace EmbeddedRuntime.Allocator.BlockList

open EmbeddedRuntime.Allocator.Model
open EmbeddedRuntime.Common
open EmbeddedRuntime.Lib.LinkedList
open EmbeddedRuntime.Lib.Tiling
open EmbeddedRuntime.Lib.Word64

theorem headerSize_eq : headerSize = 48 := by decide

@[ext] structure Block where
  addr : Nat
  size : Nat
  free : Bool
  nonnull : 0 < addr
  addrAligned : 16 ∣ addr
  sizeAligned : 16 ∣ size
  inside : addr + 48 + size ≤ 2 ^ 64

/-- One past the last byte of the payload. -/
def Block.stop (block : Block) : Nat := block.addr + 48 + block.size

def Block.payload (block : Block) : Nat := block.addr + 48

def Block.withFree (block : Block) (free : Bool) : Block := { block with free }

def blockLayout : Layout Nat Block BlockHeader where
  addr := Block.addr
  cell block prev next := ⟨blockMagic, block.size, block.free, prev, next⟩

def blockShape : Shape Block := ⟨Block.addr, Block.stop⟩

/-- The memory holds the blocks, in order, as a doubly linked list. -/
structure Stores (heap : Heap) (blocks : List Block) : Prop where
  head : heap.head = blockLayout.first 0 blocks
  chain : Chain blockLayout heap.mem 0 blocks 0

@[simp] theorem modify_mem (heap : Heap) (address : Nat) (change : BlockHeader → BlockHeader)
    (other : Nat) :
    (heap.modify address change).mem other =
      if other = address then change (heap.mem address) else heap.mem other := by
  simp [Heap.modify, Function.update_apply]

@[simp] theorem modify_head (heap : Heap) (address : Nat) (change : BlockHeader → BlockHeader) :
    (heap.modify address change).head = heap.head := rfl

@[simp] theorem modify_arenas (heap : Heap) (address : Nat) (change : BlockHeader → BlockHeader) :
    (heap.modify address change).arenas = heap.arenas := rfl

/-- Stores to headers leave the rest of the allocator's state alone. -/
structure SameSpace (heap heap' : Heap) : Prop where
  head : heap'.head = heap.head
  mappedBytes : heap'.mappedBytes = heap.mappedBytes
  arenas : heap'.arenas = heap.arenas

/-! ## Order -/

theorem block_lt_stop (block : Block) : block.addr + 48 ≤ block.stop := by
  unfold Block.stop
  omega

theorem apart_sorted {blocks : List Block} (apart : Apart blockShape blocks) :
    blocks.Pairwise fun left right => left.addr < right.addr := by
  refine List.Pairwise.imp ?_ apart
  intro left right ends
  change left.stop ≤ right.addr at ends
  have below := block_lt_stop left
  omega

theorem apart_sorted_right {left right : List Block} {block : Block}
    (apart : Apart blockShape (left ++ block :: right)) :
    right.Pairwise fun left right => left.addr < right.addr :=
  (List.pairwise_cons.mp (List.pairwise_append.mp (apart_sorted apart)).2.1).2

/-- Around a block of a sorted list the addresses lie on either side. -/
theorem apart_sides {left right : List Block} {block : Block}
    (apart : Apart blockShape (left ++ block :: right)) :
    (∀ other ∈ left, other.addr < block.addr) ∧
      (∀ other ∈ left, ∀ later ∈ right, other.addr < later.addr) ∧
      ∀ later ∈ right, block.stop ≤ later.addr := by
  have sorted := apart_sorted apart
  rw [List.pairwise_append] at sorted
  rw [Apart, List.pairwise_append] at apart
  refine ⟨fun other member => sorted.2.2 other member block (by simp),
    fun other member later after => sorted.2.2 other member later (by simp [after]), ?_⟩
  exact fun later after => (List.pairwise_cons.mp apart.2.1).1 later after

/-- The memory holds one list. -/
theorem Stores.unique {heap : Heap} {blocks others : List Block} (stores : Stores heap blocks)
    (stores' : Stores heap others) : blocks = others := by
  refine Chain.unique ?_ (fun block => block.nonnull.ne') (stores.head.symm.trans stores'.head)
    stores.chain stores'.chain
  intro block other before before' next next' sameAddr sameCell
  obtain ⟨-, sameSize, sameFree, -, sameNext⟩ := BlockHeader.mk.inj sameCell
  exact ⟨Block.ext sameAddr sameSize sameFree, sameNext⟩

/-! ## Field stores that keep the links -/

/-- The header of a block in the middle of the list. -/
theorem Stores.header {heap : Heap} {left right : List Block} {block : Block}
    (stores : Stores heap (left ++ block :: right)) :
    heap.mem block.addr = ⟨blockMagic, block.size, block.free, blockLayout.last 0 left,
      blockLayout.first 0 right⟩ :=
  stores.chain.cell

/-- Memory outside the stored headers does not matter. -/
theorem Stores.congr {heap heap' : Heap} {blocks : List Block} (stores : Stores heap blocks)
    (sameHead : heap'.head = heap.head)
    (agree : ∀ block ∈ blocks, heap'.mem block.addr = heap.mem block.addr) :
    Stores heap' blocks :=
  ⟨sameHead.trans stores.head, stores.chain.congr agree⟩

/-- A store to a header that leaves its links alone replaces the block. -/
theorem Stores.replace {heap : Heap} {left right : List Block} {block : Block}
    (stores : Stores heap (left ++ block :: right))
    (apart : Apart blockShape (left ++ block :: right)) (block' : Block)
    (change : BlockHeader → BlockHeader) (sameAddr : block'.addr = block.addr)
    (changed : ∀ prev next, change (blockLayout.cell block prev next) =
      blockLayout.cell block' prev next) :
    Stores (heap.modify block.addr change) (left ++ block' :: right) := by
  obtain ⟨before, -, after⟩ := apart_sides apart
  have below := block_lt_stop block
  obtain ⟨head, chain⟩ := stores
  rw [chain_append] at chain
  obtain ⟨leftChain, here, rightChain⟩ := chain
  refine ⟨?_, ?_⟩
  · rw [modify_head, head, Layout.first_append, Layout.first_append]
    simp [blockLayout, sameAddr]
  · rw [chain_append]
    refine ⟨?_, ?_, ?_⟩
    · have first : blockLayout.first 0 (block' :: right) =
          blockLayout.first 0 (block :: right) := sameAddr
      rw [first]
      refine leftChain.congr fun other member => ?_
      have apartFrom := before other member
      simp only [blockLayout, modify_mem]
      rw [if_neg (by omega)]
    · change (heap.modify block.addr change).mem block'.addr = _
      rw [modify_mem, if_pos sameAddr]
      change heap.mem block.addr = _ at here
      rw [here, changed]
    · change Chain _ _ block'.addr right 0
      rw [sameAddr]
      refine rightChain.congr fun other member => ?_
      have apartFrom := after other member
      simp only [blockLayout, modify_mem]
      rw [if_neg (by omega)]

/-! ## Splitting -/

/-- The guarded store `if (next) next->prev = ...`. -/
theorem linkBack_mem (heap : Heap) (next prev other : Nat) :
    (if next ≠ 0 then heap.modify next fun b => { b with prev } else heap).mem other =
      if next ≠ 0 ∧ other = next then { heap.mem next with prev } else heap.mem other := by
  by_cases null : next = 0
  · simp [null]
  · simp [null]

/-- The part after an edit: only the back link of its first header changes. -/
theorem relink_right {mem mem' : Nat → BlockHeader} {right : List Block} {before before' : Nat}
    (chain : Chain blockLayout mem before right 0)
    (sorted : right.Pairwise fun left right => left.addr < right.addr)
    (linked : ∀ other ∈ right, mem' other.addr =
      if other.addr = blockLayout.first 0 right then
        { mem other.addr with prev := before' }
      else mem other.addr) :
    Chain blockLayout mem' before' right 0 := by
  cases right with
  | nil => trivial
  | cons next rest =>
      have beyond := (List.pairwise_cons.mp sorted).1
      refine chain.rebase (fun other member => ?_) (fun other member => ?_)
      · have later := beyond other member
        rw [blockLayout, linked other (List.mem_cons_of_mem _ member), if_neg]
        exact later.ne'
      · obtain rfl : next = other := by simpa using member
        have header : mem next.addr = _ := chain.1
        have isFirst : next.addr = blockLayout.first 0 (next :: rest) := rfl
        refine (linked next (by simp)).trans ?_
        rw [if_pos isFirst, header]
        rfl

/-- Exchange of the middle of the list for blocks that begin at the same
address: `left` is untouched and only the first header of `right` is relinked. -/
theorem Stores.exchange {heap' : Heap} {left middle' right : List Block} (heap : Heap)
    (middle : List Block) (stores : Stores heap (left ++ middle ++ right))
    (sorted : right.Pairwise fun left right => left.addr < right.addr)
    (sameHead : heap'.head = heap.head)
    (sameFirst : blockLayout.first 0 (middle' ++ right) = blockLayout.first 0 (middle ++ right))
    (leftAgree : ∀ other ∈ left, heap'.mem other.addr = heap.mem other.addr)
    (middleChain : Chain blockLayout heap'.mem (blockLayout.last 0 left) middle'
      (blockLayout.first 0 right))
    (rightLinked : ∀ other ∈ right, heap'.mem other.addr =
      if other.addr = blockLayout.first 0 right then
        { heap.mem other.addr with prev := blockLayout.last (blockLayout.last 0 left) middle' }
      else heap.mem other.addr) :
    Stores heap' (left ++ middle' ++ right) := by
  obtain ⟨head, chain⟩ := stores
  rw [List.append_assoc, chain_append] at chain
  obtain ⟨leftChain, restChain⟩ := chain
  have rightChain := ((chain_append ..).mp restChain).2
  constructor
  · rw [sameHead, head, List.append_assoc, Layout.first_append 0 left, ← sameFirst,
      ← Layout.first_append, List.append_assoc]
  · rw [List.append_assoc, chain_append, sameFirst]
    refine ⟨leftChain.congr leftAgree, ?_⟩
    rw [chain_append]
    exact ⟨middleChain, relink_right rightChain sorted rightLinked⟩

/-- What follows a block in the list lies beyond its end. -/
theorem first_beyond {left right : List Block} {block : Block}
    (apart : Apart blockShape (left ++ block :: right)) :
    blockLayout.first 0 right ≠ 0 → block.stop ≤ blockLayout.first 0 right := by
  intro nonnull
  cases right with
  | nil => exact absurd rfl nonnull
  | cons next rest => exact (apart_sides apart).2.2 next (by simp)

section Split
variable {heap : Heap} {left right : List Block} {block : Block} {size : Nat}

/-- The front part left by a split. -/
def Block.shrink (block : Block) (size : Nat) (aligned : 16 ∣ size) (fits : size ≤ block.size) :
    Block :=
  { block with
    size
    sizeAligned := aligned
    inside := by have := block.inside; omega }

/-- The free block a split makes of the rest. -/
def Block.remainder (block : Block) (size : Nat) (aligned : 16 ∣ size)
    (room : size + 48 ≤ block.size) : Block where
  addr := block.addr + 48 + size
  size := block.size - size - 48
  free := true
  nonnull := by omega
  addrAligned := by
    have := block.addrAligned
    omega
  sizeAligned := by
    have := block.sizeAligned
    omega
  inside := by
    have := block.inside
    omega

theorem splitThreshold (bound : size + 64 < 2 ^ 64) :
    add64 (add64 size headerSize) alignment = size + 64 := by
  rw [headerSize_eq, alignment, @add64_of_lt size _ (by omega), add64_of_lt (by omega)]

/-- `split_block` leaves a block that is too small alone. -/
theorem splitBlock_small (stores : Stores heap (left ++ block :: right))
    (small : block.size < size + 64) (bound : size + 64 < 2 ^ 64) :
    splitBlock heap block.addr size = heap := by
  have header := stores.header
  unfold splitBlock
  rw [splitThreshold bound, header]
  exact if_pos small

/-- The headers after a split: the shortened block, the tail, and the back link
of the block that followed. -/
theorem splitBlock_mem {magic bsize prev next tail : Nat} {free : Bool} {address : Nat}
    (header : heap.mem address = ⟨magic, bsize, free, prev, next⟩)
    (room : ¬ bsize < add64 (add64 size headerSize) alignment)
    (tailEq : add64 (add64 address headerSize) size = tail) (tailNe : tail ≠ address)
    (nextNeTail : next ≠ 0 → next ≠ tail) (nextNe : next ≠ 0 → address ≠ next) (other : Nat) :
    (splitBlock heap address size).mem other =
      if other = address then ⟨magic, size, free, prev, tail⟩
      else if next ≠ 0 ∧ other = next then { heap.mem next with prev := tail }
      else if other = tail then
        ⟨blockMagic, sub64 (sub64 bsize size) headerSize, true, address, next⟩
      else heap.mem other := by
  unfold splitBlock
  simp only [header, room, if_false, tailEq, modify_mem, linkBack_mem, if_true]
  by_cases here : other = address
  · subst here
    by_cases null : next = 0
    · simp [null, tailNe.symm]
    · simp [null, tailNe.symm, nextNe null]
  · by_cases null : next = 0
    · simp [null, here]
    · simp [null, nextNeTail null, here]

theorem splitBlock_sameSpace (heap : Heap) (address size : Nat) :
    SameSpace heap (splitBlock heap address size) := by
  unfold splitBlock
  dsimp only
  split_ifs <;> exact ⟨rfl, rfl, rfl⟩

theorem splitBlock_stores (stores : Stores heap (left ++ block :: right))
    (apart : Apart blockShape (left ++ block :: right)) (aligned : 16 ∣ size)
    (room : size + 64 ≤ block.size) :
    Stores (splitBlock heap block.addr size)
      (left ++ [block.shrink size aligned (by omega),
        block.remainder size aligned (by omega)] ++ right) := by
  have inside := block.inside
  have bound : size + 64 < 2 ^ 64 := by omega
  obtain ⟨before, -, after⟩ := apart_sides apart
  have beyond := first_beyond apart
  have stopEq : block.stop = block.addr + 48 + block.size := rfl
  have tailEq : add64 (add64 block.addr headerSize) size = block.addr + 48 + size := by
    rw [headerSize_eq, @add64_of_lt block.addr _ (by omega), add64_of_lt (by omega)]
  have restEq : sub64 (sub64 block.size size) headerSize = block.size - size - 48 := by
    rw [headerSize_eq, @sub64_of_le block.size _ (by omega) (by omega),
      sub64_of_le (by omega) (by omega)]
  have memEq := splitBlock_mem stores.header (by rw [splitThreshold bound]; omega) tailEq
    (by omega) (fun nonnull => by have := beyond nonnull; omega)
    (fun nonnull => by have := beyond nonnull; omega)
  rw [restEq] at memEq
  refine Stores.exchange heap [block] (by simpa using stores)
    (apart_sorted_right apart) (splitBlock_sameSpace ..).head rfl ?_ ?_ ?_
  · intro other member
    have below := before other member
    rw [memEq, if_neg (by omega), if_neg (by omega), if_neg (by omega)]
  · refine ⟨(memEq _).trans (if_pos rfl), ?_, trivial⟩
    change (splitBlock heap block.addr size).mem (block.addr + 48 + size) = _
    rw [memEq, if_neg (by omega), if_neg (by omega), if_pos rfl]
    rfl
  · intro other member
    have later := after other member
    have nonnull := other.nonnull
    rw [memEq, if_neg (by omega)]
    by_cases isNext : other.addr = blockLayout.first 0 right
    · rw [if_pos ⟨by omega, isNext⟩, if_pos isNext, isNext]
      rfl
    · rw [if_neg (by simp [isNext]), if_neg (by omega), if_neg isNext]

/-- The one fit at which the threshold wraps is a block that fills the address space; its tail
would begin at address 0, and the list stays as it is. -/
theorem splitBlock_whole (stores : Stores heap (left ++ block :: right))
    (apart : Apart blockShape (left ++ block :: right)) (aligned : 16 ∣ size)
    (fits : size ≤ block.size) (wraps : 2 ^ 64 ≤ size + 64) :
    Stores (splitBlock heap block.addr size) (left ++ block :: right) := by
  obtain ⟨before, -, after⟩ := apart_sides apart
  have inside := block.inside
  have nonnull := block.nonnull
  have addrAligned := block.addrAligned
  have sizeEq : block.size = size := by omega
  have addrEq : block.addr = 16 := by omega
  have noLeft : left = [] := by
    rw [List.eq_nil_iff_forall_not_mem]
    intro other member
    have below := before other member
    have otherNonnull := other.nonnull
    have otherAligned := other.addrAligned
    omega
  have noRight : right = [] := by
    rw [List.eq_nil_iff_forall_not_mem]
    intro other member
    have beyond := after other member
    have otherInside := other.inside
    have stopEq : block.stop = block.addr + 48 + block.size := rfl
    omega
  subst noLeft noRight
  have header : heap.mem block.addr = ⟨blockMagic, block.size, block.free, 0, 0⟩ := stores.header
  have threshold : add64 (add64 size headerSize) alignment = 0 := by
    rw [headerSize_eq, alignment]
    unfold add64
    omega
  have tailEq : add64 (add64 block.addr headerSize) size = 0 := by
    rw [headerSize_eq]
    unfold add64
    omega
  have memEq := splitBlock_mem header (by rw [threshold]; omega) tailEq (by omega)
    (fun wrong => absurd rfl wrong) (fun wrong => absurd rfl wrong)
  refine ⟨(splitBlock_sameSpace ..).head.trans stores.head, ?_, trivial⟩
  change (splitBlock heap block.addr size).mem block.addr = _
  rw [memEq, if_pos rfl, ← sizeEq]
  rfl

end Split

/-! ## Coalescing -/

section Coalesce
variable {heap : Heap} {left right : List Block} {block next : Block}

/-- Two blocks that touch, joined. -/
def Block.merge (block next : Block) (touch : block.stop = next.addr) : Block :=
  { block with
    size := block.size + (48 + next.size)
    sizeAligned := by
      have := block.sizeAligned
      have := next.sizeAligned
      omega
    inside := by
      have := next.inside
      unfold Block.stop at touch
      omega }

theorem coalesceWithNext_mem {address magic bsize prev next : Nat} {free : Bool}
    {magic' nsize prev' next' : Nat}
    (header : heap.mem address = ⟨magic, bsize, free, prev, next⟩)
    (header' : heap.mem next = ⟨magic', nsize, true, prev', next'⟩)
    (touch : adjacent heap.mem address next) (nonnull : next ≠ 0) (nextNe : next ≠ address)
    (farNe : next' ≠ 0 → next' ≠ address) (other : Nat) :
    (coalesceWithNext heap address).mem other =
      if other = address then
        ⟨magic, add64 bsize (add64 headerSize nsize), free, prev, next'⟩
      else if next' ≠ 0 ∧ other = next' then { heap.mem next' with prev := address }
      else heap.mem other := by
  unfold coalesceWithNext
  simp only [header, nonnull, header', touch, not_true_eq_false, or_self, Bool.true_eq_false,
    if_false, modify_mem, linkBack_mem, if_true, nextNe]
  by_cases here : other = address
  · subst here
    by_cases null : next' = 0
    · simp [null]
    · simp [null, (farNe null).symm]
  · by_cases null : next' = 0
    · simp [null, here]
    · simp [null, farNe null, here]

theorem coalesceWithNext_sameSpace (heap : Heap) (address : Nat) :
    SameSpace heap (coalesceWithNext heap address) := by
  unfold coalesceWithNext
  dsimp only
  split_ifs <;> exact ⟨rfl, rfl, rfl⟩

/-- `adjacent` on the headers of two blocks of the list. -/
theorem adjacent_iff (stores : Stores heap (left ++ block :: right)) (far : Nat)
    (nonnull : 0 < far) (small : far < 2 ^ 64) :
    adjacent heap.mem block.addr far ↔ block.stop = far := by
  have inside := block.inside
  have stopEq : block.stop = block.addr + 48 + block.size := rfl
  unfold adjacent
  rw [stores.header, headerSize_eq]
  change add64 (add64 block.addr 48) block.size = far ↔ _
  unfold add64
  omega

theorem coalesceWithNext_stores (stores : Stores heap (left ++ block :: next :: right))
    (apart : Apart blockShape (left ++ block :: next :: right)) (isFree : next.free = true)
    (touch : block.stop = next.addr) :
    Stores (coalesceWithNext heap block.addr) (left ++ [block.merge next touch] ++ right) := by
  have inside := next.inside
  have nonnull := next.nonnull
  obtain ⟨before, across, after⟩ := apart_sides apart
  have beyond : blockLayout.first 0 right ≠ 0 → next.stop ≤ blockLayout.first 0 right :=
    @first_beyond (left ++ [block]) _ _ (by simpa using apart)
  have stopEq : block.stop = block.addr + 48 + block.size := rfl
  have stopEq' : next.stop = next.addr + 48 + next.size := rfl
  have sizeEq : add64 block.size (add64 headerSize next.size) = block.size + (48 + next.size) := by
    rw [headerSize_eq, @add64_of_lt _ next.size (by omega), add64_of_lt (by omega)]
  have header : heap.mem block.addr =
      ⟨blockMagic, block.size, block.free, blockLayout.last 0 left, next.addr⟩ := stores.header
  have header' : heap.mem next.addr = _ :=
    @Stores.header _ (left ++ [block]) _ _ (by simpa using stores)
  rw [isFree] at header'
  have memEq := coalesceWithNext_mem header header'
    ((adjacent_iff stores next.addr nonnull (by omega)).mpr touch) (by omega) (by omega)
    (fun nonnull => by have := beyond nonnull; omega)
  rw [sizeEq] at memEq
  refine Stores.exchange heap [block, next] (by simpa using stores)
    (List.pairwise_cons.mp (apart_sorted_right apart)).2 (coalesceWithNext_sameSpace ..).head rfl
    ?_ ?_ ?_
  · intro other member
    have below := before other member
    rw [memEq, if_neg (by omega), if_neg (by omega)]
  · exact ⟨(memEq _).trans (if_pos rfl), trivial⟩
  · intro other member
    have later := after other (by simp [member])
    have nonnull := other.nonnull
    rw [memEq, if_neg (by omega)]
    by_cases isNext : other.addr = blockLayout.first 0 right
    · rw [if_pos ⟨by omega, isNext⟩, if_pos isNext, isNext]
      rfl
    · rw [if_neg (by simp [isNext]), if_neg isNext]

/-- The list counterpart of `coalesce_with_next`: `block`, joined with the first
of the blocks after it when that one is free and touches it. -/
def mergeNext (block : Block) : List Block → List Block
  | [] => [block]
  | next :: rest =>
      if touch : next.free = true ∧ block.stop = next.addr then block.merge next touch.2 :: rest
      else block :: next :: rest

theorem coalesceWithNext_spec (stores : Stores heap (left ++ block :: right))
    (apart : Apart blockShape (left ++ block :: right)) :
    Stores (coalesceWithNext heap block.addr) (left ++ mergeNext block right) := by
  have header := stores.header
  cases right with
  | nil =>
      have unchanged : coalesceWithNext heap block.addr = heap := by
        unfold coalesceWithNext
        rw [header]
        exact if_pos (Or.inl rfl)
      rwa [unchanged]
  | cons next rest =>
      have inside := next.inside
      by_cases touch : next.free = true ∧ block.stop = next.addr
      · have joined := coalesceWithNext_stores stores apart touch.1 touch.2
        simpa [mergeNext, touch] using joined
      · have header' : heap.mem next.addr = _ :=
          @Stores.header _ (left ++ [block]) _ _ (by simpa using stores)
        have apartFrom : (heap.mem next.addr).free = false ∨
            ¬ adjacent heap.mem block.addr next.addr := by
          rw [adjacent_iff stores next.addr next.nonnull (by omega), header']
          cases isFree : next.free with
          | true => exact Or.inr fun meets => touch ⟨isFree, meets⟩
          | false => exact Or.inl rfl
        have unchanged : coalesceWithNext heap block.addr = heap := by
          unfold coalesceWithNext
          rw [header]
          exact if_pos (Or.inr apartFrom)
        rw [unchanged]
        simpa [mergeNext, touch] using stores

end Coalesce

end EmbeddedRuntime.Allocator.BlockList
