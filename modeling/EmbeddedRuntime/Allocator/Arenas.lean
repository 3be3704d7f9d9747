import EmbeddedRuntime.Allocator.Walks

/-!
# The arenas stay tiled

`Tiled heap blocks` is the geometric half of the allocator's invariant: the
stored blocks are apart, cover exactly the mapped arenas, and `mapped_bytes` is
their total extent.  Marking, splitting and coalescing exchange a part of the
list for another part of the same range; mapping an arena adds one block.
-/

set_option autoImplicit false

namespace EmbeddedRuntime.Allocator.Arenas

open EmbeddedRuntime.Allocator.Model
open EmbeddedRuntime.Allocator.BlockList
open EmbeddedRuntime.Allocator.Walks
open EmbeddedRuntime.Common
open EmbeddedRuntime.Lib.Tiling
open EmbeddedRuntime.Lib.Word64

/-- The blocks that hold an allocation. -/
def used (blocks : List Block) : List Block := blocks.filter fun block => !block.free

theorem used_append (left right : List Block) : used (left ++ right) = used left ++ used right :=
  List.filter_append ..

theorem used_cons_free {block : Block} (isFree : block.free = true) (rest : List Block) :
    used (block :: rest) = used rest := by
  simp [used, isFree]

theorem used_cons_taken {block : Block} (taken : block.free = false) (rest : List Block) :
    used (block :: rest) = block :: used rest := by
  simp [used, taken]

/-- An address mapped by one of the arenas. -/
def Mapped (arenas : List (Nat × Nat)) (address : Nat) : Prop :=
  ∃ arena ∈ arenas, arena.1 ≤ address ∧ address < arena.1 + arena.2

structure Tiled (heap : Heap) (blocks : List Block) : Prop where
  stores : Stores heap blocks
  apart : Apart blockShape blocks
  covered : ∀ address, Covers blockShape blocks address ↔ Mapped heap.arenas address
  mapped : heap.mappedBytes = extent blockShape blocks

/-! ## Exchanging a part of the list -/

theorem spans_singleton (block : Block) : Spans blockShape [block] block.addr block.stop :=
  ⟨rfl, (Nat.le_add_right ..).trans (block_lt_stop block), rfl⟩

theorem Tiled.exchange {heap heap' : Heap} {left right : List Block} {low high : Nat}
    (middle middle' : List Block) (tiled : Tiled heap (left ++ middle ++ right))
    (stores : Stores heap' (left ++ middle' ++ right)) (same : SameSpace heap heap')
    (nonempty : middle ≠ []) (spans : Spans blockShape middle low high)
    (spans' : Spans blockShape middle' low high) :
    Tiled heap' (left ++ middle' ++ right) where
  stores := stores
  apart := tiled.apart.exchange nonempty spans spans'
  covered address := by
    rw [covers_exchange spans spans', tiled.covered, same.arenas]
  mapped := by
    rw [extent_exchange spans spans', ← tiled.mapped, same.mappedBytes]

section Edits
variable {heap : Heap} {left right : List Block} {block : Block}

/-- A store to the `free` flag. -/
theorem Tiled.mark (tiled : Tiled heap (left ++ block :: right)) (free : Bool) :
    Tiled (heap.modify block.addr fun b => { b with free })
      (left ++ block.withFree free :: right) := by
  have stores := tiled.stores.replace tiled.apart (block.withFree free)
    (fun b => { b with free }) rfl fun _ _ => rfl
  have same : SameSpace heap (heap.modify block.addr fun b => { b with free }) := ⟨rfl, rfl, rfl⟩
  have exchanged := Tiled.exchange [block] [block.withFree free]
    (by simpa using tiled) (by simpa using stores) same (by simp) (spans_singleton block)
    (spans_singleton (block.withFree free))
  simpa using exchanged

/-- Stores that leave the list alone. -/
theorem Tiled.congr {heap' : Heap} {blocks : List Block} (tiled : Tiled heap blocks)
    (stores : Stores heap' blocks) (same : SameSpace heap heap') : Tiled heap' blocks :=
  ⟨stores, tiled.apart, by rw [same.arenas]; exact tiled.covered,
    by rw [same.mappedBytes]; exact tiled.mapped⟩

/-- What `my_malloc` makes of the block it takes: the front part, and a free rest when there is
room for one. -/
structure Taken (block : Block) (size : Nat) (front : Block) (tail : List Block) : Prop where
  addr : front.addr = block.addr
  taken : front.free = false
  fits : size ≤ front.size
  rest : (tail = [] ∧ front.size = block.size ∧ block.size < size + 64) ∨
    ∃ rest, tail = [rest] ∧ rest.free = true ∧ rest.addr = front.stop ∧
      rest.stop = block.stop ∧ 0 < rest.size ∧ size + 64 ≤ block.size

theorem Taken.used_tail {size : Nat} {front : Block} {tail : List Block}
    (taken : Taken block size front tail) : used tail = [] := by
  rcases taken.rest with ⟨rfl, -, -⟩ | ⟨rest, rfl, isFree, -⟩
  · rfl
  · exact used_cons_free isFree []

/-- `split_block` and the store to the `free` flag after it. -/
theorem Tiled.take (tiled : Tiled heap (left ++ block :: right)) {size : Nat}
    (aligned : 16 ∣ size) (fits : size ≤ block.size) :
    ∃ front tail, Taken block size front tail ∧
      Tiled ((splitBlock heap block.addr size).modify block.addr fun b => { b with free := false })
        (left ++ front :: (tail ++ right)) := by
  by_cases room : size + 64 ≤ block.size
  · have stores := splitBlock_stores tiled.stores tiled.apart aligned room
    have spans : Spans blockShape
        [block.shrink size aligned (by omega), block.remainder size aligned (by omega)]
        block.addr block.stop := by
      refine ⟨rfl, ?_, rfl, ?_, ?_⟩
      · exact Nat.le_trans (Nat.le_add_right _ 48) (block_lt_stop _)
      · exact Nat.le_trans (Nat.le_add_right _ 48) (block_lt_stop _)
      · change block.addr + 48 + size + 48 + (block.size - size - 48) =
          block.addr + 48 + block.size
        omega
    have exchanged := Tiled.exchange [block] _ (by simpa using tiled) stores
      (splitBlock_sameSpace ..) (by simp) (spans_singleton block) spans
    rw [List.append_assoc] at exchanged
    refine ⟨(block.shrink size aligned (by omega)).withFree false,
      [block.remainder size aligned (by omega)], ?_, Tiled.mark exchanged false⟩
    refine ⟨rfl, rfl, Nat.le_refl size, Or.inr ⟨_, rfl, rfl, rfl, ?_, ?_, room⟩⟩
    · exact spans.2.2.2.2
    · change 0 < block.size - size - 48
      omega
  · have stores : Stores (splitBlock heap block.addr size) (left ++ block :: right) := by
      by_cases wraps : size + 64 < 2 ^ 64
      · rw [splitBlock_small tiled.stores (by omega) wraps]
        exact tiled.stores
      · exact splitBlock_whole tiled.stores tiled.apart aligned fits (by omega)
    refine ⟨block.withFree false, [], ?_,
      (tiled.congr stores (splitBlock_sameSpace ..)).mark false⟩
    exact ⟨rfl, rfl, fits, Or.inl ⟨rfl, rfl, by omega⟩⟩

theorem Tiled.coalesce (tiled : Tiled heap (left ++ block :: right)) :
    Tiled (coalesceWithNext heap block.addr) (left ++ mergeNext block right) := by
  have stores := coalesceWithNext_spec tiled.stores tiled.apart
  have same := coalesceWithNext_sameSpace heap block.addr
  have unmerged : mergeNext block right = block :: right →
      Tiled (coalesceWithNext heap block.addr) (left ++ mergeNext block right) := by
    intro listEq
    rw [listEq] at stores ⊢
    exact tiled.congr stores same
  cases right with
  | nil => exact unmerged rfl
  | cons next rest =>
      by_cases touch : next.free = true ∧ block.stop = next.addr
      · have listEq : mergeNext block (next :: rest) = block.merge next touch.2 :: rest :=
          dif_pos touch
        have spans : Spans blockShape [block, next] block.addr next.stop :=
          ⟨rfl, (spans_singleton block).2.1, touch.2.symm, (spans_singleton next).2.1, rfl⟩
        have spans' : Spans blockShape [block.merge next touch.2] block.addr next.stop := by
          refine ⟨rfl, (spans_singleton (block.merge next touch.2)).2.1, ?_⟩
          change block.addr + 48 + (block.size + (48 + next.size)) = next.addr + 48 + next.size
          rw [← touch.2, Block.stop]
          omega
        rw [listEq] at stores ⊢
        have exchanged := Tiled.exchange [block, next] [block.merge next touch.2]
          (by simpa using tiled) (by simpa using stores)
          same (by simp) spans spans'
        simpa using exchanged
      · exact unmerged (dif_neg touch)

end Edits

/-! ## A new arena -/

/-- What the system promises about a region `mmap` returns: it is not at
address 0, starts on a page, ends in the address space and meets no earlier
arena. -/
structure FreshRegion (page : Nat) (arenas : List (Nat × Nat)) (base total : Nat) : Prop where
  nonnull : 0 < base
  aligned : page ∣ base
  inside : base + total ≤ 2 ^ 64
  disjoint : ∀ arena ∈ arenas, base + total ≤ arena.1 ∨ arena.1 + arena.2 ≤ base

/-- A page size as systems have them: a multiple of 16, small against the
address space. -/
structure PageSize (pageLong : Int) : Prop where
  aligned : 16 ∣ pageSize pageLong
  small : pageSize pageLong ≤ 2 ^ 62

theorem pageSize_pos (pageLong : Int) : 0 < pageSize pageLong := by
  unfold pageSize
  split_ifs <;> omega

theorem alignedSize_spec {n : Nat} (bound : n ≤ 2 ^ 63) :
    16 ∣ alignedSize n ∧ n ≤ alignedSize n ∧ alignedSize n ≤ 2 ^ 63 := by
  have rounded := mlrtRoundUp_spec n 16 (by omega) (by omega)
  unfold alignedSize alignment
  omega

theorem arenaTotal_spec {pageLong : Int} (page : PageSize pageLong) {size : Nat}
    (bound : size ≤ 2 ^ 63) :
    16 ∣ arenaTotal pageLong size ∧ 48 + size ≤ arenaTotal pageLong size := by
  obtain ⟨aligned, small⟩ := page
  have positive := pageSize_pos pageLong
  unfold arenaTotal
  rw [headerSize_eq, add64_of_lt (by omega)]
  dsimp only
  split_ifs with short
  · have rounded := mlrtRoundUp_spec arenaMin _ positive (by unfold arenaMin; omega)
    refine ⟨aligned.trans rounded.1, ?_⟩
    omega
  · have rounded := mlrtRoundUp_spec (48 + size) _ positive (by omega)
    exact ⟨aligned.trans rounded.1, rounded.2.1⟩

/-- The length without a bound on the request: it is too small only when it wraps, to 0. -/
theorem arenaTotal_cases {pageLong : Int} (page : PageSize pageLong)
    (power : pageSize pageLong ∣ 2 ^ 64) {size : Nat} (bound : size + 64 ≤ 2 ^ 64) :
    arenaTotal pageLong size = 0 ∨
      (16 ∣ arenaTotal pageLong size ∧ 48 + size ≤ arenaTotal pageLong size) := by
  have positive := pageSize_pos pageLong
  unfold arenaTotal
  rw [headerSize_eq, add64_of_lt (by omega)]
  dsimp only
  split_ifs with short
  · have rounded := mlrtRoundUp_cases arenaMin _ positive power (by unfold arenaMin; omega)
    exact rounded.imp id fun more => ⟨page.aligned.trans more.1, by omega⟩
  · have rounded := mlrtRoundUp_cases (48 + size) _ positive power (by omega)
    exact rounded.imp id fun more => ⟨page.aligned.trans more.1, more.2⟩

/-- Every length covers the least arena, unless it wraps to 0. -/
theorem arenaTotal_min {pageLong : Int} (page : PageSize pageLong)
    (power : pageSize pageLong ∣ 2 ^ 64) (size : Nat) :
    arenaTotal pageLong size = 0 ∨
      (16 ∣ arenaTotal pageLong size ∧ arenaMin ≤ arenaTotal pageLong size) := by
  have positive := pageSize_pos pageLong
  have small : add64 headerSize size < 2 ^ 64 := Nat.mod_lt _ (by omega)
  unfold arenaTotal
  dsimp only
  split_ifs with short
  · have rounded := mlrtRoundUp_cases arenaMin _ positive power (by unfold arenaMin; omega)
    exact rounded.imp id fun more => ⟨page.aligned.trans more.1, more.2⟩
  · have rounded := mlrtRoundUp_cases _ _ positive power small
    exact rounded.imp id fun more => ⟨page.aligned.trans more.1, by omega⟩

/-- The block `map_arena` makes of a region. -/
def arenaBlock (base total : Nat) (nonnull : 0 < base) (aligned : 16 ∣ base)
    (totalAligned : 16 ∣ total) (room : 48 ≤ total) (inside : base + total ≤ 2 ^ 64) : Block where
  addr := base
  size := total - 48
  free := true
  nonnull := nonnull
  addrAligned := aligned
  sizeAligned := by omega
  inside := by omega

/-- A block inside the arenas does not meet a region outside them. -/
theorem region_apart {arenas : List (Nat × Nat)} {blocks : List Block} {page base total : Nat}
    (covered : ∀ address, Covers blockShape blocks address ↔ Mapped arenas address)
    (fresh : FreshRegion page arenas base total) (positive : 0 < total) (other : Block)
    (member : other ∈ blocks) : other.stop ≤ base ∨ base + total ≤ other.addr := by
  have outside : ∀ address, base ≤ address → address < base + total →
      ¬ (other.addr ≤ address ∧ address < other.stop) := by
    intro address low high within
    obtain ⟨arena, mapped, lower, upper⟩ := (covered address).mp ⟨other, member, within⟩
    have disjoint := fresh.disjoint arena mapped
    omega
  have wide := block_lt_stop other
  have atBase := outside base (Nat.le_refl _) (by omega)
  have atOther := outside other.addr
  omega

/-- `map_arena` with a region adds one free block for all of it. -/
theorem Tiled.mapArena {heap : Heap} {blocks : List Block} (tiled : Tiled heap blocks)
    {pageLong : Int} (page : PageSize pageLong) {size base : Nat}
    (totalAligned : 16 ∣ arenaTotal pageLong size) (large : 48 ≤ arenaTotal pageLong size)
    (fresh : FreshRegion (pageSize pageLong) heap.arenas base (arenaTotal pageLong size)) :
    ∃ heap' left block right, Model.mapArena pageLong (some base) heap size =
        some (block.addr, heap') ∧ blocks = left ++ right ∧
      Tiled heap' (left ++ block :: right) ∧ block.free = true ∧ block.addr = base ∧
      block.stop = base + arenaTotal pageLong size := by
  generalize totalEq : arenaTotal pageLong size = total at *
  have inside := fresh.inside
  have nonnull := fresh.nonnull
  have apartFrom := region_apart tiled.covered fresh (by omega)
  have sizeEq : sub64 total headerSize = total - 48 := by
    rw [headerSize_eq]
    exact sub64_of_le (by omega) (by omega)
  let block := arenaBlock base total nonnull (page.aligned.trans fresh.aligned) totalAligned
    (by omega) inside
  let marked : Heap := Heap.modify
    { heap with
      mappedBytes := add64 heap.mappedBytes total
      arenas := (base, total) :: heap.arenas }
    base fun _ => ⟨blockMagic, total - 48, true, 0, 0⟩
  have distinct : ∀ other ∈ blocks, other.addr ≠ base := by
    intro other member same
    have clear := apartFrom other member
    have wide := block_lt_stop other
    omega
  have stores : Stores marked blocks := by
    refine tiled.stores.congr rfl fun other member => ?_
    exact (modify_mem ..).trans (if_neg (distinct other member))
  have header : marked.mem block.addr = ⟨blockMagic, block.size, block.free, 0, 0⟩ :=
    (modify_mem ..).trans (if_pos rfl)
  obtain ⟨heap', left, right, inserted, split, stores', lower, upper, same⟩ :=
    insertSorted_spec stores (apart_sorted tiled.apart) (length_lt_walkFuel tiled.apart) header
      distinct
  have stopEq : block.stop = base + total := by
    change base + 48 + (total - 48) = base + total
    omega
  refine ⟨heap', left, block, right, ?_, split, ?_, rfl, rfl, stopEq⟩
  · unfold Model.mapArena
    dsimp only
    rw [totalEq, sizeEq]
    change (insertSorted marked block.addr).map _ = _
    rw [inserted]
    rfl
  · subst split
    have apart' : Apart blockShape (left ++ block :: right) := by
      refine tiled.apart.insert (fun other member => ?_) (fun other member => ?_)
      · have below : other.addr < base := lower other member
        have clear := apartFrom other (by simp [member])
        change other.stop ≤ base
        omega
      · have above : base < other.addr := upper other member
        have clear := apartFrom other (by simp [member])
        have wide := block_lt_stop other
        change block.stop ≤ other.addr
        omega
    have extentEq : extent blockShape (left ++ block :: right) =
        total + extent blockShape (left ++ right) := by
      rw [extent_insert]
      change block.stop - base + _ = _
      omega
    have small := extent_lt apart'
    refine ⟨stores', apart', fun address => ?_, ?_⟩
    · rw [covers_insert, tiled.covered, same.arenas]
      change base ≤ address ∧ address < block.stop ∨ _ ↔
        Mapped ((base, total) :: heap.arenas) address
      rw [stopEq]
      simp [Mapped]
    · rw [same.mappedBytes, extentEq]
      change add64 heap.mappedBytes total = _
      rw [tiled.mapped, add64_of_lt (by omega), Nat.add_comm]

end EmbeddedRuntime.Allocator.Arenas
