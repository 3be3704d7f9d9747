import EmbeddedRuntime.Allocator.Arenas

/-!
# What one call does to the block list

`my_malloc` takes a free block of the list or a new arena and leaves a free rest
when there is room for one.  `my_free` frees a block and joins it with the free
neighbours that touch it.
-/

set_option autoImplicit false

namespace EmbeddedRuntime.Allocator.Calls

open EmbeddedRuntime.Allocator.Model
open EmbeddedRuntime.Allocator.BlockList
open EmbeddedRuntime.Allocator.Walks
open EmbeddedRuntime.Allocator.Arenas
open EmbeddedRuntime.Common
open EmbeddedRuntime.Lib.LinkedList
open EmbeddedRuntime.Lib.Tiling
open EmbeddedRuntime.Lib.Word64

section Calls
variable {heap : Heap} {blocks left right : List Block} {block : Block} {pageLong : Int}
  {mmap : Option Nat} {size : Nat}

/-! ## Allocation -/

/-- A region for an arena: long enough for a header, and where the system may place it. -/
structure Region (pageLong : Int) (heap : Heap) (size base : Nat) : Prop where
  aligned : 16 ∣ arenaTotal pageLong size
  large : 48 ≤ arenaTotal pageLong size
  fresh : FreshRegion (pageSize pageLong) heap.arenas base (arenaTotal pageLong size)

def NoFit (blocks : List Block) (size : Nat) : Prop :=
  ∀ block ∈ blocks, ¬ (block.free = true ∧ size ≤ block.size)

/-- Where the block comes from: a free block of the list, or a new arena between two of them. -/
inductive Found (pageLong : Int) (mmap : Option Nat) (size : Nat) (blocks left : List Block)
    (block : Block) (right : List Block) : Prop where
  | fit (split : blocks = left ++ block :: right) (fits : size ≤ block.size)
  | arena (base : Nat) (answer : mmap = some base) (split : blocks = left ++ right)
      (noFit : NoFit blocks size) (addr : block.addr = base)
      (stop : block.stop = base + arenaTotal pageLong size)

theorem fitOrArena_cases (tiled : Tiled heap blocks) (page : PageSize pageLong)
    (region : ∀ base ∈ mmap, Region pageLong heap size base) :
    (fitOrArena pageLong mmap heap size = some (0, heap) ∧ mmap = none ∧ NoFit blocks size) ∨
      ∃ heap' left block right, fitOrArena pageLong mmap heap size = some (block.addr, heap') ∧
        Tiled heap' (left ++ block :: right) ∧ block.free = true ∧
        Found pageLong mmap size blocks left block right := by
  unfold fitOrArena
  rcases findFit_spec size tiled.stores.chain (length_lt_walkFuel tiled.apart)
    with ⟨noFit, others⟩ | ⟨left, block, right, split, isFree, large, answer⟩
  · rw [tiled.stores.head, noFit]
    cases mmap with
    | none => exact Or.inl ⟨rfl, rfl, others⟩
    | some base =>
        obtain ⟨aligned, large, fresh⟩ := region base rfl
        obtain ⟨heap', left, block, right, mapped, split, tiled', isFree, addr, stop⟩ :=
          tiled.mapArena page aligned large fresh
        exact Or.inr ⟨heap', left, block, right, mapped, tiled', isFree,
          .arena base rfl split others addr stop⟩
  · rw [tiled.stores.head, answer]
    refine Or.inr ⟨heap, left, block, right, if_neg block.nonnull.ne', ?_, isFree,
      .fit split large⟩
    rw [← split]
    exact tiled

theorem alignedSize_cases {n : Nat} (small : n < 2 ^ 64) :
    (n + 16 ≤ 2 ^ 64 ∧ 16 ∣ alignedSize n ∧ n ≤ alignedSize n ∧ alignedSize n < n + 16) ∨
      (2 ^ 64 < n + 16 ∧ alignedSize n = 0) := by
  by_cases near : n + 16 < 2 ^ 64
  · have rounded := mlrtRoundUp_spec n 16 (by omega) near
    exact Or.inl ⟨by omega, rounded⟩
  · unfold alignedSize alignment mlrtRoundUp
    rw [if_neg (by omega)]
    by_cases last : n + 16 = 2 ^ 64
    · rw [if_neg (by omega)]
      exact Or.inl ⟨by omega, by omega, Nat.le_refl n, by omega⟩
    · refine Or.inr ⟨by omega, ?_⟩
      rw [if_pos (by omega), add64]
      omega

/-- `my_malloc` returns null and changes nothing, or takes a block of at least the requested
size. -/
theorem myMalloc_cases (tiled : Tiled heap blocks) (page : PageSize pageLong) {n : Nat}
    (aligned : 16 ∣ alignedSize n) (large : n ≤ alignedSize n)
    (region : ∀ base ∈ mmap, Region pageLong heap (alignedSize n) base ∧
      48 + alignedSize n ≤ arenaTotal pageLong (alignedSize n)) :
    (myMalloc pageLong mmap heap n = some (0, heap) ∧
        (n = 0 ∨ mmap = none ∧ NoFit blocks (alignedSize n))) ∨
      ∃ heap' left block right front tail, myMalloc pageLong mmap heap n =
          some (front.payload, heap') ∧
        Tiled heap' (left ++ front :: (tail ++ right)) ∧ 0 < n ∧ block.free = true ∧
        Found pageLong mmap (alignedSize n) blocks left block right ∧
        Taken block (alignedSize n) front tail := by
  unfold myMalloc
  by_cases zero : n = 0
  · exact Or.inl ⟨if_pos zero, Or.inl zero⟩
  · rw [if_neg zero]
    rcases fitOrArena_cases tiled page fun base answer => (region base answer).1
      with ⟨failed, noAnswer, noFit⟩ | ⟨found, left, block, right, answer, tiled', isFree, source⟩
    · refine Or.inl ⟨?_, Or.inr ⟨noAnswer, noFit⟩⟩
      dsimp only
      rw [failed]
      rfl
    · have fits : alignedSize n ≤ block.size := by
        cases source with
        | fit split fits => exact fits
        | arena base mapped split noFit addr stop =>
            have roomy := (region base mapped).2
            have stopEq : block.stop = block.addr + 48 + block.size := rfl
            omega
      obtain ⟨front, tail, taken, splitTiled⟩ := tiled'.take aligned fits
      refine Or.inr ⟨_, left, block, right, front, tail, ?_, splitTiled, Nat.pos_of_ne_zero zero,
        isFree, source, taken⟩
      have inside := front.inside
      have frontFits := taken.fits
      have payloadEq : add64 block.addr headerSize = front.payload := by
        rw [← taken.addr, headerSize_eq, add64_of_lt (by omega), Block.payload]
      dsimp only
      rw [answer]
      simp only [Option.map_some, if_neg block.nonnull.ne']
      rw [payloadEq]

/-! ## Release -/

theorem myFree_eq (stores : Stores heap (left ++ block :: right)) (nonempty : 0 < block.size) :
    myFree heap block.payload = coalesceWithPrev
      (coalesceWithNext (heap.modify block.addr fun b => { b with free := true }) block.addr)
      block.addr := by
  have inside := block.inside
  have blockEq : sub64 block.payload headerSize = block.addr := by
    rw [headerSize_eq, Block.payload, sub64_of_le (by omega) (by omega)]
    omega
  unfold myFree
  dsimp only
  rw [if_neg (by unfold Block.payload; omega), blockEq, stores.header]
  exact if_neg (by simp)

/-- The free block that a freed one becomes part of: it swallows the next block when that is free
and begins at the end of the freed one, and is swallowed by the block before likewise. -/
structure Released (left : List Block) (block : Block) (right init : List Block) (merged : Block)
    (rest : List Block) : Prop where
  free : merged.free = true
  after : (rest = right ∧ merged.stop = block.stop ∧
      ∀ next ∈ right.head?, ¬ (next.free = true ∧ block.stop = next.addr)) ∨
    ∃ next, right = next :: rest ∧ next.free = true ∧ block.stop = next.addr ∧
      merged.stop = next.stop
  before : (init = left ∧ merged.addr = block.addr ∧
      ∀ prev ∈ left.getLast?, ¬ (prev.free = true ∧ prev.stop = block.addr)) ∨
    ∃ prev, left = init ++ [prev] ∧ prev.free = true ∧ prev.stop = block.addr ∧
      merged.addr = prev.addr

theorem merge_stop (block next : Block) (touch : block.stop = next.addr) :
    (block.merge next touch).stop = next.stop := by
  have stopEq : block.stop = block.addr + 48 + block.size := rfl
  change block.addr + 48 + (block.size + (48 + next.size)) = next.addr + 48 + next.size
  omega

/-- The next block alone. -/
theorem mergeNext_cases (block : Block) (right : List Block) :
    ∃ merged rest, mergeNext block right = merged :: rest ∧ merged.addr = block.addr ∧
      merged.free = block.free ∧
      ((rest = right ∧ merged.stop = block.stop ∧
          ∀ next ∈ right.head?, ¬ (next.free = true ∧ block.stop = next.addr)) ∨
        ∃ next, right = next :: rest ∧ next.free = true ∧ block.stop = next.addr ∧
          merged.stop = next.stop) := by
  cases right with
  | nil => exact ⟨block, [], rfl, rfl, rfl, Or.inl ⟨rfl, rfl, nofun⟩⟩
  | cons next rest =>
      rw [mergeNext]
      split_ifs with touch
      · exact ⟨_, _, rfl, rfl, rfl,
          Or.inr ⟨next, rfl, touch.1, touch.2, merge_stop block next touch.2⟩⟩
      · refine ⟨_, _, rfl, rfl, rfl, Or.inl ⟨rfl, rfl, ?_⟩⟩
        intro other first
        obtain rfl := Option.some.inj first
        exact touch

theorem coalesceWithPrev_cases (tiled : Tiled heap (left ++ block :: right))
    (isFree : block.free = true) :
    ∃ init merged, Tiled (coalesceWithPrev heap block.addr) (init ++ merged :: right) ∧
      merged.free = true ∧ merged.stop = block.stop ∧
      ((init = left ∧ merged.addr = block.addr ∧
          ∀ prev ∈ left.getLast?, ¬ (prev.free = true ∧ prev.stop = block.addr)) ∨
        ∃ prev, left = init ++ [prev] ∧ prev.free = true ∧ prev.stop = block.addr ∧
          merged.addr = prev.addr) := by
  have blockEnds := block.inside
  have header := tiled.stores.header
  unfold coalesceWithPrev
  rw [header]
  dsimp only
  rcases List.eq_nil_or_concat left with rfl | ⟨init, prev, rfl⟩
  · rw [if_neg (by simp)]
    exact ⟨[], block, tiled, isFree, rfl, Or.inl ⟨rfl, rfl, nofun⟩⟩
  · rw [List.concat_eq_append] at tiled ⊢
    have regrouped : init ++ [prev] ++ block :: right = init ++ prev :: block :: right := by simp
    rw [regrouped] at tiled
    have prevHeader : heap.mem prev.addr = _ := tiled.stores.header
    rw [Layout.last_append_singleton]
    change ∃ init' merged, Tiled (if prev.addr ≠ 0 ∧ (heap.mem prev.addr).free = true ∧
      adjacent heap.mem prev.addr block.addr then coalesceWithNext heap prev.addr else heap)
      (init' ++ merged :: right) ∧ _
    have condition : (prev.addr ≠ 0 ∧ (heap.mem prev.addr).free = true ∧
        adjacent heap.mem prev.addr block.addr) ↔ prev.free = true ∧ prev.stop = block.addr := by
      rw [adjacent_iff tiled.stores block.addr block.nonnull (by omega), prevHeader]
      exact and_iff_right prev.nonnull.ne'
    by_cases joins : prev.free = true ∧ prev.stop = block.addr
    · rw [if_pos (condition.mpr joins)]
      have joined : mergeNext prev (block :: right) = prev.merge block joins.2 :: right :=
        dif_pos ⟨isFree, joins.2⟩
      refine ⟨init, prev.merge block joins.2, ?_, joins.1, merge_stop prev block joins.2,
        Or.inr ⟨prev, rfl, joins.1, joins.2, rfl⟩⟩
      rw [← joined]
      exact tiled.coalesce
    · rw [if_neg fun all => joins (condition.mp all)]
      refine ⟨init ++ [prev], block, ?_, isFree, rfl, Or.inl ⟨rfl, rfl, ?_⟩⟩
      · rw [regrouped]
        exact tiled
      · intro other last
        rw [List.getLast?_concat] at last
        obtain rfl := Option.some.inj last
        exact joins

/-- `my_free` of an allocated block releases exactly that block. -/
theorem myFree_cases (tiled : Tiled heap (left ++ block :: right)) (nonempty : 0 < block.size) :
    ∃ init merged rest, Tiled (myFree heap block.payload) (init ++ merged :: rest) ∧
      Released left block right init merged rest := by
  rw [myFree_eq tiled.stores nonempty]
  have marked := (tiled.mark true).coalesce
  obtain ⟨joined, rest, listEq, sameAddr, isFree, after⟩ :=
    mergeNext_cases (block.withFree true) right
  rw [listEq] at marked
  obtain ⟨init, merged, tiled', mergedFree, sameStop, before⟩ :=
    coalesceWithPrev_cases marked isFree
  rw [sameAddr] at tiled' before
  refine ⟨init, merged, rest, tiled', mergedFree, ?_, before⟩
  rw [sameStop]
  exact after

section Released
variable {init rest : List Block} {merged : Block}
  (released : Released left block right init merged rest)
include released

theorem Released.covers : merged.addr ≤ block.addr ∧ block.stop ≤ merged.stop := by
  constructor
  · rcases released.before with ⟨-, same, -⟩ | ⟨prev, -, -, touch, same⟩
    · exact Nat.le_of_eq same
    · have wide := block_lt_stop prev
      omega
  · rcases released.after with ⟨-, same, -⟩ | ⟨next, -, -, touch, same⟩
    · exact Nat.le_of_eq same.symm
    · have wide := block_lt_stop next
      omega

theorem Released.init_sublist : init.Sublist left := by
  rcases released.before with ⟨rfl, -⟩ | ⟨prev, rfl, -⟩
  · exact List.Sublist.refl _
  · exact List.sublist_append_left init [prev]

theorem Released.rest_sublist : rest.Sublist right := by
  rcases released.after with ⟨rfl, -⟩ | ⟨next, rfl, -⟩
  · exact List.Sublist.refl _
  · exact List.sublist_cons_self next rest

end Released

end Calls

/-! ## The allocations behind -/

section Used
variable {blocks left right : List Block} {block : Block}

theorem Found.used_eq {pageLong : Int} {mmap : Option Nat} {size : Nat}
    (found : Found pageLong mmap size blocks left block right) (isFree : block.free = true) :
    used blocks = used (left ++ right) := by
  cases found with
  | fit split fits => rw [split, used_append, used_append, used_cons_free isFree]
  | arena base answer split noFit addr stop => rw [split]

theorem Released.used_eq {init rest : List Block} {merged : Block}
    (released : Released left block right init merged rest) :
    used (init ++ merged :: rest) = used (left ++ right) := by
  have after : used rest = used right := by
    rcases released.after with ⟨rfl, -⟩ | ⟨next, rfl, isFree, -⟩
    · rfl
    · exact (used_cons_free isFree rest).symm
  have before : used init = used left := by
    rcases released.before with ⟨rfl, -⟩ | ⟨prev, rfl, isFree, -⟩
    · rfl
    · rw [used_append, used_cons_free isFree]
      exact (List.append_nil _).symm
  rw [used_append, used_cons_free released.free, after, before, used_append]

end Used

end EmbeddedRuntime.Allocator.Calls
