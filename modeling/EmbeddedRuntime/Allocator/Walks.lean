import EmbeddedRuntime.Allocator.BlockList

/-!
# The loops over the block list

`insert_sorted`, `find_fit` and `my_allocator_get_stats` walk the `next` links.
On a stored list each walk ends after at most one step per block, and computes
what its list counterpart does.
-/

set_option autoImplicit false

namespace EmbeddedRuntime.Allocator.Walks

open EmbeddedRuntime.Allocator.Model
open EmbeddedRuntime.Allocator.BlockList
open EmbeddedRuntime.Lib.LinkedList
open EmbeddedRuntime.Lib.Tiling
open EmbeddedRuntime.Lib.Word64

/-! ## The length of a list -/

theorem extent_cons (block : Block) (rest : List Block) :
    extent blockShape (block :: rest) = 48 + block.size + extent blockShape rest := by
  simp only [extent, List.map_cons, List.sum_cons]
  change block.addr + 48 + block.size - block.addr + _ = _
  omega

theorem length_extent (blocks : List Block) : 48 * blocks.length ≤ extent blockShape blocks := by
  induction blocks with
  | nil => simp [extent]
  | cons block rest ih =>
      rw [extent_cons, List.length_cons]
      omega

theorem extent_lt {blocks : List Block} (apart : Apart blockShape blocks) :
    extent blockShape blocks < 2 ^ 64 := by
  have bounded := apart.extent_le 1 (2 ^ 64)
    (fun block _ => by have := block_lt_stop block; change block.addr ≤ block.stop; omega)
    (fun block _ => ⟨block.nonnull, block.inside⟩) (by omega)
  omega

theorem length_lt_walkFuel {blocks : List Block} (apart : Apart blockShape blocks) :
    blocks.length < walkFuel := by
  have wide := length_extent blocks
  have small := extent_lt apart
  unfold walkFuel
  omega

/-! ## First fit -/

/-- `find_fit` answers with the first free block that is large enough, or with
0 when the list has none. -/
theorem findFit_spec {mem : Nat → BlockHeader} {before : Nat} {blocks : List Block} {fuel : Nat}
    (size : Nat) (chain : Chain blockLayout mem before blocks 0) (enough : blocks.length < fuel) :
    (findFit mem size fuel (blockLayout.first 0 blocks) = some 0 ∧
        ∀ block ∈ blocks, ¬ (block.free = true ∧ size ≤ block.size)) ∨
      ∃ left block right, blocks = left ++ block :: right ∧ block.free = true ∧
        size ≤ block.size ∧
        findFit mem size fuel (blockLayout.first 0 blocks) = some block.addr := by
  induction blocks generalizing before fuel with
  | nil =>
      obtain ⟨fuel, rfl⟩ := Nat.exists_eq_succ_of_ne_zero (by omega : fuel ≠ 0)
      exact Or.inl ⟨rfl, nofun⟩
  | cons block rest ih =>
      obtain ⟨fuel, rfl⟩ := Nat.exists_eq_succ_of_ne_zero (by omega : fuel ≠ 0)
      obtain ⟨here, later⟩ := chain
      have header : mem block.addr = _ := here
      have nonnull : block.addr ≠ 0 := block.nonnull.ne'
      have unfolded : findFit mem size (fuel + 1) block.addr =
          if block.free = true ∧ size ≤ block.size then some block.addr
          else findFit mem size fuel (blockLayout.first 0 rest) := by
        rw [findFit, if_neg nonnull, header]
        rfl
      change (findFit mem size (fuel + 1) block.addr = _ ∧ _) ∨ ∃ left found right, _ ∧ _ ∧ _ ∧
        findFit mem size (fuel + 1) block.addr = _
      rw [unfolded]
      by_cases fits : block.free = true ∧ size ≤ block.size
      · exact Or.inr ⟨[], block, rest, rfl, fits.1, fits.2, by rw [if_pos fits]⟩
      · rw [if_neg fits]
        rcases ih later (by simpa using enough) with
          ⟨noFit, others⟩ | ⟨left, found, right, split, isFree, large, answer⟩
        · exact Or.inl ⟨noFit, List.forall_mem_cons.mpr ⟨fits, others⟩⟩
        · exact Or.inr ⟨block :: left, found, right, by rw [split]; rfl, isFree, large, answer⟩

/-! ## Insertion in address order -/

/-- The loop of `insert_sorted` stops at the last block below the new one. -/
theorem walkBefore_spec {mem : Nat → BlockHeader} {before fuel : Nat} {first : Block}
    {rest : List Block} (address : Nat) (chain : Chain blockLayout mem before (first :: rest) 0)
    (below : first.addr < address) (enough : rest.length < fuel) :
    ∃ left cur right, first :: rest = left ++ cur :: right ∧
      walkBefore mem address fuel first.addr = some cur.addr ∧ cur.addr < address ∧
      ∀ other ∈ right.head?, address ≤ other.addr := by
  induction rest generalizing before first fuel with
  | nil =>
      obtain ⟨fuel, rfl⟩ := Nat.exists_eq_succ_of_ne_zero (by omega : fuel ≠ 0)
      have header : mem first.addr = _ := chain.1
      refine ⟨[], first, [], rfl, ?_, below, by simp⟩
      rw [walkBefore, header]
      exact if_neg (by simp [blockLayout])
  | cons next rest ih =>
      obtain ⟨fuel, rfl⟩ := Nat.exists_eq_succ_of_ne_zero (by omega : fuel ≠ 0)
      obtain ⟨here, later⟩ := chain
      have header : mem first.addr = _ := here
      have nonnull : next.addr ≠ 0 := next.nonnull.ne'
      have unfolded : walkBefore mem address (fuel + 1) first.addr =
          if next.addr < address then walkBefore mem address fuel next.addr
          else some first.addr := by
        rw [walkBefore, header]
        change (if next.addr ≠ 0 ∧ next.addr < address then _ else _) = _
        simp only [nonnull, ne_eq, not_false_eq_true, true_and]
        rfl
      rw [unfolded]
      by_cases goesOn : next.addr < address
      · obtain ⟨left, cur, right, split, answer, lower, upper⟩ :=
          ih later goesOn (by simpa using enough)
        refine ⟨first :: left, cur, right, by rw [split]; rfl, ?_, lower, upper⟩
        rw [if_pos goesOn, answer]
      · exact ⟨[], first, next :: rest, rfl, if_neg goesOn, below, by simp; omega⟩

section Insert
variable {heap : Heap} {blocks : List Block} {block : Block}

/-- What `insert_sorted` leaves alone. -/
structure SameArenas (heap heap' : Heap) : Prop where
  mappedBytes : heap'.mappedBytes = heap.mappedBytes
  arenas : heap'.arenas = heap.arenas

theorem insertFront_mem {address size prev next : Nat} {free : Bool}
    (header : heap.mem address = ⟨blockMagic, size, free, prev, next⟩)
    (fresh : heap.head ≠ 0 → heap.head ≠ address) (other : Nat) :
    (insertFront heap address).mem other =
      if heap.head ≠ 0 ∧ other = heap.head then { heap.mem heap.head with prev := address }
      else if other = address then ⟨blockMagic, size, free, 0, heap.head⟩
      else heap.mem other := by
  simp only [insertFront, modify_head]
  by_cases here : other = address
  · by_cases null : heap.head = 0
    · simp [null, here, header]
    · simp [null, here, header, (fresh null).symm]
  · by_cases null : heap.head = 0
    · simp [null, here]
    · simp [null, here, fresh null]

theorem insertAfter_mem {address cur size prev next csize cprev cnext : Nat} {free cfree : Bool}
    (header : heap.mem address = ⟨blockMagic, size, free, prev, next⟩)
    (curHeader : heap.mem cur = ⟨blockMagic, csize, cfree, cprev, cnext⟩)
    (curNe : cur ≠ address) (nextNe : cnext ≠ 0 → cnext ≠ address)
    (nextNeCur : cnext ≠ 0 → cur ≠ cnext) (other : Nat) :
    (insertAfter heap address cur).mem other =
      if other = cur then ⟨blockMagic, csize, cfree, cprev, address⟩
      else if cnext ≠ 0 ∧ other = cnext then { heap.mem cnext with prev := address }
      else if other = address then ⟨blockMagic, size, free, cur, cnext⟩
      else heap.mem other := by
  simp only [insertAfter, modify_mem, linkBack_mem, header, curHeader, if_true, curNe, if_false]
  by_cases here : other = address
  · by_cases null : cnext = 0
    · simp [null, here]
    · simp [null, here, nextNe null, nextNeCur null]
  · by_cases null : cnext = 0
    · simp [null, here]
    · simp [null, here, nextNe null, nextNeCur null]

theorem insertAfter_sameSpace (heap : Heap) (address cur : Nat) :
    SameSpace heap (insertAfter heap address cur) := by
  unfold insertAfter
  dsimp only
  split_ifs <;> exact ⟨rfl, rfl, rfl⟩

theorem insertFront_stores (stores : Stores heap blocks)
    (sorted : blocks.Pairwise fun left right => left.addr < right.addr) {prev next : Nat}
    (header : heap.mem block.addr = ⟨blockMagic, block.size, block.free, prev, next⟩)
    (below : ∀ other ∈ blocks, block.addr < other.addr) :
    Stores (insertFront heap block.addr) (block :: blocks) := by
  have fresh : heap.head ≠ 0 → heap.head ≠ block.addr := by
    rw [stores.head]
    intro nonnull
    cases blocks with
    | nil => exact absurd rfl nonnull
    | cons first rest => exact (below first (by simp)).ne'
  have memEq := insertFront_mem header fresh
  refine ⟨rfl, ?_, relink_right stores.chain sorted ?_⟩
  · change (insertFront heap block.addr).mem block.addr = _
    have notHead : ¬ (heap.head ≠ 0 ∧ block.addr = heap.head) :=
      fun same => fresh same.1 same.2.symm
    rw [memEq, if_neg notHead, if_pos rfl, stores.head]
    rfl
  · intro other member
    have above := below other member
    have nonnull := other.nonnull
    rw [memEq, ← stores.head]
    by_cases isHead : other.addr = heap.head
    · rw [if_pos ⟨by omega, isHead⟩, if_pos isHead, isHead]
      rfl
    · rw [if_neg (by simp [isHead]), if_neg isHead, if_neg (by omega)]

theorem insertAfter_stores {left right : List Block} {cur : Block}
    (stores : Stores heap (left ++ cur :: right))
    (sorted : (left ++ cur :: right).Pairwise fun left right => left.addr < right.addr)
    {prev next : Nat}
    (header : heap.mem block.addr = ⟨blockMagic, block.size, block.free, prev, next⟩)
    (above : cur.addr < block.addr) (below : ∀ other ∈ right, block.addr < other.addr) :
    Stores (insertAfter heap block.addr cur.addr) (left ++ [cur, block] ++ right) := by
  have nextBound : blockLayout.first 0 right ≠ 0 → block.addr < blockLayout.first 0 right := by
    intro nonnull
    cases right with
    | nil => exact absurd rfl nonnull
    | cons first rest => exact below first (by simp)
  have memEq := insertAfter_mem header stores.header (by omega)
    (fun nonnull => by have := nextBound nonnull; omega)
    (fun nonnull => by have := nextBound nonnull; omega)
  obtain ⟨-, restSorted, across⟩ := List.pairwise_append.mp sorted
  refine Stores.exchange heap [cur] (by simpa using stores)
    (List.pairwise_cons.mp restSorted).2 (insertAfter_sameSpace ..).head rfl ?_ ?_ ?_
  · intro other member
    have lower := across other member cur (by simp)
    rw [memEq, if_neg (by omega), if_neg (by omega), if_neg (by omega)]
  · refine ⟨(memEq _).trans (if_pos rfl), ?_, trivial⟩
    change (insertAfter heap block.addr cur.addr).mem block.addr = _
    rw [memEq, if_neg (by omega), if_neg (by omega), if_pos rfl]
    rfl
  · intro other member
    have later := below other member
    have nonnull := other.nonnull
    rw [memEq, if_neg (by omega)]
    by_cases isNext : other.addr = blockLayout.first 0 right
    · rw [if_pos ⟨by omega, isNext⟩, if_pos isNext, isNext]
      rfl
    · rw [if_neg (by simp [isNext]), if_neg isNext, if_neg (by omega)]

/-- `insert_sorted` links a new block between its neighbours in address order. -/
theorem insertSorted_spec (stores : Stores heap blocks)
    (sorted : blocks.Pairwise fun left right => left.addr < right.addr)
    (enough : blocks.length < walkFuel) {prev next : Nat}
    (header : heap.mem block.addr = ⟨blockMagic, block.size, block.free, prev, next⟩)
    (fresh : ∀ other ∈ blocks, other.addr ≠ block.addr) :
    ∃ heap' left right, insertSorted heap block.addr = some heap' ∧ blocks = left ++ right ∧
      Stores heap' (left ++ block :: right) ∧ (∀ other ∈ left, other.addr < block.addr) ∧
      (∀ other ∈ right, block.addr < other.addr) ∧ SameArenas heap heap' := by
  unfold insertSorted
  by_cases front : heap.head = 0 ∨ block.addr < heap.head
  · rw [if_pos front]
    have below : ∀ other ∈ blocks, block.addr < other.addr := by
      rw [stores.head] at front
      intro other member
      cases blocks with
      | nil => simp at member
      | cons first rest =>
          have nonnull := first.nonnull
          have lower : block.addr < first.addr := by
            rcases front with null | lower
            · exact absurd null nonnull.ne'
            · exact lower
          rcases List.mem_cons.mp member with rfl | member
          · exact lower
          · exact lower.trans ((List.pairwise_cons.mp sorted).1 other member)
    refine ⟨_, [], blocks, rfl, rfl, insertFront_stores stores sorted header below, by simp, below, ?_⟩
    unfold insertFront
    dsimp only
    split_ifs <;> exact ⟨rfl, rfl⟩
  · rw [if_neg front]
    cases blocks with
    | nil => exact absurd (Or.inl stores.head) front
    | cons first rest =>
        have headEq : heap.head = first.addr := stores.head
        have firstNe := fresh first (by simp)
        have enough' : rest.length < walkFuel := by
          rw [List.length_cons] at enough
          omega
        obtain ⟨left, cur, right, split, answer, lower, upper⟩ :=
          walkBefore_spec block.addr stores.chain (by omega) enough'
        rw [split] at stores sorted fresh ⊢
        obtain ⟨-, restSorted, across⟩ := List.pairwise_append.mp sorted
        have below : ∀ other ∈ right, block.addr < other.addr := by
          intro other member
          have distinct := fresh other (by simp [member])
          cases right with
          | nil => simp at member
          | cons next rest =>
              have nextAbove := upper next (by simp)
              rcases List.mem_cons.mp member with rfl | member
              · omega
              · have later := (List.pairwise_cons.mp
                  (List.pairwise_cons.mp restSorted).2).1 other member
                omega
        refine ⟨_, left ++ [cur], right, by rw [headEq, answer]; rfl, by simp, ?_, ?_, below,
          (insertAfter_sameSpace ..).mappedBytes, (insertAfter_sameSpace ..).arenas⟩
        · have linked := insertAfter_stores stores sorted header lower below
          simpa using linked
        · intro other member
          rcases List.mem_append.mp member with member | member
          · exact (across other member cur (by simp)).trans lower
          · obtain rfl : other = cur := by simpa using member
            exact lower

end Insert

/-! ## Statistics -/

/-- The statistics loop without wraparound. -/
def tally (stats : MyAllocatorStats) (block : Block) : MyAllocatorStats :=
  if block.free then
    { stats with
      freeBlocks := stats.freeBlocks + 1
      freeBytes := stats.freeBytes + block.size }
  else
    { stats with
      allocatedBlocks := stats.allocatedBlocks + 1
      allocatedBytes := stats.allocatedBytes + block.size }

/-- What the loop has added up so far; it bounds each of the four sums. -/
def tallied (stats : MyAllocatorStats) : Nat :=
  stats.allocatedBytes + stats.freeBytes + 48 * (stats.allocatedBlocks + stats.freeBlocks)

theorem tallied_tally (stats : MyAllocatorStats) (block : Block) :
    tallied (tally stats block) = tallied stats + (48 + block.size) := by
  unfold tallied tally
  split <;> dsimp only <;> omega

theorem tallied_foldl (blocks : List Block) (stats : MyAllocatorStats) :
    tallied (blocks.foldl tally stats) = tallied stats + extent blockShape blocks := by
  induction blocks generalizing stats with
  | nil => simp [extent]
  | cons block rest ih =>
      rw [List.foldl_cons, ih, tallied_tally, extent_cons]
      omega

theorem foldl_tally_mappedBytes (blocks : List Block) (stats : MyAllocatorStats) :
    (blocks.foldl tally stats).mappedBytes = stats.mappedBytes := by
  induction blocks generalizing stats with
  | nil => rfl
  | cons block rest ih =>
      rw [List.foldl_cons, ih]
      unfold tally
      split <;> rfl

theorem statsLoop_spec {mem : Nat → BlockHeader} {before fuel : Nat} {blocks : List Block}
    (chain : Chain blockLayout mem before blocks 0) (enough : blocks.length < fuel)
    (stats : MyAllocatorStats) (room : tallied stats + extent blockShape blocks < 2 ^ 64) :
    statsLoop mem fuel (blockLayout.first 0 blocks) stats = some (blocks.foldl tally stats) := by
  induction blocks generalizing before fuel stats with
  | nil =>
      obtain ⟨fuel, rfl⟩ := Nat.exists_eq_succ_of_ne_zero (by omega : fuel ≠ 0)
      rfl
  | cons block rest ih =>
      obtain ⟨fuel, rfl⟩ := Nat.exists_eq_succ_of_ne_zero (by omega : fuel ≠ 0)
      obtain ⟨here, later⟩ := chain
      have header : mem block.addr = _ := here
      rw [extent_cons] at room
      have after := ih later (by simpa using enough) (tally stats block)
        (by rw [tallied_tally]; omega)
      rw [List.foldl_cons, ← after]
      change statsLoop mem (fuel + 1) block.addr stats = _
      rw [statsLoop, if_neg block.nonnull.ne', header]
      unfold tallied at room
      have bytes : ∀ sum, sum ≤ stats.allocatedBytes + stats.freeBytes →
          add64 sum block.size = sum + block.size :=
        fun sum bound => add64_of_lt (by omega)
      have count : ∀ sum, sum ≤ stats.allocatedBlocks + stats.freeBlocks →
          add64 sum 1 = sum + 1 :=
        fun sum bound => add64_of_lt (by omega)
      cases isFree : block.free with
      | true =>
          simp only [blockLayout, isFree, if_true, tally]
          rw [bytes _ (by omega), count _ (by omega)]
      | false =>
          simp only [blockLayout, isFree, Bool.false_eq_true, if_false, tally]
          rw [bytes _ (by omega), count _ (by omega)]

end EmbeddedRuntime.Allocator.Walks
