import EmbeddedRuntime.Allocator.ByteHeaders

/-!
# Calls over bytes and over records

Each function of the allocator, run on the bytes and on the records of the
headers, keeps the two in agreement at the sites.  A walk along the links stays
on listed headers, where both see the same memory.
-/

set_option autoImplicit false

namespace EmbeddedRuntime.Allocator.Bytes

open EmbeddedRuntime.Allocator.Model
  (BlockHeader Heap alignment blockMagic headerSize alignedSize arenaTotal walkBefore walkFuel
    findFit adjacent)
open EmbeddedRuntime.Allocator.BlockList
open EmbeddedRuntime.Lib.Word64

/-! ## Walks -/

section Walks
variable {listed : List Nat} {mem mem' : Nat → BlockHeader}
  (same : ∀ site ∈ listed, mem' site = mem site)
  (closed : ∀ site ∈ listed, Linked listed (mem site).next)
include same closed

theorem walkBefore_follows (block fuel : Nat) {cur : Nat} (member : cur ∈ listed) :
    walkBefore mem' block fuel cur = walkBefore mem block fuel cur ∧
      ∀ last ∈ walkBefore mem block fuel cur, last ∈ listed := by
  induction fuel generalizing cur with
  | zero => exact ⟨rfl, nofun⟩
  | succ fuel ih =>
    rw [walkBefore, walkBefore, same cur member]
    by_cases goesOn : (mem cur).next ≠ 0 ∧ (mem cur).next < block
    · rw [if_pos goesOn, if_pos goesOn]
      exact ih ((closed cur member).resolve_left goesOn.1)
    · rw [if_neg goesOn, if_neg goesOn]
      refine ⟨rfl, ?_⟩
      rintro last ⟨⟩
      exact member

theorem findFit_follows (size fuel : Nat) {cur : Nat} (linked : Linked listed cur) :
    findFit mem' size fuel cur = findFit mem size fuel cur ∧
      ∀ found ∈ findFit mem size fuel cur, Linked listed found := by
  induction fuel generalizing cur with
  | zero => exact ⟨rfl, nofun⟩
  | succ fuel ih =>
    rw [findFit, findFit]
    rcases linked with null | member
    · rw [if_pos null, if_pos null]
      refine ⟨rfl, ?_⟩
      rintro found ⟨⟩
      exact Or.inl rfl
    · rw [same cur member]
      by_cases null : cur = 0
      · rw [if_pos null, if_pos null]
        refine ⟨rfl, ?_⟩
        rintro found ⟨⟩
        exact Or.inl rfl
      · rw [if_neg null, if_neg null]
        by_cases fits : (mem cur).free = true ∧ (mem cur).size ≥ size
        · rw [if_pos fits, if_pos fits]
          refine ⟨rfl, ?_⟩
          rintro found ⟨⟩
          exact Or.inr member
        · rw [if_neg fits, if_neg fits]
          exact ih (closed cur member)

end Walks

/-! ## Stores -/

theorem modify_modify (heap : Heap) (address : Nat) (first second : BlockHeader → BlockHeader) :
    (heap.modify address first).modify address second =
      heap.modify address fun header => second (first header) := by
  unfold Heap.modify
  dsimp only
  rw [Function.update_idem, Function.update_self]

theorem Closed.grow {listed : List Nat} {heap : Heap} (closed : Closed listed heap)
    (mappedBytes : Nat) (arenas : List (Nat × Nat)) :
    Closed listed { heap with mappedBytes, arenas } :=
  ⟨closed.head, closed.prev, closed.next⟩

/-- A store to a header that is not listed. -/
theorem Closed.modify {listed : List Nat} {heap : Heap} (closed : Closed listed heap) {site : Nat}
    (fresh : site ∉ listed) (change : BlockHeader → BlockHeader) :
    Closed listed (heap.modify site change) := by
  have kept : ∀ other ∈ listed, (heap.modify site change).mem other = heap.mem other := by
    intro other member
    rw [modify_mem, if_neg]
    rintro rfl
    exact fresh member
  refine ⟨closed.head, fun other member => ?_, fun other member => ?_⟩
  · rw [kept other member]
    exact closed.prev other member
  · rw [kept other member]
    exact closed.next other member

section Stores
variable {sites : List Nat} (spaced : Spaced sites)
include spaced

theorem Linked.lt {address : Nat} (linked : Linked sites address) : address < 2 ^ 64 := by
  rcases linked with rfl | member
  · exact Nat.two_pow_pos 64
  · exact spaced.inside address member

variable {before bytes : ByteHeap} {heap : Heap} (follows : Follows sites before heap bytes)
include follows

/-- A store to a field. -/
theorem Follows.set {site : Nat} (member : site ∈ sites) (field : Field) (fits : field.Fits) :
    Follows sites before (heap.modify site field.apply) (bytes.set site field) where
  head := follows.head
  mappedBytes := follows.mappedBytes
  arenas := follows.arenas
  headers other inside := by
    rw [modify_mem]
    by_cases same : other = site
    · rw [same, set_header bytes site fits, if_pos rfl, follows.headers site member]
    · rw [if_neg same, set_header_apart bytes field, follows.headers other inside]
      exact (spaced.apart site member other inside).resolve_left same
  rest address outside := by
    rw [set_bytes bytes field (outside site member)]
    exact follows.rest address outside

/-- The store that a guard lets through. -/
theorem Follows.guarded {address : Nat} (linked : Linked sites address) (field : Field)
    (fits : field.Fits) :
    Follows sites before (if address ≠ 0 then heap.modify address field.apply else heap)
      (if address ≠ 0 then bytes.set address field else bytes) := by
  by_cases null : address = 0
  · rw [if_neg (not_not.mpr null), if_neg (not_not.mpr null)]
    exact follows
  · rw [if_pos null, if_pos null]
    exact follows.set spaced (linked.resolve_left null) field fits

/-! ## Insertion -/

theorem insertFront_follows {block : Nat} (member : block ∈ sites)
    (head : Linked sites heap.head) :
    Follows sites before (Model.insertFront heap block) (insertFront bytes block) := by
  obtain ⟨mem, start, mapped, arenas⟩ := heap
  obtain rfl : bytes.head = start := follows.head
  have first := follows.set spaced member (.next bytes.head) (fits_word rfl (head.lt spaced))
  have second := first.set spaced member (.prev 0) (fits_word rfl (Nat.two_pow_pos 64))
  have third := second.guarded spaced head (.prev block)
    (fits_word rfl (spaced.inside block member))
  exact ⟨rfl, third.mappedBytes, third.arenas, third.headers, third.rest⟩

theorem insertAfter_follows {block cur : Nat} (member : block ∈ sites) (current : cur ∈ sites)
    (next : Linked sites (heap.mem cur).next) :
    Follows sites before (Model.insertAfter heap block cur) (insertAfter bytes block cur) := by
  have small := spaced.inside block member
  have first := follows.set spaced member (.next (heap.mem cur).next)
    (fits_word rfl (next.lt spaced))
  have second := first.set spaced member (.prev cur) (fits_word rfl (spaced.inside cur current))
  have read := second.headers cur current
  have kept : (((heap.modify block (Field.next (heap.mem cur).next).apply).modify block
      (Field.prev cur).apply).mem cur).next = (heap.mem cur).next := by
    rw [modify_modify, modify_mem]
    split_ifs with same
    · rfl
    · rfl
  have third := second.guarded spaced (kept ▸ next) (.prev block) (fits_word rfl small)
  have fourth := third.set spaced current (.next block) (fits_word rfl small)
  unfold insertAfter
  dsimp only
  rw [follows.headers cur current, read]
  exact fourth

theorem insertSorted_follows {listed : List Nat} (within : ∀ site ∈ listed, site ∈ sites)
    (closed : Closed listed heap) {block : Nat} (member : block ∈ sites) {heap' : Heap}
    (inserted : Model.insertSorted heap block = some heap') :
    ∃ bytes', insertSorted bytes block = some bytes' ∧ Follows sites before heap' bytes' := by
  unfold Model.insertSorted at inserted
  unfold insertSorted
  rw [follows.head]
  by_cases front : heap.head = 0 ∨ block < heap.head
  · rw [if_pos front] at inserted ⊢
    obtain rfl := Option.some.inj inserted
    exact ⟨_, rfl, insertFront_follows spaced follows member (closed.head.mono within)⟩
  · rw [if_neg front] at inserted ⊢
    obtain ⟨nonnull, -⟩ := not_or.mp front
    obtain ⟨walked, stays⟩ := walkBefore_follows
      (fun site inside => follows.headers site (within site inside)) closed.next block walkFuel
      (closed.head.resolve_left nonnull)
    obtain ⟨cur, stopped, rfl⟩ := Option.map_eq_some_iff.mp inserted
    rw [walked, stopped]
    have current := stays cur stopped
    exact ⟨_, rfl, insertAfter_follows spaced follows member (within cur current)
      ((closed.next cur current).mono within)⟩

/-- `map_arena`: the header of the new region is written field by field. -/
theorem mapArena_follows {listed : List Nat} (within : ∀ site ∈ listed, site ∈ sites)
    (closed : Closed listed heap) {pageLong : Int} {base size : Nat} (member : base ∈ sites)
    (fresh : base ∉ listed) {block : Nat} {heap' : Heap}
    (mapped : Model.mapArena pageLong (some base) heap size = some (block, heap')) :
    ∃ bytes', mapArena pageLong (some base) bytes size = some (block, bytes') ∧
      Follows sites before heap' bytes' := by
  unfold Model.mapArena at mapped
  dsimp only at mapped
  obtain ⟨linkedHeap, inserted, answer⟩ := Option.map_eq_some_iff.mp mapped
  obtain ⟨rfl, rfl⟩ := Prod.mk.inj answer
  have null : (0 : Nat) < 2 ^ 64 := Nat.two_pow_pos 64
  have zeroth : Follows sites before
      { heap with
        mappedBytes := add64 heap.mappedBytes (arenaTotal pageLong size)
        arenas := (base, arenaTotal pageLong size) :: heap.arenas }
      { bytes with
        mappedBytes := add64 heap.mappedBytes (arenaTotal pageLong size)
        arenas := (base, arenaTotal pageLong size) :: heap.arenas } :=
    ⟨follows.head, rfl, rfl, follows.headers, follows.rest⟩
  have first := zeroth.set spaced member (.magic blockMagic) fits_magic
  have second := first.set spaced member (.size (sub64 (arenaTotal pageLong size) headerSize))
    (fits_sub64 ..)
  have third := second.set spaced member (.free true) (fits_free true)
  have fourth := third.set spaced member (.next 0) (fits_word rfl null)
  have fifth := fourth.set spaced member (.prev 0) (fits_word rfl null)
  rw [modify_modify, modify_modify, modify_modify, modify_modify] at fifth
  obtain ⟨bytes', inserted', follows'⟩ := insertSorted_follows spaced fifth within
    ((closed.grow _ _).modify fresh _) member inserted
  refine ⟨bytes', ?_, follows'⟩
  unfold mapArena
  dsimp only
  rw [follows.mappedBytes, follows.arenas, inserted']
  rfl

/-! ## Splitting and joining -/

theorem splitBlock_follows {block size : Nat} (member : block ∈ sites)
    (next : Linked sites (heap.mem block).next) (small : size < 2 ^ 64)
    (tail : ¬ (heap.mem block).size < add64 (add64 size headerSize) alignment →
      add64 (add64 block headerSize) size ∈ sites ∧
        add64 (add64 block headerSize) size ≠ block) :
    Follows sites before (Model.splitBlock heap block size) (splitBlock bytes block size) := by
  unfold Model.splitBlock splitBlock
  rw [follows.headers block member]
  by_cases short : (heap.mem block).size < add64 (add64 size headerSize) alignment
  · rw [if_pos short, if_pos short]
    exact follows
  · rw [if_neg short, if_neg short]
    obtain ⟨tailMember, apart⟩ := tail short
    dsimp only
    generalize add64 (add64 block headerSize) size = rest at tailMember apart
    have clear := (spaced.apart rest tailMember block member).resolve_left apart.symm
    have beside : ∀ (bytes : ByteHeap) (field : Field),
        (bytes.set rest field).header block = bytes.header block :=
      fun bytes field => set_header_apart bytes field clear
    simp only [beside, follows.headers block member]
    have first := follows.set spaced tailMember (.magic blockMagic) fits_magic
    have second := first.set spaced tailMember
      (.size (sub64 (sub64 (heap.mem block).size size) headerSize))
      (fits_sub64 ..)
    have third := second.set spaced tailMember (.free true) (fits_free true)
    have fourth := third.set spaced tailMember (.prev block)
      (fits_word rfl (spaced.inside block member))
    have fifth := fourth.set spaced tailMember (.next (heap.mem block).next)
      (fits_word rfl (next.lt spaced))
    rw [modify_modify, modify_modify, modify_modify, modify_modify] at fifth
    have read := fifth.headers rest tailMember
    rw [modify_mem, if_pos rfl] at read
    rw [read, modify_mem, if_pos rfl]
    have restSmall := spaced.inside rest tailMember
    have sixth := fifth.guarded spaced next (.prev rest) (fits_word rfl restSmall)
    have seventh := sixth.set spaced member (.next rest) (fits_word rfl restSmall)
    exact seventh.set spaced member (.size size) (fits_word rfl small)

theorem coalesceWithNext_follows {listed : List Nat} (within : ∀ site ∈ listed, site ∈ sites)
    (closed : Closed listed heap) {block : Nat} (member : block ∈ listed) :
    Follows sites before (Model.coalesceWithNext heap block) (coalesceWithNext bytes block) := by
  have inside := within block member
  have linked := closed.next block member
  obtain ⟨next, nextEq⟩ : ∃ next, (heap.mem block).next = next := ⟨_, rfl⟩
  unfold Model.coalesceWithNext coalesceWithNext
  dsimp only
  rw [follows.headers block inside, nextEq]
  rw [nextEq] at linked
  by_cases null : next = 0
  · rw [if_pos (Or.inl null), if_pos (Or.inl null)]
    exact follows
  · have listedNext := linked.resolve_left null
    have nextInside := within next listedNext
    have guard : (next = 0 ∨ (bytes.header next).free = false ∨
          ¬ adjacent bytes.header block next) ↔
        (next = 0 ∨ (heap.mem next).free = false ∨ ¬ adjacent heap.mem block next) := by
      unfold adjacent
      rw [follows.headers next nextInside, follows.headers block inside]
    by_cases stays : next = 0 ∨ (heap.mem next).free = false ∨ ¬ adjacent heap.mem block next
    · rw [if_pos stays, if_pos (guard.mpr stays)]
      exact follows
    · rw [if_neg stays, if_neg fun all => stays (guard.mp all)]
      have first := follows.set spaced inside
        (.size (add64 (heap.mem block).size (add64 headerSize (heap.mem next).size)))
        (fits_add64 ..)
      have grown : heap.modify block (Field.size
            (add64 (heap.mem block).size (add64 headerSize (heap.mem next).size))).apply =
          heap.modify block fun b =>
            { b with size := add64 b.size (add64 headerSize (heap.mem next).size) } := by
        unfold Heap.modify
        rfl
      rw [grown] at first
      have kept : ((heap.modify block fun b =>
            { b with size := add64 b.size (add64 headerSize (heap.mem next).size) }).mem next).next =
          (heap.mem next).next := by
        rw [modify_mem]
        split_ifs with same
        · rw [same]
        · rfl
      have far : Linked sites (heap.mem next).next := (closed.next next listedNext).mono within
      rw [follows.headers next nextInside, first.headers next nextInside, kept]
      have second := first.set spaced inside (.next (heap.mem next).next)
        (fits_word rfl (far.lt spaced))
      have read := second.headers block inside
      rw [modify_mem, if_pos rfl] at read
      rw [read, modify_mem, if_pos rfl]
      exact second.guarded spaced far (.prev block) (fits_word rfl (spaced.inside block inside))

theorem coalesceWithPrev_follows {listed : List Nat} (within : ∀ site ∈ listed, site ∈ sites)
    (closed : Closed listed heap) {block : Nat} (member : block ∈ listed) :
    Follows sites before (Model.coalesceWithPrev heap block) (coalesceWithPrev bytes block) := by
  have inside := within block member
  have linked := closed.prev block member
  unfold Model.coalesceWithPrev coalesceWithPrev
  dsimp only
  rw [follows.headers block inside]
  generalize (heap.mem block).prev = prev at linked
  by_cases null : prev = 0
  · rw [if_neg fun joins => joins.1 null, if_neg fun joins => joins.1 null]
    exact follows
  · have listedPrev := linked.resolve_left null
    have guard : (prev ≠ 0 ∧ (bytes.header prev).free = true ∧
          adjacent bytes.header prev block) ↔
        (prev ≠ 0 ∧ (heap.mem prev).free = true ∧ adjacent heap.mem prev block) := by
      unfold adjacent
      rw [follows.headers prev (within prev listedPrev)]
    by_cases joins : prev ≠ 0 ∧ (heap.mem prev).free = true ∧ adjacent heap.mem prev block
    · rw [if_pos joins, if_pos (guard.mpr joins)]
      exact coalesceWithNext_follows spaced follows within closed listedPrev
    · rw [if_neg joins, if_neg fun all => joins (guard.mp all)]
      exact follows

end Stores

end EmbeddedRuntime.Allocator.Bytes
