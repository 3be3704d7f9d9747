import EmbeddedRuntime.Allocator.HeapRun

/-!
# Free blocks are joined

`my_free` joins a freed block with the free neighbours it touches, so that no
two free blocks of the list touch.  `my_malloc` keeps this unless it maps an
arena right below a free block and splits it: the free rest then touches that
block.
-/

set_option autoImplicit false

namespace EmbeddedRuntime.Allocator.Coalescing

open EmbeddedRuntime.Allocator.Model
open EmbeddedRuntime.Allocator.BlockList
open EmbeddedRuntime.Allocator.Arenas
open EmbeddedRuntime.Allocator.Calls
open EmbeddedRuntime.Allocator.HeapRun
open EmbeddedRuntime.Lib.Machine
open EmbeddedRuntime.Lib

/-- Two free blocks that touch. -/
def Joinable (first second : Block) : Prop :=
  first.free = true ∧ second.free = true ∧ first.stop = second.addr

/-- No two consecutive blocks are free and touch. -/
def Coalesced (blocks : List Block) : Prop :=
  ∀ left first second right, blocks = left ++ first :: second :: right → ¬ Joinable first second

/-- The same of any two blocks, in the order of the list. -/
def Unjoined (blocks : List Block) : Prop :=
  blocks.Pairwise fun first second => ¬ Joinable first second

theorem Unjoined.coalesced {blocks : List Block} (unjoined : Unjoined blocks) :
    Coalesced blocks := by
  rintro left first second right rfl
  have tail := (List.pairwise_append.mp unjoined).2.1
  exact (List.pairwise_cons.mp tail).1 second List.mem_cons_self

/-! ## One call -/

/-- What `my_malloc` must not do: map an arena that it splits and that ends where a free block
begins. -/
def SplitsBelowFree (pageLong : Int) (process : Process) : Call → Prop
  | .malloc size mmap =>
      0 < size ∧ ∃ base blocks block, mmap = some base ∧ Stores process.heap blocks ∧
        NoFit blocks (alignedSize size) ∧
        alignedSize size + 112 ≤ arenaTotal pageLong (alignedSize size) ∧
        block ∈ blocks ∧ block.free = true ∧
        block.addr = base + arenaTotal pageLong (alignedSize size)
  | .free _ => False
  | .store _ => False

section Calls
variable {pageLong : Int} {blocks left right : List Block} {block : Block}

theorem stop_le_of_apart (apart : Tiling.Apart blockShape (left ++ block :: right)) :
    (∀ other ∈ left, other.stop ≤ block.addr) ∧ ∀ other ∈ right, block.stop ≤ other.addr := by
  obtain ⟨-, after, across⟩ := List.pairwise_append.mp apart
  exact ⟨fun other member => across other member block List.mem_cons_self,
    (List.pairwise_cons.mp after).1⟩

/-- The free rest of a split touches no free block before it, and after it only what the block
taken touched. -/
theorem unjoined_taken {size : Nat} {front : Block} {tail : List Block}
    (taken : Taken block size front tail)
    (apart : Tiling.Apart blockShape (left ++ front :: (tail ++ right)))
    (unjoined : Unjoined (left ++ right))
    (clear : size + 64 ≤ block.size → ∀ other ∈ right,
      ¬ (other.free = true ∧ block.stop = other.addr)) :
    Unjoined (left ++ front :: (tail ++ right)) := by
  obtain ⟨beforeFront, afterFront⟩ := stop_le_of_apart apart
  obtain ⟨leftUnjoined, rightUnjoined, across⟩ := List.pairwise_append.mp unjoined
  have frontTaken : ∀ other, ¬ Joinable front other := by
    rintro other ⟨isFree, -⟩
    rw [taken.taken] at isFree
    cases isFree
  have toFront : ∀ other, ¬ Joinable other front := by
    rintro other ⟨-, isFree, -⟩
    rw [taken.taken] at isFree
    cases isFree
  rcases taken.rest with ⟨rfl, -⟩ | ⟨rest, rfl, -, begins, ends, -, room⟩
  · refine List.pairwise_append.mpr ⟨leftUnjoined,
      List.pairwise_cons.mpr ⟨fun other _ => frontTaken other, rightUnjoined⟩, ?_⟩
    intro earlier member later inside
    rcases List.mem_cons.mp inside with rfl | inside
    · exact toFront earlier
    · exact across earlier member later inside
  · have restRight : ∀ other ∈ right, ¬ Joinable rest other := by
      rintro other member ⟨-, isFree, touch⟩
      exact clear room other member ⟨isFree, ends ▸ touch⟩
    have leftRest : ∀ other ∈ left, ¬ Joinable other rest := by
      rintro other member ⟨-, -, touch⟩
      have below := beforeFront other member
      have wide := block_lt_stop front
      omega
    refine List.pairwise_append.mpr ⟨leftUnjoined, List.pairwise_cons.mpr
      ⟨fun other _ => frontTaken other, List.pairwise_cons.mpr ⟨restRight, rightUnjoined⟩⟩, ?_⟩
    intro earlier member later inside
    rcases List.mem_cons.mp inside with rfl | inside
    · exact toFront earlier
    · rcases List.mem_cons.mp inside with rfl | inside
      · exact leftRest earlier member
      · exact across earlier member later inside

/-- A freed block, joined with its neighbours, touches no other free block. -/
theorem unjoined_released {init rest : List Block} {merged : Block}
    (released : Released left block right init merged rest)
    (apart : Tiling.Apart blockShape (left ++ block :: right))
    (unjoined : Unjoined (left ++ block :: right)) : Unjoined (init ++ merged :: rest) := by
  obtain ⟨leftUnjoined, rightBlock, across⟩ := List.pairwise_append.mp unjoined
  obtain ⟨-, rightUnjoined⟩ := List.pairwise_cons.mp rightBlock
  obtain ⟨beforeBlock, afterBlock⟩ := stop_le_of_apart apart
  obtain ⟨leftApart, rightApart', -⟩ := List.pairwise_append.mp apart
  obtain ⟨-, rightApart⟩ := List.pairwise_cons.mp rightApart'
  have toMerged : ∀ other ∈ init, ¬ Joinable other merged := by
    rintro other member ⟨isFree, -, touch⟩
    rcases released.before with ⟨rfl, same, alone⟩ | ⟨prev, rfl, prevFree, -, same⟩
    · rcases List.eq_nil_or_concat init with rfl | ⟨earlier, prev, rfl⟩
      · cases member
      · rw [List.concat_eq_append] at member alone leftApart beforeBlock
        rcases List.mem_append.mp member with inside | last
        · have below := (@stop_le_of_apart earlier [] prev leftApart).1 other inside
          have prevBelow := beforeBlock prev (by simp)
          have wide := block_lt_stop prev
          omega
        · rw [List.mem_singleton] at last
          subst last
          exact alone other (by simp) ⟨isFree, touch.trans same⟩
    · have apartPrev := (List.pairwise_append.mp leftUnjoined).2.2 other member prev (by simp)
      exact apartPrev ⟨isFree, prevFree, touch.trans same⟩
  have fromMerged : ∀ other ∈ rest, ¬ Joinable merged other := by
    rintro other member ⟨-, isFree, touch⟩
    rcases released.after with ⟨rfl, same, alone⟩ | ⟨next, rfl, nextFree, -, same⟩
    · cases rest with
      | nil => cases member
      | cons next more =>
          rcases List.mem_cons.mp member with rfl | inside
          · exact alone other rfl ⟨isFree, same.symm.trans touch⟩
          · have above := (List.pairwise_cons.mp rightApart).1 other inside
            change next.stop ≤ other.addr at above
            have nextAbove := afterBlock next (by simp)
            have wide := block_lt_stop next
            omega
    · exact (List.pairwise_cons.mp rightUnjoined).1 other member
        ⟨nextFree, isFree, same.symm.trans touch⟩
  refine List.pairwise_append.mpr ⟨leftUnjoined.sublist released.init_sublist,
    List.pairwise_cons.mpr ⟨fromMerged, rightUnjoined.sublist released.rest_sublist⟩, ?_⟩
  intro earlier member later inside
  rcases List.mem_cons.mp inside with rfl | inside
  · exact toMerged earlier member
  · exact across earlier (released.init_sublist.subset member) later
      (List.mem_cons_of_mem _ (released.rest_sublist.subset inside))

end Calls

section Steps
variable {pageLong : Int} {process next : Process} {blocks : List Block}

theorem step_unjoined (page : PageSize pageLong) (sound : Sound process blocks)
    (unjoined : Unjoined blocks) (call : Call) (valid : Valid pageLong process call)
    (apart : ¬ SplitsBelowFree pageLong process call) :
    ∃ next blocks', step pageLong process call = some next ∧ Sound next blocks' ∧
      Unjoined blocks' := by
  obtain ⟨next, blocks', stepped, sound', change⟩ := step_change page sound call valid
  refine ⟨next, blocks', stepped, sound', ?_⟩
  cases change with
  | kept => exact unjoined
  | @taken size mmap left right tail block front positive isFree found taken =>
      have others : Unjoined (left ++ right) := by
        cases found with
        | fit split fits =>
            rw [split] at unjoined
            exact unjoined.sublist
              ((List.Sublist.refl left).append (List.sublist_cons_self block right))
        | arena base answer split => exact split ▸ unjoined
      refine unjoined_taken taken sound'.tiled.apart others ?_
      rintro room other member ⟨otherFree, touch⟩
      cases found with
      | fit split fits =>
          rw [split] at unjoined
          have right' := (List.pairwise_append.mp unjoined).2.1
          exact (List.pairwise_cons.mp right').1 other member ⟨isFree, otherFree, touch⟩
      | arena base answer split noFit addr stop =>
          have stopEq : block.stop = block.addr + 48 + block.size := rfl
          have asked : 0 < size := by
            rcases Nat.eq_zero_or_pos size with rfl | asked
            · exact absurd positive (by decide)
            · exact asked
          refine apart ⟨asked, base, blocks, other, answer, sound.tiled.stores, noFit, by omega,
            ?_, otherFree, by omega⟩
          rw [split]
          exact List.mem_append_right _ member
  | freed split allocated released =>
      subst split
      exact unjoined_released released sound.tiled.apart unjoined

/-- The rest of such an arena touches the free block above it. -/
theorem splitsBelowFree_joinable (page : PageSize pageLong) (sound : Sound process blocks)
    {size : Nat} {mmap : Option Nat} (valid : Valid pageLong process (.malloc size mmap))
    (splits : SplitsBelowFree pageLong process (.malloc size mmap)) :
    ∃ next blocks', step pageLong process (.malloc size mmap) = some next ∧
      Stores next.heap blocks' ∧ ¬ Coalesced blocks' := by
  obtain ⟨asked, base, others, above, answer, stores, noFit, room, member, aboveFree, begins⟩ :=
    splits
  obtain rfl := stores.unique sound.tiled.stores
  obtain ⟨aligned, large, bound⟩ := alignedSize_spec valid.1
  rcases myMalloc_cases sound.tiled page aligned large (answers_region page bound valid.2)
    with ⟨-, zero | ⟨none, -⟩⟩ |
      ⟨heap', left, block, right, front, tail, called, tiled, -, isFree, found, taken⟩
  · omega
  · rw [answer] at none
    cases none
  · cases found with
    | fit split fits => exact absurd ⟨isFree, fits⟩ (noFit block (by rw [split]; simp))
    | arena base' answer' split noFit' addr stop =>
        obtain rfl : base = base' := Option.some.inj (answer.symm.trans answer')
        have stopEq : block.stop = block.addr + 48 + block.size := rfl
        rcases taken.rest with ⟨-, -, small⟩ | ⟨rest, rfl, restFree, restBegins, restEnds, -, -⟩
        · omega
        · obtain ⟨beforeFront, -⟩ := stop_le_of_apart tiled.apart
          have afterRest := (@stop_le_of_apart (left ++ [front]) right rest
            (by simpa using tiled.apart)).2
          have first : ∃ more, right = above :: more := by
            rw [split] at member
            rcases List.mem_append.mp member with inLeft | inRight
            · have below := beforeFront above inLeft
              have wide := block_lt_stop above
              have sameAddr := taken.addr
              omega
            · obtain ⟨between, more, rfl⟩ := List.append_of_mem inRight
              cases between with
              | nil => exact ⟨more, rfl⟩
              | cons other between =>
                  -- a block between them would begin where the arena ends, and so would `above`
                  have order := List.pairwise_append.mp tiled.apart
                  have tailApart := (List.pairwise_cons.mp order.2.1).2
                  have rightApart := (List.pairwise_cons.mp tailApart).2
                  have ordered := (List.pairwise_cons.mp rightApart).1 above (by simp)
                  change other.stop ≤ above.addr at ordered
                  have later := afterRest other (by simp)
                  have wide := block_lt_stop other
                  omega
          obtain ⟨more, rfl⟩ := first
          refine ⟨⟨heap', if front.payload = 0 then process.live
            else (front.payload, size) :: process.live⟩, _, by simp [step, called], tiled.stores,
            fun coalesced => ?_⟩
          exact coalesced (left ++ [front]) rest above more (by simp)
            ⟨restFree, aboveFree, by omega⟩

/-- In a coalesced list a free block that contains a freed one is maximal: no other free block
touches it. -/
structure Maximal (blocks : List Block) (block : Block) : Prop where
  member : block ∈ blocks
  free : block.free = true
  alone : ∀ other ∈ blocks, other.free = true → other.stop ≠ block.addr ∧ block.stop ≠ other.addr

theorem maximal_of_unjoined {left right : List Block} {block : Block}
    (apart : Tiling.Apart blockShape (left ++ block :: right))
    (unjoined : Unjoined (left ++ block :: right)) (isFree : block.free = true) :
    Maximal (left ++ block :: right) block := by
  refine ⟨by simp, isFree, fun other member otherFree => ?_⟩
  obtain ⟨-, rightUnjoined, across⟩ := List.pairwise_append.mp unjoined
  obtain ⟨before, after⟩ := stop_le_of_apart apart
  have wide := block_lt_stop block
  have otherWide := block_lt_stop other
  rcases List.mem_append.mp member with inLeft | inRight
  · have below := before other inLeft
    exact ⟨fun touch => across other inLeft block (by simp) ⟨otherFree, isFree, touch⟩, by omega⟩
  · rcases List.mem_cons.mp inRight with rfl | inRight
    · exact ⟨by omega, by omega⟩
    · have above := after other inRight
      exact ⟨by omega, fun touch =>
        (List.pairwise_cons.mp rightUnjoined).1 other inRight ⟨isFree, otherFree, touch⟩⟩

end Steps

/-! ## Runs -/

section Runs
variable (pageLong : Int) (mem : Nat → BlockHeader) (calls : List Call)

/-- Every heap along the run is coalesced. -/
def CoalescedAlong : Prop :=
  ∀ before after, calls = before ++ after →
    ∀ process, runPartial (step pageLong) (start mem) before = some process →
      ∀ blocks, Stores process.heap blocks → Coalesced blocks

/-- What every `my_free` along the run frees is part of a maximal free block. -/
def FreesWhole : Prop :=
  ∀ before ptr after, calls = before ++ .free ptr :: after →
    ∀ process next, runPartial (step pageLong) (start mem) before = some process →
      step pageLong process (.free ptr) = some next →
      ∀ blocks freed, Stores process.heap blocks → freed ∈ blocks → freed.free = false →
        ptr = freed.payload →
        ∃ blocks' block, Stores next.heap blocks' ∧ Maximal blocks' block ∧
          block.addr ≤ freed.addr ∧ freed.stop ≤ block.stop

variable {pageLong mem calls}

theorem prefix_unjoined (page : PageSize pageLong) {before after : List Call}
    (valid : AdmitsPartial (step pageLong) (Valid pageLong) (start mem) (before ++ after))
    (separate : AdmitsPartial (step pageLong)
      (fun process call => ¬ SplitsBelowFree pageLong process call) (start mem)
      (before ++ after)) :
    ∃ process blocks, runPartial (step pageLong) (start mem) before = some process ∧
      Sound process blocks ∧ Unjoined blocks := by
  have both : AdmitsPartial (step pageLong) (fun process call => Valid pageLong process call ∧
      ¬ SplitsBelowFree pageLong process call) (start mem) before := by
    rw [admitsPartial_iff_splits]
    intro earlier call rest parts reached ran
    exact ⟨(admitsPartial_iff_splits _ _).mp valid.before earlier call rest parts reached ran,
      (admitsPartial_iff_splits _ _).mp separate.before earlier call rest parts reached ran⟩
  obtain ⟨process, ran, blocks, sound, unjoined⟩ := runPartial_invariant
    (fun process => ∃ blocks, Sound process blocks ∧ Unjoined blocks)
    (fun process call holds ok => by
      obtain ⟨blocks, sound, unjoined⟩ := holds
      obtain ⟨next, blocks', stepped, kept⟩ := step_unjoined page sound unjoined call ok.1 ok.2
      exact ⟨next, stepped, blocks', kept⟩)
    (start mem) before ⟨[], start_sound mem, List.Pairwise.nil⟩ both
  exact ⟨process, blocks, ran, sound, unjoined⟩

/-- A freed pointer is that of a block with a size. -/
theorem freed_nonempty {process : Process} {blocks : List Block} (sound : Sound process blocks)
    {freed : Block} (member : freed ∈ blocks) (allocated : freed.free = false) :
    0 < freed.size := by
  obtain ⟨size, live⟩ := sound.owned.owned freed (mem_used.mpr ⟨member, allocated⟩)
  have positive := sound.owned.positive _ live
  obtain ⟨backing, taken, payload, large⟩ := sound.owned.backed _ live
  dsimp only at positive payload large
  have wide := block_lt_stop freed
  have wide' := block_lt_stop backing
  unfold Block.payload at payload
  rcases sound.tiled.apart.sides member (mem_used.mp taken).1 with rfl | before | after
  · omega
  · change freed.stop ≤ backing.addr at before
    omega
  · change backing.stop ≤ freed.addr at after
    omega

theorem free_maximal {process next : Process} {blocks : List Block}
    (sound : Sound process blocks) (unjoined : Unjoined blocks) {freed : Block}
    (member : freed ∈ blocks) (allocated : freed.free = false)
    (stepped : step pageLong process (.free freed.payload) = some next) :
    ∃ blocks' block, Stores next.heap blocks' ∧ Maximal blocks' block ∧
      block.addr ≤ freed.addr ∧ freed.stop ≤ block.stop := by
  have nonempty := freed_nonempty sound member allocated
  obtain ⟨left, right, rfl⟩ := List.append_of_mem member
  obtain ⟨init, merged, rest, tiled, released⟩ := myFree_cases sound.tiled nonempty
  obtain rfl := Option.some.inj stepped
  have kept := unjoined_released released sound.tiled.apart unjoined
  exact ⟨_, merged, tiled.stores, maximal_of_unjoined tiled.apart kept released.free,
    released.covers⟩

theorem separate_of_coalesced (page : PageSize pageLong)
    (valid : AdmitsPartial (step pageLong) (Valid pageLong) (start mem) calls)
    (coalesced : CoalescedAlong pageLong mem calls) :
    AdmitsPartial (step pageLong) (fun process call => ¬ SplitsBelowFree pageLong process call)
      (start mem) calls := by
  rw [admitsPartial_iff_splits]
  rintro before call rest rfl process ran splits
  have ok := (admitsPartial_iff_splits _ _).mp valid before call rest rfl process ran
  obtain ⟨process', ran', blocks, sound⟩ := runPartial_invariant
    (fun process => ∃ blocks, Sound process blocks)
    (fun process call sound valid => step_sound page sound call valid)
    (start mem) before ⟨[], start_sound mem⟩ valid.before
  obtain rfl := Option.some.inj (ran.symm.trans ran')
  cases call with
  | malloc size mmap =>
      obtain ⟨next, blocks', stepped, stores, joinable⟩ :=
        splitsBelowFree_joinable page sound ok splits
      refine joinable (coalesced (before ++ [.malloc size mmap]) rest (by simp) next ?_ blocks'
        stores)
      rw [runPartial_append, ran, Option.bind_some, runPartial, stepped, Option.bind_some,
        runPartial]
  | free ptr => exact splits
  | store mem => exact splits

/-- In a run of valid calls the free space is coalesced in every heap, and what is freed becomes
part of a maximal free block, exactly when no call maps an arena right below a free block and
splits it. -/
theorem free_space_coalesced_iff (page : PageSize pageLong)
    (valid : AdmitsPartial (step pageLong) (Valid pageLong) (start mem) calls) :
    CoalescedAlong pageLong mem calls ∧ FreesWhole pageLong mem calls ↔
      AdmitsPartial (step pageLong)
        (fun process call => ¬ SplitsBelowFree pageLong process call) (start mem) calls := by
  constructor
  · exact fun holds => separate_of_coalesced page valid holds.1
  · intro separate
    constructor
    · rintro before after rfl process ran blocks stores
      obtain ⟨process', blocks', ran', sound, unjoined⟩ := prefix_unjoined page valid separate
      obtain rfl := Option.some.inj (ran.symm.trans ran')
      rw [stores.unique sound.tiled.stores]
      exact unjoined.coalesced
    · rintro before ptr after rfl process next ran stepped blocks freed stores member allocated rfl
      obtain ⟨process', blocks', ran', sound, unjoined⟩ := prefix_unjoined page valid separate
      obtain rfl := Option.some.inj (ran.symm.trans ran')
      rw [stores.unique sound.tiled.stores] at member
      exact free_maximal sound unjoined member allocated stepped

end Runs

def zeroed : Nat → BlockHeader := fun _ => ⟨0, 0, false, 0, 0⟩

theorem page4096 : PageSize 4096 := ⟨by decide, by decide⟩

theorem first_request_valid (calls : List Call)
    (rest : ∀ next, step 4096 (start zeroed) (.malloc 24 (some 131072)) = some next →
      AdmitsPartial (step 4096) (Valid 4096) next calls) :
    AdmitsPartial (step 4096) (Valid 4096) (start zeroed) (.malloc 24 (some 131072) :: calls) := by
  refine ⟨⟨by decide, ?_⟩, rest⟩
  rintro base ⟨⟩
  exact ⟨by decide, by decide, by decide, by simp [start]⟩

theorem free_space_coalesced_iff_one_arena :
    CoalescedAlong 4096 zeroed [.malloc 24 (some 131072)] ∧
      FreesWhole 4096 zeroed [.malloc 24 (some 131072)] := by
  refine (free_space_coalesced_iff page4096 (first_request_valid [] fun _ _ => trivial)).mpr
    ⟨?_, fun _ _ => trivial⟩
  rintro ⟨-, base, blocks, block, -, stores, -, -, member, -⟩
  rw [stores.unique (start_sound zeroed).tiled.stores] at member
  cases member

/-- The one block after an allocation and its release. -/
def wholeArena : Block where
  addr := 131072
  size := 65488
  free := true
  nonnull := by decide
  addrAligned := by decide
  sizeAligned := by decide
  inside := by decide

/-- An allocation is released; a larger one gets the arena that ends where the first begins. -/
def arenaBelow : List Call :=
  [.malloc 24 (some 131072), .free 131120, .malloc 70000 (some 57344)]

theorem arenaBelow_released {first second : Process}
    (called : step 4096 (start zeroed) (.malloc 24 (some 131072)) = some first)
    (released : step 4096 first (.free 131120) = some second) :
    first.live = [(131120, 24)] ∧ Stores second.heap [wholeArena] ∧
      second.heap.arenas = [(131072, 65536)] := by
  have facts : (step 4096 (start zeroed) (.malloc 24 (some 131072))).bind (fun process =>
      (step 4096 process (.free 131120)).map fun next =>
        (process.live, next.heap.head, next.heap.mem 131072, next.heap.arenas)) =
      some ([(131120, 24)], 131072, ⟨blockMagic, 65488, true, 0, 0⟩, [(131072, 65536)]) := by
    decide +kernel
  rw [called, Option.bind_some, released, Option.map_some] at facts
  obtain ⟨live, rest⟩ := Prod.mk.inj (Option.some.inj facts)
  obtain ⟨head, rest⟩ := Prod.mk.inj rest
  obtain ⟨header, arenas⟩ := Prod.mk.inj rest
  exact ⟨live, ⟨head, header, trivial⟩, arenas⟩

theorem arenaBelow_valid :
    AdmitsPartial (step 4096) (Valid 4096) (start zeroed) arenaBelow := by
  refine first_request_valid _ fun first called => ?_
  obtain ⟨second, released⟩ : ∃ second, step 4096 first (.free 131120) = some second := ⟨_, rfl⟩
  obtain ⟨live, -, arenas⟩ := arenaBelow_released called released
  refine ⟨Or.inr ⟨24, by rw [live]; exact List.mem_cons_self⟩, fun next same => ?_⟩
  obtain rfl := Option.some.inj (released.symm.trans same)
  refine ⟨⟨by decide, ?_⟩, fun _ _ => trivial⟩
  rintro base ⟨⟩
  refine ⟨by decide, by decide, by decide, ?_⟩
  rw [arenas]
  decide

theorem arena_below_not_coalesced :
    AdmitsPartial (step 4096) (Valid 4096) (start zeroed) arenaBelow ∧
      ¬ CoalescedAlong 4096 zeroed arenaBelow := by
  refine ⟨arenaBelow_valid, fun coalesced => ?_⟩
  have separate := separate_of_coalesced page4096 arenaBelow_valid coalesced
  obtain ⟨first, called⟩ : ∃ first, step 4096 (start zeroed) (.malloc 24 (some 131072)) =
      some first := Option.isSome_iff_exists.mp (by decide +kernel)
  obtain ⟨second, released⟩ : ∃ second, step 4096 first (.free 131120) = some second := ⟨_, rfl⟩
  obtain ⟨-, stores, -⟩ := arenaBelow_released called released
  have apart := ((separate.2 first called).2 second released).1
  refine apart ⟨by decide, 57344, [wholeArena], wholeArena, rfl, stores, ?_, by decide,
    List.mem_cons_self, rfl, by decide⟩
  rintro block member ⟨-, fits⟩
  rw [List.mem_singleton.mp member] at fits
  revert fits
  decide

end EmbeddedRuntime.Allocator.Coalescing
