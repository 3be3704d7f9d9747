import EmbeddedRuntime.Common
import Mathlib.Logic.Function.Basic

/-!
# The allocator of `allocator/allocator.c`

Addresses and sizes are 64-bit words; the null pointer is 0.  The memory maps
the address of a block header to its five fields, and `arenas` lists the
regions `mmap` has returned so far, with their lengths.  Every function is the
body of a call with `allocator_lock` held, so a run of the program is a
sequence of calls whatever the threads.

A walk over the `next` links of an ill-formed list need not end.  Walks are
bounded by the number of addresses, and `none` stands for a walk that has not
ended by then.
-/

set_option autoImplicit false

namespace EmbeddedRuntime.Allocator.Model

open EmbeddedRuntime.Common
open EmbeddedRuntime.Lib.Word64

def alignment : Nat := 16
def arenaMin : Nat := 64 * 1024
def blockMagic : Nat := 0x4d4c5254424c4f43

structure BlockHeader where
  magic : Nat
  size : Nat
  free : Bool
  prev : Nat
  next : Nat
  deriving DecidableEq, Repr

/-- `sizeof(BlockHeader)` with 64-bit pointers. -/
def sizeofBlockHeader : Nat := 40

structure Heap where
  mem : Nat → BlockHeader
  head : Nat
  mappedBytes : Nat
  arenas : List (Nat × Nat)

/-- A store to a header field. -/
def Heap.modify (heap : Heap) (address : Nat) (change : BlockHeader → BlockHeader) : Heap :=
  { heap with mem := Function.update heap.mem address (change (heap.mem address)) }

def alignedSize (n : Nat) : Nat := mlrtRoundUp n alignment

def headerSize : Nat := alignedSize sizeofBlockHeader

/-- Every address is visited at most once by a walk that ends. -/
def walkFuel : Nat := 2 ^ 64

/-- The loop of `insert_sorted`: the last block before `block`. -/
def walkBefore (mem : Nat → BlockHeader) (block : Nat) : Nat → Nat → Option Nat
  | 0, _ => none
  | fuel + 1, cur =>
      if (mem cur).next ≠ 0 ∧ (mem cur).next < block then
        walkBefore mem block fuel (mem cur).next
      else some cur

/-- The branch of `insert_sorted` that puts `block` before the head. -/
def insertFront (heap : Heap) (block : Nat) : Heap :=
  let heap := heap.modify block fun b => { b with next := heap.head }
  let heap := heap.modify block fun b => { b with prev := 0 }
  let heap :=
    if heap.head ≠ 0 then heap.modify heap.head fun b => { b with prev := block } else heap
  { heap with head := block }

/-- The stores of `insert_sorted` after its loop has stopped at `cur`. -/
def insertAfter (heap : Heap) (block cur : Nat) : Heap :=
  let heap := heap.modify block fun b => { b with next := (heap.mem cur).next }
  let heap := heap.modify block fun b => { b with prev := cur }
  let heap :=
    if (heap.mem cur).next ≠ 0 then
      heap.modify (heap.mem cur).next fun b => { b with prev := block }
    else heap
  heap.modify cur fun b => { b with next := block }

def insertSorted (heap : Heap) (block : Nat) : Option Heap :=
  if heap.head = 0 ∨ block < heap.head then some (insertFront heap block)
  else (walkBefore heap.mem block walkFuel heap.head).map (insertAfter heap block)

/-- The page size from `sysconf(_SC_PAGESIZE)`. -/
def pageSize (pageLong : Int) : Nat := if pageLong > 0 then pageLong.toNat else 4096

/-- The length `map_arena` asks `mmap` for. -/
def arenaTotal (pageLong : Int) (minimumPayload : Nat) : Nat :=
  let total := add64 headerSize minimumPayload
  let total := if total < arenaMin then arenaMin else total
  mlrtRoundUp total (pageSize pageLong)

/-- `map_arena`; `mmap` is what the system call returns, `none` for failure.
The result is the new block, 0 on failure. -/
def mapArena (pageLong : Int) (mmap : Option Nat) (heap : Heap) (minimumPayload : Nat) :
    Option (Nat × Heap) :=
  let total := arenaTotal pageLong minimumPayload
  match mmap with
  | none => some (0, heap)
  | some mem =>
      let heap :=
        { heap with
          mappedBytes := add64 heap.mappedBytes total
          arenas := (mem, total) :: heap.arenas }
      let heap := heap.modify mem fun _ => ⟨blockMagic, sub64 total headerSize, true, 0, 0⟩
      (insertSorted heap mem).map fun heap => (mem, heap)

/-- First fit from `b` on; 0 when no block fits. -/
def findFit (mem : Nat → BlockHeader) (size : Nat) : Nat → Nat → Option Nat
  | 0, _ => none
  | fuel + 1, b =>
      if b = 0 then some 0
      else if (mem b).free ∧ (mem b).size ≥ size then some b
      else findFit mem size fuel (mem b).next

def splitBlock (heap : Heap) (block size : Nat) : Heap :=
  if (heap.mem block).size < add64 (add64 size headerSize) alignment then heap
  else
    let payload := add64 block headerSize
    let tail := add64 payload size
    let heap := heap.modify tail fun _ =>
      ⟨blockMagic, sub64 (sub64 (heap.mem block).size size) headerSize, true, block,
        (heap.mem block).next⟩
    let heap :=
      if (heap.mem tail).next ≠ 0 then
        heap.modify (heap.mem tail).next fun b => { b with prev := tail }
      else heap
    let heap := heap.modify block fun b => { b with next := tail }
    heap.modify block fun b => { b with size := size }

def adjacent (mem : Nat → BlockHeader) (a b : Nat) : Prop :=
  add64 (add64 a headerSize) (mem a).size = b

instance (mem : Nat → BlockHeader) (a b : Nat) : Decidable (adjacent mem a b) :=
  inferInstanceAs (Decidable (_ = b))

def coalesceWithNext (heap : Heap) (block : Nat) : Heap :=
  let next := (heap.mem block).next
  if next = 0 ∨ (heap.mem next).free = false ∨ ¬ adjacent heap.mem block next then heap
  else
    let heap := heap.modify block fun b =>
      { b with size := add64 b.size (add64 headerSize (heap.mem next).size) }
    let heap := heap.modify block fun b => { b with next := (heap.mem next).next }
    if (heap.mem block).next ≠ 0 then
      heap.modify (heap.mem block).next fun b => { b with prev := block }
    else heap

/-- The block `my_malloc` goes on with: a fit, or a fresh arena. -/
def fitOrArena (pageLong : Int) (mmap : Option Nat) (heap : Heap) (size : Nat) :
    Option (Nat × Heap) :=
  (findFit heap.mem size walkFuel heap.head).bind fun block =>
    if block = 0 then mapArena pageLong mmap heap size else some (block, heap)

/-- `my_malloc`: the pointer returned and the heap. -/
def myMalloc (pageLong : Int) (mmap : Option Nat) (heap : Heap) (size : Nat) :
    Option (Nat × Heap) :=
  if size = 0 then some (0, heap)
  else
    let size := alignedSize size
    (fitOrArena pageLong mmap heap size).map fun (block, heap) =>
      if block = 0 then (0, heap)
      else
        let heap := splitBlock heap block size
        let heap := heap.modify block fun b => { b with free := false }
        (add64 block headerSize, heap)

/-- The end of `my_free`: the block before `block` is coalesced with it. -/
def coalesceWithPrev (heap : Heap) (block : Nat) : Heap :=
  let prev := (heap.mem block).prev
  if prev ≠ 0 ∧ (heap.mem prev).free ∧ adjacent heap.mem prev block then
    coalesceWithNext heap prev
  else heap

def myFree (heap : Heap) (ptr : Nat) : Heap :=
  if ptr = 0 then heap
  else
    let block := sub64 ptr headerSize
    if (heap.mem block).magic ≠ blockMagic then heap
    else
      let heap := heap.modify block fun b => { b with free := true }
      coalesceWithPrev (coalesceWithNext heap block) block

structure MyAllocatorStats where
  mappedBytes : Nat
  allocatedBytes : Nat
  freeBytes : Nat
  allocatedBlocks : Nat
  freeBlocks : Nat
  deriving DecidableEq, Repr

/-- The loop of `my_allocator_get_stats`. -/
def statsLoop (mem : Nat → BlockHeader) : Nat → Nat → MyAllocatorStats → Option MyAllocatorStats
  | 0, _, _ => none
  | fuel + 1, b, stats =>
      if b = 0 then some stats
      else if (mem b).free then
        statsLoop mem fuel (mem b).next
          { stats with
            freeBlocks := add64 stats.freeBlocks 1
            freeBytes := add64 stats.freeBytes (mem b).size }
      else
        statsLoop mem fuel (mem b).next
          { stats with
            allocatedBlocks := add64 stats.allocatedBlocks 1
            allocatedBytes := add64 stats.allocatedBytes (mem b).size }

def myAllocatorGetStats (heap : Heap) : Option MyAllocatorStats :=
  statsLoop heap.mem walkFuel heap.head ⟨heap.mappedBytes, 0, 0, 0, 0⟩

end EmbeddedRuntime.Allocator.Model
