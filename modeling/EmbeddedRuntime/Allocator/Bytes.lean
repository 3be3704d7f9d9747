import EmbeddedRuntime.Allocator.Model
import EmbeddedRuntime.Lib.ByteOrder

/-!
# The allocator over bytes

The same functions on the memory a process has: one array of bytes for headers
and payloads alike.  A field of a header is loaded and stored at its offset in
`struct BlockHeader`.  The byte at an address that is not mapped yet is the one
a new mapping shows there.
-/

set_option autoImplicit false

namespace EmbeddedRuntime.Allocator.Bytes

open EmbeddedRuntime.Allocator.Model
  (BlockHeader Heap alignment blockMagic headerSize alignedSize arenaTotal walkBefore walkFuel
    findFit adjacent)
open EmbeddedRuntime.Lib.ByteOrder EmbeddedRuntime.Lib.Word64

/-! ## Headers in memory -/

/-- A field of a header with the value it is given. -/
inductive Field where
  | magic (value : Nat)
  | size (value : Nat)
  | free (value : Bool)
  | prev (value : Nat)
  | next (value : Nat)

/-- Four bytes of padding follow `free`. -/
def Field.offset : Field → Nat
  | .magic _ => 0
  | .size _ => 8
  | .free _ => 16
  | .prev _ => 24
  | .next _ => 32

def Field.width : Field → Nat
  | .free _ => 4
  | _ => 8

def Field.value : Field → Nat
  | .free value => value.toNat
  | .magic value | .size value | .prev value | .next value => value

/-- The same store to a header that is not in bytes. -/
def Field.apply : Field → BlockHeader → BlockHeader
  | .magic value, header => { header with magic := value }
  | .size value, header => { header with size := value }
  | .free value, header => { header with free := value }
  | .prev value, header => { header with prev := value }
  | .next value, header => { header with next := value }

structure ByteHeap where
  bytes : Nat → UInt8
  head : Nat
  mappedBytes : Nat
  arenas : List (Nat × Nat)

def ByteHeap.set (heap : ByteHeap) (address : Nat) (field : Field) : ByteHeap :=
  { heap with
    bytes := storeLittleEndian heap.bytes (address + field.offset) field.width field.value }

/-- The fields of the header at an address. -/
def ByteHeap.header (heap : ByteHeap) (address : Nat) : BlockHeader where
  magic := littleEndian heap.bytes address 8
  size := littleEndian heap.bytes (address + 8) 8
  free := decide (littleEndian heap.bytes (address + 16) 4 ≠ 0)
  prev := littleEndian heap.bytes (address + 24) 8
  next := littleEndian heap.bytes (address + 32) 8

/-! ## The functions of `allocator/allocator.c` -/

/-- The branch of `insert_sorted` that puts `block` before the head. -/
def insertFront (heap : ByteHeap) (block : Nat) : ByteHeap :=
  let heap := heap.set block (.next heap.head)
  let heap := heap.set block (.prev 0)
  let heap := if heap.head ≠ 0 then heap.set heap.head (.prev block) else heap
  { heap with head := block }

/-- The stores of `insert_sorted` after its loop has stopped at `cur`. -/
def insertAfter (heap : ByteHeap) (block cur : Nat) : ByteHeap :=
  let heap := heap.set block (.next (heap.header cur).next)
  let heap := heap.set block (.prev cur)
  let heap :=
    if (heap.header cur).next ≠ 0 then heap.set (heap.header cur).next (.prev block) else heap
  heap.set cur (.next block)

def insertSorted (heap : ByteHeap) (block : Nat) : Option ByteHeap :=
  if heap.head = 0 ∨ block < heap.head then some (insertFront heap block)
  else (walkBefore heap.header block walkFuel heap.head).map (insertAfter heap block)

def mapArena (pageLong : Int) (mmap : Option Nat) (heap : ByteHeap) (minimumPayload : Nat) :
    Option (Nat × ByteHeap) :=
  let total := arenaTotal pageLong minimumPayload
  match mmap with
  | none => some (0, heap)
  | some mem =>
      let heap :=
        { heap with
          mappedBytes := add64 heap.mappedBytes total
          arenas := (mem, total) :: heap.arenas }
      let heap := heap.set mem (.magic blockMagic)
      let heap := heap.set mem (.size (sub64 total headerSize))
      let heap := heap.set mem (.free true)
      let heap := heap.set mem (.next 0)
      let heap := heap.set mem (.prev 0)
      (insertSorted heap mem).map fun heap => (mem, heap)

def splitBlock (heap : ByteHeap) (block size : Nat) : ByteHeap :=
  if (heap.header block).size < add64 (add64 size headerSize) alignment then heap
  else
    let payload := add64 block headerSize
    let tail := add64 payload size
    let heap := heap.set tail (.magic blockMagic)
    let heap := heap.set tail (.size (sub64 (sub64 (heap.header block).size size) headerSize))
    let heap := heap.set tail (.free true)
    let heap := heap.set tail (.prev block)
    let heap := heap.set tail (.next (heap.header block).next)
    let heap :=
      if (heap.header tail).next ≠ 0 then heap.set (heap.header tail).next (.prev tail) else heap
    let heap := heap.set block (.next tail)
    heap.set block (.size size)

def coalesceWithNext (heap : ByteHeap) (block : Nat) : ByteHeap :=
  let next := (heap.header block).next
  if next = 0 ∨ (heap.header next).free = false ∨ ¬ adjacent heap.header block next then heap
  else
    let heap := heap.set block
      (.size (add64 (heap.header block).size (add64 headerSize (heap.header next).size)))
    let heap := heap.set block (.next (heap.header next).next)
    if (heap.header block).next ≠ 0 then heap.set (heap.header block).next (.prev block) else heap

/-- The block `my_malloc` goes on with: a fit, or a fresh arena. -/
def fitOrArena (pageLong : Int) (mmap : Option Nat) (heap : ByteHeap) (size : Nat) :
    Option (Nat × ByteHeap) :=
  (findFit heap.header size walkFuel heap.head).bind fun block =>
    if block = 0 then mapArena pageLong mmap heap size else some (block, heap)

def myMalloc (pageLong : Int) (mmap : Option Nat) (heap : ByteHeap) (size : Nat) :
    Option (Nat × ByteHeap) :=
  if size = 0 then some (0, heap)
  else
    let size := alignedSize size
    (fitOrArena pageLong mmap heap size).map fun (block, heap) =>
      if block = 0 then (0, heap)
      else
        let heap := splitBlock heap block size
        let heap := heap.set block (.free false)
        (add64 block headerSize, heap)

/-- The end of `my_free`: the block before `block` is coalesced with it. -/
def coalesceWithPrev (heap : ByteHeap) (block : Nat) : ByteHeap :=
  let prev := (heap.header block).prev
  if prev ≠ 0 ∧ (heap.header prev).free ∧ adjacent heap.header prev block then
    coalesceWithNext heap prev
  else heap

def myFree (heap : ByteHeap) (ptr : Nat) : ByteHeap :=
  if ptr = 0 then heap
  else
    let block := sub64 ptr headerSize
    if (heap.header block).magic ≠ blockMagic then heap
    else
      let heap := heap.set block (.free true)
      coalesceWithPrev (coalesceWithNext heap block) block

/-! ## A process -/

/-- The headers alone. -/
def ByteHeap.view (heap : ByteHeap) : Heap :=
  ⟨heap.header, heap.head, heap.mappedBytes, heap.arenas⟩

/-- The heap, the live pointers with the sizes they were requested with, and what the process has
stored in their payloads and not overwritten since. -/
structure Process where
  heap : ByteHeap
  live : List (Nat × Nat)
  stored : Nat → Option UInt8

inductive Call where
  | malloc (size : Nat) (mmap : Option Nat)
  | free (ptr : Nat)
  | store (address : Nat) (byte : UInt8)

def start (bytes : Nat → UInt8) : Process := ⟨⟨bytes, 0, 0, []⟩, [], fun _ => none⟩

/-- An address in the payload of a live pointer. -/
def InPayload (live : List (Nat × Nat)) (address : Nat) : Prop :=
  ∃ entry ∈ live, entry.1 ≤ address ∧ address < entry.1 + entry.2

instance (live : List (Nat × Nat)) (address : Nat) : Decidable (InPayload live address) :=
  inferInstanceAs (Decidable (∃ entry ∈ live, _))

def step (pageLong : Int) (process : Process) : Call → Option Process
  | .malloc size mmap =>
      (myMalloc pageLong mmap process.heap size).map fun (ptr, heap) =>
        { process with
          heap
          live := if ptr = 0 then process.live else (ptr, size) :: process.live }
  | .free ptr =>
      let live := process.live.filter fun entry => entry.1 ≠ ptr
      some
        { heap := myFree process.heap ptr
          live
          stored := fun address => if InPayload live address then process.stored address else none }
  | .store address byte =>
      some
        { process with
          heap :=
            { process.heap with
              bytes := fun other => if other = address then byte else process.heap.bytes other }
          stored := fun other => if other = address then some byte else process.stored other }

end EmbeddedRuntime.Allocator.Bytes
