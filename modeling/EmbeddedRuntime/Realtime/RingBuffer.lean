import EmbeddedRuntime.Lib.Buffer
import EmbeddedRuntime.Lib.Window

/-!
# The bounded ring buffer of `realtime/ring_buffer.c`

The state is the `mlrt_ring_buffer` record without its lock and condition
variable: every function below is one critical section of the source, entered
with the lock held.  The storage is the caller's byte array; slot `i` starts at
byte `i * item_size`.  Indices stay below the capacity, which `mlrt_ring_init`
keeps below `2^64`, so `size_t` arithmetic on them does not wrap; the 64-bit
`dropped` counter may wrap and is a `UInt64`.

`mlrt_ring_wait_pop` holds the lock in pieces: the first test of `count`, and
one piece after each return of a condition wait.
-/

set_option autoImplicit false

namespace EmbeddedRuntime.Realtime.RingBuffer

open EmbeddedRuntime.Lib.Buffer

structure MlrtRingBuffer where
  storage : List UInt8
  capacity : Nat
  itemSize : Nat
  head : Nat
  tail : Nat
  count : Nat
  highWater : Nat
  dropped : UInt64
  deriving DecidableEq, Repr

structure MlrtRingStats where
  count : Nat
  capacity : Nat
  highWater : Nat
  dropped : UInt64
  deriving DecidableEq, Repr

/-- Return codes of the pthread calls made by `mlrt_ring_init`. -/
structure PthreadInit where
  mutexInit : Int
  condattrInit : Int
  condattrSetclock : Int
  condInit : Int
  deriving DecidableEq, Repr

def sizeMax : Nat := 2 ^ 64 - 1

/-- Byte offset of a slot. -/
def slot (rb : MlrtRingBuffer) (index : Nat) : Nat := index * rb.itemSize

/-- `none` is the return value -1, with every resource released. -/
def mlrtRingInit (storage : Option (List UInt8)) (capacity itemSize : Nat)
    (os : PthreadInit) : Option MlrtRingBuffer :=
  match storage with
  | none => none
  | some storage =>
      if capacity = 0 ∨ itemSize = 0 ∨ capacity > sizeMax / itemSize then none
      else if os.mutexInit ≠ 0 then none
      else if os.condattrInit ≠ 0 then none
      else if os.condattrSetclock ≠ 0 then none
      else if os.condInit ≠ 0 then none
      else some ⟨storage, capacity, itemSize, 0, 0, 0, 0, 0⟩

/-- The overwrite path: the oldest item is given up before the new one is
written at `head`. -/
def dropOldest (rb : MlrtRingBuffer) : MlrtRingBuffer :=
  { rb with
    tail := (rb.tail + 1) % rb.capacity
    count := rb.count - 1
    dropped := rb.dropped + 1 }

/-- Copy the item into the slot at `head` and advance. -/
def storeItem (rb : MlrtRingBuffer) (item : List UInt8) : MlrtRingBuffer :=
  { rb with
    storage := writeAt rb.storage (slot rb rb.head) (item.take rb.itemSize)
    head := (rb.head + 1) % rb.capacity
    count := rb.count + 1
    highWater := if rb.count + 1 > rb.highWater then rb.count + 1 else rb.highWater }

/-- `mlrt_ring_push`; a null item is `none`. -/
def mlrtRingPush (rb : MlrtRingBuffer) (item : Option (List UInt8)) (overwriteOldest : Int) :
    Int × MlrtRingBuffer :=
  match item with
  | none => (-1, rb)
  | some item =>
      if rb.count = rb.capacity then
        if overwriteOldest = 0 then (1, { rb with dropped := rb.dropped + 1 })
        else (0, storeItem (dropOldest rb) item)
      else (0, storeItem rb item)

/-- The copy out of the slot at `tail`, written once in `mlrt_ring_pop` and
once more in `mlrt_ring_wait_pop`. -/
def takeItem (rb : MlrtRingBuffer) : List UInt8 × MlrtRingBuffer :=
  (readAt rb.storage (slot rb rb.tail) rb.itemSize,
    { rb with tail := (rb.tail + 1) % rb.capacity, count := rb.count - 1 })

/-- What one critical section of a pop does: return a code, with the bytes
copied to the caller on 0, or give the lock up and wait. -/
inductive PopResult where
  | returned (code : Int) (item : Option (List UInt8))
  | waiting
  deriving DecidableEq, Repr

/-- `mlrt_ring_pop`; `item` says whether the caller's pointer is non-null. -/
def mlrtRingPop (rb : MlrtRingBuffer) (item : Bool) : PopResult × MlrtRingBuffer :=
  if item = false then (.returned (-1) none, rb)
  else if rb.count = 0 then (.returned 1 none, rb)
  else (.returned 0 (some (takeItem rb).1), (takeItem rb).2)

/-- The loop test of `mlrt_ring_wait_pop` and the copy after the loop. -/
def waitPopTest (rb : MlrtRingBuffer) : PopResult × MlrtRingBuffer :=
  if rb.count = 0 then (.waiting, rb)
  else (.returned 0 (some (takeItem rb).1), (takeItem rb).2)

/-- First critical section of `mlrt_ring_wait_pop`. -/
def mlrtRingWaitPop (rb : MlrtRingBuffer) (item : Bool) : PopResult × MlrtRingBuffer :=
  if item = false then (.returned (-1) none, rb) else waitPopTest rb

def etimedout : Int := 110

/-- The section after `pthread_cond_wait` (negative timeout) or
`pthread_cond_timedwait` has returned `rc` with the lock held again.  A timeout
returns 1 without looking at `count`. -/
def mlrtRingWaitPopWake (rb : MlrtRingBuffer) (timeoutMs rc : Int) : PopResult × MlrtRingBuffer :=
  if timeoutMs < 0 then
    if rc ≠ 0 then (.returned (-1) none, rb) else waitPopTest rb
  else if rc = etimedout then (.returned 1 none, rb)
  else if rc ≠ 0 then (.returned (-1) none, rb)
  else waitPopTest rb

def mlrtRingGetStats (rb : MlrtRingBuffer) : MlrtRingStats :=
  ⟨rb.count, rb.capacity, rb.highWater, rb.dropped⟩

/-! ## Sequences of critical sections -/

/-- One lock-atomic operation, with its arguments.  `wakePop` resumes a
`mlrt_ring_wait_pop` call whose condition wait has returned. -/
inductive RingOp where
  | push (item : Option (List UInt8)) (overwriteOldest : Int)
  | pop (item : Bool)
  | waitPop (item : Bool)
  | wakePop (timeoutMs rc : Int)
  | getStats
  deriving DecidableEq, Repr

inductive RingResult where
  | pushed (code : Int)
  | popped (result : PopResult)
  | stats (stats : MlrtRingStats)
  deriving DecidableEq, Repr

def ringStep (rb : MlrtRingBuffer) : RingOp → RingResult × MlrtRingBuffer
  | .push item overwriteOldest =>
      (.pushed (mlrtRingPush rb item overwriteOldest).1, (mlrtRingPush rb item overwriteOldest).2)
  | .pop item => (.popped (mlrtRingPop rb item).1, (mlrtRingPop rb item).2)
  | .waitPop item => (.popped (mlrtRingWaitPop rb item).1, (mlrtRingWaitPop rb item).2)
  | .wakePop timeoutMs rc =>
      (.popped (mlrtRingWaitPopWake rb timeoutMs rc).1, (mlrtRingWaitPopWake rb timeoutMs rc).2)
  | .getStats => (.stats (mlrtRingGetStats rb), rb)

/-- The results of a sequence of operations, in order, and the final ring. -/
def ringRun (rb : MlrtRingBuffer) : List RingOp → List RingResult × MlrtRingBuffer
  | [] => ([], rb)
  | op :: rest =>
      let (result, next) := ringStep rb op
      let (results, final) := ringRun next rest
      (result :: results, final)

end EmbeddedRuntime.Realtime.RingBuffer
