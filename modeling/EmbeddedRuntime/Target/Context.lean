import EmbeddedRuntime.Protocol.Packet
import EmbeddedRuntime.Realtime.RingBuffer

/-!
# The context of the target simulator, `target/target_core.c`

Every field of `mlrt_target_ctx` the threads share, except the thread handles.
The `uint_fast64_t` fields are 64-bit words; times are nanoseconds of the
monotonic clock.
-/

set_option autoImplicit false

namespace EmbeddedRuntime.Target.Context

open EmbeddedRuntime.Realtime.RingBuffer

/-- `mlrt_target_state`. -/
inductive TargetState where
  | boot
  | init
  | ready
  | running
  | fault
  | recovery
  deriving DecidableEq, Repr

/-- The enumerator's value, as the status response carries it. -/
def TargetState.code : TargetState → UInt8
  | .boot => 0
  | .init => 1
  | .ready => 2
  | .running => 3
  | .fault => 4
  | .recovery => 5

/-- `mlrt_target_sample`. -/
structure TargetSample where
  seq : UInt64
  timestampNs : UInt64
  milliValue : Int
  deriving DecidableEq, Repr

/-- `synth_value`. -/
def synthValue (seq : UInt64) : Int := 25000 + (seq % 200).toNat * 5 - 500

/-- The low bytes of a number, least significant first. -/
def littleEndian (value : Int) : Nat → List UInt8
  | 0 => []
  | width + 1 => UInt8.ofInt value :: littleEndian (value / 256) width

def sampleSize : Nat := 24

/-- The object representation of a sample; the last four bytes are padding. -/
def TargetSample.bytes (sample : TargetSample) : List UInt8 :=
  littleEndian sample.seq.toNat 8 ++ littleEndian sample.timestampNs.toNat 8 ++
    littleEndian sample.milliValue 4 ++ [0, 0, 0, 0]

def queueCapacity : Nat := 128

/-- `mlrt_target_ctx`. -/
structure TargetCtx where
  queue : MlrtRingBuffer
  running : Bool
  state : TargetState
  sampleRateHz : UInt32
  startedNs : UInt64
  produced : UInt64
  processed : UInt64
  lastProcessedNs : UInt64
  workerHeartbeatNs : UInt64
  watchdogRecoveries : UInt64
  crcErrors : UInt64
  freezeUntilNs : UInt64
  threadsStarted : Nat

/-- The three clock readings of `mlrt_target_init`, in program order. -/
structure InitTimes where
  started : UInt64
  lastProcessed : UInt64
  heartbeat : UInt64

/-- `mlrt_target_init` on a non-null context; `none` when it returns -1. -/
def mlrtTargetInit (rateHz : UInt32) (os : PthreadInit) (times : InitTimes) : Option TargetCtx :=
  if rateHz = 0 ∨ rateHz > 1000 then none
  else
    let storage := List.replicate (queueCapacity * sampleSize) 0
    match mlrtRingInit (some storage) queueCapacity sampleSize os with
    | none => none
    | some queue =>
        some
          { queue
            running := false
            state := .boot
            sampleRateHz := rateHz
            startedNs := times.started
            produced := 0
            processed := 0
            lastProcessedNs := times.lastProcessed
            workerHeartbeatNs := times.heartbeat
            watchdogRecoveries := 0
            crcErrors := 0
            freezeUntilNs := 0
            threadsStarted := 0 }

/-- The context of a successful `mlrt_target_init`. -/
def initialCtx (rateHz : UInt32) (times : InitTimes) : TargetCtx where
  queue := ⟨List.replicate (queueCapacity * sampleSize) 0, queueCapacity, sampleSize, 0, 0, 0, 0, 0⟩
  running := false
  state := .boot
  sampleRateHz := rateHz
  startedNs := times.started
  produced := 0
  processed := 0
  lastProcessedNs := times.lastProcessed
  workerHeartbeatNs := times.heartbeat
  watchdogRecoveries := 0
  crcErrors := 0
  freezeUntilNs := 0
  threadsStarted := 0

theorem mlrtTargetInit_some {rateHz : UInt32} {os : PthreadInit} {times : InitTimes}
    {ctx : TargetCtx} (initialised : mlrtTargetInit rateHz os times = some ctx) :
    1 ≤ rateHz.toNat ∧ rateHz.toNat ≤ 1000 ∧ ctx = initialCtx rateHz times := by
  unfold mlrtTargetInit at initialised
  split_ifs at initialised with outside
  dsimp only at initialised
  have inside : rateHz ≠ 0 ∧ ¬ rateHz > 1000 := not_or.mp outside
  have positive : rateHz.toNat ≠ 0 := fun zero => inside.1 (UInt32.toNat_inj.mp zero)
  have bounded : rateHz.toNat ≤ 1000 := by
    have := inside.2
    rw [gt_iff_lt, UInt32.lt_iff_toNat_lt] at this
    exact Nat.le_of_not_lt this
  refine ⟨by omega, bounded, ?_⟩
  split at initialised
  · cases initialised
  · rename_i queue ring
    cases initialised
    unfold mlrtRingInit at ring
    split_ifs at ring
    cases ring
    rfl

theorem length_littleEndian (value : Int) (width : Nat) :
    (littleEndian value width).length = width := by
  induction width generalizing value with
  | zero => rfl
  | succ width ih => simp [littleEndian, ih]

theorem length_bytes (sample : TargetSample) : sample.bytes.length = sampleSize := by
  simp [TargetSample.bytes, length_littleEndian, sampleSize]

end EmbeddedRuntime.Target.Context
