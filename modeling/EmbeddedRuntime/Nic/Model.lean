import Mathlib.Logic.Function.Basic

/-!
# The NIC descriptor rings of `firmware/nic_model.c`

One driver thread and one device thread share the descriptor rings.  Each
thread is at a point of the call it executes, and one action moves one thread
past one access to shared memory: an atomic operation, the store of one field,
or one byte of a `memcpy`.  A schedule of actions is an interleaving of the two
threads under sequential consistency.

The record of what happened (`History`, `CallLog`) is written by the steps and
read by none of them.
-/

set_option autoImplicit false

namespace EmbeddedRuntime.Nic.Model

def nicMaxRing : Nat := 64
def nicMtu : Nat := 1536
def nicIrqTx : UInt32 := 1
def nicIrqRx : UInt32 := 2
def nicIrqError : UInt32 := 4

abbrev Frame := List UInt8

inductive NicOwner where
  | free
  | device
  | done
  deriving DecidableEq, Repr

structure NicDescriptor where
  owner : NicOwner
  length : Nat
  error : Nat
  buffer : Nat → UInt8

structure NicModel where
  tx : Nat → NicDescriptor
  rx : Nat → NicDescriptor
  capacity : Nat
  txSubmitCursor : Nat
  txReclaimCursor : Nat
  deviceTxCursor : Nat
  deviceRxCursor : Nat
  rxConsumeCursor : Nat
  txHead : Nat
  txTail : Nat
  rxHead : Nat
  rxTail : Nat
  irqStatus : UInt32
  injectFault : Nat
  txCompleted : UInt64
  rxCompleted : UInt64
  rxNoBuffer : UInt64
  txErrors : UInt64

/-- A descriptor as `memset` leaves it. -/
def emptyDescriptor (owner : NicOwner) : NicDescriptor := ⟨owner, 0, 0, fun _ => 0⟩

/-- `nic_model_init`; `none` when it returns -1. -/
def nicModelInit (capacity : Nat) : Option NicModel :=
  if capacity = 0 ∨ capacity > nicMaxRing then none
  else some
    { tx := fun _ => emptyDescriptor .free
      rx := fun _ => emptyDescriptor .device
      capacity
      txSubmitCursor := 0, txReclaimCursor := 0, deviceTxCursor := 0
      deviceRxCursor := 0, rxConsumeCursor := 0
      txHead := 0, txTail := 0, rxHead := 0, rxTail := 0
      irqStatus := 0, injectFault := 0
      txCompleted := 0, rxCompleted := 0, rxNoBuffer := 0, txErrors := 0 }

/-- A store to a field of a TX descriptor. -/
def NicModel.storeTx (nic : NicModel) (slot : Nat) (change : NicDescriptor → NicDescriptor) :
    NicModel :=
  { nic with tx := Function.update nic.tx slot (change (nic.tx slot)) }

/-- A store to a field of an RX descriptor. -/
def NicModel.storeRx (nic : NicModel) (slot : Nat) (change : NicDescriptor → NicDescriptor) :
    NicModel :=
  { nic with rx := Function.update nic.rx slot (change (nic.rx slot)) }

/-- One byte of a `memcpy` into a descriptor's buffer. -/
def NicDescriptor.storeByte (descriptor : NicDescriptor) (i : Nat) (byte : UInt8) :
    NicDescriptor :=
  { descriptor with buffer := Function.update descriptor.buffer i byte }

/-! ## The threads -/

/-- The calls the driver makes.  A null `packet` is `none`, and so is a receive
with a null pointer; `errors` says whether the `errors` pointer is given. -/
inductive DriverCall where
  | txSubmit (packet : Option Frame)
  | txReclaim (errors : Bool)
  | rxReceive (capacity : Option Nat)
  | takeInterrupts
  | injectTxError

/-- The access `nic_tx_submit` makes next. -/
inductive SubmitPoint where
  | load
  | copy (i : Nat)
  | length
  | error
  | publish
  | advance
  | tail

/-- The locals of `nic_tx_reclaim`; `count` is `*errors`. -/
structure Reclaim where
  errors : Bool
  done : Nat
  count : Nat

/-- The access `nic_tx_reclaim` makes next. -/
inductive ReclaimPoint where
  | load
  | error
  | free
  | advance

/-- The access `nic_rx_receive` makes next; `out` are the bytes copied so far
and `length` the value stored to `*length`. -/
inductive ReceivePoint where
  | load (capacity : Nat)
  | check (capacity : Nat)
  | size
  | copy (length : Nat) (out : Frame)
  | length (out : Frame)
  | release (out : Frame) (length : Nat)
  | advance (out : Frame) (length : Nat)
  | head (out : Frame) (length : Nat)

inductive CallPoint where
  | submit (packet : Frame) (point : SubmitPoint)
  | reclaim (locals : Reclaim) (point : ReclaimPoint)
  | receive (point : ReceivePoint)

/-- The locals `budget` and `done` of `nic_device_step`. -/
structure Poll where
  budget : Nat
  done : Nat

/-- Where the device is in the body of the loop of `nic_device_step`. -/
inductive PollPoint where
  | load
  | exchange
  | lengthCheck (error : Nat)
  | markError
  | countError
  | irqError
  | rxLoad
  | countNoBuffer
  | copySize
  | copy (length i : Nat)
  | copyLength
  | clearError
  | rxPublish
  | rxAdvance
  | rxTail
  | countRx
  | irqRx
  | countTx
  | txPublish
  | txAdvance
  | txHead
  | irqTx

/-! ## The record of a run -/

/-- How the device finished a frame. -/
inductive Outcome where
  | error
  | dropped
  | delivered
  deriving DecidableEq, Repr

inductive InterruptEvent where
  | raised (mask : UInt32)
  | taken (status : UInt32)

structure History where
  /-- Frames whose descriptor was given to the device. -/
  published : List Frame
  /-- Frames whose `nic_tx_submit` returned 0. -/
  submitted : List Frame
  outcomes : List Outcome
  /-- TX descriptors the device has marked done. -/
  completed : Nat
  /-- TX descriptors the driver has freed again. -/
  reclaimed : Nat
  /-- RX descriptors the driver has given back. -/
  taken : Nat
  /-- The bytes and the length each successful `nic_rx_receive` returned. -/
  received : List (Frame × Nat)
  /-- Total of the error counts returned by `nic_tx_reclaim`. -/
  reportedErrors : Nat
  interrupts : List InterruptEvent

inductive CallKind where
  | txSubmit
  | txReclaim
  | rxReceive
  | takeInterrupts
  | injectTxError
  deriving DecidableEq, Repr

/-- A call that returned, with the model before and after each of its steps. -/
structure Return where
  kind : CallKind
  code : Int
  steps : List (NicModel × NicModel)

structure CallLog where
  current : List (NicModel × NicModel)
  returns : List Return

structure State where
  nic : NicModel
  driver : Option CallPoint
  device : Option (Poll × PollPoint)
  history : History
  calls : CallLog

def start (nic : NicModel) : State where
  nic := nic
  driver := none
  device := none
  history := ⟨[], [], [], 0, 0, 0, [], 0, []⟩
  calls := ⟨[], []⟩

def State.withNic (state : State) (nic : NicModel) : State := { state with nic }

def State.note (state : State) (change : History → History) : State :=
  { state with history := change state.history }

/-! ## The driver -/

/-- The next state, and the kind and code of the call when it returns. -/
abbrev Moved := State × Option (CallKind × Int)

/-- A step after which the call goes on. -/
def State.goes (state : State) (point : CallPoint) : Moved :=
  ({ state with driver := some point }, none)

/-- A step with which the call returns. -/
def State.returns (state : State) (kind : CallKind) (code : Int) : Moved :=
  ({ state with driver := none }, some (kind, code))

/-- The beginning of a call: the checks of its arguments, and for the calls of
one atomic operation the whole body. -/
def beginCall (state : State) (nic : NicModel) : DriverCall → Moved
  | .txSubmit none => state.returns .txSubmit (-1)
  | .txSubmit (some packet) =>
      if packet.length = 0 ∨ packet.length > nicMtu then state.returns .txSubmit (-1)
      else state.goes (.submit packet .load)
  | .txReclaim errors => state.goes (.reclaim ⟨errors, 0, 0⟩ .load)
  | .rxReceive none => state.returns .rxReceive (-1)
  | .rxReceive (some capacity) => state.goes (.receive (.load capacity))
  | .takeInterrupts =>
      let taken := (state.withNic { nic with irqStatus := 0 }).note fun h =>
        { h with interrupts := h.interrupts ++ [.taken nic.irqStatus] }
      taken.returns .takeInterrupts nic.irqStatus.toNat
  | .injectTxError => (state.withNic { nic with injectFault := 1 }).returns .injectTxError 0

/-- `nic_tx_submit` after its argument check. -/
def submitStep (state : State) (nic : NicModel) (packet : Frame) : SubmitPoint → Moved
  | .load =>
      if (nic.tx nic.txSubmitCursor).owner ≠ .free then state.returns .txSubmit 1
      else state.goes (.submit packet (.copy 0))
  | .copy i =>
      match packet[i]? with
      | some byte =>
          (state.withNic (nic.storeTx nic.txSubmitCursor fun d => d.storeByte i byte)).goes
            (.submit packet (.copy (i + 1)))
      | none => state.goes (.submit packet .length)
  | .length =>
      (state.withNic (nic.storeTx nic.txSubmitCursor fun d =>
        { d with length := packet.length })).goes (.submit packet .error)
  | .error =>
      (state.withNic (nic.storeTx nic.txSubmitCursor fun d => { d with error := 0 })).goes
        (.submit packet .publish)
  | .publish =>
      let published := (state.withNic (nic.storeTx nic.txSubmitCursor fun d =>
        { d with owner := .device })).note fun h => { h with published := h.published ++ [packet] }
      published.goes (.submit packet .advance)
  | .advance =>
      (state.withNic { nic with
        txSubmitCursor := (nic.txSubmitCursor + 1) % nic.capacity }).goes (.submit packet .tail)
  | .tail =>
      let submitted := (state.withNic { nic with txTail := nic.txSubmitCursor }).note fun h =>
        { h with submitted := h.submitted ++ [packet] }
      submitted.returns .txSubmit 0

/-- The loop of `nic_tx_reclaim`. -/
def reclaimStep (state : State) (nic : NicModel) (locals : Reclaim) : ReclaimPoint → Moved
  | .load =>
      if locals.done < nic.capacity ∧ (nic.tx nic.txReclaimCursor).owner = .done then
        state.goes (.reclaim locals .error)
      else
        let reported := state.note fun h =>
          { h with reportedErrors := h.reportedErrors + locals.count }
        reported.returns .txReclaim locals.done
  | .error =>
      if locals.errors ∧ (nic.tx nic.txReclaimCursor).error ≠ 0 then
        state.goes (.reclaim { locals with count := locals.count + 1 } .free)
      else state.goes (.reclaim locals .free)
  | .free =>
      let freed := (state.withNic (nic.storeTx nic.txReclaimCursor fun d =>
        { d with owner := .free })).note fun h => { h with reclaimed := h.reclaimed + 1 }
      freed.goes (.reclaim locals .advance)
  | .advance =>
      (state.withNic { nic with
        txReclaimCursor := (nic.txReclaimCursor + 1) % nic.capacity }).goes
        (.reclaim { locals with done := locals.done + 1 } .load)

/-- `nic_rx_receive` after its argument check. -/
def receiveStep (state : State) (nic : NicModel) : ReceivePoint → Moved
  | .load capacity =>
      if (nic.rx nic.rxConsumeCursor).owner ≠ .done then state.returns .rxReceive 1
      else state.goes (.receive (.check capacity))
  | .check capacity =>
      if capacity < (nic.rx nic.rxConsumeCursor).length then state.returns .rxReceive (-1)
      else state.goes (.receive .size)
  | .size => state.goes (.receive (.copy (nic.rx nic.rxConsumeCursor).length []))
  | .copy length out =>
      if out.length < length then
        state.goes (.receive (.copy length
          (out ++ [(nic.rx nic.rxConsumeCursor).buffer out.length])))
      else state.goes (.receive (.length out))
  | .length out => state.goes (.receive (.release out (nic.rx nic.rxConsumeCursor).length))
  | .release out length =>
      let released := (state.withNic (nic.storeRx nic.rxConsumeCursor fun d =>
        { d with owner := .device })).note fun h => { h with taken := h.taken + 1 }
      released.goes (.receive (.advance out length))
  | .advance out length =>
      (state.withNic { nic with
        rxConsumeCursor := (nic.rxConsumeCursor + 1) % nic.capacity }).goes
        (.receive (.head out length))
  | .head out length =>
      let received := (state.withNic { nic with rxHead := nic.rxConsumeCursor }).note fun h =>
        { h with received := h.received ++ [(out, length)] }
      received.returns .rxReceive 0

def driverMove (state : State) (call : DriverCall) : Moved :=
  match state.driver with
  | none => beginCall state state.nic call
  | some (.submit packet point) => submitStep state state.nic packet point
  | some (.reclaim locals point) => reclaimStep state state.nic locals point
  | some (.receive point) => receiveStep state state.nic point

/-- The log after a driver step from `before` to `after`. -/
def CallLog.record (calls : CallLog) (before after : NicModel) :
    Option (CallKind × Int) → CallLog
  | none => { calls with current := calls.current ++ [(before, after)] }
  | some (kind, code) =>
      { current := []
        returns := calls.returns ++ [⟨kind, code, calls.current ++ [(before, after)]⟩] }

def driverStep (state : State) (call : DriverCall) : State :=
  let moved := driverMove state call
  { moved.1 with calls := state.calls.record state.nic moved.1.nic moved.2 }

/-! ## The device -/

def State.polls (state : State) (poll : Poll) (point : PollPoint) : State :=
  { state with device := some (poll, point) }

/-- `atomic_fetch_or(&n->irq_status, mask)`. -/
def State.raise (state : State) (mask : UInt32) : State :=
  (state.withNic { state.nic with irqStatus := state.nic.irqStatus ||| mask }).note fun h =>
    { h with interrupts := h.interrupts ++ [.raised mask] }

def History.finish (history : History) (outcome : Outcome) : History :=
  { history with outcomes := history.outcomes ++ [outcome] }

/-- The loop of `nic_device_step`. -/
def pollStep (state : State) (nic : NicModel) (poll : Poll) : PollPoint → State
  | .load =>
      if poll.done < poll.budget ∧ (nic.tx nic.deviceTxCursor).owner = .device then
        state.polls poll .exchange
      else { state with device := none }
  | .exchange =>
      (state.withNic { nic with injectFault := 0 }).polls poll (.lengthCheck nic.injectFault)
  | .lengthCheck error =>
      if error ≠ 0 ∨ (nic.tx nic.deviceTxCursor).length = 0 ∨
          (nic.tx nic.deviceTxCursor).length > nicMtu then
        state.polls poll .markError
      else state.polls poll .rxLoad
  | .markError =>
      (state.withNic (nic.storeTx nic.deviceTxCursor fun d => { d with error := 1 })).polls poll
        .countError
  | .countError =>
      ((state.withNic { nic with txErrors := nic.txErrors + 1 }).note
        (History.finish · .error)).polls poll .irqError
  | .irqError => (state.raise nicIrqError).polls poll .countTx
  | .rxLoad =>
      if (nic.rx nic.deviceRxCursor).owner ≠ .device then state.polls poll .countNoBuffer
      else state.polls poll .copySize
  | .countNoBuffer =>
      ((state.withNic { nic with rxNoBuffer := nic.rxNoBuffer + 1 }).note
        (History.finish · .dropped)).polls poll .countTx
  | .copySize => state.polls poll (.copy (nic.tx nic.deviceTxCursor).length 0)
  | .copy length i =>
      if i < length then
        (state.withNic (nic.storeRx nic.deviceRxCursor fun d =>
          d.storeByte i ((nic.tx nic.deviceTxCursor).buffer i))).polls poll (.copy length (i + 1))
      else state.polls poll .copyLength
  | .copyLength =>
      (state.withNic (nic.storeRx nic.deviceRxCursor fun d =>
        { d with length := (nic.tx nic.deviceTxCursor).length })).polls poll .clearError
  | .clearError =>
      (state.withNic (nic.storeRx nic.deviceRxCursor fun d => { d with error := 0 })).polls poll
        .rxPublish
  | .rxPublish =>
      ((state.withNic (nic.storeRx nic.deviceRxCursor fun d => { d with owner := .done })).note
        (History.finish · .delivered)).polls poll .rxAdvance
  | .rxAdvance =>
      (state.withNic { nic with
        deviceRxCursor := (nic.deviceRxCursor + 1) % nic.capacity }).polls poll .rxTail
  | .rxTail => (state.withNic { nic with rxTail := nic.deviceRxCursor }).polls poll .countRx
  | .countRx => (state.withNic { nic with rxCompleted := nic.rxCompleted + 1 }).polls poll .irqRx
  | .irqRx => (state.raise nicIrqRx).polls poll .countTx
  | .countTx =>
      (state.withNic { nic with txCompleted := nic.txCompleted + 1 }).polls poll .txPublish
  | .txPublish =>
      ((state.withNic (nic.storeTx nic.deviceTxCursor fun d => { d with owner := .done })).note
        fun h => { h with completed := h.completed + 1 }).polls poll .txAdvance
  | .txAdvance =>
      (state.withNic { nic with
        deviceTxCursor := (nic.deviceTxCursor + 1) % nic.capacity }).polls poll .txHead
  | .txHead => (state.withNic { nic with txHead := nic.deviceTxCursor }).polls poll .irqTx
  | .irqTx => (state.raise nicIrqTx).polls { poll with done := poll.done + 1 } .load

def deviceStep (state : State) (budget : Nat) : State :=
  match state.device with
  | none =>
      let budget := if budget > state.nic.capacity then state.nic.capacity else budget
      state.polls ⟨budget, 0⟩ .load
  | some (poll, point) => pollStep state state.nic poll point

/-! ## Runs -/

/-- One access of one thread.  An idle thread begins the call it is given; a
thread inside a call goes on with it. -/
inductive Action where
  | driver (call : DriverCall)
  | device (budget : Nat)

def step (state : State) : Action → State
  | .driver call => driverStep state call
  | .device budget => deviceStep state budget

end EmbeddedRuntime.Nic.Model
