import EmbeddedRuntime.Lib.Machine
import EmbeddedRuntime.Nic.Ownership

/-!
# Every interleaving keeps the rings in order

Each step of the two threads is matched with its effect on the core, and the
thread's cursors and knowledge are carried over the step.  With the guarantees
towards the other thread this gives an invariant of every schedule.
-/

set_option autoImplicit false

namespace EmbeddedRuntime.Nic.Threads

open EmbeddedRuntime.Lib.Machine
open EmbeddedRuntime.Lib.Window
open EmbeddedRuntime.Nic.Model
open EmbeddedRuntime.Nic.Rings
open EmbeddedRuntime.Nic.Ownership

/-- A driver step from `state` to `next`, as far as the rings are concerned. -/
structure DriverStepOk (state next : State) : Prop where
  effect : DriverEffect (coreOf state) (coreOf next)
  cursors : DriverCursors next.nic (coreOf next) next.driver
  knows : DriverKnows (coreOf next) next.driver

section Driver
variable {state : State} (rings : RingsOk (coreOf state))
include rings

/-- A store of data to the descriptor `nic_tx_submit` works on. -/
theorem submitFill_ok (change : NicDescriptor → NicDescriptor)
    (slot : state.nic.txSubmitCursor =
      (coreOf state).published.length % (coreOf state).capacity)
    (room : (coreOf state).published.length <
      (coreOf state).reclaimed + (coreOf state).capacity)
    (sameOwner : ∀ descriptor, (change descriptor).owner = descriptor.owner) :
    DriverEffect (coreOf state) (coreOf (state.withNic
        (state.nic.storeTx state.nic.txSubmitCursor change))) ∧
      (coreOf (state.withNic (state.nic.storeTx state.nic.txSubmitCursor change))).txAt
        (coreOf state).published.length =
          change ((coreOf state).txAt (coreOf state).published.length) := by
  have owner := rings.tx.free _ (Nat.le_refl _) room
  have effect := DriverEffect.fill (change (state.nic.tx state.nic.txSubmitCursor)) room
    (by rw [sameOwner, slot]; exact owner)
  rw [← slot] at effect
  refine ⟨effect, ?_⟩
  change Function.update state.nic.tx state.nic.txSubmitCursor _
    ((coreOf state).published.length % (coreOf state).capacity) = _
  rw [← slot, Function.update_self, slot]
  rfl

theorem submitStep_ok {packet : Frame} {point : SubmitPoint}
    (cursors : DriverCursors state.nic (coreOf state) (some (.submit packet point)))
    (knows : SubmitKnows (coreOf state) packet point) :
    DriverStepOk state (submitStep state state.nic packet point).1 := by
  obtain ⟨submit, reclaim, receive⟩ := cursors
  cases point with
  | load =>
      have slot : state.nic.txSubmitCursor =
        (coreOf state).published.length % (coreOf state).capacity := submit
      rw [submitStep]
      split_ifs with full
      · exact ⟨.silent, ⟨submit, reclaim, receive⟩, trivial⟩
      · have isFree := not_not.mp full
        rw [slot] at isFree
        exact ⟨.silent, ⟨submit, reclaim, receive⟩, rings.tx_free isFree,
          fun i byte inside => by omega⟩
  | copy i =>
      obtain ⟨room, copied⟩ := knows
      rw [submitStep]
      cases next : packet[i]? with
      | none =>
          have short : packet.length ≤ i := List.getElem?_eq_none_iff.mp next
          exact ⟨.silent, ⟨submit, reclaim, receive⟩, room,
            fun j byte inside known => copied j byte (by omega) known⟩
      | some byte =>
          obtain ⟨effect, stored⟩ := submitFill_ok rings
            (fun d => d.storeByte i byte) submit room fun _ => rfl
          refine ⟨effect, ⟨submit, reclaim, receive⟩, room, ?_⟩
          exact (congrArg (Copied · packet (i + 1)) stored).mpr (copied.storeByte next)
  | length =>
      obtain ⟨room, copied⟩ := knows
      obtain ⟨effect, stored⟩ := submitFill_ok rings
        (fun d => { d with length := packet.length }) submit room fun _ => rfl
      have holds : Holds { (coreOf state).txAt (coreOf state).published.length with
          length := packet.length } packet :=
        Copied.holds copied (Nat.le_refl _) rfl
      exact ⟨effect, ⟨submit, reclaim, receive⟩, room,
        (congrArg (Holds · packet) stored).mpr holds⟩
  | error =>
      obtain ⟨room, holds⟩ := knows
      obtain ⟨effect, stored⟩ := submitFill_ok rings
        (fun d => { d with error := 0 }) submit room fun _ => rfl
      exact ⟨effect, ⟨submit, reclaim, receive⟩, room,
        (congrArg (Holds · packet) stored).mpr ⟨holds.length, holds.bytes⟩,
        congrArg NicDescriptor.error stored⟩
  | publish =>
      obtain ⟨room, holds, clean⟩ := knows
      have slot : state.nic.txSubmitCursor =
        (coreOf state).published.length % (coreOf state).capacity := submit
      have effect := DriverEffect.publish
        { (coreOf state).txAt (coreOf state).published.length with owner := .device } packet room
        rfl ⟨holds.length, holds.bytes⟩ clean
      unfold Core.txAt at effect
      rw [← slot] at effect
      refine ⟨effect, ⟨?_, reclaim, receive⟩, trivial⟩
      change Follows state.nic.capacity state.nic.txSubmitCursor
        (state.history.published ++ [packet]).length true
      rw [slot, List.length_append, List.length_singleton]
      exact follows_store ..
  | advance => exact ⟨.silent, ⟨submit, reclaim, receive⟩, trivial⟩
  | tail => exact ⟨.silent, ⟨submit, reclaim, receive⟩, trivial⟩

theorem reclaimStep_ok {locals : Reclaim} {point : ReclaimPoint}
    (cursors : DriverCursors state.nic (coreOf state) (some (.reclaim locals point)))
    (knows : ReclaimKnows (coreOf state) point) :
    DriverStepOk state (reclaimStep state state.nic locals point).1 := by
  obtain ⟨submit, reclaim, receive⟩ := cursors
  cases point with
  | load =>
      have slot : state.nic.txReclaimCursor =
        (coreOf state).reclaimed % (coreOf state).capacity := reclaim
      rw [reclaimStep]
      split_ifs with ready
      · have isDone := ready.2
        rw [slot] at isDone
        exact ⟨.silent, ⟨submit, reclaim, receive⟩, rings.tx_done isDone⟩
      · exact ⟨.silent, ⟨submit, reclaim, receive⟩, trivial⟩
  | error =>
      rw [reclaimStep]
      split_ifs
      · exact ⟨.silent, ⟨submit, reclaim, receive⟩, knows⟩
      · exact ⟨.silent, ⟨submit, reclaim, receive⟩, knows⟩
  | free =>
      have slot : state.nic.txReclaimCursor =
        (coreOf state).reclaimed % (coreOf state).capacity := reclaim
      have effect := DriverEffect.reclaim knows
      unfold Core.txAt at effect
      rw [← slot] at effect
      refine ⟨effect, ⟨submit, ?_, receive⟩, trivial⟩
      change Follows state.nic.capacity state.nic.txReclaimCursor (state.history.reclaimed + 1) true
      rw [slot]
      exact follows_store ..
  | advance => exact ⟨.silent, ⟨submit, reclaim, receive⟩, trivial⟩

theorem receiveStep_ok {point : ReceivePoint}
    (cursors : DriverCursors state.nic (coreOf state) (some (.receive point)))
    (knows : ReceiveKnows (coreOf state) point) :
    DriverStepOk state (receiveStep state state.nic point).1 := by
  obtain ⟨submit, reclaim, receive⟩ := cursors
  have filled : ∀ frame, (coreOf state).delivered[(coreOf state).taken]? = some frame →
      Holds ((coreOf state).rxAt (coreOf state).taken) frame :=
    fun frame next => (rings.rx.done _ frame (Nat.le_refl _) next).2
  cases point with
  | load capacity =>
      have slot : state.nic.rxConsumeCursor =
        (coreOf state).taken % (coreOf state).capacity := receive
      rw [receiveStep]
      split_ifs with empty
      · exact ⟨.silent, ⟨submit, reclaim, receive⟩, trivial⟩
      · have isDone := not_not.mp empty
        rw [slot] at isDone
        exact ⟨.silent, ⟨submit, reclaim, receive⟩, rings.rx_done isDone⟩
  | check capacity =>
      rw [receiveStep]
      split_ifs
      · exact ⟨.silent, ⟨submit, reclaim, receive⟩, trivial⟩
      · exact ⟨.silent, ⟨submit, reclaim, receive⟩, knows⟩
  | size =>
      have slot : state.nic.rxConsumeCursor =
        (coreOf state).taken % (coreOf state).capacity := receive
      obtain ⟨frame, next⟩ : ∃ frame, (coreOf state).delivered[(coreOf state).taken]? = some frame :=
        ⟨_, List.getElem?_eq_getElem knows⟩
      refine ⟨.silent, ⟨submit, reclaim, receive⟩, frame, next, ?_, List.nil_prefix⟩
      rw [slot]
      exact (filled frame next).length
  | copy length out =>
      have slot : state.nic.rxConsumeCursor =
        (coreOf state).taken % (coreOf state).capacity := receive
      obtain ⟨frame, next, isLength, copied⟩ := knows
      rw [receiveStep]
      split_ifs with more
      · refine ⟨.silent, ⟨submit, reclaim, receive⟩, frame, next, isLength, ?_⟩
        obtain ⟨rest, rfl⟩ := copied
        cases rest with
        | nil => simp at isLength; omega
        | cons byte rest =>
            have stored : (state.nic.rx state.nic.rxConsumeCursor).buffer out.length = byte := by
              rw [slot]
              exact (filled _ next).bytes out.length byte (by simp)
            rw [stored]
            exact ⟨rest, by simp⟩
      · refine ⟨.silent, ⟨submit, reclaim, receive⟩, ?_⟩
        have all : out = frame := copied.eq_of_length_le (by omega)
        rw [all]
        exact next
  | length out =>
      have slot : state.nic.rxConsumeCursor =
        (coreOf state).taken % (coreOf state).capacity := receive
      refine ⟨.silent, ⟨submit, reclaim, receive⟩, knows, ?_⟩
      rw [slot]
      exact (filled out knows).length
  | release out length =>
      have slot : state.nic.rxConsumeCursor =
        (coreOf state).taken % (coreOf state).capacity := receive
      have effect := DriverEffect.take (lt_of_getElem?_eq_some knows.1)
      unfold Core.rxAt at effect
      rw [← slot] at effect
      refine ⟨effect, ⟨submit, reclaim, ?_⟩, Nat.succ_pos _, knows⟩
      change Follows state.nic.capacity state.nic.rxConsumeCursor (state.history.taken + 1) true
      rw [slot]
      exact follows_store ..
  | advance out length => exact ⟨.silent, ⟨submit, reclaim, receive⟩, knows⟩
  | head out length => exact ⟨.silent, ⟨submit, reclaim, receive⟩, trivial⟩

end Driver

/-- A device step from `state` to `next`, as far as the rings are concerned. -/
structure DeviceStepOk (state next : State) : Prop where
  effect : DeviceEffect (coreOf state) (coreOf next)
  cursors : DeviceCursors next.nic (coreOf next) next.device
  knows : DeviceKnows (coreOf next) next.device

section Quiet
variable {state : State}

/-- Steps that touch neither ring nor counts: the knowledge changes alone. -/
theorem quiet_ok {next : State} {poll poll' : Poll} {point point' : PollPoint}
    (sameCore : coreOf next = coreOf state) (moved : next.device = some (poll', point'))
    (cursors : DeviceCursors next.nic (coreOf state) (some (poll', point')))
    (knows : DeviceKnows (coreOf state) (some (poll, point)))
    (sameDecided : decidedLag point' = decidedLag point)
    (marked : markedLag point ≤ markedLag point')
    (here : PollKnows (coreOf state) point') : DeviceStepOk state next := by
  refine ⟨sameCore ▸ .silent, ?_, ?_⟩
  · rw [moved, sameCore]
    exact cursors
  · rw [moved, sameCore]
    refine ⟨?_, ?_, ?_⟩
    · rw [knows.decided]
      exact congrArg _ sameDecided.symm
    · intro k low high
      refine knows.clean k ?_ high
      simp only [lagOf] at low ⊢
      omega
    · rintro poll'' point'' ⟨⟩
      exact here

/-- The device leaves its loop. -/
theorem idle_ok {poll : Poll}
    (cursors : DeviceCursors state.nic (coreOf state) (some (poll, .load)))
    (knows : DeviceKnows (coreOf state) (some (poll, .load))) :
    DeviceStepOk state { state with device := none } :=
  ⟨.silent, ⟨cursors.tx, cursors.rx⟩, knows.decided, knows.clean, fun _ _ absurd => by cases absurd⟩

/-- Knowledge after a step that wrote to the RX ring only. -/
theorem rxWrite_knows {core : Core} {poll poll' : Poll} {point point' : PollPoint}
    (knows : DeviceKnows (coreOf state) (some (poll, point)))
    (sameTx : core.txAt = (coreOf state).txAt) (samePublished : core.published = (coreOf state).published)
    (sameOutcomes : core.outcomes = (coreOf state).outcomes)
    (sameCompleted : core.completed = (coreOf state).completed)
    (sameDecided : decidedLag point' = decidedLag point)
    (sameMarked : markedLag point' = markedLag point) (here : PollKnows core point') :
    DeviceKnows core (some (poll', point')) := by
  refine ⟨?_, ?_, ?_⟩
  · rw [sameOutcomes, sameCompleted, knows.decided]
    exact congrArg _ sameDecided.symm
  · rw [sameTx, samePublished, sameCompleted]
    intro k low
    refine knows.clean k ?_
    simp only [lagOf] at low ⊢
    omega
  · rintro poll'' point'' ⟨⟩
    exact here

theorem countError_ok {poll : Poll}
    (cursors : DeviceCursors state.nic (coreOf state) (some (poll, .countError)))
    (knows : DeviceKnows (coreOf state) (some (poll, .countError))) :
    DeviceStepOk state (pollStep state state.nic poll .countError) := by
  obtain ⟨busy, marked⟩ := knows.point poll _ rfl
  have current : (coreOf state).outcomes.length = (coreOf state).completed := knows.decided
  have lost : Outcome.error ≠ .delivered := by decide
  have sameDelivered := (coreOf state).delivered_lost lost busy current
  refine ⟨DeviceEffect.finish .error lost busy current, ⟨cursors.tx, ?_⟩, ?_, knows.clean, ?_⟩
  · exact (congrArg (fun delivered : List Frame => Follows state.nic.capacity state.nic.deviceRxCursor
      delivered.length false) sameDelivered).mpr cursors.rx
  · exact (List.length_append ..).trans (congrArg (· + 1) current)
  · rintro poll' point' ⟨⟩
    refine ⟨busy, iff_of_true marked ?_⟩
    change (state.history.outcomes ++ [Outcome.error])[state.history.completed]? = _
    exact (List.getElem?_append_right (Nat.le_of_eq current)).trans
      (by rw [← current]; simp [coreOf])

theorem countNoBuffer_ok {poll : Poll}
    (cursors : DeviceCursors state.nic (coreOf state) (some (poll, .countNoBuffer)))
    (knows : DeviceKnows (coreOf state) (some (poll, .countNoBuffer))) :
    DeviceStepOk state (pollStep state state.nic poll .countNoBuffer) := by
  have busy : (coreOf state).completed < (coreOf state).published.length :=
    knows.point poll _ rfl
  have unmarked := knows.clean (coreOf state).completed (Nat.le_refl _) busy
  have current : (coreOf state).outcomes.length = (coreOf state).completed := knows.decided
  have lost : Outcome.dropped ≠ .delivered := by decide
  have sameDelivered := (coreOf state).delivered_lost lost busy current
  refine ⟨DeviceEffect.finish .dropped lost busy current, ⟨cursors.tx, ?_⟩, ?_, ?_, ?_⟩
  · exact (congrArg (fun delivered : List Frame => Follows state.nic.capacity state.nic.deviceRxCursor
      delivered.length false) sameDelivered).mpr cursors.rx
  · exact (List.length_append ..).trans (congrArg (· + 1) current)
  · intro k low high
    exact knows.clean k (Nat.le_of_succ_le low) high
  · rintro poll' point' ⟨⟩
    refine ⟨busy, iff_of_false (not_not.mpr unmarked) ?_⟩
    change ¬ (state.history.outcomes ++ [Outcome.dropped])[state.history.completed]? = _
    have decided : (state.history.outcomes ++ [Outcome.dropped])[state.history.completed]? =
        some .dropped :=
      (List.getElem?_append_right (Nat.le_of_eq current)).trans
        (by rw [← current]; simp [coreOf])
    rw [decided]
    simp

theorem rxPublish_ok {poll : Poll}
    (cursors : DeviceCursors state.nic (coreOf state) (some (poll, .rxPublish)))
    (knows : DeviceKnows (coreOf state) (some (poll, .rxPublish))) :
    DeviceStepOk state (pollStep state state.nic poll .rxPublish) := by
  obtain ⟨room, frame, next, holds⟩ := knows.point poll _ rfl
  have slot : state.nic.deviceRxCursor =
    (coreOf state).delivered.length % (coreOf state).capacity := cursors.rx
  have busy := lt_of_getElem?_eq_some next
  have current : (coreOf state).outcomes.length = (coreOf state).completed := knows.decided
  have effect := DeviceEffect.deliver
    { (coreOf state).rxAt (coreOf state).delivered.length with owner := .done } frame room current
    next rfl ⟨holds.length, holds.bytes⟩
  unfold Core.rxAt at effect
  rw [← slot] at effect
  have grown := (coreOf state).delivered_deliver
    (Function.update state.nic.rx state.nic.deviceRxCursor
      { state.nic.rx state.nic.deviceRxCursor with owner := .done }) current next
  refine ⟨effect, ⟨cursors.tx, ?_⟩, ?_, knows.clean, ?_⟩
  · refine (congrArg (fun delivered : List Frame => Follows state.nic.capacity state.nic.deviceRxCursor
      delivered.length true) grown).mpr ?_
    rw [slot, List.length_append, List.length_singleton]
    exact follows_store ..
  · exact (List.length_append ..).trans (congrArg (· + 1) current)
  · rintro poll' point' ⟨⟩
    refine ⟨busy, ?_⟩
    change (state.history.outcomes ++ [Outcome.delivered])[state.history.completed]? = _
    exact (List.getElem?_append_right (Nat.le_of_eq current)).trans
      (by rw [← current]; simp [coreOf])

end Quiet

section Device
variable {state : State} (rings : RingsOk (coreOf state))
include rings

/-- A store of data to the RX buffer the device fills. -/
theorem rxFill_ok (change : NicDescriptor → NicDescriptor)
    (slot : state.nic.deviceRxCursor =
      (coreOf state).delivered.length % (coreOf state).capacity)
    (room : (coreOf state).delivered.length < (coreOf state).taken + (coreOf state).capacity)
    (sameOwner : ∀ descriptor, (change descriptor).owner = descriptor.owner) :
    DeviceEffect (coreOf state) (coreOf (state.withNic
        (state.nic.storeRx state.nic.deviceRxCursor change))) ∧
      (coreOf (state.withNic (state.nic.storeRx state.nic.deviceRxCursor change))).rxAt
        (coreOf state).delivered.length =
          change ((coreOf state).rxAt (coreOf state).delivered.length) := by
  have owner := rings.rx.device _ (Nat.le_refl _) room
  have effect := DeviceEffect.fill (change (state.nic.rx state.nic.deviceRxCursor)) room
    (by rw [sameOwner, slot]; exact owner)
  rw [← slot] at effect
  refine ⟨effect, ?_⟩
  change Function.update state.nic.rx state.nic.deviceRxCursor _
    ((coreOf state).delivered.length % (coreOf state).capacity) = _
  rw [← slot, Function.update_self, slot]
  rfl

/-- The frame the device works on, as the TX descriptor holds it. -/
theorem pending_holds {frame : Frame}
    (next : (coreOf state).published[(coreOf state).completed]? = some frame) :
    Holds ((coreOf state).txAt (coreOf state).completed) frame :=
  (rings.tx.pending _ frame (Nat.le_refl _) next).2

/-- A store to the TX descriptor the device works on leaves the later ones clean. -/
theorem clean_store {poll : Poll} {point : PollPoint} (descriptor : NicDescriptor)
    (knows : DeviceKnows (coreOf state) (some (poll, point))) (k : Nat)
    (low : (coreOf state).completed + 1 ≤ k) (high : k < (coreOf state).published.length)
    (marked : markedLag point ≤ 1) :
    (Function.update (coreOf state).tx ((coreOf state).completed % (coreOf state).capacity)
      descriptor (k % (coreOf state).capacity)).error = 0 := by
  have reclaimedLe := rings.tx.reclaimedLe
  have publishedLe := rings.tx.publishedLe
  rw [(coreOf state).txAt_update descriptor reclaimedLe (by omega) (by omega) (by omega)
    (by omega)]
  refine knows.clean k ?_ high
  simp only [lagOf]
  omega

theorem markError_ok {poll : Poll}
    (cursors : DeviceCursors state.nic (coreOf state) (some (poll, .markError)))
    (knows : DeviceKnows (coreOf state) (some (poll, .markError))) :
    DeviceStepOk state (pollStep state state.nic poll .markError) := by
  have busy : (coreOf state).completed < (coreOf state).published.length :=
    knows.point poll _ rfl
  have slot : state.nic.deviceTxCursor =
    (coreOf state).completed % (coreOf state).capacity := cursors.tx
  have effect := DeviceEffect.mark busy 1
  unfold Core.txAt at effect
  rw [← slot] at effect
  refine ⟨effect, ⟨cursors.tx, cursors.rx⟩, knows.decided, ?_, ?_⟩
  · intro k low high
    have kept := clean_store rings { state.nic.tx state.nic.deviceTxCursor with error := 1 }
      knows k low high (Nat.zero_le _)
    rw [← slot] at kept
    exact kept
  · rintro poll' point' ⟨⟩
    refine ⟨busy, ?_⟩
    change (Function.update state.nic.tx state.nic.deviceTxCursor _
      ((coreOf state).completed % (coreOf state).capacity)).error ≠ 0
    rw [← slot, Function.update_self]
    exact Nat.one_ne_zero

theorem txPublish_ok {poll : Poll}
    (cursors : DeviceCursors state.nic (coreOf state) (some (poll, .txPublish)))
    (knows : DeviceKnows (coreOf state) (some (poll, .txPublish))) :
    DeviceStepOk state (pollStep state state.nic poll .txPublish) := by
  obtain ⟨busy, flag⟩ := knows.point poll _ rfl
  have slot : state.nic.deviceTxCursor =
    (coreOf state).completed % (coreOf state).capacity := cursors.tx
  have effect := DeviceEffect.complete busy flag
  unfold Core.txAt at effect
  rw [← slot] at effect
  refine ⟨effect, ⟨?_, cursors.rx⟩, knows.decided, ?_, ?_⟩
  · change Follows state.nic.capacity state.nic.deviceTxCursor (state.history.completed + 1) true
    rw [slot]
    exact follows_store ..
  · intro k low high
    have kept := clean_store rings { state.nic.tx state.nic.deviceTxCursor with owner := .done }
      knows k low high (Nat.le_refl _)
    rw [← slot] at kept
    exact kept
  · rintro poll' point' ⟨⟩
    trivial

theorem pollStep_ok {poll : Poll} {point : PollPoint}
    (cursors : DeviceCursors state.nic (coreOf state) (some (poll, point)))
    (knows : DeviceKnows (coreOf state) (some (poll, point))) :
    DeviceStepOk state (pollStep state state.nic poll point) := by
  have here := knows.point poll point rfl
  cases point with
  | load =>
      have slot : state.nic.deviceTxCursor =
        (coreOf state).completed % (coreOf state).capacity := cursors.tx
      rw [pollStep]
      split_ifs with ready
      · have isDevice := ready.2
        rw [slot] at isDevice
        exact quiet_ok rfl rfl ⟨cursors.tx, cursors.rx⟩ knows rfl (Nat.le_refl _)
          (rings.tx_device isDevice)
      · exact idle_ok cursors knows
  | lengthCheck error =>
      rw [pollStep]
      split_ifs
      · exact quiet_ok rfl rfl ⟨cursors.tx, cursors.rx⟩ knows rfl (Nat.le_refl _) here
      · exact quiet_ok rfl rfl ⟨cursors.tx, cursors.rx⟩ knows rfl (Nat.le_refl _) here
  | markError => exact markError_ok rings cursors knows
  | countError => exact countError_ok cursors knows
  | rxLoad =>
      have slot : state.nic.deviceRxCursor =
        (coreOf state).delivered.length % (coreOf state).capacity := cursors.rx
      rw [pollStep]
      split_ifs with none
      · exact quiet_ok rfl rfl ⟨cursors.tx, cursors.rx⟩ knows rfl (Nat.le_refl _) here
      · have isDevice := not_not.mp none
        rw [slot] at isDevice
        exact quiet_ok rfl rfl ⟨cursors.tx, cursors.rx⟩ knows rfl (Nat.le_refl _)
          ⟨rings.rx_device isDevice, _, List.getElem?_eq_getElem here, trivial⟩
  | countNoBuffer => exact countNoBuffer_ok cursors knows
  | copySize =>
      have slot : state.nic.deviceTxCursor =
        (coreOf state).completed % (coreOf state).capacity := cursors.tx
      obtain ⟨room, frame, next, -⟩ := here
      refine quiet_ok rfl rfl ⟨cursors.tx, cursors.rx⟩ knows rfl (Nat.le_refl _)
        ⟨room, frame, next, ?_, fun i byte inside => by omega⟩
      rw [slot]
      exact (pending_holds rings next).length
  | copy length i =>
      have slot : state.nic.deviceTxCursor =
        (coreOf state).completed % (coreOf state).capacity := cursors.tx
      obtain ⟨room, frame, next, isLength, copied⟩ := here
      rw [pollStep]
      split_ifs with more
      · obtain ⟨effect, stored⟩ := rxFill_ok rings
          (fun d => d.storeByte i ((state.nic.tx state.nic.deviceTxCursor).buffer i))
          cursors.rx room fun _ => rfl
        refine ⟨effect, ⟨cursors.tx, cursors.rx⟩, rxWrite_knows knows rfl rfl rfl rfl rfl rfl
          ⟨room, frame, next, isLength, ?_⟩⟩
        have byteEq : frame[i]? = some ((state.nic.tx state.nic.deviceTxCursor).buffer i) := by
          rw [slot]
          have inside : i < frame.length := by omega
          rw [List.getElem?_eq_getElem inside]
          exact congrArg some
            ((pending_holds rings next).bytes i _ (List.getElem?_eq_getElem inside)).symm
        exact (congrArg (Copied · frame (i + 1)) stored).mpr (copied.storeByte byteEq)
      · exact quiet_ok rfl rfl ⟨cursors.tx, cursors.rx⟩ knows rfl (Nat.le_refl _)
          ⟨room, frame, next, fun j byte inside => copied j byte (by omega)⟩
  | copyLength =>
      have slot : state.nic.deviceTxCursor =
        (coreOf state).completed % (coreOf state).capacity := cursors.tx
      obtain ⟨room, frame, next, copied⟩ := here
      obtain ⟨effect, stored⟩ := rxFill_ok rings
        (fun d => { d with length := (state.nic.tx state.nic.deviceTxCursor).length })
        cursors.rx room fun _ => rfl
      refine ⟨effect, ⟨cursors.tx, cursors.rx⟩, rxWrite_knows knows rfl rfl rfl rfl rfl rfl
        ⟨room, frame, next, ?_⟩⟩
      refine (congrArg (Holds · frame) stored).mpr (Copied.holds copied (Nat.le_refl _) ?_)
      rw [slot]
      exact (pending_holds rings next).length
  | clearError =>
      obtain ⟨room, frame, next, holds⟩ := here
      obtain ⟨effect, stored⟩ := rxFill_ok rings
        (fun d => { d with error := 0 }) cursors.rx room fun _ => rfl
      exact ⟨effect, ⟨cursors.tx, cursors.rx⟩, rxWrite_knows knows rfl rfl rfl rfl rfl rfl
        ⟨room, frame, next, (congrArg (Holds · frame) stored).mpr ⟨holds.length, holds.bytes⟩⟩⟩
  | rxPublish => exact rxPublish_ok cursors knows
  | irqRx =>
      have unmarked := knows.clean (coreOf state).completed (Nat.le_refl _) here.1
      refine quiet_ok rfl rfl ⟨cursors.tx, cursors.rx⟩ knows rfl (Nat.zero_le _) ⟨here.1, ?_⟩
      rw [unmarked, here.2]
      simp
  | txPublish => exact txPublish_ok rings cursors knows
  | exchange | irqError | rxAdvance | rxTail | countRx | countTx | txAdvance | txHead | irqTx =>
      exact quiet_ok rfl rfl ⟨cursors.tx, cursors.rx⟩ knows rfl (Nat.le_refl _) here

end Device

/-! ## What a thread leaves alone -/

/-- The device's side of the state across a driver step. -/
structure DriverFrame (state next : State) : Prop where
  device : next.device = state.device
  deviceTxCursor : next.nic.deviceTxCursor = state.nic.deviceTxCursor
  deviceRxCursor : next.nic.deviceRxCursor = state.nic.deviceRxCursor
  txCompleted : next.nic.txCompleted = state.nic.txCompleted
  rxCompleted : next.nic.rxCompleted = state.nic.rxCompleted
  rxNoBuffer : next.nic.rxNoBuffer = state.nic.rxNoBuffer
  txErrors : next.nic.txErrors = state.nic.txErrors

/-- The driver's side of the state across a device step. -/
structure DeviceFrame (state next : State) : Prop where
  driver : next.driver = state.driver
  txSubmitCursor : next.nic.txSubmitCursor = state.nic.txSubmitCursor
  txReclaimCursor : next.nic.txReclaimCursor = state.nic.txReclaimCursor
  rxConsumeCursor : next.nic.rxConsumeCursor = state.nic.rxConsumeCursor
  submitted : next.history.submitted = state.history.submitted
  received : next.history.received = state.history.received
  reportedErrors : next.history.reportedErrors = state.history.reportedErrors
  calls : next.calls = state.calls

theorem beginCall_frame (state : State) (call : DriverCall) :
    DriverFrame state (beginCall state state.nic call).1 := by
  match call with
  | .txSubmit none => exact ⟨rfl, rfl, rfl, rfl, rfl, rfl, rfl⟩
  | .txSubmit (some packet) =>
      rw [beginCall]
      split_ifs <;> exact ⟨rfl, rfl, rfl, rfl, rfl, rfl, rfl⟩
  | .txReclaim errors => exact ⟨rfl, rfl, rfl, rfl, rfl, rfl, rfl⟩
  | .rxReceive none => exact ⟨rfl, rfl, rfl, rfl, rfl, rfl, rfl⟩
  | .rxReceive (some capacity) => exact ⟨rfl, rfl, rfl, rfl, rfl, rfl, rfl⟩
  | .takeInterrupts => exact ⟨rfl, rfl, rfl, rfl, rfl, rfl, rfl⟩
  | .injectTxError => exact ⟨rfl, rfl, rfl, rfl, rfl, rfl, rfl⟩

theorem driverMove_frame (state : State) (call : DriverCall) :
    DriverFrame state (driverMove state call).1 := by
  unfold driverMove
  split
  · exact beginCall_frame state call
  · rename_i packet point _
    cases point with
    | load => rw [submitStep]; split_ifs <;> exact ⟨rfl, rfl, rfl, rfl, rfl, rfl, rfl⟩
    | copy i => rw [submitStep]; split <;> exact ⟨rfl, rfl, rfl, rfl, rfl, rfl, rfl⟩
    | length | error | publish | advance | tail => exact ⟨rfl, rfl, rfl, rfl, rfl, rfl, rfl⟩
  · rename_i locals point _
    cases point with
    | load | error => rw [reclaimStep]; split_ifs <;> exact ⟨rfl, rfl, rfl, rfl, rfl, rfl, rfl⟩
    | free | advance => exact ⟨rfl, rfl, rfl, rfl, rfl, rfl, rfl⟩
  · rename_i point _
    cases point with
    | load capacity | check capacity | copy length out =>
        rw [receiveStep]; split_ifs <;> exact ⟨rfl, rfl, rfl, rfl, rfl, rfl, rfl⟩
    | size | length out | release out length | advance out length | head out length =>
        exact ⟨rfl, rfl, rfl, rfl, rfl, rfl, rfl⟩

theorem deviceStep_frame (state : State) (budget : Nat) :
    DeviceFrame state (deviceStep state budget) := by
  unfold deviceStep
  split
  · exact ⟨rfl, rfl, rfl, rfl, rfl, rfl, rfl, rfl⟩
  · rename_i poll point _
    cases point with
    | load | rxLoad => rw [pollStep]; split_ifs <;> exact ⟨rfl, rfl, rfl, rfl, rfl, rfl, rfl, rfl⟩
    | lengthCheck error =>
        rw [pollStep]; split_ifs <;> exact ⟨rfl, rfl, rfl, rfl, rfl, rfl, rfl, rfl⟩
    | copy length i =>
        rw [pollStep]; split_ifs <;> exact ⟨rfl, rfl, rfl, rfl, rfl, rfl, rfl, rfl⟩
    | _ => exact ⟨rfl, rfl, rfl, rfl, rfl, rfl, rfl, rfl⟩

/-! ## The invariant of every schedule -/

structure Sound (state : State) : Prop where
  rings : RingsOk (coreOf state)
  driverCursors : DriverCursors state.nic (coreOf state) state.driver
  driverKnows : DriverKnows (coreOf state) state.driver
  deviceCursors : DeviceCursors state.nic (coreOf state) state.device
  deviceKnows : DeviceKnows (coreOf state) state.device

theorem beginCall_ok {state : State} (idle : state.driver = none)
    (cursors : DriverCursors state.nic (coreOf state) state.driver) (call : DriverCall) :
    DriverStepOk state (beginCall state state.nic call).1 := by
  rw [idle] at cursors
  obtain ⟨submit, reclaim, receive⟩ := cursors
  match call with
  | .txSubmit none => exact ⟨.silent, ⟨submit, reclaim, receive⟩, trivial⟩
  | .txSubmit (some packet) =>
      rw [beginCall]
      split_ifs
      · exact ⟨.silent, ⟨submit, reclaim, receive⟩, trivial⟩
      · exact ⟨.silent, ⟨submit, reclaim, receive⟩, trivial⟩
  | .txReclaim errors => exact ⟨.silent, ⟨submit, reclaim, receive⟩, trivial⟩
  | .rxReceive none => exact ⟨.silent, ⟨submit, reclaim, receive⟩, trivial⟩
  | .rxReceive (some capacity) => exact ⟨.silent, ⟨submit, reclaim, receive⟩, trivial⟩
  | .takeInterrupts => exact ⟨.silent, ⟨submit, reclaim, receive⟩, trivial⟩
  | .injectTxError => exact ⟨.silent, ⟨submit, reclaim, receive⟩, trivial⟩

theorem driverMove_ok {state : State} (sound : Sound state) (call : DriverCall) :
    DriverStepOk state (driverMove state call).1 := by
  obtain ⟨rings, cursors, knows, -, -⟩ := sound
  unfold driverMove
  split
  · rename_i idle
    exact beginCall_ok idle cursors call
  · rename_i packet point here
    rw [here] at cursors knows
    exact submitStep_ok rings cursors knows
  · rename_i locals point here
    rw [here] at cursors knows
    exact reclaimStep_ok rings cursors knows
  · rename_i point here
    rw [here] at cursors knows
    exact receiveStep_ok rings cursors knows

theorem deviceStep_ok {state : State} (sound : Sound state) (budget : Nat) :
    DeviceStepOk state (deviceStep state budget) := by
  obtain ⟨rings, -, -, cursors, knows⟩ := sound
  unfold deviceStep
  split
  · rename_i idle
    rw [idle] at cursors knows
    refine ⟨.silent, ⟨cursors.tx, cursors.rx⟩, knows.decided, knows.clean, ?_⟩
    rintro poll point ⟨⟩
    trivial
  · rename_i poll point here
    rw [here] at cursors knows
    exact pollStep_ok rings cursors knows

theorem driverStep_sound {state : State} (sound : Sound state) (call : DriverCall) :
    Sound (driverStep state call) := by
  obtain ⟨effect, cursors, knows⟩ := driverMove_ok sound call
  have frame := driverMove_frame state call
  have kept := effect.guarantee sound.rings
  refine ⟨effect.rings sound.rings, cursors, knows, ?_, ?_⟩
  · obtain ⟨tx, rx⟩ := sound.deviceCursors
    change DeviceCursors (driverMove state call).1.nic (coreOf (driverMove state call).1)
      (driverMove state call).1.device
    refine ⟨?_, ?_⟩
    · rw [frame.device, frame.deviceTxCursor, kept.capacity, kept.completed]
      exact tx
    · rw [frame.device, frame.deviceRxCursor, kept.capacity, kept.delivered]
      exact rx
  · change DeviceKnows (coreOf (driverMove state call).1) (driverMove state call).1.device
    rw [frame.device]
    exact kept.deviceKnows sound.deviceKnows

theorem deviceStep_sound {state : State} (sound : Sound state) (budget : Nat) :
    Sound (deviceStep state budget) := by
  obtain ⟨effect, cursors, knows⟩ := deviceStep_ok sound budget
  have frame := deviceStep_frame state budget
  have kept := effect.guarantee sound.rings
  refine ⟨effect.rings sound.rings, ?_, ?_, cursors, knows⟩
  · obtain ⟨submit, reclaim, receive⟩ := sound.driverCursors
    refine ⟨?_, ?_, ?_⟩
    · rw [frame.driver, frame.txSubmitCursor, kept.capacity, kept.published]
      exact submit
    · rw [frame.driver, frame.txReclaimCursor, kept.capacity, kept.reclaimed]
      exact reclaim
    · rw [frame.driver, frame.rxConsumeCursor, kept.capacity, kept.taken]
      exact receive
  · rw [frame.driver]
    exact kept.driverKnows sound.driverKnows

theorem step_sound {state : State} (sound : Sound state) (action : Action) :
    Sound (step state action) := by
  cases action with
  | driver call => exact driverStep_sound sound call
  | device budget => exact deviceStep_sound sound budget

theorem start_sound {capacity : Nat} {nic : NicModel} (init : nicModelInit capacity = some nic) :
    Sound (start nic) := by
  unfold nicModelInit at init
  split_ifs at init with refused
  obtain rfl := Option.some.inj init
  have zero : 0 = 0 % capacity := (Nat.zero_mod capacity).symm
  refine ⟨⟨?_, ?_, ?_, Nat.le_refl _⟩, ⟨zero, zero, zero⟩, trivial, ⟨zero, zero⟩, rfl, ?_, ?_⟩
  · change 0 < capacity
    omega
  · exact ⟨Nat.le_refl _, Nat.le_refl _, Nat.zero_le _, fun k low high => by simp [coreOf, start] at high,
      fun k frame low known => by simp [coreOf, start] at known, fun _ _ _ => rfl⟩
  · exact ⟨Nat.le_refl _, Nat.zero_le _, fun k frame low known => by
      simp [coreOf, start, Core.delivered, deliveredFrames] at known, fun _ _ _ => rfl⟩
  · intro k low high
    simp [coreOf, start] at high
  · rintro poll point ⟨⟩

/-- Every schedule from a fresh model keeps the rings in order. -/
theorem run_sound {capacity : Nat} {nic : NicModel} (init : nicModelInit capacity = some nic)
    (schedule : List Action) : Sound (run step (start nic) schedule) :=
  run_invariant Sound (fun _ action sound _ => step_sound sound action) (start nic) schedule
    (start_sound init) (admits_true step (start nic) schedule)

end EmbeddedRuntime.Nic.Threads
