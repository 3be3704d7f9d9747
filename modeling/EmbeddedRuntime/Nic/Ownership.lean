import EmbeddedRuntime.Nic.Rings

/-!
# What each thread may do to the rings

The part of the state both threads depend on is its `Core`.  A driver step has
one of five effects on it and a device step one of six, and every effect keeps
the rings in order.  What a thread knows at a point of its code survives the
effects of the other thread (`DriverGuarantee`, `DeviceGuarantee`).
-/

set_option autoImplicit false

namespace EmbeddedRuntime.Nic.Ownership

open EmbeddedRuntime.Lib.Window
open EmbeddedRuntime.Nic.Model
open EmbeddedRuntime.Nic.Rings

/-- The frames of the list that were delivered, in order. -/
def deliveredFrames (published : List Frame) (outcomes : List Outcome) : List Frame :=
  (published.zip outcomes).filterMap fun (frame, outcome) =>
    if outcome = .delivered then some frame else none

theorem deliveredFrames_publish {published : List Frame} {outcomes : List Outcome}
    (decided : outcomes.length ≤ published.length) (more : List Frame) :
    deliveredFrames (published ++ more) outcomes = deliveredFrames published outcomes := by
  induction published generalizing outcomes with
  | nil =>
      obtain rfl : outcomes = [] := List.eq_nil_of_length_eq_zero (by simpa using decided)
      simp [deliveredFrames]
  | cons frame rest ih =>
      cases outcomes with
      | nil => simp [deliveredFrames]
      | cons outcome outcomes =>
          have later := @ih outcomes (by simpa using decided)
          simp only [deliveredFrames, List.cons_append, List.zip_cons_cons,
            List.filterMap_cons] at later ⊢
          rw [later]

theorem deliveredFrames_finish {published : List Frame} {outcomes : List Outcome} {frame : Frame}
    (next : published[outcomes.length]? = some frame) (outcome : Outcome) :
    deliveredFrames published (outcomes ++ [outcome]) =
      deliveredFrames published outcomes ++ if outcome = .delivered then [frame] else [] := by
  obtain ⟨inside, known⟩ := List.getElem?_eq_some_iff.mp next
  have split : published = published.take outcomes.length ++
      frame :: published.drop (outcomes.length + 1) := by
    rw [← known, List.getElem_cons_drop, List.take_append_drop]
  have length : (published.take outcomes.length).length = outcomes.length := by
    rw [List.length_take]
    omega
  have before : deliveredFrames published outcomes =
      deliveredFrames (published.take outcomes.length) outcomes := by
    conv_lhs => rw [split]
    exact deliveredFrames_publish (Nat.le_of_eq length.symm) _
  rw [before]
  conv_lhs => rw [split]
  unfold deliveredFrames
  rw [List.zip_append length, List.filterMap_append]
  simp only [List.zip_cons_cons, List.zip_nil_right, List.filterMap_cons, List.filterMap_nil]
  split_ifs <;> rfl

/-- What the threads share of the state, with the counts that say who owns what. -/
structure Core where
  capacity : Nat
  tx : Nat → NicDescriptor
  rx : Nat → NicDescriptor
  published : List Frame
  outcomes : List Outcome
  completed : Nat
  reclaimed : Nat
  taken : Nat

def coreOf (state : State) : Core where
  capacity := state.nic.capacity
  tx := state.nic.tx
  rx := state.nic.rx
  published := state.history.published
  outcomes := state.history.outcomes
  completed := state.history.completed
  reclaimed := state.history.reclaimed
  taken := state.history.taken

def Core.delivered (core : Core) : List Frame := deliveredFrames core.published core.outcomes

def Core.txAt (core : Core) (k : Nat) : NicDescriptor := core.tx (k % core.capacity)

def Core.rxAt (core : Core) (k : Nat) : NicDescriptor := core.rx (k % core.capacity)

theorem Core.delivered_lost (core : Core) {outcome : Outcome} (lost : outcome ≠ .delivered)
    (busy : core.completed < core.published.length)
    (current : core.outcomes.length = core.completed) :
    { core with outcomes := core.outcomes ++ [outcome] }.delivered = core.delivered := by
  obtain ⟨frame, next⟩ : ∃ frame, core.published[core.completed]? = some frame :=
    ⟨_, List.getElem?_eq_getElem busy⟩
  rw [← current] at next
  have same := deliveredFrames_finish next outcome
  rw [if_neg lost, List.append_nil] at same
  exact same

theorem Core.delivered_deliver (core : Core) (rx : Nat → NicDescriptor) {frame : Frame}
    (current : core.outcomes.length = core.completed)
    (next : core.published[core.completed]? = some frame) :
    { core with rx, outcomes := core.outcomes ++ [Outcome.delivered] }.delivered =
      core.delivered ++ [frame] := by
  rw [← current] at next
  exact deliveredFrames_finish next .delivered

structure RingsOk (core : Core) : Prop where
  positive : 0 < core.capacity
  tx : TxRing core.capacity core.tx core.published core.outcomes core.completed core.reclaimed
  rx : RxRing core.capacity core.rx core.delivered core.taken
  decided : core.outcomes.length ≤ core.published.length

/-! ## Effects -/

inductive DriverEffect (core : Core) : Core → Prop where
  | silent : DriverEffect core core
  | fill (descriptor : NicDescriptor)
      (room : core.published.length < core.reclaimed + core.capacity)
      (owner : descriptor.owner = .free) :
      DriverEffect core
        { core with
          tx := Function.update core.tx (core.published.length % core.capacity) descriptor }
  | publish (descriptor : NicDescriptor) (frame : Frame)
      (room : core.published.length < core.reclaimed + core.capacity)
      (owner : descriptor.owner = .device) (holds : Holds descriptor frame)
      (clean : descriptor.error = 0) :
      DriverEffect core
        { core with
          tx := Function.update core.tx (core.published.length % core.capacity) descriptor
          published := core.published ++ [frame] }
  | reclaim (ready : core.reclaimed < core.completed) :
      DriverEffect core
        { core with
          tx := Function.update core.tx (core.reclaimed % core.capacity)
            { core.txAt core.reclaimed with owner := .free }
          reclaimed := core.reclaimed + 1 }
  | take (ready : core.taken < core.delivered.length) :
      DriverEffect core
        { core with
          rx := Function.update core.rx (core.taken % core.capacity)
            { core.rxAt core.taken with owner := .device }
          taken := core.taken + 1 }

inductive DeviceEffect (core : Core) : Core → Prop where
  | silent : DeviceEffect core core
  | mark (busy : core.completed < core.published.length) (error : Nat) :
      DeviceEffect core
        { core with
          tx := Function.update core.tx (core.completed % core.capacity)
            { core.txAt core.completed with error } }
  | finish (outcome : Outcome) (lost : outcome ≠ .delivered)
      (busy : core.completed < core.published.length)
      (current : core.outcomes.length = core.completed) :
      DeviceEffect core { core with outcomes := core.outcomes ++ [outcome] }
  | fill (descriptor : NicDescriptor)
      (room : core.delivered.length < core.taken + core.capacity)
      (owner : descriptor.owner = .device) :
      DeviceEffect core
        { core with
          rx := Function.update core.rx (core.delivered.length % core.capacity) descriptor }
  | deliver (descriptor : NicDescriptor) (frame : Frame)
      (room : core.delivered.length < core.taken + core.capacity)
      (current : core.outcomes.length = core.completed)
      (next : core.published[core.completed]? = some frame)
      (owner : descriptor.owner = .done) (holds : Holds descriptor frame) :
      DeviceEffect core
        { core with
          rx := Function.update core.rx (core.delivered.length % core.capacity) descriptor
          outcomes := core.outcomes ++ [.delivered] }
  | complete (busy : core.completed < core.published.length)
      (flag : (core.txAt core.completed).error ≠ 0 ↔
        core.outcomes[core.completed]? = some .error) :
      DeviceEffect core
        { core with
          tx := Function.update core.tx (core.completed % core.capacity)
            { core.txAt core.completed with owner := .done }
          completed := core.completed + 1 }

theorem DriverEffect.rings {core core' : Core} (effect : DriverEffect core core')
    (ok : RingsOk core) : RingsOk core' := by
  obtain ⟨positive, tx, rx, decided⟩ := ok
  cases effect with
  | silent => exact ⟨positive, tx, rx, decided⟩
  | fill descriptor room owner =>
      exact ⟨positive, tx.fill room descriptor owner, rx, decided⟩
  | publish descriptor frame room owner holds clean =>
      refine ⟨positive, tx.publish room descriptor owner holds, ?_, ?_⟩
      · have same := deliveredFrames_publish decided [frame]
        change RxRing _ _ (deliveredFrames _ _) _
        rw [same]
        exact rx
      · change core.outcomes.length ≤ (core.published ++ [frame]).length
        rw [List.length_append]
        omega
  | reclaim ready => exact ⟨positive, tx.reclaim ready, rx, decided⟩
  | take ready => exact ⟨positive, tx, rx.take ready, decided⟩

theorem DeviceEffect.rings {core core' : Core} (effect : DeviceEffect core core')
    (ok : RingsOk core) : RingsOk core' := by
  obtain ⟨positive, tx, rx, decided⟩ := ok
  cases effect with
  | silent => exact ⟨positive, tx, rx, decided⟩
  | mark busy error => exact ⟨positive, tx.mark busy error, rx, decided⟩
  | finish outcome lost busy current =>
      refine ⟨positive, tx.finish current outcome, ?_, ?_⟩
      · rw [core.delivered_lost lost busy current]
        exact rx
      · change (core.outcomes ++ [outcome]).length ≤ core.published.length
        rw [List.length_append, List.length_singleton]
        omega
  | fill descriptor room owner =>
      exact ⟨positive, tx, rx.fill room descriptor owner, decided⟩
  | deliver descriptor frame room current next owner holds =>
      refine ⟨positive, tx.finish current .delivered, ?_, ?_⟩
      · rw [core.delivered_deliver _ current next]
        exact rx.deliver room descriptor owner holds
      · have inside := lt_of_getElem?_eq_some next
        change (core.outcomes ++ [Outcome.delivered]).length ≤ core.published.length
        rw [List.length_append, List.length_singleton]
        omega
  | complete busy flag => exact ⟨positive, tx.complete busy flag, rx, decided⟩

/-! ## Guarantees -/

/-- What the device can rely on across a driver step. -/
structure DriverGuarantee (core core' : Core) : Prop where
  capacity : core'.capacity = core.capacity
  outcomes : core'.outcomes = core.outcomes
  completed : core'.completed = core.completed
  delivered : core'.delivered = core.delivered
  published : core.published <+: core'.published
  taken : core.taken ≤ core'.taken
  fresh : ∀ k, core.published.length ≤ k → k < core'.published.length → (core'.txAt k).error = 0
  tx : ∀ k, core.completed ≤ k → k < core.published.length → core'.txAt k = core.txAt k
  rx : ∀ k, core.delivered.length ≤ k → k < core.taken + core.capacity →
    core'.rxAt k = core.rxAt k

/-- What the driver can rely on across a device step. -/
structure DeviceGuarantee (core core' : Core) : Prop where
  capacity : core'.capacity = core.capacity
  published : core'.published = core.published
  reclaimed : core'.reclaimed = core.reclaimed
  taken : core'.taken = core.taken
  completed : core.completed ≤ core'.completed
  outcomes : core.outcomes <+: core'.outcomes
  delivered : core.delivered <+: core'.delivered
  txFree : ∀ k, core.published.length ≤ k → k < core.reclaimed + core.capacity →
    core'.txAt k = core.txAt k
  txDone : ∀ k, core.reclaimed ≤ k → k < core.completed → core'.txAt k = core.txAt k
  rx : ∀ k, core.taken ≤ k → k < core.delivered.length → core'.rxAt k = core.rxAt k

/-- A store to the TX slot of one count leaves the slots of the others. -/
theorem Core.txAt_update (core : Core) {here k : Nat} (descriptor : NicDescriptor)
    (hereLow : core.reclaimed ≤ here) (hereHigh : here < core.reclaimed + core.capacity)
    (low : core.reclaimed ≤ k) (high : k < core.reclaimed + core.capacity) (other : k ≠ here) :
    Function.update core.tx (here % core.capacity) descriptor (k % core.capacity) =
      core.txAt k :=
  (update_slot core.tx descriptor hereLow hereHigh low high).trans (if_neg other)

theorem Core.rxAt_update (core : Core) {here k : Nat} (descriptor : NicDescriptor)
    (hereLow : core.taken ≤ here) (hereHigh : here < core.taken + core.capacity)
    (low : core.taken ≤ k) (high : k < core.taken + core.capacity) (other : k ≠ here) :
    Function.update core.rx (here % core.capacity) descriptor (k % core.capacity) =
      core.rxAt k :=
  (update_slot core.rx descriptor hereLow hereHigh low high).trans (if_neg other)

theorem DriverEffect.guarantee {core core' : Core} (effect : DriverEffect core core')
    (ok : RingsOk core) : DriverGuarantee core core' := by
  obtain ⟨positive, tx, rx, decided⟩ := ok
  have reclaimedLe := tx.reclaimedLe
  have completedLe := tx.completedLe
  have publishedLe := tx.publishedLe
  have takenLe := rx.takenLe
  have deliveredLe := rx.deliveredLe
  cases effect with
  | silent =>
      exact ⟨rfl, rfl, rfl, rfl, List.prefix_rfl, Nat.le_refl _, fun k low high => by omega,
        fun _ _ _ => rfl, fun _ _ _ => rfl⟩
  | fill descriptor room owner =>
      exact ⟨rfl, rfl, rfl, rfl, List.prefix_rfl, Nat.le_refl _,
        fun k low high => absurd high (Nat.not_lt.mpr low),
        fun k low high => core.txAt_update descriptor (by omega) room (by omega) (by omega)
          (by omega),
        fun _ _ _ => rfl⟩
  | publish descriptor frame room owner holds clean =>
      refine ⟨rfl, rfl, rfl, deliveredFrames_publish decided [frame], List.prefix_append ..,
        Nat.le_refl _, fun k low high => ?_,
        fun k low high => core.txAt_update descriptor (by omega) room (by omega) (by omega)
          (by omega),
        fun _ _ _ => rfl⟩
      change k < (core.published ++ [frame]).length at high
      rw [List.length_append, List.length_singleton] at high
      obtain rfl : k = core.published.length := by omega
      unfold Core.txAt
      dsimp only
      rw [Function.update_self]
      exact clean
  | reclaim ready =>
      exact ⟨rfl, rfl, rfl, rfl, List.prefix_rfl, Nat.le_refl _,
        fun k low high => absurd high (Nat.not_lt.mpr low),
        fun k low high => core.txAt_update _ (Nat.le_refl _) (by omega) (by omega) (by omega)
          (by omega),
        fun _ _ _ => rfl⟩
  | take ready =>
      exact ⟨rfl, rfl, rfl, rfl, List.prefix_rfl, Nat.le_succ _,
        fun k low high => absurd high (Nat.not_lt.mpr low), fun _ _ _ => rfl,
        fun k low high => core.rxAt_update _ (Nat.le_refl _) (by omega) (by omega) high
          (by omega)⟩

theorem DeviceEffect.guarantee {core core' : Core} (effect : DeviceEffect core core')
    (ok : RingsOk core) : DeviceGuarantee core core' := by
  obtain ⟨positive, tx, rx, decided⟩ := ok
  have reclaimedLe := tx.reclaimedLe
  have completedLe := tx.completedLe
  have publishedLe := tx.publishedLe
  have takenLe := rx.takenLe
  have deliveredLe := rx.deliveredLe
  cases effect with
  | silent =>
      exact ⟨rfl, rfl, rfl, rfl, Nat.le_refl _, List.prefix_rfl, List.prefix_rfl,
        fun _ _ _ => rfl, fun _ _ _ => rfl, fun _ _ _ => rfl⟩
  | mark busy error =>
      exact ⟨rfl, rfl, rfl, rfl, Nat.le_refl _, List.prefix_rfl, List.prefix_rfl,
        fun k low high => core.txAt_update _ reclaimedLe (by omega) (by omega) high (by omega),
        fun k low high => core.txAt_update _ reclaimedLe (by omega) low (by omega) (by omega), fun _ _ _ => rfl⟩
  | finish outcome lost busy current =>
      refine ⟨rfl, rfl, rfl, rfl, Nat.le_refl _, List.prefix_append .., ?_,
        fun _ _ _ => rfl, fun _ _ _ => rfl, fun _ _ _ => rfl⟩
      have same := core.delivered_lost lost busy current
      exact ⟨[], by rw [List.append_nil, same]⟩
  | fill descriptor room owner =>
      exact ⟨rfl, rfl, rfl, rfl, Nat.le_refl _, List.prefix_rfl, List.prefix_rfl,
        fun _ _ _ => rfl, fun _ _ _ => rfl,
        fun k low high => core.rxAt_update _ takenLe room low (by omega) (by omega)⟩
  | deliver descriptor frame room current next owner holds =>
      refine ⟨rfl, rfl, rfl, rfl, Nat.le_refl _, List.prefix_append .., ?_,
        fun _ _ _ => rfl, fun _ _ _ => rfl,
        fun k low high => core.rxAt_update _ takenLe room low (by omega) (by omega)⟩
      rw [core.delivered_deliver _ current next]
      exact List.prefix_append ..
  | complete busy flag =>
      exact ⟨rfl, rfl, rfl, rfl, Nat.le_succ _, List.prefix_rfl, List.prefix_rfl,
        fun k low high => core.txAt_update _ reclaimedLe (by omega) (by omega) high (by omega),
        fun k low high => core.txAt_update _ reclaimedLe (by omega) low (by omega) (by omega), fun _ _ _ => rfl⟩

/-! ## What a thread knows at a point of its code -/

def SubmitKnows (core : Core) (packet : Frame) : SubmitPoint → Prop
  | .load | .advance | .tail => True
  | .copy i =>
      core.published.length < core.reclaimed + core.capacity ∧
        Copied (core.txAt core.published.length) packet i
  | .length =>
      core.published.length < core.reclaimed + core.capacity ∧
        Copied (core.txAt core.published.length) packet packet.length
  | .error =>
      core.published.length < core.reclaimed + core.capacity ∧
        Holds (core.txAt core.published.length) packet
  | .publish =>
      core.published.length < core.reclaimed + core.capacity ∧
        Holds (core.txAt core.published.length) packet ∧
        (core.txAt core.published.length).error = 0

def ReclaimKnows (core : Core) : ReclaimPoint → Prop
  | .load | .advance => True
  | .error | .free => core.reclaimed < core.completed

/-- `out` and `length` are what the descriptor of delivered frame `k` holds. -/
def Fetched (core : Core) (k : Nat) (out : Frame) (length : Nat) : Prop :=
  core.delivered[k]? = some out ∧ length = out.length

def ReceiveKnows (core : Core) : ReceivePoint → Prop
  | .load _ => True
  | .check _ | .size => core.taken < core.delivered.length
  | .copy length out =>
      ∃ frame, core.delivered[core.taken]? = some frame ∧ length = frame.length ∧ out <+: frame
  | .length out => core.delivered[core.taken]? = some out
  | .release out length => Fetched core core.taken out length
  | .advance out length | .head out length =>
      0 < core.taken ∧ Fetched core (core.taken - 1) out length

def DriverKnows (core : Core) : Option CallPoint → Prop
  | none => True
  | some (.submit packet point) => SubmitKnows core packet point
  | some (.reclaim _ point) => ReclaimKnows core point
  | some (.receive point) => ReceiveKnows core point

/-- The frame the device works on is partly in the next RX buffer. -/
def Filling (core : Core) (ready : NicDescriptor → Frame → Prop) : Prop :=
  core.delivered.length < core.taken + core.capacity ∧
    ∃ frame, core.published[core.completed]? = some frame ∧
      ready (core.rxAt core.delivered.length) frame

def PollKnows (core : Core) : PollPoint → Prop
  | .load | .txAdvance | .txHead | .irqTx => True
  | .exchange | .lengthCheck _ | .markError | .rxLoad | .countNoBuffer =>
      core.completed < core.published.length
  | .countError =>
      core.completed < core.published.length ∧ (core.txAt core.completed).error ≠ 0
  | .copySize => Filling core fun _ _ => True
  | .copy length i =>
      Filling core fun descriptor frame => length = frame.length ∧ Copied descriptor frame i
  | .copyLength => Filling core fun descriptor frame => Copied descriptor frame frame.length
  | .clearError | .rxPublish => Filling core Holds
  | .rxAdvance | .rxTail | .countRx | .irqRx =>
      core.completed < core.published.length ∧ core.outcomes[core.completed]? = some .delivered
  | .irqError | .countTx | .txPublish =>
      core.completed < core.published.length ∧
        ((core.txAt core.completed).error ≠ 0 ↔ core.outcomes[core.completed]? = some .error)

/-- Outcomes decided for descriptors that are not done yet. -/
def decidedLag : PollPoint → Nat
  | .irqError | .rxAdvance | .rxTail | .countRx | .irqRx | .countTx | .txPublish => 1
  | _ => 0

/-- Pending descriptors whose error flag the device may have set. -/
def markedLag : PollPoint → Nat
  | .countError | .irqError | .countTx | .txPublish => 1
  | _ => 0

def lagOf (lag : PollPoint → Nat) : Option (Poll × PollPoint) → Nat
  | none => 0
  | some (_, point) => lag point

structure DeviceKnows (core : Core) (device : Option (Poll × PollPoint)) : Prop where
  decided : core.outcomes.length = core.completed + lagOf decidedLag device
  clean : ∀ k, core.completed + lagOf markedLag device ≤ k →
    k < core.published.length → (core.txAt k).error = 0
  point : ∀ poll point, device = some (poll, point) → PollKnows core point

theorem DriverGuarantee.deviceKnows {core core' : Core} (kept : DriverGuarantee core core')
    {device : Option (Poll × PollPoint)} (knows : DeviceKnows core device) :
    DeviceKnows core' device := by
  obtain ⟨capacity, outcomes, completed, delivered, published, taken, fresh, tx, rx⟩ := kept
  obtain ⟨decided, clean, at_⟩ := knows
  have longer := published.length_le
  refine ⟨by rw [outcomes, completed, decided], ?_, ?_⟩
  · intro k low high
    rw [completed] at low
    by_cases old : k < core.published.length
    · rw [tx k (by omega) old]
      exact clean k low old
    · exact fresh k (by omega) high
  · intro poll point here
    have known := at_ poll point here
    have busyKept : core.completed < core.published.length →
        core'.completed < core'.published.length := by omega
    have fillingKept : ∀ ready, Filling core ready → Filling core' ready := by
      rintro ready ⟨room, frame, next, isReady⟩
      refine ⟨by rw [delivered, capacity]; omega, frame, ?_, ?_⟩
      · rw [completed]
        exact getElem?_of_prefix published next
      · rw [delivered, rx _ (Nat.le_refl _) room]
        exact isReady
    cases point <;> simp only [PollKnows] at known ⊢
    all_goals first
      | exact fillingKept _ known
      | exact busyKept known
      | (refine ⟨busyKept known.1, ?_⟩
         simp only [completed, outcomes, tx _ (Nat.le_refl _) known.1]
         exact known.2)

theorem DeviceGuarantee.driverKnows {core core' : Core} (kept : DeviceGuarantee core core')
    {driver : Option CallPoint} (knows : DriverKnows core driver) :
    DriverKnows core' driver := by
  obtain ⟨capacity, published, reclaimed, taken, completed, -, delivered, txFree, txDone, rx⟩ := kept
  have longer := delivered.length_le
  match driver, knows with
  | none, _ => trivial
  | some (.submit packet point), knows =>
      have slotKept : core.published.length < core.reclaimed + core.capacity →
          core'.txAt core.published.length = core.txAt core.published.length :=
        txFree _ (Nat.le_refl _)
      cases point <;> simp only [DriverKnows, SubmitKnows, published, reclaimed, capacity] at knows ⊢
      all_goals
        rw [slotKept knows.1]
        exact knows
  | some (.reclaim locals point), knows =>
      cases point <;> simp only [DriverKnows, ReclaimKnows, reclaimed] at knows ⊢
      all_goals omega
  | some (.receive point), knows =>
      cases point with
      | load capacity => trivial
      | check capacity | size =>
          simp only [DriverKnows, ReceiveKnows, taken] at knows ⊢
          omega
      | copy length out =>
          obtain ⟨frame, next, isLength, copied⟩ := knows
          refine ⟨frame, ?_, isLength, copied⟩
          rw [taken]
          exact getElem?_of_prefix delivered next
      | length out =>
          change core'.delivered[core'.taken]? = some out
          rw [taken]
          exact getElem?_of_prefix delivered knows
      | release out length =>
          refine ⟨?_, knows.2⟩
          rw [taken]
          exact getElem?_of_prefix delivered knows.1
      | advance out length | head out length =>
          obtain ⟨positive, next, isLength⟩ := knows
          refine ⟨by omega, ?_, isLength⟩
          rw [taken]
          exact getElem?_of_prefix delivered next

/-! ## What an owner load tells -/

section Loads
variable {core : Core}

theorem RingsOk.tx_free (ok : RingsOk core)
    (load : (core.txAt core.published.length).owner = .free) :
    core.published.length < core.reclaimed + core.capacity := by
  obtain ⟨positive, ⟨reclaimedLe, completedLe, publishedLe, done, pending, -⟩, -, -⟩ := ok
  by_contra full
  have wrapped : core.published.length = core.reclaimed + core.capacity := by omega
  rw [Core.txAt, wrapped, Nat.add_mod_right] at load
  by_cases isDone : core.reclaimed < core.completed
  · have owner := (done core.reclaimed (Nat.le_refl _) isDone).1
    rw [owner] at load
    contradiction
  · have inside : core.reclaimed < core.published.length := by omega
    have owner := (pending core.reclaimed _ (by omega) (List.getElem?_eq_getElem inside)).1
    rw [owner] at load
    contradiction

theorem RingsOk.tx_device (ok : RingsOk core)
    (load : (core.txAt core.completed).owner = .device) :
    core.completed < core.published.length := by
  obtain ⟨positive, ⟨reclaimedLe, completedLe, publishedLe, done, -, free⟩, -, -⟩ := ok
  by_contra none
  have all : core.completed = core.published.length := by omega
  by_cases full : core.published.length = core.reclaimed + core.capacity
  · have owner := (done core.reclaimed (Nat.le_refl _) (by omega)).1
    rw [Core.txAt, all, full, Nat.add_mod_right, owner] at load
    contradiction
  · have owner := free core.completed (by omega) (by omega)
    rw [Core.txAt, owner] at load
    contradiction

theorem RingsOk.tx_done (ok : RingsOk core)
    (load : (core.txAt core.reclaimed).owner = .done) : core.reclaimed < core.completed := by
  obtain ⟨positive, ⟨reclaimedLe, completedLe, publishedLe, -, pending, free⟩, -, -⟩ := ok
  by_contra none
  by_cases empty : core.published.length = core.reclaimed
  · have owner := free core.reclaimed (by omega) (by omega)
    rw [Core.txAt, owner] at load
    contradiction
  · have inside : core.reclaimed < core.published.length := by omega
    have owner := (pending core.reclaimed _ (by omega) (List.getElem?_eq_getElem inside)).1
    rw [Core.txAt, owner] at load
    contradiction

theorem RingsOk.rx_device (ok : RingsOk core)
    (load : (core.rxAt core.delivered.length).owner = .device) :
    core.delivered.length < core.taken + core.capacity := by
  obtain ⟨positive, -, ⟨takenLe, deliveredLe, done, -⟩, -⟩ := ok
  by_contra full
  have wrapped : core.delivered.length = core.taken + core.capacity := by omega
  have inside : core.taken < core.delivered.length := by omega
  have owner := (done core.taken _ (Nat.le_refl _) (List.getElem?_eq_getElem inside)).1
  rw [Core.rxAt, wrapped, Nat.add_mod_right, owner] at load
  contradiction

theorem RingsOk.rx_done (ok : RingsOk core)
    (load : (core.rxAt core.taken).owner = .done) : core.taken < core.delivered.length := by
  obtain ⟨positive, -, ⟨takenLe, deliveredLe, -, device⟩, -⟩ := ok
  by_contra none
  have owner := device core.taken (by omega) (by omega)
  rw [Core.rxAt, owner] at load
  contradiction

end Loads

/-! ## Cursors -/

/-- A cursor stands at the slot of its count; between an owner store and the
update of the cursor it is one behind. -/
def Follows (capacity cursor count : Nat) : Bool → Prop
  | false => cursor = count % capacity
  | true => (cursor + 1) % capacity = count % capacity

def submitMoving : Option CallPoint → Bool
  | some (.submit _ .advance) => true
  | _ => false

def reclaimMoving : Option CallPoint → Bool
  | some (.reclaim _ .advance) => true
  | _ => false

def receiveMoving : Option CallPoint → Bool
  | some (.receive (.advance _ _)) => true
  | _ => false

def txMoving : Option (Poll × PollPoint) → Bool
  | some (_, .txAdvance) => true
  | _ => false

def rxMoving : Option (Poll × PollPoint) → Bool
  | some (_, .rxAdvance) => true
  | _ => false

structure DriverCursors (nic : NicModel) (core : Core) (driver : Option CallPoint) : Prop where
  submit : Follows core.capacity nic.txSubmitCursor core.published.length (submitMoving driver)
  reclaim : Follows core.capacity nic.txReclaimCursor core.reclaimed (reclaimMoving driver)
  receive : Follows core.capacity nic.rxConsumeCursor core.taken (receiveMoving driver)

structure DeviceCursors (nic : NicModel) (core : Core) (device : Option (Poll × PollPoint)) :
    Prop where
  tx : Follows core.capacity nic.deviceTxCursor core.completed (txMoving device)
  rx : Follows core.capacity nic.deviceRxCursor core.delivered.length (rxMoving device)

theorem follows_store (capacity count : Nat) :
    Follows capacity (count % capacity) (count + 1) true :=
  advance_slot count capacity

end EmbeddedRuntime.Nic.Ownership
