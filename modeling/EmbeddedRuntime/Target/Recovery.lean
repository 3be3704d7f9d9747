import EmbeddedRuntime.Target.StateGraph
import EmbeddedRuntime.Target.Watchdog

/-!
# Confirmed recovery

Runs without a reset, in which the watchdog's age does not wrap.  The record of
the run is read as a sequence of cycles: a heartbeat load, the FAULT it leads
to, a heartbeat store of the worker, the return to RUNNING.

While a fault is open and the worker has stored no heartbeat since the load that
led to it, the heartbeat is still the one loaded then, more than 500 ms behind
every later reading of the clock; so an age below 200 ms shows that the worker
has moved.  Two faults are more than 300 ms apart, so the counter of recoveries
cannot wrap before the clock does.
-/

set_option autoImplicit false

namespace EmbeddedRuntime.Target.Recovery

open EmbeddedRuntime.Lib.Machine
open EmbeddedRuntime.Protocol.Packet
open EmbeddedRuntime.Realtime.RingBuffer
open EmbeddedRuntime.Target.Context
open EmbeddedRuntime.Target.Handler
open EmbeddedRuntime.Target.Model
open EmbeddedRuntime.Target.Steps
open EmbeddedRuntime.Target.StateGraph
open EmbeddedRuntime.Target.Watchdog

/-! ## The record -/

def isLoad : Event → Bool
  | .heartbeatLoad _ => true
  | _ => false

def isBeat : Event → Bool
  | .beat _ => true
  | _ => false

def isFault : Event → Bool
  | .faulted _ _ => true
  | _ => false

def isRecovery : Event → Bool
  | .recovered => true
  | _ => false

def loads (events : List Event) : Nat := events.countP isLoad
def beats (events : List Event) : Nat := events.countP isBeat
def faults (events : List Event) : Nat := events.countP isFault
def recoveries (events : List Event) : Nat := events.countP isRecovery

/-- The record ends inside a cycle: the heartbeat load, the fault it led to, and
at least one heartbeat store of the worker after the load. -/
def Beaten (events : List Event) : Prop :=
  ∃ first heartbeat second now third,
    events = first ++ .heartbeatLoad heartbeat :: second ++ .faulted now heartbeat :: third ∧
      loads second = 0 ∧ faults third = 0 ∧ recoveries third = 0 ∧ 0 < beats (second ++ third)

/-- Every return to RUNNING closes such a cycle. -/
def Confirmed (events : List Event) : Prop :=
  ∀ before after, events = before ++ .recovered :: after → Beaten before

theorem countP_snoc {kind : Event → Bool} {event : Event} (other : kind event = false)
    (events : List Event) : (events ++ [event]).countP kind = events.countP kind := by
  simp [other]

theorem beats_snoc_zero {events : List Event} {event : Event}
    (quiet : beats (events ++ [event]) = 0) : beats events = 0 ∧ isBeat event = false := by
  simpa [beats, List.countP_append, List.countP_singleton] using quiet

theorem snoc_eq_append {events before after : List Event} {last middle : Event}
    (equal : events ++ [last] = before ++ middle :: after) :
    (before = events ∧ middle = last) ∨ ∃ rest, events = before ++ middle :: rest := by
  rcases List.eq_nil_or_concat after with rfl | ⟨rest, final, rfl⟩
  · obtain ⟨same, tail⟩ := List.append_inj' equal rfl
    exact Or.inl ⟨same.symm, (List.cons.inj tail).1.symm⟩
  · rw [List.concat_eq_append, ← List.cons_append, ← List.append_assoc] at equal
    exact Or.inr ⟨rest, (List.append_inj' equal rfl).1⟩

theorem confirmed_append {events : List Event} (confirmed : Confirmed events) (event : Event)
    (closes : event = .recovered → Beaten events) : Confirmed (events ++ [event]) := by
  intro before after equal
  rcases snoc_eq_append equal with ⟨rfl, same⟩ | ⟨rest, earlier⟩
  · exact closes same.symm
  · exact confirmed before rest earlier

/-! ## The invariant -/

/-- The state of an open fault. -/
def InFault (state : TargetState) : Prop := state = .fault ∨ state = .recovery

instance (state : TargetState) : Decidable (InFault state) :=
  inferInstanceAs (Decidable (_ ∨ _))

/-- The last heartbeat load of the watchdog; it is current unless the worker has
stored a heartbeat since. -/
def LastLoad (heartbeat : UInt64) (events : List Event) (loaded : UInt64) : Prop :=
  ∃ first second, events = first ++ .heartbeatLoad loaded :: second ∧ loads second = 0 ∧
    (beats second = 0 → heartbeat = loaded)

/-- What the watchdog has read in this round. -/
def Reads (clock heartbeat : UInt64) (events : List Event) : WatchdogPoint → Prop
  | .loadHeartbeat now => now ≤ clock
  | .readClock loaded => loaded ≤ heartbeat ∧ LastLoad heartbeat events loaded
  | .judge now loaded => now ≤ clock ∧ loaded ≤ heartbeat ∧ LastLoad heartbeat events loaded
  | _ => True

/-- The clock value of this round is not from before `time`. -/
def ReadsAfter (time : UInt64) : WatchdogPoint → Prop
  | .loadHeartbeat now | .judge now _ => time ≤ now
  | _ => True

/-- The heartbeat of this round is `old`. -/
def ReadsSame (old : UInt64) : WatchdogPoint → Prop
  | .readClock loaded | .judge _ loaded => loaded = old
  | _ => True

/-- The heartbeat of this round is at most 200 ms behind `time`. -/
def ReadsRecent (time : Nat) : WatchdogPoint → Prop
  | .readClock loaded | .judge _ loaded => time ≤ loaded.toNat + 200000000
  | _ => True

/-- An open fault, raised at `now` on the heartbeat `loaded`. -/
structure OpenAt (clock heartbeat : UInt64) (watchdog : WatchdogPoint) (events : List Event)
    (loaded now : UInt64) (first second third : List Event) : Prop where
  record : events = first ++ .heartbeatLoad loaded :: second ++ .faulted now loaded :: third
  noLoad : loads second = 0
  noFault : faults third = 0
  noRecovery : recoveries third = 0
  stalled : loaded.toNat + 500000000 < now.toNat
  past : now ≤ clock
  paced : faults events * 300000000 ≤ now.toNat
  after : ReadsAfter now watchdog
  unbeaten : beats (second ++ third) = 0 → heartbeat = loaded ∧ ReadsSame loaded watchdog

/-- No open fault; the last one was raised at `last`. -/
structure ClosedAt (clock heartbeat : UInt64) (watchdog : WatchdogPoint) (events : List Event)
    (last : Nat) : Prop where
  paced : faults events * 300000000 ≤ last
  past : last ≤ clock.toNat
  recent : last ≤ heartbeat.toNat + 200000000
  reads : ReadsRecent last watchdog

structure Cycle (clock heartbeat counter : UInt64) (state : TargetState)
    (watchdog : WatchdogPoint) (events : List Event) : Prop where
  reads : Reads clock heartbeat events watchdog
  opened : InFault state → ∃ loaded now first second third,
    OpenAt clock heartbeat watchdog events loaded now first second third
  closed : ¬ InFault state → ∃ last, ClosedAt clock heartbeat watchdog events last
  counting : watchdog = .count → state = .running
  counted : recoveries events = counter.toNat + if watchdog = .count then 1 else 0
  entered : faults events = recoveries events + if InFault state then 1 else 0
  confirmed : Confirmed events

/-! ## Moves -/

section Moves
variable {clock heartbeat counter : UInt64} {state : TargetState} {watchdog : WatchdogPoint}
  {events first second third : List Event} {loaded now : UInt64}

theorem lastLoad_append (held : LastLoad heartbeat events loaded) (event : Event)
    (next : UInt64) (noLoad : isLoad event = false)
    (kept : isBeat event = false → next = heartbeat) :
    LastLoad next (events ++ [event]) loaded := by
  obtain ⟨first, second, rfl, none, current⟩ := held
  refine ⟨first, second ++ [event], by simp, ?_, ?_⟩
  · rw [loads, countP_snoc noLoad]
    exact none
  · intro quiet
    obtain ⟨before, last⟩ := beats_snoc_zero quiet
    rw [kept last]
    exact current before

theorem openAt_move (held : OpenAt clock heartbeat watchdog events loaded now first second third)
    {later : UInt64} {next : WatchdogPoint} (past : clock ≤ later) (after : ReadsAfter now next)
    (same : heartbeat = loaded → ReadsSame loaded watchdog → ReadsSame loaded next) :
    OpenAt later heartbeat next events loaded now first second third :=
  { held with
    past := UInt64.le_trans held.past past
    after
    unbeaten := fun quiet =>
      ⟨(held.unbeaten quiet).1, same (held.unbeaten quiet).1 (held.unbeaten quiet).2⟩ }

theorem openAt_append
    (held : OpenAt clock heartbeat watchdog events loaded now first second third) (event : Event)
    {beat : UInt64} (noFault : isFault event = false) (noRecovery : isRecovery event = false)
    (kept : isBeat event = false → beat = heartbeat) :
    OpenAt clock beat watchdog (events ++ [event]) loaded now first second (third ++ [event]) := by
  have record := held.record
  refine { held with record := ?_, noFault := ?_, noRecovery := ?_, paced := ?_, unbeaten := ?_ }
  · rw [record]
    simp
  · rw [faults, countP_snoc noFault]
    exact held.noFault
  · rw [recoveries, countP_snoc noRecovery]
    exact held.noRecovery
  · rw [faults, countP_snoc noFault]
    exact held.paced
  · intro quiet
    rw [← List.append_assoc] at quiet
    obtain ⟨before, last⟩ := beats_snoc_zero quiet
    rw [kept last]
    exact held.unbeaten before

theorem reads_clock {later : UInt64} (held : Reads clock heartbeat events watchdog)
    (past : clock ≤ later) : Reads later heartbeat events watchdog := by
  cases watchdog with
  | loadHeartbeat now => exact UInt64.le_trans held past
  | judge now loaded => exact ⟨UInt64.le_trans held.1 past, held.2⟩
  | readClock loaded => exact held
  | absent | loop | sample | release | recover | count | exited => trivial

/-- Time passes. -/
theorem cycle_clock {later : UInt64}
    (cycle : Cycle clock heartbeat counter state watchdog events) (past : clock ≤ later) :
    Cycle later heartbeat counter state watchdog events :=
  { cycle with
    reads := reads_clock cycle.reads past
    opened := fun inFault => by
      obtain ⟨loaded, now, first, second, third, held⟩ := cycle.opened inFault
      exact ⟨loaded, now, first, second, third,
        openAt_move held past held.after fun _ same => same⟩
    closed := fun notFault => by
      obtain ⟨last, held⟩ := cycle.closed notFault
      exact ⟨last, { held with
        past := Nat.le_trans held.past (UInt64.le_iff_toNat_le.mp past) }⟩ }

/-- An event that is neither a fault nor a recovery, with the heartbeat it may
store. -/
theorem cycle_event {beat : UInt64}
    (cycle : Cycle clock heartbeat counter state watchdog events) (event : Event)
    (noFault : isFault event = false) (noRecovery : isRecovery event = false)
    (grows : heartbeat ≤ beat) (kept : isBeat event = false → beat = heartbeat)
    (reads : Reads clock beat (events ++ [event]) watchdog) :
    Cycle clock beat counter state watchdog (events ++ [event]) where
  reads := reads
  opened inFault := by
    obtain ⟨loaded, now, first, second, third, held⟩ := cycle.opened inFault
    exact ⟨loaded, now, first, second, third ++ [event],
      openAt_append held event noFault noRecovery kept⟩
  closed notFault := by
    obtain ⟨last, held⟩ := cycle.closed notFault
    have grown := UInt64.le_iff_toNat_le.mp grows
    refine ⟨last, ?_, held.past, Nat.le_trans held.recent (by omega), held.reads⟩
    rw [faults, countP_snoc noFault]
    exact held.paced
  counting := cycle.counting
  counted := by
    rw [recoveries, countP_snoc noRecovery]
    exact cycle.counted
  entered := by
    rw [faults, recoveries, countP_snoc noFault, countP_snoc noRecovery]
    exact cycle.entered
  confirmed := by
    refine confirmed_append cycle.confirmed event ?_
    rintro rfl
    cases noRecovery

theorem reads_event {beat : UInt64} (held : Reads clock heartbeat events watchdog) (event : Event)
    (noLoad : isLoad event = false) (grows : heartbeat ≤ beat)
    (kept : isBeat event = false → beat = heartbeat) :
    Reads clock beat (events ++ [event]) watchdog := by
  cases watchdog with
  | loadHeartbeat now => exact held
  | readClock loaded =>
      exact ⟨UInt64.le_trans held.1 grows, lastLoad_append held.2 event beat noLoad kept⟩
  | judge now loaded =>
      exact ⟨held.1, UInt64.le_trans held.2.1 grows,
        lastLoad_append held.2.2 event beat noLoad kept⟩
  | absent | loop | sample | release | recover | count | exited => trivial

/-- The request thread records at most an answer. -/
theorem cycle_answer (cycle : Cycle clock heartbeat counter state watchdog events)
    {extra : List Event} (answer : OnlyAnswer extra) :
    Cycle clock heartbeat counter state watchdog (events ++ extra) := by
  rcases answer with rfl | ⟨req, rsp, rfl⟩
  · rw [List.append_nil]
    exact cycle
  · exact cycle_event cycle (.answered req rsp) rfl rfl (UInt64.le_refl _) (fun _ => rfl)
      (reads_event cycle.reads (.answered req rsp) rfl (UInt64.le_refl _) fun _ => rfl)

/-- A heartbeat store of the worker. -/
theorem cycle_beat {beat : UInt64} (cycle : Cycle clock heartbeat counter state watchdog events)
    (grows : heartbeat ≤ beat) :
    Cycle clock beat counter state watchdog (events ++ [.beat beat]) :=
  cycle_event cycle (.beat beat) rfl rfl grows (by simp [isBeat])
    (reads_event cycle.reads (.beat beat) rfl grows (by simp [isBeat]))

/-- The watchdog moves on without an exchange. -/
theorem cycle_point {next : WatchdogPoint}
    (cycle : Cycle clock heartbeat counter state watchdog events)
    (before : watchdog ≠ .count) (notCount : next ≠ .count)
    (reads : Reads clock heartbeat events next)
    (after : ∀ time, time ≤ clock → ReadsAfter time watchdog → ReadsAfter time next)
    (same : ∀ old, heartbeat = old → ReadsSame old watchdog → ReadsSame old next)
    (recent : ∀ time, time ≤ heartbeat.toNat + 200000000 → ReadsRecent time watchdog →
      ReadsRecent time next) :
    Cycle clock heartbeat counter state next events where
  reads := reads
  opened inFault := by
    obtain ⟨loaded, now, first, second, third, held⟩ := cycle.opened inFault
    exact ⟨loaded, now, first, second, third, openAt_move held (UInt64.le_refl _)
      (after now held.past held.after) (same loaded)⟩
  closed notFault := by
    obtain ⟨last, held⟩ := cycle.closed notFault
    exact ⟨last, { held with reads := recent last held.recent held.reads }⟩
  counting counts := absurd counts notCount
  counted := by
    rw [cycle.counted, if_neg before, if_neg notCount]
  entered := cycle.entered
  confirmed := cycle.confirmed

/-- The watchdog holds no reading and no count. -/
def Resting : WatchdogPoint → Prop
  | .absent | .loop | .sample | .release | .recover | .exited => True
  | _ => False

theorem cycle_rest (next : WatchdogPoint)
    (cycle : Cycle clock heartbeat counter state watchdog events) (before : watchdog ≠ .count)
    (resting : Resting next) : Cycle clock heartbeat counter state next events := by
  cases next with
  | absent | loop | sample | release | recover | exited =>
      exact cycle_point cycle before (by simp) trivial (fun _ _ _ => trivial)
        (fun _ _ _ => trivial) (fun _ _ _ => trivial)
  | loadHeartbeat | readClock | judge | count => exact resting.elim

/-- The clock is read first. -/
theorem cycle_clockFirst (cycle : Cycle clock heartbeat counter state .sample events) :
    Cycle clock heartbeat counter state (.loadHeartbeat clock) events :=
  cycle_point cycle (by simp) (by simp) (UInt64.le_refl _) (fun _ past _ => past)
    (fun _ _ _ => trivial) (fun _ _ _ => trivial)

theorem lastLoad_here : LastLoad heartbeat (events ++ [.heartbeatLoad heartbeat]) heartbeat :=
  ⟨events, [], rfl, rfl, fun _ => rfl⟩

/-- The heartbeat is loaded first. -/
theorem cycle_loadFirst (cycle : Cycle clock heartbeat counter state .sample events) :
    Cycle clock heartbeat counter state (.readClock heartbeat)
      (events ++ [.heartbeatLoad heartbeat]) := by
  have logged := cycle_event cycle (.heartbeatLoad heartbeat) rfl rfl (UInt64.le_refl _)
    (fun _ => rfl) trivial
  exact cycle_point logged (by simp) (by simp) ⟨UInt64.le_refl _, lastLoad_here⟩
    (fun _ _ _ => trivial) (fun _ equal _ => equal) (fun _ recent _ => recent)

theorem cycle_load (cycle : Cycle clock heartbeat counter state (.loadHeartbeat now) events) :
    Cycle clock heartbeat counter state (.judge now heartbeat)
      (events ++ [.heartbeatLoad heartbeat]) := by
  have logged := cycle_event cycle (.heartbeatLoad heartbeat) rfl rfl (UInt64.le_refl _)
    (fun _ => rfl) cycle.reads
  exact cycle_point logged (by simp) (by simp) ⟨cycle.reads, UInt64.le_refl _, lastLoad_here⟩
    (fun _ _ after => after) (fun _ equal _ => equal) (fun _ recent _ => recent)

theorem cycle_readClock (cycle : Cycle clock heartbeat counter state (.readClock loaded) events) :
    Cycle clock heartbeat counter state (.judge clock loaded) events :=
  cycle_point cycle (by simp) (by simp) ⟨UInt64.le_refl _, cycle.reads⟩
    (fun _ past _ => past) (fun _ _ same => same) (fun _ _ recent => recent)

/-- The exchange of RUNNING for FAULT. -/
theorem cycle_fault (cycle : Cycle clock heartbeat counter .running (.judge now loaded) events)
    (ordered : loaded ≤ now) (old : faultAgeNs < now - loaded) :
    Cycle clock heartbeat counter .fault .release (events ++ [.faulted now loaded]) := by
  obtain ⟨past, -, first, second, record, noLoad, current⟩ := cycle.reads
  obtain ⟨last, closed⟩ := cycle.closed (by decide)
  have stalled := age_exact ordered old
  have recent : last ≤ loaded.toNat + 200000000 := closed.reads
  have oneMore : faults (events ++ [.faulted now loaded]) = faults events + 1 := by
    simp [faults, isFault]
  have sameRecoveries : recoveries (events ++ [.faulted now loaded]) = recoveries events := by
    simp [recoveries, isRecovery]
  have spaced : (faults events + 1) * 300000000 ≤ now.toNat :=
    calc (faults events + 1) * 300000000
        = faults events * 300000000 + 300000000 := Nat.succ_mul ..
      _ ≤ last + 300000000 := Nat.add_le_add_right closed.paced _
      _ ≤ loaded.toNat + 500000000 := by omega
      _ ≤ now.toNat := stalled.le
  refine
    { reads := trivial
      opened := fun _ => ⟨loaded, now, first, second, [], ?_⟩
      closed := fun outside => absurd (Or.inl rfl) outside
      counting := by simp
      counted := ?_
      entered := ?_
      confirmed := confirmed_append cycle.confirmed _ (by simp) }
  · exact
      { record := by rw [record]
        noLoad, noFault := rfl, noRecovery := rfl, stalled, past
        paced := by rw [oneMore]; exact spaced
        after := trivial
        unbeaten := fun quiet => ⟨current (by simpa using quiet), trivial⟩ }
  · rw [sameRecoveries, cycle.counted]
    simp
  · rw [oneMore, sameRecoveries, cycle.entered]
    simp [InFault]

/-- The exchange of RECOVERY for RUNNING: the worker has stored a heartbeat
since the load that led to the fault. -/
theorem cycle_recover
    (cycle : Cycle clock heartbeat counter .recovery (.judge now loaded) events)
    (ordered : loaded ≤ now) (young : now - loaded < confirmAgeNs) :
    Cycle clock heartbeat counter .running .count (events ++ [.recovered]) := by
  obtain ⟨-, grown, -⟩ := cycle.reads
  obtain ⟨faultLoad, faultNow, first, second, third, held⟩ := cycle.opened (Or.inr rfl)
  have age := UInt64.toNat_sub_of_le now loaded ordered
  have limit : confirmAgeNs.toNat = 200000000 := rfl
  have under := UInt64.lt_iff_toNat_lt.mp young
  have below := UInt64.le_iff_toNat_le.mp ordered
  have later : faultNow.toNat ≤ now.toNat := UInt64.le_iff_toNat_le.mp held.after
  have stored := UInt64.le_iff_toNat_le.mp grown
  have stalled := held.stalled
  have beaten : Beaten events := by
    refine ⟨first, faultLoad, second, faultNow, third, held.record, held.noLoad, held.noFault,
      held.noRecovery, ?_⟩
    rcases Nat.eq_zero_or_pos (beats (second ++ third)) with quiet | some
    · have same : loaded = faultLoad := (held.unbeaten quiet).2
      subst same
      omega
    · exact some
  have sameFaults : faults (events ++ [.recovered]) = faults events := by simp [faults, isFault]
  have oneMore : recoveries (events ++ [.recovered]) = recoveries events + 1 := by
    simp [recoveries, isRecovery]
  refine
    { reads := trivial
      opened := by simp [InFault]
      closed := fun _ => ⟨faultNow.toNat, ?_⟩
      counting := fun _ => rfl
      counted := ?_
      entered := ?_
      confirmed := confirmed_append cycle.confirmed _ fun _ => beaten }
  · exact ⟨by rw [sameFaults]; exact held.paced, UInt64.le_iff_toNat_le.mp held.past, by omega,
      trivial⟩
  · rw [oneMore, cycle.counted]
    simp
  · rw [sameFaults, oneMore, cycle.entered]
    simp [InFault]

/-- The increment after a recovery; the pace of faults keeps it from wrapping. -/
theorem cycle_count (cycle : Cycle clock heartbeat counter state .count events) :
    Cycle clock heartbeat (counter + 1) state .loop events := by
  have running := cycle.counting rfl
  subst running
  obtain ⟨last, closed⟩ := cycle.closed (by decide)
  have counted := cycle.counted
  have entered := cycle.entered
  simp only [InFault, reduceCtorEq, or_self, if_false, if_true] at counted entered
  have paced := closed.paced
  have past := closed.past
  have bound := clock.toNat_lt
  have noWrap : (counter + 1).toNat = counter.toNat + 1 := by
    rw [UInt64.toNat_add, show (1 : UInt64).toNat = 1 from rfl]
    omega
  exact
    { reads := trivial
      opened := by simp [InFault]
      closed := fun _ => ⟨last, { closed with reads := trivial }⟩
      counting := by simp
      counted := by rw [noWrap, counted]; simp
      entered := cycle.entered
      confirmed := cycle.confirmed }

/-- The store of RECOVERY over FAULT. -/
theorem cycle_recovery (cycle : Cycle clock heartbeat counter .fault .recover events) :
    Cycle clock heartbeat counter .recovery .loop events := by
  have rested := cycle_rest .loop cycle (by simp) trivial
  exact
    { rested with
      opened := fun _ => rested.opened (Or.inl rfl)
      closed := fun outside => absurd (Or.inr rfl) outside
      counting := by simp
      entered := by rw [rested.entered]; simp [InFault] }

end Moves

/-! ## One step -/

def requested : Action → Option MlrtPacket
  | .request req _ => req
  | _ => none

/-- The clock value and the heartbeat that a watchdog step compares. -/
def judged (world : World) : Action → Option (UInt64 × UInt64)
  | .watchdog _ =>
      match world.watchdog with
      | .judge now heartbeat => some (now, heartbeat)
      | _ => none
  | _ => none

/-- No RESET is requested, and an evaluated heartbeat is not ahead of the clock
value it is compared with. -/
def PlainRound (world : World) (action : Action) : Prop :=
  (∀ req ∈ requested action, req.type ≠ msgReset) ∧
    ∀ read ∈ judged world action, read.2 ≤ read.1

instance (world : World) (action : Action) : Decidable (PlainRound world action) :=
  @instDecidableAnd _ _ (Option.decidableForallMem (requested action))
    (Option.decidableForallMem (judged world action))

def NoReset : MainPoint → Prop
  | .handling _ (.reset _) => False
  | _ => True

/-- A heartbeat about to be stored is a later clock reading than the last. -/
def BeatOrdered (clock heartbeat : UInt64) : ProcessingPoint → Prop
  | .beat now => heartbeat ≤ now ∧ now ≤ clock
  | _ => True

structure Confirming (world : World) : Prop where
  noReset : NoReset world.main
  consistent : Consistent world
  past : world.ctx.workerHeartbeatNs ≤ world.clock
  processing : BeatOrdered world.clock world.ctx.workerHeartbeatNs world.processing
  cycle : Cycle world.clock world.ctx.workerHeartbeatNs world.ctx.watchdogRecoveries
    world.ctx.state world.watchdog world.events

theorem resetOutsideTail_of_noReset {world : World} (noReset : NoReset world.main)
    (action : Action) : ResetOutsideTail world action := by
  intro stores
  unfold storesInit at stores
  split at stores
  · split at stores
    · rename_i here
      rw [here] at noReset
      exact noReset.elim
    · cases stores
  · cases stores

theorem handlePacket_noReset (arch : Arch) (req : MlrtPacket) (other : req.type ≠ msgReset)
    (point : ResetPoint) : handlePacket arch req ≠ .goes (.reset point) := by
  unfold handlePacket
  split_ifs <;> first | contradiction | (dsimp only; split_ifs <;> simp) | simp

theorem noReset_opening {arch : Arch} {world : World} {action : Action} {main next : MainPoint}
    {events : List Event} (opening : Opening arch action main next events)
    (plain : PlainRound world action) : NoReset next := by
  cases opening with
  | starts | answers | rejects | stops => trivial
  | enters req point entry goes =>
      cases point with
      | reset point => exact absurd goes (handlePacket_noReset arch req (plain.1 req rfl) point)
      | status | configSet | injectClock | inject => trivial

/-- The request thread outside a reset leaves the heartbeat, the counter and
the watchdog's round alone. -/
theorem confirming_opens {world : World} (confirming : Confirming world) (action : Action)
    (opens : Opens action) (plain : PlainRound world action) :
    Confirming (step world action) := by
  have consistent := (step_follows world action confirming.consistent
    (resetOutsideTail_of_noReset confirming.noReset action)).2
  rcases opening_cases world action opens with same | ⟨main, crcErrors, rsp, events, opening, moved⟩
  · rw [same]
    exact confirming
  · rw [moved] at consistent ⊢
    exact ⟨noReset_opening opening plain, consistent, confirming.past, confirming.processing,
      cycle_answer confirming.cycle (onlyAnswer_opening opening)⟩

theorem confirming_tick {world : World} (confirming : Confirming world) (time : UInt64)
    (later : world.clock ≤ time) : Confirming { world with clock := time } := by
  refine ⟨confirming.noReset, ⟨confirming.consistent.tail, confirming.consistent.main⟩,
    UInt64.le_trans confirming.past later, ?_, cycle_clock confirming.cycle later⟩
  have held := confirming.processing
  show BeatOrdered time world.ctx.workerHeartbeatNs world.processing
  revert held
  cases world.processing <;> simp only [BeatOrdered, imp_self]
  exact fun held => ⟨held.1, UInt64.le_trans held.2 later⟩

theorem confirming_sensor {world : World} (confirming : Confirming world) :
    Confirming (step world .sensor) := by
  obtain ⟨queue, produced, same⟩ := sensorStep_ctx world.ctx world.clock world.sensor
  simp only [step, same]
  exact ⟨confirming.noReset, ⟨confirming.consistent.tail, confirming.consistent.main⟩,
    confirming.past, confirming.processing, confirming.cycle⟩

/-- Only the last access of a round stores the heartbeat. -/
theorem processingStep_beat (ctx : TargetCtx) (clock : UInt64) (rc : Int)
    (point : ProcessingPoint) :
    let moved := processingStep ctx clock rc point
    (∃ now, point = .beat now ∧ moved.1.workerHeartbeatNs = now ∧ moved.2.1 = .loop ∧
        moved.2.2 = [.beat now]) ∨
      (moved.1.workerHeartbeatNs = ctx.workerHeartbeatNs ∧ moved.2.2 = [] ∧
        ∀ now, moved.2.1 = .beat now → now = clock) := by
  intro moved
  cases point with
  | beat now => exact Or.inl ⟨now, rfl, rfl, rfl, rfl⟩
  | beatClock => exact Or.inr ⟨rfl, rfl, fun now equal => (ProcessingPoint.beat.inj equal).symm⟩
  | loop | freeze | frozen | expired =>
      refine Or.inr ⟨rfl, rfl, fun now equal => ?_⟩
      simp only [moved, processingStep] at equal
      split_ifs at equal
  | pop | wait =>
      refine Or.inr ⟨rfl, rfl, fun now equal => ?_⟩
      simp only [moved, processingStep] at equal
      unfold popped at equal
      split at equal
      · split_ifs at equal
      · cases equal
  | absent | thaw | count | stamp | last | exited =>
      exact Or.inr ⟨rfl, rfl, fun now equal => by cases equal⟩

theorem confirming_processing {world : World} (confirming : Confirming world) (rc : Int) :
    Confirming (step world (.processing rc)) := by
  obtain ⟨queue, processed, last, heartbeat, freeze, same⟩ :=
    processingStep_ctx world.ctx world.clock rc world.processing
  have beat := processingStep_beat world.ctx world.clock rc world.processing
  have held := confirming.processing
  simp only [step, same] at beat ⊢
  rcases beat with ⟨now, here, rfl, loops, logged⟩ | ⟨rfl, logged, fresh⟩
  · rw [here] at held
    rw [here] at loops logged
    rw [here, loops, logged]
    exact ⟨confirming.noReset, ⟨confirming.consistent.tail, confirming.consistent.main⟩, held.2,
      trivial, cycle_beat confirming.cycle held.1⟩
  · rw [logged]
    refine ⟨confirming.noReset, ⟨confirming.consistent.tail, confirming.consistent.main⟩,
      confirming.past, ?_, ?_⟩
    · show BeatOrdered world.clock world.ctx.workerHeartbeatNs _
      cases next : (processingStep world.ctx world.clock rc world.processing).2.1 with
      | beat now =>
          rw [fresh now next]
          exact ⟨confirming.past, UInt64.le_refl _⟩
      | absent | loop | freeze | frozen | expired | thaw | pop | wait | count | stamp | last
      | beatClock | exited => trivial
    · simpa [World.record] using confirming.cycle

theorem cycle_watchdogStep (ctx : TargetCtx) (clock : UInt64) (order : OperandOrder)
    (point : WatchdogPoint) (events : List Event)
    (cycle : Cycle clock ctx.workerHeartbeatNs ctx.watchdogRecoveries ctx.state point events)
    (ordered : ∀ now loaded, point = .judge now loaded → loaded ≤ now)
    (tail : FaultTail point → ctx.state = .fault) :
    let moved := watchdogStep ctx clock order point
    Cycle clock moved.1.workerHeartbeatNs moved.1.watchdogRecoveries moved.1.state moved.2.1
      (events ++ moved.2.2) := by
  intro moved
  cases point with
  | absent | exited => simpa [moved, watchdogStep] using cycle
  | loop =>
      simp only [moved, watchdogStep, List.append_nil]
      split_ifs <;> exact cycle_rest _ cycle (by simp) trivial
  | sample =>
      cases order with
      | clockFirst => simpa [moved, watchdogStep] using cycle_clockFirst cycle
      | loadFirst => exact cycle_loadFirst cycle
  | loadHeartbeat now => exact cycle_load cycle
  | readClock loaded => simpa [moved, watchdogStep] using cycle_readClock cycle
  | judge now loaded =>
      have notWrapped := ordered now loaded rfl
      simp only [moved, watchdogStep]
      split_ifs with old running young recovering
      · rw [running] at cycle
        exact cycle_fault cycle notWrapped old
      · simpa using cycle_rest .loop cycle (by simp) trivial
      · rw [recovering] at cycle
        exact cycle_recover cycle notWrapped young
      · simpa using cycle_rest .loop cycle (by simp) trivial
      · simpa using cycle_rest .loop cycle (by simp) trivial
  | release =>
      simpa [moved, watchdogStep] using cycle_rest .recover cycle (by simp) trivial
  | recover =>
      rw [tail (Or.inr rfl)] at cycle
      simpa [moved, watchdogStep] using cycle_recovery cycle
  | count => simpa [moved, watchdogStep] using cycle_count cycle

theorem confirming_watchdog {world : World} (confirming : Confirming world) (order : OperandOrder)
    (plain : PlainRound world (.watchdog order)) :
    Confirming (step world (.watchdog order)) := by
  obtain ⟨state, recoveries, freeze, same⟩ :=
    watchdogStep_ctx world.ctx world.clock order world.watchdog
  have heartbeatSame : (step world (.watchdog order)).ctx.workerHeartbeatNs =
      world.ctx.workerHeartbeatNs := by simp [step, same]
  have ordered : ∀ now loaded, world.watchdog = .judge now loaded → loaded ≤ now := by
    intro now loaded here
    exact plain.2 (now, loaded) (by simp [judged, here])
  have consistent := (step_follows world (.watchdog order) confirming.consistent
    (resetOutsideTail_of_noReset confirming.noReset _)).2
  refine ⟨confirming.noReset, consistent, ?_, ?_, ?_⟩
  · rw [heartbeatSame]
    exact confirming.past
  · rw [heartbeatSame]
    exact confirming.processing
  · exact cycle_watchdogStep world.ctx world.clock order world.watchdog world.events
      confirming.cycle ordered confirming.consistent.tail

/-- The states of a start are outside a fault, before and after. -/
theorem cycle_start {clock heartbeat counter : UInt64} {old new : TargetState}
    {watchdog : WatchdogPoint} {events : List Event}
    (cycle : Cycle clock heartbeat counter old watchdog events)
    (follows : Follows (some .start) old new) :
    Cycle clock heartbeat counter new watchdog events := by
  rcases follows with rfl | ⟨writer, isStart, edge⟩
  · exact cycle
  · cases isStart
    have outside : ¬ InFault old ∧ ¬ InFault new ∧ old ≠ .running := by
      cases edge <;> decide
    exact
      { cycle with
        opened := fun inFault => absurd inFault outside.2.1
        closed := fun _ => cycle.closed outside.1
        counting := fun counts => absurd (cycle.counting counts) outside.2.2
        entered := by
          rw [cycle.entered, if_neg outside.1, if_neg outside.2.1] }

theorem confirming_main {world : World} (confirming : Confirming world) (order : OperandOrder)
    (created : Bool) : Confirming (step world (.main order created)) := by
  obtain ⟨follows, consistent⟩ := step_follows world (.main order created) confirming.consistent
    (resetOutsideTail_of_noReset confirming.noReset _)
  have noReset := confirming.noReset
  simp only [step] at follows consistent ⊢
  cases here : world.main with
  | handling req point =>
      rw [here] at noReset
      have plain : Plain point := by cases point <;> first | exact noReset.elim | trivial
      obtain ⟨rate, freeze, main, rsp, events, moved, after, answer, -⟩ :=
        mainStep_plain world order created req point here plain
      rw [moved] at consistent ⊢
      refine ⟨?_, consistent, confirming.past, confirming.processing,
        cycle_answer confirming.cycle answer⟩
      rcases after with ⟨next, later, rfl⟩ | rfl
      · cases next <;> first | exact later.elim | trivial
      · trivial
  | initialised | starting | serving | stopping | stopped =>
      obtain ⟨state, running, threads, sensor, processing, watchdog, main, moved, -,
        processingCase, watchdogCase, outside⟩ :=
          mainStep_outside world order created (by rw [here]; trivial)
      have started : Follows (some .start) world.ctx.state state := by
        have follows := follows
        rw [moved] at follows
        rcases follows with same | ⟨writer, isWriter, edge⟩
        · exact Or.inl same
        · refine Or.inr ⟨writer, ?_, edge⟩
          rw [← isWriter]
          simp [writerOf, here] at isWriter ⊢
      rw [moved] at consistent ⊢
      refine ⟨?_, consistent, confirming.past, ?_, ?_⟩
      · cases main <;> first | exact outside.elim | trivial
      · rcases processingCase with rfl | ⟨rfl, -⟩
        · exact confirming.processing
        · trivial
      · have cycle := cycle_start confirming.cycle started
        rcases watchdogCase with rfl | ⟨rfl, creating⟩
        · exact cycle
        · refine cycle_rest _ cycle ?_ trivial
          intro counts
          have ready := confirming.consistent.main
          rw [creating] at ready
          exact absurd (ready.symm.trans (confirming.cycle.counting counts)) (by decide)

theorem step_confirming (world : World) (action : Action) (confirming : Confirming world)
    (plain : PlainRound world action) : Confirming (step world action) := by
  cases action with
  | tick time =>
      simp only [step]
      split_ifs with later
      · exact confirming_tick confirming time later
      · exact confirming
  | sensor => exact confirming_sensor confirming
  | processing rc => exact confirming_processing confirming rc
  | watchdog order => exact confirming_watchdog confirming order plain
  | start | request | rejectCrc | stop => exact confirming_opens confirming _ trivial plain
  | main order created => exact confirming_main confirming order created

/-! ## Runs -/

theorem cycle_boot (clock heartbeat : UInt64) : Cycle clock heartbeat 0 .boot .absent [] where
  reads := trivial
  opened := by simp [InFault]
  closed _ := ⟨0, rfl.le, Nat.zero_le _, Nat.zero_le _, trivial⟩
  counting := by simp
  counted := rfl
  entered := rfl
  confirmed before after equal := by simp at equal

/-- A stall, its fault, a heartbeat of the worker and the confirmed recovery. -/
def faultCycle : List Action :=
  stall ++ List.replicate 3 (Action.processing 0) ++ [Action.processing etimedout] ++
    List.replicate 2 (Action.processing 0) ++ List.replicate 5 (Action.watchdog .loadFirst)

section Runs
variable {arch : Arch} {ctx : TargetCtx} {clock : UInt64} {rateHz : UInt32} {os : PthreadInit}
  {times : InitTimes}

/-- In every run without RESET in which the age does not wrap: each return to
RUNNING comes after a heartbeat store of the worker that is later than the load
behind the matching fault, it is counted once, and the entries into FAULT are
the counted recoveries, one more exactly while a fault is open or its count is
pending. -/
theorem recovery_is_confirmed (initialised : mlrtTargetInit rateHz os times = some ctx)
    (past : times.heartbeat ≤ clock) (schedule : List Action)
    (plain : Admits step PlainRound (boot arch ctx clock) schedule) :
    let world := run step (boot arch ctx clock) schedule
    Confirmed world.events ∧
      recoveries world.events = world.ctx.watchdogRecoveries.toNat +
        (if world.watchdog = .count then 1 else 0) ∧
      faults world.events = world.ctx.watchdogRecoveries.toNat +
        (if world.ctx.state = .fault ∨ world.ctx.state = .recovery ∨ world.watchdog = .count then 1
          else 0) := by
  intro world
  obtain ⟨-, -, rfl⟩ := mlrtTargetInit_some initialised
  have start : Confirming (boot arch (initialCtx rateHz times) clock) :=
    ⟨trivial, ⟨by simp [boot, FaultTail], rfl⟩, past, trivial, cycle_boot clock times.heartbeat⟩
  have confirming : Confirming world := run_invariant Confirming step_confirming _ schedule start plain
  have cycle := confirming.cycle
  refine ⟨cycle.confirmed, cycle.counted, ?_⟩
  rw [cycle.entered, cycle.counted]
  by_cases counts : world.watchdog = .count
  · have running := cycle.counting counts
    simp [InFault, counts, running]
  · rw [if_neg counts, Nat.add_zero]
    by_cases faulted : InFault world.ctx.state
    · rw [if_pos faulted, if_pos (faulted.imp_right Or.inl)]
    · rw [if_neg faulted, if_neg fun either => faulted (either.imp_right (·.resolve_right counts))]

theorem recovery_is_confirmed_one_cycle :
    ∃ ctx, mlrtTargetInit 100 ⟨0, 0, 0, 0⟩ ⟨0, 0, 0⟩ = some ctx ∧
      Admits step PlainRound (boot .x8664 ctx 0) (startUp ++ faultCycle) ∧
      (run step (boot .x8664 ctx 0) (startUp ++ faultCycle)).ctx.watchdogRecoveries = 1 ∧
      recoveries (run step (boot .x8664 ctx 0) (startUp ++ faultCycle)).events = 1 := by
  refine ⟨_, rfl, by decide +kernel, by decide +kernel, ?_⟩
  have confirmed := (@recovery_is_confirmed .x8664 _ 0 100 ⟨0, 0, 0, 0⟩ ⟨0, 0, 0⟩ rfl (by decide)
    (startUp ++ faultCycle) (by decide +kernel)).2.1
  rw [confirmed]
  decide +kernel

end Runs

end EmbeddedRuntime.Target.Recovery
