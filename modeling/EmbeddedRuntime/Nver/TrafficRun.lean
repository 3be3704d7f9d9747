import Mathlib.Algebra.Order.Group.Nat
import EmbeddedRuntime.Nver.TrafficLab

/-!
# Runs of the traffic generator

The datapath counts each injected fault under its own heading, whenever it arrives, and
acknowledges each transaction with its own number and payload.  So the generator can
only end with a report that passes, or without one.
-/

set_option autoImplicit false

namespace EmbeddedRuntime.Nver.TrafficRun

open EmbeddedRuntime.Lib.Crc
open EmbeddedRuntime.Lib.Machine
open EmbeddedRuntime.Nver.Process
open EmbeddedRuntime.Nver.PythonPacket
open EmbeddedRuntime.Nver.StatsReply
open EmbeddedRuntime.Nver.TrafficLab

/-! ## The invariant of a run -/

theorem due_iff_dvd (every seq : Nat) (positive : 0 < seq) : Due every seq ↔ every ∣ seq := by
  constructor
  · exact fun due => Nat.dvd_of_mod_eq_zero due.2
  · intro divides
    exact ⟨fun zero => by
      rw [zero, Nat.zero_dvd] at divides
      omega, Nat.mod_eq_zero_of_dvd divides⟩

/-- The faults among the sequence numbers up to `n` are `n / every`. -/
theorem faults_succ (every n : Nat) :
    (n + 1) / every = n / every + if Due every (n + 1) then 1 else 0 := by
  simp only [due_iff_dvd every (n + 1) (Nat.succ_pos n), Nat.succ_div]

def sentBytes : Nat → Nat
  | 0 => 0
  | seq + 1 => sentBytes seq + (payloadOf (seq + 1)).length

theorem sentBytes_le {count : Nat} (small : count ≤ 2 ^ 31) : sentBytes count ≤ 100 * count := by
  induction count with
  | zero => exact Nat.zero_le _
  | succ count ih =>
      have before := ih (by omega)
      have next := length_payloadOf small
      rw [sentBytes]
      omega

/-- The counters after some accepted transactions, spoilt copies and replays. -/
def countsOf (datagrams : UInt64) (accepted crc replay : Nat) : Counters where
  datagrams := datagrams
  accepted := UInt64.ofNat accepted
  invalid := UInt64.ofNat (crc + replay)
  crcErrors := UInt64.ofNat crc
  replayErrors := UInt64.ofNat replay
  bytesAccepted := UInt64.ofNat (sentBytes accepted)

/-- A datagram of the second socket. -/
def OnItsWay (args : Args) (accepted : Nat) : Fault × List UInt8 → Prop
  | (.corrupt, bytes) => ∃ seq, seq ≤ args.count ∧ bytes = spoil (wireOf seq)
  | (.replay, bytes) => ∃ seq, 1 ≤ seq ∧ seq ≤ accepted ∧ bytes = wireOf seq

def inFlight (state : State) (fault : Fault) : Nat :=
  state.flight.countP fun datagram => datagram.1 = fault

/-- A fault is counted by the datapath, on its way or lost, and lost only where that can happen. -/
def Accounted (kept : Prop) (injected counted flying : Nat) : Prop :=
  ∃ lost, counted + flying + lost = injected ∧ (kept → lost = 0)

/-- The generator and the datapath while the run goes on; `decided` sequence numbers have had
their corrupted copy, or none. -/
structure Live (args : Args) (kept : Prop) (decided : Nat) (state : State) : Prop where
  table : state.dp.lastSeq = tableOf state.accepted
  injectedCrc : state.injectedCrc = decided / args.corruptEvery
  injectedReplay : state.injectedReplay = state.accepted / args.replayEvery
  flight : ∀ datagram ∈ state.flight, OnItsWay args state.accepted datagram
  counts : ∃ datagrams crc replay, state.dp.counts = countsOf datagrams state.accepted crc replay ∧
    Accounted kept state.injectedCrc crc (inFlight state .corrupt) ∧
    Accounted kept state.injectedReplay replay (inFlight state .replay)

/-- The counters of a complete run. -/
def countersOf (args : Args) (datagrams : Nat) : List (String × Nat) :=
  [("datagrams", datagrams), ("accepted", args.count),
    ("invalid", args.count / args.corruptEvery + args.count / args.replayEvery),
    ("crc_errors", args.count / args.corruptEvery), ("length_errors", 0),
    ("replay_errors", args.count / args.replayEvery), ("header_errors", 0), ("type_errors", 0),
    ("session_errors", 0), ("bytes_accepted", sentBytes args.count), ("sessions", 1)]

/-- The report of a run in which nothing is wrong. -/
def passed (args : Args) (datagrams : Nat) : Report :=
  ⟨args.count, args.count / args.corruptEvery, args.count / args.replayEvery,
    countersOf args datagrams, true⟩

/-- The phase of a run with what holds in it. -/
def Inv (args : Args) (kept : Prop) (state : State) : Prop :=
  match state.phase with
  | .sending seq => seq = state.accepted + 1 ∧ seq ≤ args.count ∧ Live args kept state.accepted state
  | .asking seq => seq = state.accepted + 1 ∧ seq ≤ args.count ∧ Live args kept seq state
  | .polling => state.accepted = args.count ∧ Live args kept args.count state
  | .reported report => ∃ datagrams, report = passed args datagrams
  | .raised failure => ¬ kept ∧ (failure = .timeout ∨ ∃ observed, failure = .notConverged observed)

theorem inv_start (args : Args) (kept : Prop) : Inv args kept start := by
  refine ⟨rfl, args.count_pos, rfl, (Nat.zero_div _).symm, (Nat.zero_div _).symm, ?_, 0, 0, 0, rfl,
    ⟨0, rfl, fun _ => rfl⟩, ⟨0, rfl, fun _ => rfl⟩⟩
  intro datagram here
  cases here

/-! ## Datagrams on their way -/

theorem countP_eraseIdx {A : Type} (holds : A → Bool) (list : List A) (index : Nat) (a : A)
    (here : list[index]? = some a) :
    (list.eraseIdx index).countP holds + (if holds a then 1 else 0) = list.countP holds := by
  induction list generalizing index with
  | nil => cases here
  | cons first rest ih =>
      cases index with
      | zero =>
          obtain rfl := Option.some.inj here
          rw [List.eraseIdx_cons_zero, List.countP_cons]
      | succ index =>
          have later := ih index here
          rw [List.eraseIdx_cons_succ, List.countP_cons, List.countP_cons]
          omega

/-- The effect of a fault on the counters. -/
theorem process_fault {args : Args} (small : args.count ≤ 2 ^ 31) {dp : Datapath} {accepted : Nat}
    (table : dp.lastSeq = tableOf accepted) (within : accepted ≤ args.count)
    {fault : Fault} {bytes : List UInt8} (here : OnItsWay args accepted (fault, bytes))
    {datagrams : UInt64} {crc replay : Nat}
    (counts : dp.counts = countsOf datagrams accepted crc replay) :
    (process dp bytes).2.lastSeq = tableOf accepted ∧
      (process dp bytes).2.counts = countsOf (datagrams + 1) accepted
        (crc + if fault = .corrupt then 1 else 0) (replay + if fault = .replay then 1 else 0) := by
  cases fault with
  | corrupt =>
      obtain ⟨seq, inside, rfl⟩ := here
      rw [process_spoil dp (by omega)]
      refine ⟨table, ?_⟩
      simp only [Datapath.reject, Datapath.received, Counters.reject, counts, countsOf, if_true,
        reduceCtorEq, if_false, Nat.add_zero, UInt64.ofNat_add, Nat.add_right_comm]
      simp only [Counters.mk.injEq, true_and, and_true]
      grind
  | replay =>
      obtain ⟨seq, positive, old, rfl⟩ := here
      rw [process_again dp table (by omega) old positive]
      refine ⟨table, ?_⟩
      simp only [Datapath.reject, Datapath.received, Counters.reject, counts, countsOf, if_true,
        reduceCtorEq, if_false, Nat.add_zero, UInt64.ofNat_add]
      simp only [Counters.mk.injEq, true_and, and_true]
      grind

theorem Accounted.deliver {kept : Prop} {injected counted flying left : Nat} {mine : Prop}
    [Decidable mine] (accounted : Accounted kept injected counted flying)
    (removed : left + (if mine then 1 else 0) = flying) :
    Accounted kept injected (counted + if mine then 1 else 0) left := by
  obtain ⟨lost, total, none⟩ := accounted
  exact ⟨lost, by omega, none⟩

theorem Accounted.lose {kept : Prop} {injected counted flying left : Nat} {mine : Prop}
    [Decidable mine] (accounted : Accounted kept injected counted flying)
    (removed : left + (if mine then 1 else 0) = flying) :
    Accounted False injected counted left := by
  obtain ⟨lost, total, -⟩ := accounted
  exact ⟨lost + if mine then 1 else 0, by omega, fun never => never.elim⟩

theorem Accounted.inject {kept : Prop} {injected counted flying : Nat} (more : Nat)
    (accounted : Accounted kept injected counted flying) :
    Accounted kept (injected + more) counted (flying + more) := by
  obtain ⟨lost, total, none⟩ := accounted
  exact ⟨lost, by omega, none⟩

/-- The state after a datagram of the second socket has reached the datapath. -/
def delivered (state : State) (index : Nat) (bytes : List UInt8) : State :=
  { state with
    flight := state.flight.eraseIdx index
    dp := (process state.dp bytes).2 }

/-- The state after such a datagram is lost. -/
def lostAt (state : State) (index : Nat) : State :=
  { state with flight := state.flight.eraseIdx index }

theorem removed_inFlight {state : State} {index : Nat} {fault : Fault} {bytes : List UInt8}
    (here : state.flight[index]? = some (fault, bytes)) (other : Fault) :
    (state.flight.eraseIdx index).countP (fun datagram => datagram.1 = other) +
      (if fault = other then 1 else 0) = inFlight state other := by
  have erased := countP_eraseIdx (fun datagram : Fault × List UInt8 => datagram.1 = other)
    state.flight index _ here
  simp only [decide_eq_true_eq] at erased
  exact erased

theorem live_delivered {args : Args} (small : args.count ≤ 2 ^ 31) {kept : Prop} {decided : Nat}
    {state : State} (live : Live args kept decided state) (within : state.accepted ≤ args.count)
    {index : Nat} {fault : Fault} {bytes : List UInt8}
    (here : state.flight[index]? = some (fault, bytes)) :
    Live args kept decided (delivered state index bytes) := by
  obtain ⟨datagrams, crc, replay, counts, crcs, replays⟩ := live.counts
  obtain ⟨table, after⟩ := process_fault small live.table within
    (live.flight _ (List.mem_of_getElem? here)) counts
  refine ⟨table, live.injectedCrc, live.injectedReplay, fun datagram there => ?_, datagrams + 1, _, _,
    after, ?_, ?_⟩
  · exact live.flight datagram (List.mem_of_mem_eraseIdx there)
  · exact crcs.deliver (removed_inFlight here .corrupt)
  · exact replays.deliver (removed_inFlight here .replay)

theorem live_lost {args : Args} {kept : Prop} {decided : Nat} {state : State}
    (live : Live args kept decided state) {index : Nat} (inside : index < state.flight.length) :
    Live args False decided (lostAt state index) := by
  obtain ⟨datagrams, crc, replay, counts, crcs, replays⟩ := live.counts
  have here := List.getElem?_eq_getElem inside
  refine ⟨live.table, live.injectedCrc, live.injectedReplay, fun datagram there => ?_, datagrams, crc,
    replay, counts, ?_, ?_⟩
  · exact live.flight datagram (List.mem_of_mem_eraseIdx there)
  · exact crcs.lose (removed_inFlight here .corrupt)
  · exact replays.lose (removed_inFlight here .replay)

/-! ## What holds under weaker assumptions on the run -/

theorem Accounted.mono {kept weaker : Prop} (less : weaker → kept) {injected counted flying : Nat}
    (accounted : Accounted kept injected counted flying) :
    Accounted weaker injected counted flying := by
  obtain ⟨lost, total, none⟩ := accounted
  exact ⟨lost, total, fun keeps => none (less keeps)⟩

theorem Live.mono {args : Args} {kept weaker : Prop} (less : weaker → kept) {decided : Nat}
    {state : State} (live : Live args kept decided state) : Live args weaker decided state := by
  obtain ⟨datagrams, crc, replay, counts, crcs, replays⟩ := live.counts
  exact ⟨live.table, live.injectedCrc, live.injectedReplay, live.flight, datagrams, crc, replay, counts,
    crcs.mono less, replays.mono less⟩

theorem Inv.mono {args : Args} {kept weaker : Prop} (less : weaker → kept) {state : State}
    (inv : Inv args kept state) : Inv args weaker state := by
  unfold Inv at inv ⊢
  cases phase : state.phase with
  | sending seq =>
      rw [phase] at inv
      exact ⟨inv.1, inv.2.1, inv.2.2.mono less⟩
  | asking seq =>
      rw [phase] at inv
      exact ⟨inv.1, inv.2.1, inv.2.2.mono less⟩
  | polling =>
      rw [phase] at inv
      exact ⟨inv.1, inv.2.mono less⟩
  | reported report =>
      rw [phase] at inv
      exact inv
  | raised failure =>
      rw [phase] at inv
      exact ⟨fun keeps => inv.1 (less keeps), inv.2⟩

theorem delivered_inv {args : Args} (small : args.count ≤ 2 ^ 31) {kept : Prop} {state : State}
    (inv : Inv args kept state) {index : Nat} {fault : Fault} {bytes : List UInt8}
    (here : state.flight[index]? = some (fault, bytes)) :
    Inv args kept (delivered state index bytes) := by
  have same : (delivered state index bytes).phase = state.phase := rfl
  unfold Inv at inv ⊢
  rw [same]
  cases phase : state.phase with
  | sending seq =>
      rw [phase] at inv
      exact ⟨inv.1, inv.2.1, live_delivered small inv.2.2 (by omega) here⟩
  | asking seq =>
      rw [phase] at inv
      exact ⟨inv.1, inv.2.1, live_delivered small inv.2.2 (by omega) here⟩
  | polling =>
      rw [phase] at inv
      exact ⟨inv.1, live_delivered small inv.2 (by omega) here⟩
  | reported report =>
      rw [phase] at inv
      exact inv
  | raised failure =>
      rw [phase] at inv
      exact inv

theorem lost_inv {args : Args} {kept : Prop} {state : State} (inv : Inv args kept state)
    {index : Nat} (inside : index < state.flight.length) :
    Inv args False (lostAt state index) := by
  have same : (lostAt state index).phase = state.phase := rfl
  unfold Inv at inv ⊢
  rw [same]
  cases phase : state.phase with
  | sending seq =>
      rw [phase] at inv
      exact ⟨inv.1, inv.2.1, live_lost inv.2.2 inside⟩
  | asking seq =>
      rw [phase] at inv
      exact ⟨inv.1, inv.2.1, live_lost inv.2.2 inside⟩
  | polling =>
      rw [phase] at inv
      exact ⟨inv.1, live_lost inv.2 inside⟩
  | reported report =>
      rw [phase] at inv
      exact inv
  | raised failure =>
      rw [phase] at inv
      exact ⟨id, inv.2⟩

/-! ## Moves of the generator -/

/-- The phase after a transaction. -/
def nextPhase (args : Args) (seq : Nat) : Phase :=
  if seq < args.count then .sending (seq + 1) else .polling

theorem inv_next {args : Args} {kept : Prop} {state : State}
    (live : Live args kept state.accepted state) (within : state.accepted ≤ args.count)
    (phase : state.phase = nextPhase args state.accepted) : Inv args kept state := by
  unfold Inv
  rw [phase, nextPhase]
  by_cases more : state.accepted < args.count
  · rw [if_pos more]
    exact ⟨rfl, more, live⟩
  · have last : state.accepted = args.count := by omega
    rw [if_neg more]
    exact ⟨last, last ▸ live⟩

theorem onItsWay_mono {args : Args} {accepted later : Nat} (grows : accepted ≤ later)
    {datagram : Fault × List UInt8} (here : OnItsWay args accepted datagram) :
    OnItsWay args later datagram := by
  obtain ⟨fault, bytes⟩ := datagram
  cases fault with
  | corrupt => exact here
  | replay =>
      obtain ⟨seq, positive, old, same⟩ := here
      exact ⟨seq, positive, Nat.le_trans old grows, same⟩

/-- The bookkeeping after a transaction, over a datapath that has counted it. -/
theorem verified_inv {args : Args} {kept : Prop} {state : State} {seq : Nat}
    (next : seq = state.accepted + 1) (inside : seq ≤ args.count)
    (table : state.dp.lastSeq = tableOf seq)
    (injectedCrc : state.injectedCrc = seq / args.corruptEvery)
    (injectedReplay : state.injectedReplay = state.accepted / args.replayEvery)
    (flight : ∀ datagram ∈ state.flight, OnItsWay args state.accepted datagram)
    {datagrams : UInt64} {crc replay : Nat} (counts : state.dp.counts = countsOf datagrams seq crc replay)
    (crcs : Accounted kept state.injectedCrc crc (inFlight state .corrupt))
    (replays : Accounted kept state.injectedReplay replay (inFlight state .replay)) :
    Inv args kept (verified args state seq (wireOf seq)) ∧
      (verified args state seq (wireOf seq)).accepted = seq ∧
      (verified args state seq (wireOf seq)).phase = nextPhase args seq := by
  have faults := faults_succ args.replayEvery state.accepted
  have older : ∀ datagram ∈ state.flight, OnItsWay args seq datagram := fun datagram there =>
    onItsWay_mono (by omega) (flight datagram there)
  rw [← next] at faults
  unfold verified
  by_cases due : Due args.replayEvery seq
  · rw [if_pos due] at faults ⊢
    refine ⟨inv_next ?_ (next ▸ inside) (by rw [← next]; rfl), next.symm, rfl⟩
    simp only [← next]
    refine ⟨table, injectedCrc, by simp only [injectedReplay, faults], ?_, datagrams, crc, replay,
      counts, ?_, ?_⟩
    · intro datagram there
      rcases List.mem_append.mp there with old | new
      · exact older datagram old
      · obtain rfl := List.mem_singleton.mp new
        exact ⟨seq, by omega, Nat.le_refl _, rfl⟩
    · simpa only [inFlight, List.countP_append, List.countP_singleton, reduceCtorEq, decide_false,
        Bool.false_eq_true, if_false, Nat.add_zero] using crcs
    · have more := replays.inject 1
      simpa only [inFlight, List.countP_append, List.countP_singleton, decide_true, if_true]
        using more
  · rw [if_neg due] at faults ⊢
    refine ⟨inv_next ?_ (next ▸ inside) (by rw [← next]; rfl), next.symm, rfl⟩
    simp only [← next]
    exact ⟨table, injectedCrc, injectedReplay.trans (by rw [faults, Nat.add_zero]), older, datagrams,
      crc, replay, counts, crcs, replays⟩

/-- The counters that the polling loop observes. -/
theorem observed_counters {args : Args} (small : args.count ≤ 2 ^ 31) {kept : Prop} {state : State}
    (all : state.accepted = args.count) (live : Live args kept args.count state)
    {datagrams : UInt64} {crc replay : Nat} (crcs : crc ≤ args.count) (replays : replay ≤ args.count)
    (counts : state.dp.counts = countsOf datagrams state.accepted crc replay) :
    members state.dp.received =
      [("datagrams", (datagrams + 1).toNat), ("accepted", args.count), ("invalid", crc + replay),
        ("crc_errors", crc), ("length_errors", 0), ("replay_errors", replay), ("header_errors", 0),
        ("type_errors", 0), ("session_errors", 0), ("bytes_accepted", sentBytes args.count),
        ("sessions", 1)] := by
  have values (n : Nat) (below : n ≤ 2 ^ 40) : (UInt64.ofNat n).toNat = n :=
    UInt64.toNat_ofNat_of_lt' (by simp only [UInt64.size]; omega)
  have bytes := sentBytes_le small
  have sessions : state.dp.received.sessions = 1 := by
    have positive := args.count_pos
    obtain ⟨before, one⟩ : ∃ before, args.count = before + 1 := ⟨args.count - 1, by omega⟩
    rw [Datapath.sessions, Datapath.received, live.table, all, one]
    rfl
  rw [all] at counts
  simp only [members, sessions]
  simp only [Datapath.received, counts, countsOf, values args.count (by omega),
    values (crc + replay) (by omega), values crc (by omega), values replay (by omega),
    values (sentBytes args.count) (by omega)]
  rfl

/-- A round of the polling loop whose answer holds the counters. -/
theorem pollStep_eq {zlibCrc32 : List UInt8 → Nat} {request : Packet} {state : State} (late : Bool)
    {wire response : List UInt8} {dp : Datapath} {observed : List (String × Nat)} {crc replay : Nat}
    (encoded : request.encode zlibCrc32 = .ok wire)
    (processed : process state.dp wire = (response, dp)) (nonempty : response ≠ [])
    (answer : stats zlibCrc32 response = .ok (some observed))
    (crcErrors : observed.lookup "crc_errors" = some crc)
    (replayErrors : observed.lookup "replay_errors" = some replay) :
    pollStep zlibCrc32 request state late =
      if state.injectedCrc ≤ crc ∧ state.injectedReplay ≤ replay then
        some { state with dp, phase := .reported (report state observed) }
      else if late then some { state with dp, phase := .raised (.notConverged observed) }
      else some { state with dp } := by
  unfold pollStep
  rw [encoded]
  simp only [processed, if_neg nonempty, answer, crcErrors, replayErrors]
  rfl

section Moves
variable {zlibCrc32 : List UInt8 → Nat} (isIeee : ∀ data, zlibCrc32 data = (ieee data).toNat)
  {args : Args} (small : args.count ≤ 2 ^ 31) {kept : Prop} {state : State}
include isIeee small

theorem send_inv {seq : Nat} (next : seq = state.accepted + 1) (inside : seq ≤ args.count)
    (live : Live args kept state.accepted state) :
    Inv args kept (sendStep zlibCrc32 args state seq) ∧
      (sendStep zlibCrc32 args state seq).phase = .asking seq ∧
      (sendStep zlibCrc32 args state seq).accepted = state.accepted := by
  obtain ⟨datagrams, crc, replay, counts, crcs, replays⟩ := live.counts
  have faults := faults_succ args.corruptEvery state.accepted
  rw [← next] at faults
  unfold sendStep
  by_cases due : Due args.corruptEvery seq
  · rw [if_pos due, packet_encode isIeee (by omega)]
    rw [if_pos due] at faults
    refine ⟨⟨next, inside, live.table, ?_, live.injectedReplay, ?_, datagrams, crc, replay, counts,
      ?_, ?_⟩, rfl, rfl⟩
    · simp only [live.injectedCrc, faults]
    · intro datagram there
      rcases List.mem_append.mp there with old | new
      · exact live.flight datagram old
      · obtain rfl := List.mem_singleton.mp new
        exact ⟨seq, inside, rfl⟩
    · have more := crcs.inject 1
      simpa only [inFlight, List.countP_append, List.countP_singleton, decide_true, if_true] using more
    · simpa only [inFlight, List.countP_append, List.countP_singleton, reduceCtorEq, decide_false,
        Bool.false_eq_true, if_false, Nat.add_zero] using replays
  · rw [if_neg due]
    rw [if_neg due, Nat.add_zero] at faults
    exact ⟨⟨next, inside, live.table, live.injectedCrc.trans faults.symm, live.injectedReplay,
      live.flight, datagrams, crc, replay, counts, crcs, replays⟩, rfl, rfl⟩

/-- A transaction that is answered is acknowledged with its own number and payload. -/
theorem ask_inv {seq : Nat} (next : seq = state.accepted + 1) (inside : seq ≤ args.count)
    (live : Live args kept seq state) :
    ∃ after, askStep zlibCrc32 args state seq = some after ∧ Inv args kept after ∧
      after.accepted = seq ∧ after.phase = nextPhase args seq := by
  obtain ⟨datagrams, crc, replay, counts, crcs, replays⟩ := live.counts
  have answer := process_next state.dp live.table (by omega)
  rw [← next] at answer
  have decoded := decode_encode isIeee .ack 10 (UInt32.ofNat seq) (payloadOf seq)
    (payloadOf_small (by omega))
  have fits : (UInt32.ofNat seq).toNat = seq :=
    UInt32.toNat_ofNat_of_lt' (by simp only [UInt32.size]; omega)
  have echoed : ¬ ((packetOf .ack 10 (UInt32.ofNat seq) (payloadOf seq)).kind ≠ number .ack ∨
      (packetOf .ack 10 (UInt32.ofNat seq) (payloadOf seq)).sequence ≠ seq ∨
      (packetOf .ack 10 (UInt32.ofNat seq) (payloadOf seq)).payload ≠ payloadOf seq) := by
    simp only [packetOf, fits, ne_eq, not_true, or_self, not_false_eq_true]
  have bytes : sentBytes seq = sentBytes state.accepted + (payloadOf seq).length := by
    rw [next, sentBytes]
  have after : { state.dp.received.counts with
      accepted := state.dp.counts.accepted + 1
      bytesAccepted := state.dp.counts.bytesAccepted + UInt64.ofNat (payloadOf seq).length } =
        countsOf (datagrams + 1) seq crc replay := by
    simp only [Datapath.received, counts, countsOf, bytes, UInt64.ofNat_add]
    rw [next, UInt64.ofNat_add]
    rfl
  simp only [askStep, packet_encode isIeee (show seq ≤ 2 ^ 31 by omega), answer,
    if_neg (encode_ne_nil _ _ _ _), decoded, if_neg echoed, after]
  exact ⟨_, rfl, verified_inv next inside rfl live.injectedCrc live.injectedReplay live.flight rfl
    crcs replays⟩

/-- A round of the polling loop ends the run with a good report, or finds that a fault is not
counted yet. -/
theorem poll_inv (all : state.accepted = args.count) (polling : state.phase = .polling)
    (live : Live args kept args.count state) (late : Bool) :
    ∃ after, pollStep zlibCrc32 statsPacket state late = some after ∧
      ((∃ datagrams, after.phase = .reported (passed args datagrams)) ∨
        ((kept → state.flight ≠ []) ∧
          if late then ∃ observed, after.phase = .raised (.notConverged observed)
          else Inv args kept after)) := by
  obtain ⟨datagrams, crc, replay, counts, crcs, replays⟩ := live.counts
  have few : state.dp.sessions ≤ maxSessions := by
    have least := length_tableOf state.accepted
    rw [← live.table] at least
    simp only [Datapath.sessions, maxSessions]
    omega
  have encoded : statsPacket.encode zlibCrc32 = .ok (encode .statsRequest 0 0 []) :=
    packetOf_encode isIeee .statsRequest 0 0 [] (by decide)
  have answer := stats_reply isIeee state.dp few
  have injectedCrc := live.injectedCrc
  have injectedReplay := live.injectedReplay
  rw [all] at injectedReplay
  have crcBound := Nat.div_le_self args.count args.corruptEvery
  have replayBound := Nat.div_le_self args.count args.replayEvery
  have crcsLe : crc ≤ state.injectedCrc := by
    obtain ⟨lost, total, -⟩ := crcs
    omega
  have replaysLe : replay ≤ state.injectedReplay := by
    obtain ⟨lost, total, -⟩ := replays
    omega
  have observed := observed_counters small all live (by omega) (by omega) counts
  have crcErrors : (members state.dp.received).lookup "crc_errors" = some crc := by
    rw [observed]
    rfl
  have replayErrors : (members state.dp.received).lookup "replay_errors" = some replay := by
    rw [observed]
    rfl
  have accepted : (members state.dp.received).lookup "accepted" = some args.count := by
    rw [observed]
    rfl
  have processed := process_statsRequest state.dp
  rw [processed] at answer
  rw [pollStep_eq late encoded processed (encode_ne_nil _ _ _ _) answer crcErrors replayErrors]
  by_cases counted : state.injectedCrc ≤ crc ∧ state.injectedReplay ≤ replay
  · rw [if_pos counted]
    have crcSame : crc = args.count / args.corruptEvery := by omega
    have replaySame : replay = args.count / args.replayEvery := by omega
    have passed : report state (members state.dp.received) =
        ⟨args.count, args.count / args.corruptEvery, args.count / args.replayEvery,
          members state.dp.received, true⟩ := by
      simp only [report, crcErrors, replayErrors, accepted, all, injectedCrc, injectedReplay, crcSame,
        replaySame, and_self, decide_true]
    refine ⟨_, rfl, Or.inl ⟨(datagrams + 1).toNat, congrArg Phase.reported (passed.trans ?_)⟩⟩
    rw [observed, crcSame, replaySame]
    rfl
  · rw [if_neg counted]
    have waiting : kept → state.flight ≠ [] := by
      intro keeps empty
      obtain ⟨lostCrc, totalCrc, noneCrc⟩ := crcs
      obtain ⟨lostReplay, totalReplay, noneReplay⟩ := replays
      have noCrc := noneCrc keeps
      have noReplay := noneReplay keeps
      simp only [inFlight, empty, List.countP_nil] at totalCrc totalReplay
      omega
    cases late with
    | true => exact ⟨_, rfl, Or.inr ⟨waiting, _, rfl⟩⟩
    | false =>
        refine ⟨_, rfl, Or.inr ⟨waiting, ?_⟩⟩
        rw [if_neg (by decide), Inv]
        simp only [polling]
        refine ⟨all, live.table, live.injectedCrc, live.injectedReplay, live.flight, datagrams + 1, crc,
          replay, ?_, crcs, replays⟩
        simp only [Datapath.received, counts, countsOf]

theorem timeout_inv {processed : Bool} {next : State} (inv : Inv args kept state)
    (taken : timeoutStep zlibCrc32 state processed = some next) :
    next.phase = .raised .timeout := by
  unfold timeoutStep at taken
  cases requested : requestOf state.phase with
  | none =>
      rw [requested] at taken
      cases taken
  | some request =>
      -- Both requests are encoded without an exception.
      obtain ⟨wire, encoded⟩ : ∃ wire, request.encode zlibCrc32 = .ok wire := by
        unfold Inv at inv
        cases phase : state.phase with
        | asking seq =>
            rw [phase] at inv requested
            obtain rfl := Option.some.inj requested
            exact ⟨_, packet_encode isIeee (by omega)⟩
        | polling =>
            rw [phase] at requested
            obtain rfl := Option.some.inj requested
            exact ⟨_, packetOf_encode isIeee .statsRequest 0 0 [] (by decide)⟩
        | sending | reported | raised =>
            rw [phase] at requested
            cases requested
      rw [requested] at taken
      simp only [encoded] at taken
      obtain rfl := Option.some.inj taken
      rfl

theorem step_inv {action : Action} {next : State} (inv : Inv args kept state)
    (taken : step zlibCrc32 args state action = some next) :
    Inv args (kept ∧ action.Smooth) next := by
  have weaken {after : State} (holds : Inv args kept after) :
      Inv args (kept ∧ action.Smooth) after := holds.mono And.left
  cases action with
  | send =>
      simp only [step] at taken
      cases phase : state.phase with
      | sending seq =>
          rw [phase] at taken
          obtain rfl := Option.some.inj taken
          unfold Inv at inv
          rw [phase] at inv
          exact weaken (send_inv isIeee small inv.1 inv.2.1 inv.2.2).1
      | asking | polling | reported | raised =>
          rw [phase] at taken
          cases taken
  | answer late =>
      simp only [step] at taken
      unfold Inv at inv
      cases phase : state.phase with
      | asking seq =>
          rw [phase] at taken inv
          obtain ⟨after, stepped, holds, -⟩ := ask_inv isIeee small inv.1 inv.2.1 inv.2.2
          obtain rfl := Option.some.inj (stepped.symm.trans taken)
          exact weaken holds
      | polling =>
          rw [phase] at taken inv
          obtain ⟨after, stepped, outcome⟩ := poll_inv isIeee small inv.1 phase inv.2 late
          obtain rfl := Option.some.inj (stepped.symm.trans taken)
          rcases outcome with ⟨datagrams, done⟩ | ⟨-, again⟩
          · unfold Inv
            rw [done]
            exact ⟨datagrams, rfl⟩
          · cases late with
            | true =>
                rw [if_pos rfl] at again
                obtain ⟨observed, failed⟩ := again
                unfold Inv
                rw [failed]
                exact ⟨fun both => Bool.noConfusion both.2, Or.inr ⟨observed, rfl⟩⟩
            | false =>
                rw [if_neg (by decide)] at again
                exact weaken again
      | sending | reported | raised =>
          rw [phase] at taken
          cases taken
  | timeout processed =>
      have failed := timeout_inv isIeee small inv taken
      unfold Inv
      rw [failed]
      exact ⟨And.right, Or.inl rfl⟩
  | deliver index =>
      simp only [step] at taken
      cases here : state.flight[index]? with
      | none =>
          rw [here] at taken
          cases taken
      | some datagram =>
          obtain ⟨fault, bytes⟩ := datagram
          rw [here] at taken
          obtain rfl := Option.some.inj taken
          exact weaken (delivered_inv small inv here)
  | lose index =>
      simp only [step] at taken
      split_ifs at taken with inside
      obtain rfl := Option.some.inj taken
      exact (lost_inv inv inside).mono And.right

theorem run_inv {schedule : List Action} {final : State} (inv : Inv args kept state)
    (ran : runPartial (step zlibCrc32 args) state schedule = some final) :
    Inv args (kept ∧ ∀ action ∈ schedule, action.Smooth) final := by
  induction schedule generalizing state kept with
  | nil =>
      obtain rfl := Option.some.inj ran
      exact inv.mono And.left
  | cons action rest ih =>
      obtain ⟨next, taken, later⟩ := Option.bind_eq_some_iff.mp ran
      have kept' := ih (step_inv isIeee small inv taken) later
      exact kept'.mono fun all => ⟨⟨all.1, all.2 action List.mem_cons_self⟩,
        fun other here => all.2 other (List.mem_cons_of_mem _ here)⟩

/-! ## Runs in which nothing is lost -/

/-- The generator can go on to a good report. -/
def Finishes (zlibCrc32 : List UInt8 → Nat) (args : Args) (state : State) : Prop :=
  ∃ more last datagrams, runPartial (step zlibCrc32 args) state more = some last ∧
    last.phase = .reported (passed args datagrams)

omit isIeee small in
theorem Finishes.cons {action : Action} {next : State}
    (taken : step zlibCrc32 args state action = some next) (rest : Finishes zlibCrc32 args next) :
    Finishes zlibCrc32 args state := by
  obtain ⟨more, last, datagrams, ran, done⟩ := rest
  exact ⟨action :: more, last, datagrams, by rw [runPartial, taken, Option.bind_some, ran], done⟩

/-- In the polling loop the faults on their way arrive, and the next answer ends the run. -/
theorem polling_finishes (inv : Inv args True state) (polling : state.phase = .polling) :
    Finishes zlibCrc32 args state := by
  generalize length : state.flight.length = flying
  induction flying generalizing state with
  | zero =>
      unfold Inv at inv
      rw [polling] at inv
      obtain ⟨after, stepped, outcome⟩ := poll_inv isIeee small inv.1 polling inv.2 false
      have taken : step zlibCrc32 args state (.answer false) = some after := by
        simp only [step, polling, stepped]
      rcases outcome with ⟨datagrams, done⟩ | ⟨waiting, -⟩
      · exact Finishes.cons taken ⟨[], after, datagrams, rfl, done⟩
      · exact absurd (List.eq_nil_of_length_eq_zero length) (waiting trivial)
  | succ flying ih =>
      have inside : 0 < state.flight.length := by omega
      have here := List.getElem?_eq_getElem inside
      have taken : step zlibCrc32 args state (.deliver 0) =
          some (delivered state 0 state.flight[0].2) := by
        simp only [step, here]
        rfl
      refine Finishes.cons taken (ih (delivered_inv small inv here) polling ?_)
      simp only [delivered, List.length_eraseIdx, if_pos inside]
      omega

/-- From the head of the loop body, by the number of transactions that are left. -/
theorem sending_finishes {seq : Nat} (inv : Inv args True state) (sending : state.phase = .sending seq) :
    Finishes zlibCrc32 args state := by
  generalize remaining : args.count - seq = left
  induction left using Nat.strongRecOn generalizing state seq with
  | _ left ih =>
      have sendTaken : step zlibCrc32 args state .send = some (sendStep zlibCrc32 args state seq) := by
        simp only [step, sending]
      unfold Inv at inv
      rw [sending] at inv
      obtain ⟨sent, asking, same⟩ := send_inv isIeee small inv.1 inv.2.1 inv.2.2
      refine Finishes.cons sendTaken ?_
      unfold Inv at sent
      rw [asking] at sent
      obtain ⟨after, stepped, holds, accepted, phase⟩ :=
        ask_inv isIeee small sent.1 sent.2.1 sent.2.2
      have askTaken : step zlibCrc32 args (sendStep zlibCrc32 args state seq) (.answer false) =
          some after := by
        simp only [step, asking, stepped]
      refine Finishes.cons askTaken ?_
      by_cases more : seq < args.count
      · rw [nextPhase, if_pos more] at phase
        exact ih (args.count - (seq + 1)) (by omega) holds phase rfl
      · rw [nextPhase, if_neg more] at phase
        exact polling_finishes isIeee small holds phase

theorem finishes (inv : Inv args True state) : Finishes zlibCrc32 args state := by
  have holds := inv
  unfold Inv at inv
  cases phase : state.phase with
  | sending seq => exact sending_finishes isIeee small holds phase
  | asking seq =>
      rw [phase] at inv
      obtain ⟨after, stepped, kept, accepted, next⟩ := ask_inv isIeee small inv.1 inv.2.1 inv.2.2
      have taken : step zlibCrc32 args state (.answer false) = some after := by
        simp only [step, phase, stepped]
      refine Finishes.cons taken ?_
      by_cases more : seq < args.count
      · rw [nextPhase, if_pos more] at next
        exact sending_finishes isIeee small kept next
      · rw [nextPhase, if_neg more] at next
        exact polling_finishes isIeee small kept next
  | polling => exact polling_finishes isIeee small holds phase
  | reported report =>
      rw [phase] at inv
      obtain ⟨datagrams, rfl⟩ := inv
      exact ⟨[], state, datagrams, rfl, phase⟩
  | raised failure =>
      rw [phase] at inv
      exact absurd trivial inv.1

end Moves

/-- Whatever the order in which the injected faults arrive among the transactions, and whichever of
them are lost: a report is a pass, with every counter as injected; without a report the run ended in
a timeout, never in a wrong answer; and while nothing is lost it can go on to that report. -/
theorem traffic_lab_passes (zlibCrc32 : List UInt8 → Nat)
    (isIeee : ∀ data, zlibCrc32 data = (ieee data).toNat) (args : Args)
    (small : args.count ≤ 2 ^ 31) (schedule : List Action) (final : State)
    (ran : runPartial (step zlibCrc32 args) start schedule = some final) :
    (∀ report, final.phase = .reported report → ∃ datagrams, report = passed args datagrams) ∧
    (∀ failure, final.phase = .raised failure →
      failure = .timeout ∨ ∃ observed, failure = .notConverged observed) ∧
    ((∀ action ∈ schedule, action.Smooth) →
      ∃ more last datagrams, runPartial (step zlibCrc32 args) final more = some last ∧
        last.phase = .reported (passed args datagrams)) := by
  have inv := run_inv isIeee small (inv_start args True) ran
  refine ⟨fun report reported => ?_, fun failure raised => ?_, fun smooth => ?_⟩
  · unfold Inv at inv
    rw [reported] at inv
    exact inv
  · unfold Inv at inv
    rw [raised] at inv
    exact inv.2
  · exact finishes isIeee small (inv.mono fun _ => ⟨trivial, smooth⟩)

/-- One transaction, spoilt once and replayed once. -/
theorem traffic_lab_passes_one_transaction :
    let args : Args := ⟨1, 1, 1, by decide⟩
    ∃ more last datagrams,
      runPartial (step (fun data => (ieee data).toNat) args) start more = some last ∧
        last.phase = .reported (passed args datagrams) ∧
        (passed args datagrams).crcFaultsInjected = 1 := by
  intro args
  obtain ⟨more, last, datagrams, ran, done⟩ :=
    (traffic_lab_passes (fun data => (ieee data).toNat) (fun _ => rfl) args (by decide) [] start
      rfl).2.2 (by simp)
  exact ⟨more, last, datagrams, ran, done, by simp [args, passed]⟩

end EmbeddedRuntime.Nver.TrafficRun
