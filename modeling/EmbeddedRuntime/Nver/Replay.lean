import EmbeddedRuntime.Lib.SerialNumber
import EmbeddedRuntime.Nver.Accounting

/-!
# Replay protection

`process` compares a sequence number with the last accepted one of its session
only.  The accepted numbers of a session form a chain of serial numbers, and its
lift to the integers carries the comparison to all earlier ones.
-/

set_option autoImplicit false

namespace EmbeddedRuntime.Nver.Replay

open EmbeddedRuntime.Lib.SerialNumber
open EmbeddedRuntime.Nver.Accounting
open EmbeddedRuntime.Nver.Process

/-- The accepted sequence numbers of a session, in order. -/
def sequencesOf (session : UInt32) (log : List Exchange) : List UInt32 :=
  (acceptedOf session log).map Exchange.sequence

theorem sequencesOf_concat (session : UInt32) (log : List Exchange) (e : Exchange) :
    sequencesOf session (log ++ [e]) =
      sequencesOf session log ++ if e.Accepted ∧ e.session = session then [e.sequence] else [] := by
  unfold sequencesOf acceptedOf
  rw [List.filter_append, List.map_append]
  by_cases counts : e.Accepted ∧ e.session = session
  · simp [counts]
  · simp [counts]

/-- The accepted numbers of a session are a chain, and the table holds the last
of them. -/
structure Tracked (session : UInt32) (dp : Datapath) (sequences : List UInt32) : Prop where
  chain : sequences.IsChain Follows
  last : ∀ last, sequences.getLast? = some last → dp.lastSeq.lookup session = some last

/-- A call that is not accepted for the session and keeps its entry. -/
theorem tracked_other {session : UInt32} {dp next : Datapath} {log : List Exchange} {e : Exchange}
    (tracked : Tracked session dp (sequencesOf session log))
    (other : ¬ (e.Accepted ∧ e.session = session))
    (same : next.lastSeq.lookup session = dp.lastSeq.lookup session) :
    Tracked session next (sequencesOf session (log ++ [e])) := by
  rw [sequencesOf_concat, if_neg other, List.append_nil]
  refine ⟨tracked.chain, fun last here => ?_⟩
  rw [same]
  exact tracked.last last here

theorem tracked_call {session : UInt32} {dp : Datapath} {log : List Exchange}
    (tracked : Tracked session dp (sequencesOf session log)) (bytes : List UInt8)
    (notReset : ¬ IsRequest .resetRequest bytes) :
    Tracked session (process dp bytes).2 (sequencesOf session (log ++ [exchange dp bytes])) := by
  unfold exchange
  have verdict := process_verdict dp bytes
  generalize process dp bytes = result at verdict ⊢
  cases verdict with
  | malformed | full | replay | unknown =>
      exact tracked_other tracked (fun accepted => accepted.1.2 rfl) rfl
  | stats isStats =>
      refine tracked_other tracked (fun accepted => ?_) rfl
      exact not_request_of_data accepted.1.1 (by decide) isStats
  | reset isReset => exact absurd isReset notReset
  | accepted isData room fresh =>
      by_cases mine : (header bytes).session = session
      · subst mine
        rw [sequencesOf_concat, if_pos ⟨⟨isData, encode_ne_nil _ _ _ _⟩, rfl⟩]
        constructor
        · apply tracked.chain.append (.singleton _)
          intro last here next isNext
          cases isNext
          exact fresh last (tracked.last last here)
        · intro last here
          rw [List.getLast?_concat] at here
          cases here
          exact AList.lookup_insert _
      · exact tracked_other tracked (fun accepted => mine accepted.2)
          (AList.lookup_insert_ne (Ne.symm mine))

theorem tracked_after (session : UInt32) (dp : Datapath) (datagrams : List (List UInt8))
    (noReset : ∀ bytes ∈ datagrams, ¬ IsRequest .resetRequest bytes) :
    Tracked session (after dp datagrams) (sequencesOf session (exchanges dp datagrams)) := by
  induction datagrams using List.reverseRecOn with
  | nil => exact ⟨.nil, fun _ none => by cases none⟩
  | append_singleton rest bytes ih =>
      rw [after_concat, exchanges_concat]
      apply tracked_call
      · exact ih fun other here => noReset other (List.mem_append_left _ here)
      · exact noReset bytes (by simp)

/-! ## The next datagram -/

theorem process_replayed {dp : Datapath} {bytes : List UInt8} (isData : IsData bytes)
    {last : UInt32} (known : dp.lastSeq.lookup (header bytes).session = some last)
    (stale : ¬ Follows last (header bytes).sequence) :
    process dp bytes = dp.received.reject .replay := by
  have notFresh : ¬ Fresh dp.lastSeq (header bytes) := fun fresh => stale (fresh last known)
  have verdict := process_verdict dp bytes
  generalize process dp bytes = result at verdict ⊢
  cases verdict with
  | replay => rfl
  | malformed error bad => exact absurd isData.toWellFormed bad
  | full _ none => exact absurd (Or.inl (by rw [known]; simp)) none
  | accepted _ _ fresh => exact absurd fresh notFresh
  | stats isStats => exact absurd isStats (not_request_of_data isData (by decide))
  | reset isReset => exact absurd isReset (not_request_of_data isData (by decide))
  | unknown _ notData => exact absurd isData notData

theorem exchange_accepted {dp : Datapath} {bytes : List UInt8} (isData : IsData bytes)
    {last : UInt32} (known : dp.lastSeq.lookup (header bytes).session = some last)
    (follows : Follows last (header bytes).sequence) : (exchange dp bytes).Accepted := by
  have fresh : Fresh dp.lastSeq (header bytes) := by
    intro other here
    rw [known] at here
    cases here
    exact follows
  refine ⟨isData, ?_⟩
  unfold exchange
  have verdict := process_verdict dp bytes
  generalize process dp bytes = result at verdict ⊢
  cases verdict with
  | accepted => exact encode_ne_nil _ _ _ _
  | malformed error bad => exact absurd isData.toWellFormed bad
  | full _ none => exact absurd (Or.inl (by rw [known]; simp)) none
  | replay _ _ stale => exact absurd fresh stale
  | stats isStats => exact absurd isStats (not_request_of_data isData (by decide))
  | reset isReset => exact absurd isReset (not_request_of_data isData (by decide))
  | unknown _ notData => exact absurd isData notData

/-- For every sequence of datagrams without a reset, from any state: the
accepted numbers of a session lift to the integers; a number at most `2 ^ 31`
behind the last one is rejected as a replay, one less than `2 ^ 31` ahead is
accepted, and a number is accepted again only after the session has advanced by
more than `2 ^ 31`. -/
theorem replay_protection (dp : Datapath) (datagrams : List (List UInt8)) (session : UInt32)
    (noReset : ∀ bytes ∈ datagrams, ¬ IsRequest .resetRequest bytes) :
    let sequences := sequencesOf session (exchanges dp datagrams)
    (∃ lifted, Lifting lifted sequences) ∧
    ∀ lifted, Lifting lifted sequences →
      (∀ bytes, IsData bytes → (header bytes).session = session →
        (∀ (i : Nat) u lastU, sequences[i]? = some (header bytes).sequence →
          lifted[i]? = some u → lifted.getLast? = some lastU → lastU - u ≤ 2 ^ 31 →
          process (after dp datagrams) bytes = (after dp datagrams).received.reject .replay) ∧
        (∀ last, sequences.getLast? = some last →
          1 ≤ ((header bytes).sequence - last).toNat →
          ((header bytes).sequence - last).toNat ≤ 2 ^ 31 - 1 →
          (exchange (after dp datagrams) bytes).Accepted)) ∧
      (∀ (i j : Nat) sequence u previous, i ≤ j → sequences[i]? = some sequence →
        sequences[j + 1]? = some sequence → lifted[i]? = some u → lifted[j]? = some previous →
        2 ^ 31 < previous - u) := by
  intro sequences
  have tracked := tracked_after session dp datagrams noReset
  refine ⟨lifting_exists sequences tracked.chain, fun lifted lifting => ⟨?_, ?_⟩⟩
  · intro bytes isData mine
    subst mine
    constructor
    · intro i u lastU here lower upper near
      have nonempty : sequences ≠ [] := by
        intro empty
        rw [empty] at here
        cases here
      have lastHere := List.getLast?_eq_some_getLast nonempty
      apply process_replayed isData (tracked.last _ lastHere)
      exact lifting.behind lower here upper lastHere near
    · intro last here positive bounded
      apply exchange_accepted isData (tracked.last last here)
      have half : (0x80000000 : UInt32).toNat = 2 ^ 31 := rfl
      constructor
      · intro zero
        rw [zero] at positive
        exact absurd positive (by decide)
      · rw [UInt32.lt_iff_toNat_lt, half]
        omega
  · intro i j sequence u previous before here again lower upper
    exact lifting.repeated before here again lower upper

/-- Across the rollover: 1 follows `2 ^ 32 - 1`, which is then a replay. -/
theorem replay_protection_rollover :
    let datagrams := [encode .data 7 0xffffffff [65], encode .data 7 1 [66]]
    sequencesOf 7 (exchanges {} datagrams) = [0xffffffff, 1] ∧
      Lifting [4294967295, 4294967297] (sequencesOf 7 (exchanges {} datagrams)) ∧
      process (after {} datagrams) (encode .data 7 0xffffffff [65]) =
        (after {} datagrams).received.reject .replay := by
  intro datagrams
  have sequences : sequencesOf 7 (exchanges {} datagrams) = [0xffffffff, 1] := by decide +kernel
  have lifting : Lifting [4294967295, 4294967297] (sequencesOf 7 (exchanges {} datagrams)) := by
    rw [sequences]
    exact ⟨.cons rfl (.cons rfl .nil), .cons_cons (by decide) (.singleton _)⟩
  have protection := (replay_protection {} datagrams 7 (by decide +kernel)).2 _ lifting
  refine ⟨sequences, lifting, ?_⟩
  refine (protection.1 (encode .data 7 0xffffffff [65]) (by decide +kernel) (by decide +kernel)).1
    0 4294967295 4294967297 ?_ rfl rfl (by decide)
  rw [sequences]
  decide +kernel

end EmbeddedRuntime.Nver.Replay
