import EmbeddedRuntime.Nver.Replay
import Mathlib.Data.Finset.Card

/-!
# Session isolation

Seen from one session the datapath is a machine of its own, whose state is the
last accepted sequence number.  While the table cannot fill up, a run of the
datapath answers a session's datagrams as that machine does, whatever else the
run contains; so two runs with the same datagrams of a session answer them with
the same bytes.
-/

set_option autoImplicit false

namespace EmbeddedRuntime.Nver.Isolation

open EmbeddedRuntime.Lib.SerialNumber
open EmbeddedRuntime.Nver.Process

/-- A DATA datagram of a session. -/
def IsDataOf (session : UInt32) (bytes : List UInt8) : Prop :=
  IsData bytes ∧ (header bytes).session = session

instance (session : UInt32) (bytes : List UInt8) : Decidable (IsDataOf session bytes) :=
  inferInstanceAs (Decidable (_ ∧ _))

/-- The replies to the DATA datagrams of a session. -/
def repliesTo (session : UInt32) (log : List Exchange) : List (List UInt8) :=
  (log.filter fun e => IsDataOf session e.datagram).map Exchange.reply

/-- The sessions of the DATA datagrams of a sequence. -/
def dataSessions (datagrams : List (List UInt8)) : Finset UInt32 :=
  ((datagrams.filter fun bytes => IsData bytes).map fun bytes => (header bytes).session).toFinset

/-! ## A session alone -/

/-- The answer to a DATA datagram after the last accepted number, and the last
accepted number then. -/
def answerAlone (last : Option UInt32) (bytes : List UInt8) : List UInt8 × Option UInt32 :=
  let h := header bytes
  let acknowledged := (encode .ack h.session h.sequence (bytes.drop headerBytes), some h.sequence)
  match last with
  | none => acknowledged
  | some sequence =>
      if h.sequence - sequence ≠ 0 ∧ h.sequence - sequence < 0x80000000 then acknowledged
      else ([], last)

def repliesAlone (last : Option UInt32) : List (List UInt8) → List (List UInt8)
  | [] => []
  | bytes :: rest => (answerAlone last bytes).1 :: repliesAlone (answerAlone last bytes).2 rest

/-! ## One call -/

theorem answerAlone_fresh {table : SessionTable} {bytes : List UInt8}
    (fresh : Fresh table (header bytes)) :
    answerAlone (table.lookup (header bytes).session) bytes =
      (encode .ack (header bytes).session (header bytes).sequence (bytes.drop headerBytes),
        some (header bytes).sequence) := by
  unfold answerAlone
  cases known : table.lookup (header bytes).session with
  | none => rfl
  | some last => exact if_pos (fresh last known)

theorem answerAlone_stale {table : SessionTable} {bytes : List UInt8}
    (stale : ¬ Fresh table (header bytes)) :
    answerAlone (table.lookup (header bytes).session) bytes =
      ([], table.lookup (header bytes).session) := by
  unfold answerAlone
  cases known : table.lookup (header bytes).session with
  | none => exact absurd (fun last here => by rw [known] at here; cases here) stale
  | some last =>
      apply if_neg
      intro follows
      apply stale
      intro other here
      rw [known] at here
      cases here
      exact follows

theorem room_of_sessions {table : SessionTable} {h : Header} {sessions : Finset UInt32}
    (known : ∀ session ∈ table.keys, session ∈ sessions) (mine : h.session ∈ sessions)
    (few : sessions.card ≤ maxSessions) : Room table h := by
  by_cases present : h.session ∈ table.keys
  · left
    intro absent
    exact AList.lookup_eq_none.mp absent present
  · right
    have size : table.entries.length = table.keys.toFinset.card := by
      rw [List.toFinset_card_of_nodup table.keys_nodup]
      simp [AList.keys, List.keys]
    have fewer : table.keys.toFinset.card < sessions.card := by
      apply Finset.card_lt_card
      refine ⟨fun session here => known session (List.mem_toFinset.mp here), fun all => ?_⟩
      exact present (List.mem_toFinset.mp (all mine))
    omega

/-- A datagram of the session is answered as the session alone answers it. -/
theorem call_mine {dp : Datapath} {session : UInt32} {bytes : List UInt8}
    (mine : IsDataOf session bytes) (room : Room dp.lastSeq (header bytes)) :
    (process dp bytes).1 = (answerAlone (dp.lastSeq.lookup session) bytes).1 ∧
      (process dp bytes).2.lastSeq.lookup session =
        (answerAlone (dp.lastSeq.lookup session) bytes).2 := by
  obtain ⟨isData, rfl⟩ := mine
  have verdict := process_verdict dp bytes
  generalize process dp bytes = result at verdict ⊢
  cases verdict with
  | replay _ _ stale =>
      rw [answerAlone_stale stale]
      exact ⟨rfl, rfl⟩
  | accepted _ _ fresh =>
      rw [answerAlone_fresh fresh]
      exact ⟨rfl, AList.lookup_insert _⟩
  | full _ none => exact absurd room none
  | malformed error bad => exact absurd isData.toWellFormed bad
  | stats isStats => exact absurd isStats (not_request_of_data isData (by decide))
  | reset isReset => exact absurd isReset (not_request_of_data isData (by decide))
  | unknown _ notData => exact absurd isData notData

/-- Any other datagram leaves the entry of the session alone. -/
theorem call_other (dp : Datapath) {session : UInt32} {bytes : List UInt8}
    (other : ¬ IsDataOf session bytes) (notReset : ¬ IsRequest .resetRequest bytes) :
    (process dp bytes).2.lastSeq.lookup session = dp.lastSeq.lookup session := by
  have verdict := process_verdict dp bytes
  generalize process dp bytes = result at verdict ⊢
  cases verdict with
  | malformed | full | replay | unknown | stats => rfl
  | reset isReset => exact absurd isReset notReset
  | accepted isData =>
      exact AList.lookup_insert_ne fun same => other ⟨isData, same.symm⟩

/-- The table holds sessions of DATA datagrams only. -/
theorem call_keys {dp : Datapath} {bytes : List UInt8} {sessions : Finset UInt32}
    (known : ∀ session ∈ dp.lastSeq.keys, session ∈ sessions)
    (counted : IsData bytes → (header bytes).session ∈ sessions) :
    ∀ session ∈ (process dp bytes).2.lastSeq.keys, session ∈ sessions := by
  have verdict := process_verdict dp bytes
  generalize process dp bytes = result at verdict ⊢
  cases verdict with
  | malformed | full | replay | unknown | stats => exact known
  | reset => simp
  | accepted isData =>
      intro session here
      rw [AList.keys_insert] at here
      rcases List.mem_cons.mp here with rfl | old
      · exact counted isData
      · exact known session (List.mem_of_mem_erase old)

/-! ## Runs -/

/-- A run answers a session as the session alone would be answered. -/
theorem repliesTo_alone (session : UInt32) (sessions : Finset UInt32)
    (few : sessions.card ≤ maxSessions) (datagrams : List (List UInt8)) (dp : Datapath)
    (noReset : ∀ bytes ∈ datagrams, ¬ IsRequest .resetRequest bytes)
    (known : ∀ session ∈ dp.lastSeq.keys, session ∈ sessions)
    (counted : ∀ bytes ∈ datagrams, IsData bytes → (header bytes).session ∈ sessions) :
    repliesTo session (exchanges dp datagrams) =
      repliesAlone (dp.lastSeq.lookup session)
        (datagrams.filter fun bytes => IsDataOf session bytes) := by
  induction datagrams generalizing dp with
  | nil => rfl
  | cons bytes rest ih =>
      have later := ih (process dp bytes).2
        (fun other here => noReset other (List.mem_cons_of_mem _ here))
        (call_keys known (counted bytes List.mem_cons_self))
        (fun other here => counted other (List.mem_cons_of_mem _ here))
      unfold repliesTo at later ⊢
      rw [exchanges]
      by_cases mine : IsDataOf session bytes
      · have room := room_of_sessions known (counted bytes List.mem_cons_self mine.1) few
        obtain ⟨reply, entry⟩ := call_mine mine room
        simp only [List.filter_cons, exchange, mine, decide_true, if_true, List.map_cons, later,
          entry, reply, repliesAlone]
      · have entry := call_other dp mine (noReset bytes List.mem_cons_self)
        simp only [List.filter_cons, exchange, mine, decide_false, Bool.false_eq_true, if_false,
          later, entry]

/-- Two runs without reset, over at most 64 sessions each, that contain the same
DATA datagrams of a session answer them with the same bytes. -/
theorem session_isolation (session : UInt32) (first second : List (List UInt8))
    (firstNoReset : ∀ bytes ∈ first, ¬ IsRequest .resetRequest bytes)
    (secondNoReset : ∀ bytes ∈ second, ¬ IsRequest .resetRequest bytes)
    (firstFew : (dataSessions first).card ≤ maxSessions)
    (secondFew : (dataSessions second).card ≤ maxSessions)
    (same : (first.filter fun bytes => IsDataOf session bytes) =
      second.filter fun bytes => IsDataOf session bytes) :
    repliesTo session (exchanges {} first) = repliesTo session (exchanges {} second) := by
  have alone : ∀ datagrams : List (List UInt8),
      (∀ bytes ∈ datagrams, ¬ IsRequest .resetRequest bytes) →
      (dataSessions datagrams).card ≤ maxSessions →
      repliesTo session (exchanges {} datagrams) =
        repliesAlone none (datagrams.filter fun bytes => IsDataOf session bytes) := by
    intro datagrams noReset few
    apply repliesTo_alone session (dataSessions datagrams) few datagrams {} noReset
    · simp
    · intro bytes here isData
      simp only [dataSessions, List.mem_toFinset, List.mem_map, List.mem_filter]
      exact ⟨bytes, ⟨here, by simpa using isData⟩, rfl⟩
  rw [alone first firstNoReset firstFew, alone second secondNoReset secondFew, same]

/-- One datagram of session 7, alone and after a datagram of session 9. -/
theorem session_isolation_two_sessions :
    let mine := encode .data 7 1 [65]
    let other := encode .data 9 5 [66]
    repliesTo 7 (exchanges {} [other, mine]) = repliesTo 7 (exchanges {} [mine]) := by
  intro mine other
  apply session_isolation 7 [other, mine] [mine] <;> decide +kernel

end EmbeddedRuntime.Nver.Isolation
