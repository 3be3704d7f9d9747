import EmbeddedRuntime.Nver.Process
import Mathlib.Algebra.GroupWithZero.Nat
import Mathlib.Data.List.DropRight

/-!
# Accounting of the datapath

The counters and the session table are functions of the calls since the last
answered reset.  A call adds one entry to these calls, so every law is proved
for one call, by the verdict on its datagram, and then by induction over the
sequence from its end.
-/

set_option autoImplicit false

namespace EmbeddedRuntime.Nver.Accounting

open EmbeddedRuntime.Nver.Process

/-- The calls since the last answered reset, or since the start. -/
def sinceReset (log : List Exchange) : List Exchange :=
  log.rtakeWhile fun e => ¬ e.Answered .resetRequest

/-- The calls that acknowledged a datagram of a session. -/
def acceptedOf (session : UInt32) (log : List Exchange) : List Exchange :=
  log.filter fun e => e.Accepted ∧ e.session = session

/-- The laws of the counters and the table, for the calls since the last reset. -/
structure Accounts (dp : Datapath) (log : List Exchange) : Prop where
  datagrams : dp.counts.datagrams = dp.counts.accepted + dp.counts.invalid +
    UInt64.ofNat (log.countP fun e => e.Answered .statsRequest)
  invalid : dp.counts.invalid = dp.counts.crcErrors + dp.counts.lengthErrors +
    dp.counts.replayErrors + dp.counts.headerErrors + dp.counts.typeErrors +
    dp.counts.sessionErrors
  accepted : dp.counts.accepted = UInt64.ofNat (log.countP fun e => e.Accepted)
  bytes : dp.counts.bytesAccepted =
    UInt64.ofNat ((log.filter fun e => e.Accepted).map Exchange.length).sum
  sessions : dp.sessions ≤ maxSessions
  table : ∀ session, dp.lastSeq.lookup session =
    ((acceptedOf session log).getLast?).map Exchange.sequence

/-- One call counts its datagram under exactly one heading. -/
def CountedOnce (dp next : Datapath) (e : Exchange) : Prop :=
  (e.Accepted ∧ next.counts =
    { dp.received.counts with
      accepted := dp.counts.accepted + 1
      bytesAccepted := dp.counts.bytesAccepted + UInt64.ofNat e.length }) ∨
  (e.Answered .statsRequest ∧ next.counts = dp.received.counts) ∨
  (e.reply = [] ∧ next.lastSeq = dp.lastSeq ∧
    ∃ error, next.counts = dp.received.counts.reject error)

/-! ## One call -/

theorem reject_invalid (counts : Counters) (error : ErrorCounter) :
    (counts.reject error).invalid = counts.invalid + 1 ∧
      (counts.reject error).accepted = counts.accepted ∧
      (counts.reject error).datagrams = counts.datagrams ∧
      (counts.reject error).bytesAccepted = counts.bytesAccepted := by
  cases error <;> exact ⟨rfl, rfl, rfl, rfl⟩

theorem reject_errors (counts : Counters) (error : ErrorCounter)
    (sum : counts.invalid = counts.crcErrors + counts.lengthErrors + counts.replayErrors +
      counts.headerErrors + counts.typeErrors + counts.sessionErrors) :
    (counts.reject error).invalid = (counts.reject error).crcErrors +
      (counts.reject error).lengthErrors + (counts.reject error).replayErrors +
      (counts.reject error).headerErrors + (counts.reject error).typeErrors +
      (counts.reject error).sessionErrors := by
  cases error <;> simp only [Counters.reject, sum] <;> grind

/-- A call that acknowledges nothing is not among those that do. -/
theorem accepted_skip {last : Exchange} (notAccepted : ¬ last.Accepted) (log : List Exchange) :
    ((log ++ [last]).countP fun e => e.Accepted) = (log.countP fun e => e.Accepted) ∧
      ((log ++ [last]).filter fun e => e.Accepted) = (log.filter fun e => e.Accepted) ∧
      ∀ session, acceptedOf session (log ++ [last]) = acceptedOf session log := by
  refine ⟨?_, ?_, ?_⟩
  · rw [List.countP_append, List.countP_singleton, if_neg (by simpa using notAccepted),
      Nat.add_zero]
  · rw [List.filter_append, List.filter_singleton]
    simp only [notAccepted, decide_false, cond_false, List.append_nil]
  · intro session
    simp only [acceptedOf, List.filter_append, List.filter_singleton, notAccepted, false_and,
      decide_false, cond_false, List.append_nil]

/-- A call that rejects changes the log under no heading but its own. -/
theorem accounts_reject {dp : Datapath} {log : List Exchange} (accounts : Accounts dp log)
    (error : ErrorCounter) (bytes : List UInt8) :
    Accounts (dp.received.reject error).2 (log ++ [⟨bytes, []⟩]) := by
  have notAccepted : ¬ (Exchange.mk bytes []).Accepted := fun accepted => accepted.2 rfl
  have notAnswered : ∀ kind, ¬ (Exchange.mk bytes []).Answered kind := fun _ answered =>
    answered.2 rfl
  obtain ⟨invalid, accepted, datagrams, bytesSame⟩ := reject_invalid dp.received.counts error
  obtain ⟨sameCount, sameCalls, sameOf⟩ := accepted_skip notAccepted log
  refine ⟨?_, ?_, ?_, ?_, accounts.sessions, ?_⟩
  · simp only [Datapath.reject]
    rw [invalid, accepted, datagrams, List.countP_append, List.countP_singleton,
      if_neg (by simpa using notAnswered .statsRequest), Nat.add_zero]
    simp only [Datapath.received, accounts.datagrams]
    grind
  · exact reject_errors dp.received.counts error accounts.invalid
  · simp only [Datapath.reject]
    rw [accepted, sameCount]
    exact accounts.accepted
  · simp only [Datapath.reject]
    rw [bytesSame, sameCalls]
    exact accounts.bytes
  · intro session
    rw [sameOf]
    exact accounts.table session

theorem sessions_insert {table : SessionTable} {h : Header} (room : Room table h)
    (bounded : table.entries.length ≤ maxSessions) :
    (table.insert h.session h.sequence).entries.length ≤ maxSessions := by
  have size : ∀ other : SessionTable, other.entries.length = other.keys.length := by
    intro other
    simp [AList.keys, List.keys]
  rw [size, AList.keys_insert, List.length_cons]
  by_cases known : h.session ∈ table.keys
  · rw [List.length_erase_of_mem known, ← size]
    have positive : 0 < table.keys.length := List.length_pos_of_mem known
    rw [← size] at positive
    omega
  · rw [List.erase_of_not_mem known, ← size]
    have absent : table.lookup h.session = none := AList.lookup_eq_none.mpr known
    rcases room with present | space
    · exact absurd absent present
    · omega

/-- An acknowledged call is the last one of its session. -/
theorem accounts_accept {dp : Datapath} {log : List Exchange} (accounts : Accounts dp log)
    {bytes reply : List UInt8} (isData : IsData bytes) (answered : reply ≠ [])
    (room : Room dp.lastSeq (header bytes)) :
    Accounts
      { counts :=
          { dp.received.counts with
            accepted := dp.counts.accepted + 1
            bytesAccepted := dp.counts.bytesAccepted + (header bytes).length.toUInt64 }
        lastSeq := dp.lastSeq.insert (header bytes).session (header bytes).sequence }
      (log ++ [⟨bytes, reply⟩]) := by
  have accepted : (Exchange.mk bytes reply).Accepted := ⟨isData, answered⟩
  have notStats : ¬ (Exchange.mk bytes reply).Answered .statsRequest := fun stats =>
    not_request_of_data isData (by decide) stats.1
  refine ⟨?_, accounts.invalid, ?_, ?_, sessions_insert room accounts.sessions, ?_⟩
  · rw [List.countP_append, List.countP_singleton, if_neg (by simpa using notStats), Nat.add_zero]
    simp only [Datapath.received, accounts.datagrams]
    grind
  · rw [List.countP_append, List.countP_singleton, if_pos (by simpa using accepted),
      UInt64.ofNat_add, ← accounts.accepted]
    rfl
  · rw [List.filter_append, List.filter_singleton]
    simp only [accepted, decide_true, cond_true, List.map_append, List.map_singleton,
      List.sum_append, List.sum_singleton, UInt64.ofNat_add]
    rw [← accounts.bytes]
    congr 1
    exact (UInt64.ofNat_toNat ..).symm
  · intro session
    simp only [acceptedOf, List.filter_append, List.filter_singleton, accepted, true_and]
    by_cases mine : (header bytes).session = session
    · subst mine
      simp only [Exchange.session, decide_true, cond_true, List.getLast?_append, AList.lookup_insert]
      rfl
    · have other : ¬ (Exchange.mk bytes reply).session = session := mine
      simp only [other, decide_false, cond_false, List.append_nil]
      rw [AList.lookup_insert_ne (Ne.symm mine)]
      exact accounts.table session

theorem accounts_stats {dp : Datapath} {log : List Exchange} (accounts : Accounts dp log)
    {bytes reply : List UInt8} (isStats : IsRequest .statsRequest bytes) (answered : reply ≠ []) :
    Accounts dp.received (log ++ [⟨bytes, reply⟩]) := by
  have counts : (Exchange.mk bytes reply).Answered .statsRequest := ⟨isStats, answered⟩
  have notAccepted : ¬ (Exchange.mk bytes reply).Accepted := fun accepted =>
    not_request_of_data accepted.1 (by decide) isStats
  obtain ⟨sameCount, sameCalls, sameOf⟩ := accepted_skip notAccepted log
  refine ⟨?_, accounts.invalid, ?_, ?_, accounts.sessions, ?_⟩
  · rw [List.countP_append, List.countP_singleton, if_pos (by simpa using counts),
      UInt64.ofNat_add]
    simp only [Datapath.received, accounts.datagrams]
    grind
  · rw [sameCount]
    exact accounts.accepted
  · rw [sameCalls]
    exact accounts.bytes
  · intro session
    rw [sameOf]
    exact accounts.table session

theorem accounts_start : Accounts {} [] :=
  ⟨rfl, rfl, rfl, rfl, Nat.zero_le _, fun _ => rfl⟩

/-! ## Sequences -/

/-- What one call adds to the calls since the last reset. -/
theorem accounts_call {dp : Datapath} {log : List Exchange} (accounts : Accounts dp (sinceReset log))
    (bytes : List UInt8) :
    Accounts (process dp bytes).2 (sinceReset (log ++ [exchange dp bytes])) := by
  have kept : ¬ (exchange dp bytes).Answered .resetRequest →
      sinceReset (log ++ [exchange dp bytes]) = sinceReset log ++ [exchange dp bytes] :=
    fun notReset => List.rtakeWhile_concat_pos _ _ _ (by simpa using notReset)
  unfold exchange at kept ⊢
  have verdict := process_verdict dp bytes
  generalize process dp bytes = result at kept verdict ⊢
  cases verdict with
  | malformed | full | replay | unknown =>
      rw [kept fun reset => reset.2 rfl]
      exact accounts_reject accounts _ bytes
  | accepted isData room fresh =>
      rw [kept fun reset => not_request_of_data isData (by decide) reset.1]
      exact accounts_accept accounts isData (encode_ne_nil _ _ _ _) room
  | stats isStats =>
      rw [kept fun reset => not_reset_of_stats isStats reset.1]
      exact accounts_stats accounts isStats (encode_ne_nil _ _ _ _)
  | reset isReset =>
      have answered : (Exchange.mk bytes (encode .resetReply 0 0 [])).Answered .resetRequest :=
        ⟨isReset, encode_ne_nil _ _ _ _⟩
      rw [sinceReset, List.rtakeWhile_concat_neg _ _ _ (by simpa using answered)]
      exact accounts_start

theorem accounts_after (datagrams : List (List UInt8)) :
    Accounts (after {} datagrams) (sinceReset (exchanges {} datagrams)) := by
  induction datagrams using List.reverseRecOn with
  | nil => exact accounts_start
  | append_singleton rest bytes ih =>
      rw [after_concat, exchanges_concat]
      exact accounts_call ih bytes

/-- A call counts its datagram once, and empties its reply exactly when it
counts it invalid. -/
theorem call_counted (dp : Datapath) (bytes : List UInt8)
    (notReset : ¬ (exchange dp bytes).Answered .resetRequest) :
    CountedOnce dp (process dp bytes).2 (exchange dp bytes) ∧
      ((exchange dp bytes).reply = [] ↔
        (process dp bytes).2.counts.invalid = dp.counts.invalid + 1) := by
  have changes : dp.counts.invalid ≠ dp.counts.invalid + 1 := by
    intro same
    have zero : (0 : UInt64) = 1 := by grind
    exact absurd zero (by decide)
  unfold exchange at notReset ⊢
  have verdict := process_verdict dp bytes
  generalize process dp bytes = result at notReset verdict ⊢
  have rejected : ∀ error, CountedOnce dp (dp.received.reject error).2 ⟨bytes, []⟩ ∧
      (([] : List UInt8) = [] ↔
        (dp.received.reject error).2.counts.invalid = dp.counts.invalid + 1) := by
    intro error
    refine ⟨Or.inr (Or.inr ⟨rfl, rfl, error, rfl⟩), fun _ => ?_, fun _ => rfl⟩
    exact (reject_invalid dp.received.counts error).1
  cases verdict with
  | malformed | full | replay | unknown => exact rejected _
  | accepted isData room fresh =>
      refine ⟨Or.inl ⟨⟨isData, encode_ne_nil _ _ _ _⟩, ?_⟩, ?_, ?_⟩
      · simp only [Exchange.length]
        congr 2
        exact (UInt64.ofNat_toNat ..).symm
      · exact fun empty => absurd empty (encode_ne_nil _ _ _ _)
      · exact fun counted => absurd counted changes
  | stats isStats =>
      refine ⟨Or.inr (Or.inl ⟨⟨isStats, encode_ne_nil _ _ _ _⟩, rfl⟩), ?_, ?_⟩
      · exact fun empty => absurd empty (encode_ne_nil _ _ _ _)
      · exact fun counted => absurd counted changes
  | reset isReset => exact absurd ⟨isReset, encode_ne_nil _ _ _ _⟩ notReset

/-- After every sequence of datagrams the laws hold for the calls since the last
reset.  The next call counts its datagram once unless it answers a reset, and a
datagram without reply is counted invalid and leaves the table alone. -/
theorem datapath_accounts (datagrams : List (List UInt8)) (bytes : List UInt8) :
    let dp := after {} datagrams
    let next := (process dp bytes).2
    let call := exchange dp bytes
    Accounts dp (sinceReset (exchanges {} datagrams)) ∧
      (¬ call.Answered .resetRequest →
        CountedOnce dp next call ∧
          (call.reply = [] ↔ next.counts.invalid = dp.counts.invalid + 1)) ∧
      (call.reply = [] → next.lastSeq = dp.lastSeq) := by
  intro dp next call
  refine ⟨accounts_after datagrams, call_counted dp bytes, ?_⟩
  intro empty
  have notReset : ¬ call.Answered .resetRequest := fun reset => reset.2 empty
  rcases (call_counted dp bytes notReset).1 with accepted | stats | rejected
  · exact absurd empty accepted.1.2
  · exact absurd empty stats.1.2
  · exact rejected.2.1

/-- A DATA datagram sent twice. -/
theorem datapath_accounts_replayed :
    let datagram := encode .data 7 1 [65]
    (exchange (after {} [datagram]) datagram).reply = [] ∧
      (process (after {} [datagram]) datagram).2.counts.invalid =
        (after {} [datagram]).counts.invalid + 1 := by
  intro datagram
  have counted := datapath_accounts [datagram] datagram
  have empty : (exchange (after {} [datagram]) datagram).reply = [] := by decide +kernel
  exact ⟨empty, (counted.2.1 fun reset => reset.2 empty).2.mp empty⟩

end EmbeddedRuntime.Nver.Accounting
