import EmbeddedRuntime.Lib.CrcDistance
import EmbeddedRuntime.Nver.PythonPacket

/-!
# Corrupted datagrams never reach a session

The CRC covers the first 20 bytes and the payload, around the CRC field itself.
A copy of a well-formed datagram with one bit inverted, or with an error within
32 consecutive bits of one of the two covered parts, fails one of the checks in
front of the session table, whatever meaning its damaged header has.
-/

set_option autoImplicit false

namespace EmbeddedRuntime.Nver.Corruption

open EmbeddedRuntime.Lib.Crc
open EmbeddedRuntime.Lib.CrcDistance
open EmbeddedRuntime.Nver.Process
open EmbeddedRuntime.Nver.PythonPacket

/-- The bytes under the CRC. -/
def covered (bytes : List UInt8) : List UInt8 := bytes.take 20 ++ bytes.drop headerBytes

/-- One bit inverted anywhere. -/
def OneBit (bytes damaged : List UInt8) : Prop := (differences bytes damaged).length = 1

/-- An error within 32 consecutive bits of the bytes from `low` up to `high`. -/
def Burst (low high : Nat) (bytes damaged : List UInt8) : Prop :=
  damaged ≠ bytes ∧ Within 32 (differences bytes damaged) ∧
    ∀ position ∈ differences bytes damaged, 8 * low ≤ position ∧ position < 8 * high

/-- The errors that never get through. -/
def Corrupted (bytes damaged : List UInt8) : Prop :=
  damaged.length = bytes.length ∧
    (OneBit bytes damaged ∨ Burst 0 20 bytes damaged ∨
      Burst headerBytes bytes.length bytes damaged)

/-! ## The covered bytes -/

section Covered
variable {bytes damaged : List UInt8}

theorem length_covered (enough : headerBytes ≤ bytes.length) :
    (covered bytes).length = bytes.length - 4 := by
  have header : headerBytes = 24 := rfl
  rw [covered, List.length_append, List.length_take, List.length_drop]
  omega

theorem bitAt_covered_low (enough : headerBytes ≤ bytes.length) {position : Nat}
    (inside : position < 160) : bitAt (covered bytes) position = bitAt bytes position := by
  have header : headerBytes = 24 := rfl
  have size : (bytes.take 20).length = 20 := by
    rw [List.length_take]
    omega
  have early : position / 8 < 20 := by omega
  rw [bitAt, bitAt, covered, List.getD_append _ _ _ _ (by omega), List.getD_eq_getElem?_getD,
    List.getElem?_take_of_lt early, ← List.getD_eq_getElem?_getD]

theorem bitAt_covered_high (enough : headerBytes ≤ bytes.length) (position : Nat) :
    bitAt (covered bytes) (160 + position) = bitAt bytes (192 + position) := by
  have header : headerBytes = 24 := rfl
  have size : (bytes.take 20).length = 20 := by
    rw [List.length_take]
    omega
  have index : (160 + position) / 8 = 20 + position / 8 := by omega
  have index' : (192 + position) / 8 = 24 + position / 8 := by omega
  have bit : (160 + position) % 8 = (192 + position) % 8 := by omega
  rw [bitAt, bitAt, covered, List.getD_append_right _ _ _ _ (by omega), size, index, index', bit,
    Nat.add_sub_cancel_left, header, List.getD_eq_getElem?_getD, List.getElem?_drop,
    ← List.getD_eq_getElem?_getD]

/-- Where a covered bit lies in the datagram. -/
def position (covered : Nat) : Nat := if covered < 160 then covered else covered + 32

theorem bitAt_covered (enough : headerBytes ≤ bytes.length) (index : Nat) :
    bitAt (covered bytes) index = bitAt bytes (position index) := by
  unfold position
  split_ifs with low
  · exact bitAt_covered_low enough low
  · have behind : index = 160 + (index - 160) := by omega
    have place : index + 32 = 192 + (index - 160) := by omega
    rw [place, ← bitAt_covered_high enough, ← behind]

theorem mem_differences_covered (enough : headerBytes ≤ bytes.length)
    (lengths : damaged.length = bytes.length) (index : Nat) :
    index ∈ differences (covered bytes) (covered damaged) ↔
      position index ∈ differences bytes damaged := by
  have enough' : headerBytes ≤ damaged.length := lengths ▸ enough
  have header : headerBytes = 24 := rfl
  rw [mem_differences, mem_differences, bitAt_covered enough, bitAt_covered enough',
    length_covered enough]
  refine and_congr ?_ Iff.rfl
  unfold position
  split_ifs <;> omega

/-- Datagrams that agree in the covered bytes differ in the CRC field only. -/
theorem field_of_covered_eq (enough : headerBytes ≤ bytes.length)
    (lengths : damaged.length = bytes.length) (same : covered bytes = covered damaged)
    {index : Nat} (member : index ∈ differences bytes damaged) : 160 ≤ index ∧ index < 192 := by
  have inside (other : Nat) (lies : position other = index) : False := by
    have here := (mem_differences_covered enough lengths other).mpr (lies ▸ member)
    rw [same] at here
    exact (mem_differences.mp here).2 rfl
  by_contra outside
  by_cases low : index < 160
  · exact inside index (if_pos low)
  · refine inside (index - 32) ?_
    unfold position
    rw [if_neg (by omega)]
    omega

end Covered

/-! ## The checks -/

section Checks
variable {bytes damaged : List UInt8}

theorem crc_of_wellFormed (formed : WellFormed bytes) :
    ieee (covered bytes) = beWord bytes 20 := by
  have field := formed.crcOk
  rw [checksum_eq_ieee bytes _ formed.size] at field
  exact field

/-- A burst in one covered part is a burst of the covered bytes. -/
theorem within_covered {low high : Nat} (apart : high ≤ 20 ∨ 24 ≤ low)
    (enough : headerBytes ≤ bytes.length) (lengths : damaged.length = bytes.length)
    (burst : Burst low high bytes damaged) :
    Within 32 (differences (covered bytes) (covered damaged)) := by
  obtain ⟨-, ⟨start, window⟩, part⟩ := burst
  rcases apart with before | behind
  · refine ⟨start, fun index member => ?_⟩
    have there := (mem_differences_covered enough lengths index).mp member
    have inPart := part _ there
    have inWindow := window _ there
    unfold position at inPart inWindow
    split_ifs at inPart inWindow <;> omega
  · refine ⟨start - 32, fun index member => ?_⟩
    have there := (mem_differences_covered enough lengths index).mp member
    have inPart := part _ there
    have inWindow := window _ there
    unfold position at inPart inWindow
    split_ifs at inPart inWindow <;> omega

theorem not_wellFormed_of_burst {low high : Nat} (apart : high ≤ 20 ∨ 24 ≤ low)
    (formed : WellFormed bytes) (lengths : damaged.length = bytes.length)
    (burst : Burst low high bytes damaged) : ¬ WellFormed damaged := by
  intro formed'
  have within := within_covered apart formed.enough lengths burst
  obtain ⟨differ, -, part⟩ := burst
  have otherCover : covered bytes ≠ covered damaged := by
    intro same
    obtain ⟨index, member⟩ := List.exists_mem_of_ne_nil _
      (differences_ne_nil lengths.symm differ.symm)
    have field := field_of_covered_eq formed.enough lengths same member
    have inPart := part index member
    omega
  have sizes : (covered bytes).length = (covered damaged).length := by
    rw [length_covered formed.enough, length_covered formed'.enough, lengths]
  have sameField : beWord bytes 20 = beWord damaged 20 := by
    rw [beWord_eq_iff]
    intro index inside
    by_contra other
    have header : headerBytes = 24 := rfl
    have enough := formed.enough
    have inPart := part (8 * 20 + index) (mem_differences.mpr ⟨by omega, other⟩)
    omega
  apply ieee_burst sizes within otherCover
  rw [crc_of_wellFormed formed, crc_of_wellFormed formed', sameField]

theorem not_wellFormed_of_field (formed : WellFormed bytes)
    (lengths : damaged.length = bytes.length) {index : Nat}
    (only : differences bytes damaged = [index]) (field : 160 ≤ index ∧ index < 192) :
    ¬ WellFormed damaged := by
  intro formed'
  have sameCover : covered bytes = covered damaged := by
    apply eq_of_bits
    · rw [length_covered formed.enough, length_covered formed'.enough, lengths]
    · intro other inside
      by_contra differ
      have there := (mem_differences_covered formed.enough lengths other).mp
        (mem_differences.mpr ⟨inside, differ⟩)
      rw [only, List.mem_singleton] at there
      unfold position at there
      split_ifs at there <;> omega
  have sameField : beWord bytes 20 = beWord damaged 20 := by
    rw [← crc_of_wellFormed formed, sameCover, crc_of_wellFormed formed']
  have here : index ∈ differences bytes damaged := by
    rw [only]
    exact List.mem_singleton_self index
  have same := (beWord_eq_iff bytes damaged 20).mp sameField (index - 160) (by omega)
  have place : 8 * 20 + (index - 160) = index := by omega
  rw [place] at same
  exact (mem_differences.mp here).2 same

theorem not_wellFormed_of_corrupted (formed : WellFormed bytes)
    (corrupted : Corrupted bytes damaged) : ¬ WellFormed damaged := by
  obtain ⟨lengths, one | burst | burst⟩ := corrupted
  · obtain ⟨index, only⟩ := List.length_eq_one_iff.mp one
    have here : index ∈ differences bytes damaged := by
      rw [only]
      exact List.mem_singleton_self index
    have inside := (mem_differences.mp here).1
    have differ : damaged ≠ bytes := by
      rintro rfl
      exact (mem_differences.mp here).2 rfl
    have single (low high : Nat) (part : 8 * low ≤ index ∧ index < 8 * high) :
        Burst low high bytes damaged := by
      refine ⟨differ, ⟨index, fun other member => ?_⟩, fun other member => ?_⟩
      · rw [only, List.mem_singleton] at member
        omega
      · rw [only, List.mem_singleton] at member
        exact member ▸ part
    -- the bit is in front of the CRC field, inside it or behind it
    by_cases before : index < 160
    · exact not_wellFormed_of_burst (Or.inl (Nat.le_refl 20)) formed lengths
        (single 0 20 ⟨by omega, by omega⟩)
    · by_cases behind : 192 ≤ index
      · exact not_wellFormed_of_burst (Or.inr (Nat.le_refl 24)) formed lengths
          (single 24 bytes.length ⟨by omega, by omega⟩)
      · exact not_wellFormed_of_field formed lengths only ⟨by omega, by omega⟩
  · exact not_wellFormed_of_burst (Or.inl (Nat.le_refl 20)) formed lengths burst
  · exact not_wellFormed_of_burst (Or.inr (Nat.le_refl 24)) formed lengths burst

end Checks

/-- A malformed datagram is dropped without an answer, counted once and leaves the sessions
alone. -/
theorem process_malformed (dp : Datapath) {bytes : List UInt8} (bad : ¬ WellFormed bytes) :
    ∃ error, process dp bytes = dp.received.reject error := by
  have verdict := process_verdict dp bytes
  generalize process dp bytes = result at verdict
  cases verdict with
  | malformed error _ => exact ⟨error, rfl⟩
  | full isData _ => exact absurd isData.toWellFormed bad
  | replay isData _ _ => exact absurd isData.toWellFormed bad
  | accepted isData _ _ => exact absurd isData.toWellFormed bad
  | stats isStats => exact absurd isStats.toWellFormed bad
  | reset isReset => exact absurd isReset.toWellFormed bad
  | unknown formed _ _ _ => exact absurd formed bad

theorem reject_invalid (dp : Datapath) (error : ErrorCounter) :
    (dp.received.reject error).2.counts.invalid = dp.counts.invalid + 1 := by
  cases error <;> rfl

/-- In every state, the corrupted copy of a DATA datagram that the state accepts gets no answer,
is counted as invalid once, and leaves the session table as it is. -/
theorem corrupted_datagram_dropped (dp : Datapath) (bytes damaged : List UInt8)
    (accepted : (exchange dp bytes).Accepted) (corrupted : Corrupted bytes damaged) :
    (process dp damaged).1 = [] ∧
      (process dp damaged).2.counts.invalid = dp.counts.invalid + 1 ∧
      (process dp damaged).2.lastSeq = dp.lastSeq := by
  have formed : WellFormed bytes := accepted.1.toWellFormed
  obtain ⟨error, dropped⟩ := process_malformed dp (not_wellFormed_of_corrupted formed corrupted)
  rw [dropped]
  exact ⟨rfl, reject_invalid dp error, rfl⟩

/-- The inverted bit makes the datagram a request for the statistics. -/
theorem corrupted_datagram_dropped_kind :
    (header ((encode .data 0 0 []).set 5 3)).requests .statsRequest ∧
      (process {} ((encode .data 0 0 []).set 5 3)).1 = [] ∧
      (process {} ((encode .data 0 0 []).set 5 3)).2.counts.invalid = 1 ∧
      (process {} ((encode .data 0 0 []).set 5 3)).2.lastSeq = ∅ :=
  ⟨by decide +kernel, corrupted_datagram_dropped {} (encode .data 0 0 []) _ (by decide +kernel)
    ⟨rfl, Or.inl (by decide +kernel : (differences _ _).length = 1)⟩⟩

end EmbeddedRuntime.Nver.Corruption
