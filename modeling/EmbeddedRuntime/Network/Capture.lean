import EmbeddedRuntime.Lib.Buffer
import EmbeddedRuntime.Network.Lockstep
import Mathlib.Data.List.Infix

/-!
# What `execute_capture` returns, and where it writes

The capacity is 4096 times a power of two, has room for the terminator, and
exceeds one mebibyte only once exactly one mebibyte was read.  The truncation
notice needs such a capacity when the limit is crossed, so it is dropped unless
some of the reads add up to the limit.
-/

set_option autoImplicit false

namespace EmbeddedRuntime.Network.Capture

open EmbeddedRuntime.Lib.Buffer
open EmbeddedRuntime.Lib.Machine
open EmbeddedRuntime.Network.Session
open EmbeddedRuntime.Network.Lockstep

/-- The size of the array `chunk` that is read into, and the first capacity. -/
def chunkSize : Nat := 4096

/-- What `read` can return before the end of the file. -/
def Chunked (chunks : List Bytes) : Prop :=
  ∀ chunk ∈ chunks, 1 ≤ chunk.length ∧ chunk.length ≤ chunkSize

/-! ## Capacities -/

/-- A capacity that doubling can reach. -/
def Doubling (cap : Nat) : Prop := ∃ k, cap = chunkSize * 2 ^ k

theorem Doubling.double {cap : Nat} (doubling : Doubling cap) : Doubling (2 * cap) := by
  obtain ⟨k, rfl⟩ := doubling
  exact ⟨k + 1, (Nat.mul_comm 2 _).trans (Nat.mul_assoc ..)⟩

/-- No capacity lies between one and its double. -/
theorem Doubling.le_of_lt {a b : Nat} (first : Doubling a) (second : Doubling b)
    (less : a < 2 * b) : a ≤ b := by
  obtain ⟨i, rfl⟩ := first
  obtain ⟨j, rfl⟩ := second
  have powers : 2 ^ i < 2 ^ (j + 1) := by
    refine Nat.lt_of_mul_lt_mul_left (?_ : chunkSize * 2 ^ i < chunkSize * 2 ^ (j + 1))
    rw [Nat.pow_succ, ← Nat.mul_assoc]
    omega
  have exponents : i ≤ j := Nat.le_of_lt_succ ((Nat.pow_lt_pow_iff_right (by decide)).mp powers)
  exact Nat.mul_le_mul_left _ (Nat.pow_le_pow_right (by decide) exponents)

theorem doubling_maxResponse : Doubling maxResponse := ⟨8, by decide⟩

theorem growCap_of_le {newCap needed : Nat} (enough : needed ≤ newCap) :
    growCap newCap needed = newCap := by
  rw [growCap, if_neg (by omega)]

/-- What holds each time `read` is called. -/
structure Roomy (cap : Nat) (buf : Bytes) : Prop where
  doubling : Doubling cap
  spare : buf.length + 1 ≤ cap
  within : buf.length ≤ maxResponse
  tight : buf.length < maxResponse → cap ≤ maxResponse
  top : cap ≤ 2 * maxResponse

theorem roomy_nil : Roomy chunkSize [] :=
  ⟨⟨0, rfl⟩, by decide, by decide, by decide, by decide⟩

section Step
variable {cap : Nat} {buf chunk : Bytes}

theorem Roomy.chunkSize_le (roomy : Roomy cap buf) : chunkSize ≤ cap := by
  obtain ⟨k, rfl⟩ := roomy.doubling
  exact Nat.le_mul_of_pos_right _ (Nat.two_pow_pos k)

/-- The loop over the capacity ends at its first test. -/
theorem Roomy.growCap_eq (roomy : Roomy cap buf) (short : chunk.length ≤ chunkSize) :
    growCap (2 * cap) (buf.length + chunk.length + 1) = 2 * cap := by
  have size := roomy.chunkSize_le
  have spare := roomy.spare
  exact growCap_of_le (by omega)

/-- The capacity after a read that stays within the limit. -/
def nextCap (cap len : Nat) (chunk : Bytes) : Nat :=
  if len + chunk.length + 1 > cap then growCap (2 * cap) (len + chunk.length + 1) else cap

theorem Roomy.append (roomy : Roomy cap buf) (short : chunk.length ≤ chunkSize)
    (fits : buf.length + chunk.length ≤ maxResponse) :
    Roomy (nextCap cap buf.length chunk) (buf ++ chunk) := by
  have size := roomy.chunkSize_le
  have spare := roomy.spare
  have length : (buf ++ chunk).length = buf.length + chunk.length := List.length_append
  unfold nextCap
  split_ifs with full
  · rw [roomy.growCap_eq short]
    have half : cap ≤ maxResponse :=
      roomy.doubling.le_of_lt doubling_maxResponse (by omega)
    refine ⟨roomy.doubling.double, by omega, by omega, ?_, by omega⟩
    intro below
    by_contra above
    have reached : maxResponse ≤ cap :=
      doubling_maxResponse.le_of_lt roomy.doubling (by omega)
    omega
  · exact ⟨roomy.doubling, by omega, by omega, fun below => roomy.tight (by omega), roomy.top⟩

/-- When the limit is crossed the buffer holds one mebibyte, and the notice fits exactly if one
mebibyte was read before. -/
theorem Roomy.crossing (roomy : Roomy cap buf) (short : chunk.length ≤ chunkSize)
    (long : buf.length + chunk.length > maxResponse) :
    maxResponse ≤ cap ∧
      (maxResponse + truncated.length ≤ cap ↔ buf.length = maxResponse) := by
  have notice : truncated.length = 29 := by decide
  have limit : maxResponse = 1048576 := by decide
  have size : chunkSize = 4096 := rfl
  have spare := roomy.spare
  have within := roomy.within
  have reached : maxResponse ≤ cap :=
    doubling_maxResponse.le_of_lt roomy.doubling (by omega)
  refine ⟨reached, ?_, ?_⟩
  · intro fits
    by_contra other
    have tight := roomy.tight (by omega)
    omega
  · intro exact
    have above : 2 * maxResponse ≤ cap :=
      doubling_maxResponse.double.le_of_lt roomy.doubling (by omega)
    omega

end Step

/-! ## The bytes returned -/

/-- Some of the reads, from the first on, add up to the limit. -/
def MeetsLimit (len : Nat) (chunks : List Bytes) : Prop :=
  ∃ before, before <+: chunks ∧ len + before.flatten.length = maxResponse

theorem meetsLimit_cons {len : Nat} {chunk : Bytes} {chunks : List Bytes}
    (below : len ≠ maxResponse) :
    MeetsLimit len (chunk :: chunks) ↔ MeetsLimit (len + chunk.length) chunks := by
  constructor
  · rintro ⟨before, isPrefix, reached⟩
    cases before with
    | nil => exact absurd reached below
    | cons first before =>
        obtain ⟨rfl, rest⟩ := List.cons_prefix_cons.mp isPrefix
        rw [List.flatten_cons, List.length_append, ← Nat.add_assoc] at reached
        exact ⟨before, rest, reached⟩
  · rintro ⟨before, isPrefix, reached⟩
    refine ⟨chunk :: before, List.cons_prefix_cons.mpr ⟨rfl, isPrefix⟩, ?_⟩
    rw [List.flatten_cons, List.length_append, ← Nat.add_assoc]
    exact reached

/-- Beyond the limit there is nothing more to meet. -/
theorem not_meetsLimit_of_long {len : Nat} {chunk : Bytes} {chunks : List Bytes}
    (below : len ≠ maxResponse) (long : len + chunk.length > maxResponse) :
    ¬ MeetsLimit len (chunk :: chunks) := by
  rw [meetsLimit_cons below]
  rintro ⟨before, -, reached⟩
  omega

/-- What the loop returns from any of its states. -/
theorem captureLoop_returns {cap : Nat} {buf : Bytes} {chunks : List Bytes}
    (roomy : Roomy cap buf) (chunked : Chunked chunks) :
    (buf.length + chunks.flatten.length ≤ maxResponse →
      captureLoop cap buf chunks = buf ++ chunks.flatten) ∧
    (buf.length + chunks.flatten.length > maxResponse →
      (MeetsLimit buf.length chunks →
        captureLoop cap buf chunks = (buf ++ chunks.flatten).take maxResponse ++ truncated) ∧
      (¬ MeetsLimit buf.length chunks →
        captureLoop cap buf chunks = (buf ++ chunks.flatten).take maxResponse)) := by
  induction chunks generalizing cap buf with
  | nil =>
      have within := roomy.within
      rw [captureLoop, List.flatten_nil, List.append_nil, List.length_nil]
      exact ⟨fun _ => rfl, fun long => by omega⟩
  | cons chunk chunks ih =>
      obtain ⟨⟨some, short⟩, later⟩ := List.forall_mem_cons.mp chunked
      have nonempty : chunk ≠ [] := List.length_pos_iff.mp some
      have within := roomy.within
      rw [captureLoop, if_neg nonempty, List.flatten_cons, List.length_append]
      by_cases long : buf.length + chunk.length > maxResponse
      · obtain ⟨reached, fits⟩ := roomy.crossing short long
        have taken : buf ++ chunk.take (maxResponse - buf.length) =
            (buf ++ (chunk ++ chunks.flatten)).take maxResponse := by
          rw [List.take_append, List.take_of_length_le within,
            List.take_append_of_le_length (by omega)]
        have filled : (buf ++ chunk.take (maxResponse - buf.length)).length = maxResponse := by
          rw [List.length_append, List.length_take]
          omega
        simp only [if_pos long, room_eq, filled, fits]
        refine ⟨fun total => by omega, fun _ => ⟨fun meets => ?_, fun misses => ?_⟩⟩
        · have exact : buf.length = maxResponse := by
            by_contra below
            exact not_meetsLimit_of_long below long meets
          rw [if_pos exact, taken]
        · have below : buf.length ≠ maxResponse := fun exact =>
            misses ⟨[], List.nil_prefix, exact⟩
          rw [if_neg below, taken]
      · have next := ih (roomy.append short (by omega)) later
        rw [List.length_append, List.append_assoc, Nat.add_assoc] at next
        rw [if_neg long]
        refine ⟨next.1, fun total => ?_⟩
        rw [meetsLimit_cons (by omega)]
        exact next.2 total

/-- The output of a command, cut at one mebibyte with a notice. -/
def limited (output : Bytes) : Bytes :=
  if output.length ≤ maxResponse then output else output.take maxResponse ++ truncated

theorem truncated_ne_nil : truncated ≠ [] := by
  rw [← List.length_pos_iff]
  decide

/-- The notice is there exactly when the output fits or the reads meet the limit. -/
theorem limited_iff_meetsLimit (execution : Execution) (chunked : Chunked execution.chunks) :
    (executeCapture execution).1 = limited execution.chunks.flatten ↔
      execution.chunks.flatten.length ≤ maxResponse ∨ MeetsLimit 0 execution.chunks := by
  have returns := captureLoop_returns roomy_nil chunked
  simp only [List.length_nil, Nat.zero_add, List.nil_append] at returns
  change captureLoop chunkSize [] execution.chunks = _ ↔ _
  rw [limited]
  by_cases fits : execution.chunks.flatten.length ≤ maxResponse
  · rw [if_pos fits]
    exact iff_of_true (returns.1 fits) (Or.inl fits)
  · rw [if_neg fits]
    have cut := returns.2 (Nat.lt_of_not_le fits)
    by_cases meets : MeetsLimit 0 execution.chunks
    · exact iff_of_true (cut.1 meets) (Or.inr meets)
    · rw [cut.2 meets]
      refine iff_of_false ?_ (not_or.mpr ⟨fits, meets⟩)
      intro same
      exact truncated_ne_nil (List.self_eq_append_right.mp same)

/-- `execute_capture` returns the output, cut at one mebibyte with the notice, exactly when the
output is no longer than that or some of the reads, from the first on, add up to it. -/
theorem capture_returns_limited_iff (execution : Execution) (chunked : Chunked execution.chunks) :
    (executeCapture execution).1 = limited execution.chunks.flatten ↔
      execution.chunks.flatten.length ≤ maxResponse ∨
        ∃ before, before <+: execution.chunks ∧ before.flatten.length = maxResponse := by
  have returns := limited_iff_meetsLimit execution chunked
  simp only [MeetsLimit, Nat.zero_add] at returns
  exact returns

/-! One mebibyte and a byte, read in full chunks after the first byte or before the last. -/

def fullChunks : List Bytes := List.replicate 256 (List.replicate chunkSize 0)

def offsetReads : List Bytes := [0] :: fullChunks

def alignedReads : List Bytes := fullChunks ++ [[0]]

theorem chunked_fullChunks : Chunked fullChunks := by
  intro chunk member
  rw [List.eq_of_mem_replicate member, List.length_replicate]
  decide

theorem flatten_fullChunks : fullChunks.flatten = List.replicate maxResponse 0 :=
  List.flatten_replicate_replicate

theorem chunked_offsetReads : Chunked offsetReads :=
  List.forall_mem_cons.mpr ⟨by decide, chunked_fullChunks⟩

theorem chunked_alignedReads : Chunked alignedReads :=
  List.forall_mem_append.mpr ⟨chunked_fullChunks, List.forall_mem_singleton.mpr (by decide)⟩

theorem flatten_offsetReads : offsetReads.flatten = List.replicate (maxResponse + 1) 0 := by
  rw [offsetReads, List.flatten_cons, flatten_fullChunks]
  rfl

theorem flatten_alignedReads : alignedReads.flatten = List.replicate (maxResponse + 1) 0 := by
  rw [alignedReads, List.flatten_append, flatten_fullChunks, List.flatten_singleton,
    List.replicate_succ']

theorem meetsLimit_alignedReads : MeetsLimit 0 alignedReads := by
  refine ⟨fullChunks, List.prefix_append .., ?_⟩
  rw [flatten_fullChunks, List.length_replicate, Nat.zero_add]

theorem not_meetsLimit_offsetReads : ¬ MeetsLimit 0 offsetReads := by
  rintro ⟨before, isPrefix, reached⟩
  cases before with
  | nil => exact absurd reached (by decide)
  | cons first before =>
      obtain ⟨rfl, rest⟩ := List.cons_prefix_cons.mp isPrefix
      obtain ⟨-, same⟩ := List.prefix_replicate_iff.mp rest
      rw [same, List.flatten_cons, List.flatten_replicate_replicate, List.length_append,
        List.length_replicate] at reached
      have size : chunkSize = 4096 := rfl
      have limit : maxResponse = 1048576 := by decide
      rw [List.length_singleton, size, limit] at reached
      omega

/-- The same bytes with the notice and without it. -/
theorem capture_drops_notice :
    Chunked offsetReads ∧ Chunked alignedReads ∧ offsetReads.flatten = alignedReads.flatten ∧
      (executeCapture ⟨offsetReads, .exited 0⟩).1 ≠ limited offsetReads.flatten ∧
      (executeCapture ⟨offsetReads, .exited 0⟩).1 ≠
        (executeCapture ⟨alignedReads, .exited 0⟩).1 := by
  have same : offsetReads.flatten = alignedReads.flatten :=
    flatten_offsetReads.trans flatten_alignedReads.symm
  have dropped : (executeCapture ⟨offsetReads, .exited 0⟩).1 ≠ limited offsetReads.flatten := by
    intro whole
    have returns := limited_iff_meetsLimit ⟨offsetReads, .exited 0⟩ chunked_offsetReads
    rcases returns.mp whole with fits | meets
    · simp only [flatten_offsetReads, List.length_replicate] at fits
      omega
    · exact not_meetsLimit_offsetReads meets
  have kept : (executeCapture ⟨alignedReads, .exited 0⟩).1 = limited alignedReads.flatten :=
    (limited_iff_meetsLimit ⟨alignedReads, .exited 0⟩ chunked_alignedReads).mpr
      (Or.inr meetsLimit_alignedReads)
  refine ⟨chunked_offsetReads, chunked_alignedReads, same, dropped, ?_⟩
  rw [kept, ← same]
  exact dropped

theorem capture_returns_limited_aligned :
    (executeCapture ⟨alignedReads, .exited 0⟩).1 = limited alignedReads.flatten := by
  have meets := meetsLimit_alignedReads
  simp only [MeetsLimit, Nat.zero_add] at meets
  exact (capture_returns_limited_iff ⟨alignedReads, .exited 0⟩ chunked_alignedReads).mpr
    (Or.inr meets)

/-! ## The copies -/

/-- What `execute_capture` does to its buffer: the loop over the capacity for `needed` bytes, or a
copy of the first `count` bytes of `source` into a buffer of `capacity` bytes. -/
inductive Effect where
  | grow (cap needed : Nat)
  | copy (offset : Nat) (source : Bytes) (count capacity : Nat)
  deriving DecidableEq, Repr

/-- The end of `execute_capture`: room for the terminator, and the terminator. -/
def terminate (cap : Nat) (buf : Bytes) : List Effect :=
  [.copy buf.length [0] 1 (if buf.length + 1 > cap then buf.length + 1 else cap)]

/-- `if (room) memcpy(buf + len, chunk, room)`. -/
def fillUp (cap : Nat) (buf chunk : Bytes) (room : Nat) : List Effect :=
  if room ≠ 0 then [.copy buf.length chunk room cap] else []

/-- The effects of the read loop of `execute_capture`, turn by turn as in `captureLoop`. -/
def captureEffects (cap : Nat) (buf : Bytes) : List Bytes → List Effect
  | [] => terminate cap buf
  | chunk :: chunks =>
      if chunk = [] then terminate cap buf
      else if buf.length + chunk.length > maxResponse then
        let room := if maxResponse > buf.length then maxResponse - buf.length else 0
        let fill := fillUp cap buf chunk room
        let buf := buf ++ chunk.take room
        if buf.length + truncated.length ≤ cap then
          fill ++ .copy buf.length truncated truncated.length cap ::
            terminate cap (buf ++ truncated)
        else fill ++ terminate cap buf
      else
        let needed := buf.length + chunk.length + 1
        if needed > cap then
          let newCap := growCap (2 * cap) needed
          .grow cap needed :: .copy buf.length chunk chunk.length newCap ::
            captureEffects newCap (buf ++ chunk) chunks
        else .copy buf.length chunk chunk.length cap :: captureEffects cap (buf ++ chunk) chunks

/-- `while (new_cap < needed) new_cap *= 2` in 64-bit words, for at most `fuel` tests. -/
def growWord : Nat → UInt64 → UInt64 → Option UInt64
  | 0, _, _ => none
  | fuel + 1, newCap, needed =>
      if newCap < needed then growWord fuel (newCap * 2) needed else some newCap

/-- A copy inside its buffer and its source, or a loop that ends with the capacity it would have
without a bound on the words. -/
def Effect.Safe : Effect → Prop
  | .grow cap needed =>
      needed < 2 ^ 64 ∧ ∃ fuel newCap,
        growWord fuel (UInt64.ofNat cap * 2) (UInt64.ofNat needed) = some newCap ∧
          newCap.toNat = growCap (2 * cap) needed ∧ needed ≤ newCap.toNat
  | .copy offset source count capacity => count ≤ source.length ∧ offset + count ≤ capacity

/-- The bytes of the buffer after an effect. -/
def Effect.apply (buffer : Bytes) : Effect → Bytes
  | .grow _ _ => buffer
  | .copy offset source count _ => writeAt buffer offset (source.take count)

@[simp] theorem apply_grow (buffer : Bytes) (cap needed : Nat) :
    Effect.apply buffer (.grow cap needed) = buffer := rfl

@[simp] theorem apply_copy (buffer source : Bytes) (count capacity : Nat) :
    Effect.apply buffer (.copy buffer.length source count capacity) =
      buffer ++ source.take count := by
  rw [Effect.apply, writeAt, List.take_length, List.drop_of_length_le (Nat.le_add_right ..),
    List.append_nil]

theorem run_terminate (cap : Nat) (buf : Bytes) :
    run Effect.apply buf (terminate cap buf) = buf ++ [0] := by
  rw [terminate, run_cons, apply_copy]
  rfl

theorem run_fillUp (cap : Nat) (buf chunk : Bytes) (room : Nat) :
    run Effect.apply buf (fillUp cap buf chunk room) = buf ++ chunk.take room := by
  unfold fillUp
  split_ifs with some
  · rw [run_cons, apply_copy, run_nil]
  · rw [not_not.mp some, List.take_zero, List.append_nil, run_nil]

/-- The effects, one after the other, leave what the loop returns and the terminator. -/
theorem run_captureEffects (cap : Nat) (buf : Bytes) (chunks : List Bytes) :
    run Effect.apply buf (captureEffects cap buf chunks) = captureLoop cap buf chunks ++ [0] := by
  induction chunks generalizing cap buf with
  | nil => exact run_terminate cap buf
  | cons chunk chunks ih =>
      rw [captureEffects, captureLoop]
      by_cases ended : chunk = []
      · rw [if_pos ended, if_pos ended, run_terminate]
      rw [if_neg ended, if_neg ended]
      by_cases long : buf.length + chunk.length > maxResponse
      · simp only [if_pos long]
        generalize (if maxResponse > buf.length then maxResponse - buf.length else 0) = room
        have filled := run_fillUp cap buf chunk room
        by_cases fits : (buf ++ chunk.take room).length + truncated.length ≤ cap
        · rw [if_pos fits, if_pos fits, run_append, filled, run_cons, apply_copy,
            List.take_length, run_terminate]
        · rw [if_neg fits, if_neg fits, run_append, filled, run_terminate]
      · simp only [if_neg long]
        split_ifs with full
        · rw [run_cons, apply_grow, run_cons, apply_copy, List.take_length, ih]
        · rw [run_cons, apply_copy, List.take_length, ih]

section Safety
variable {cap : Nat} {buf chunk : Bytes}

theorem terminate_safe (cap : Nat) (buf : Bytes) :
    ∀ effect ∈ terminate cap buf, effect.Safe := by
  intro effect member
  obtain rfl := List.mem_singleton.mp member
  refine ⟨Nat.le_refl 1, ?_⟩
  split_ifs with full
  · exact Nat.le_refl _
  · exact Nat.not_lt.mp full

/-- One doubling is enough, and far from the size of a word. -/
theorem Roomy.grow_safe (roomy : Roomy cap buf) (short : chunk.length ≤ chunkSize)
    (fits : buf.length + chunk.length ≤ maxResponse) :
    Effect.Safe (.grow cap (buf.length + chunk.length + 1)) := by
  have limit : maxResponse = 1048576 := by decide
  have size := roomy.chunkSize_le
  have spare := roomy.spare
  have top := roomy.top
  have doubled : (UInt64.ofNat cap * 2).toNat = 2 * cap := by
    rw [UInt64.toNat_mul, UInt64.toNat_ofNat_of_lt' (by simp only [UInt64.size]; omega)]
    change cap * 2 % 2 ^ 64 = 2 * cap
    omega
  have words : (UInt64.ofNat (buf.length + chunk.length + 1)).toNat =
      buf.length + chunk.length + 1 :=
    UInt64.toNat_ofNat_of_lt' (by simp only [UInt64.size]; omega)
  refine ⟨by omega, 1, UInt64.ofNat cap * 2, ?_, ?_, by omega⟩
  · have enough : ¬ UInt64.ofNat cap * 2 < UInt64.ofNat (buf.length + chunk.length + 1) := by
      rw [UInt64.lt_iff_toNat_lt, doubled, words]
      omega
    rw [growWord, if_neg enough]
  · rw [doubled, roomy.growCap_eq short]

/-- The copy of what still fits under the limit is not checked by the code. -/
theorem Roomy.fillUp_safe (roomy : Roomy cap buf) (short : chunk.length ≤ chunkSize)
    (long : buf.length + chunk.length > maxResponse) :
    ∀ effect ∈ fillUp cap buf chunk (maxResponse - buf.length), effect.Safe := by
  have within := roomy.within
  have reached := (roomy.crossing short long).1
  intro effect member
  unfold fillUp at member
  split_ifs at member
  · obtain rfl := List.mem_singleton.mp member
    exact ⟨by omega, by omega⟩
  · cases member

theorem captureEffects_safe {chunks : List Bytes} (roomy : Roomy cap buf)
    (chunked : Chunked chunks) : ∀ effect ∈ captureEffects cap buf chunks, effect.Safe := by
  induction chunks generalizing cap buf with
  | nil => exact terminate_safe cap buf
  | cons chunk chunks ih =>
      obtain ⟨⟨some, short⟩, later⟩ := List.forall_mem_cons.mp chunked
      rw [captureEffects, if_neg (List.length_pos_iff.mp some)]
      by_cases long : buf.length + chunk.length > maxResponse
      · have fill := roomy.fillUp_safe short long
        simp only [if_pos long, room_eq]
        split_ifs with notice
        · refine List.forall_mem_append.mpr ⟨fill, List.forall_mem_cons.mpr ⟨?_, ?_⟩⟩
          · exact ⟨Nat.le_refl _, notice⟩
          · exact terminate_safe cap _
        · exact List.forall_mem_append.mpr ⟨fill, terminate_safe cap _⟩
      · have fits := Nat.not_lt.mp long
        have next := ih (roomy.append short fits) later
        rw [nextCap] at next
        simp only [if_neg long]
        split_ifs with full
        · rw [if_pos full] at next
          have grown := roomy.growCap_eq short
          have size := roomy.chunkSize_le
          have spare := roomy.spare
          refine List.forall_mem_cons.mpr ⟨roomy.grow_safe short fits,
            List.forall_mem_cons.mpr ⟨⟨Nat.le_refl _, ?_⟩, next⟩⟩
          omega
        · rw [if_neg full] at next
          exact List.forall_mem_cons.mpr ⟨⟨Nat.le_refl _, by omega⟩, next⟩

end Safety

/-- For all reads of at most 4096 bytes, `execute_capture` stays inside its buffer, the loop over
the capacity ends without an overflow, and the client takes the response, however the command
ends. -/
theorem capture_within_buffer (execution : Execution) (chunked : Chunked execution.chunks) :
    (∀ effect ∈ captureEffects chunkSize [] execution.chunks, effect.Safe) ∧
      run Effect.apply [] (captureEffects chunkSize [] execution.chunks) =
        (executeCapture execution).1 ++ [0] ∧
      (response execution).length ≤ maxResponse + 128 :=
  ⟨captureEffects_safe roomy_nil chunked, run_captureEffects chunkSize [] execution.chunks,
    length_response execution⟩

theorem capture_within_buffer_offset :
    (∀ effect ∈ captureEffects chunkSize [] offsetReads, effect.Safe) ∧
      (response ⟨offsetReads, .signaled 15⟩).length ≤ maxResponse + 128 := by
  obtain ⟨safe, -, size⟩ := capture_within_buffer ⟨offsetReads, .signaled 15⟩ chunked_offsetReads
  exact ⟨safe, size⟩

end EmbeddedRuntime.Network.Capture
