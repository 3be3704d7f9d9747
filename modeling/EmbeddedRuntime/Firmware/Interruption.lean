import EmbeddedRuntime.Firmware.Format
import EmbeddedRuntime.Lib.Machine

/-!
# A pack that is interrupted

`pack_image` between two of its system calls: the file it writes, what it has
read, and the call that is due.  A run is any sequence of outcomes of these
calls and may stop anywhere; a crash inside a `write` leaves what a short write
leaves.  The header is zero until the payload is complete.
-/

set_option autoImplicit false

namespace EmbeddedRuntime.Firmware.Interruption

open EmbeddedRuntime.Lib.Buffer
open EmbeddedRuntime.Lib.ByteOrder
open EmbeddedRuntime.Lib.Deliveries
open EmbeddedRuntime.Lib.Machine
open EmbeddedRuntime.Protocol.Crc32
open EmbeddedRuntime.Protocol.Stream
open EmbeddedRuntime.Firmware.Image
open EmbeddedRuntime.Firmware.PackVerify
open EmbeddedRuntime.Firmware.BitFlips
open EmbeddedRuntime.Firmware.Format

/-! ## The machine -/

/-- The system call that is due. -/
inductive Point where
  | placeholder
  | reading
  | writing (rest : List UInt8)
  | seeking
  | finalHeader
  | returned (status : Nat)
  deriving DecidableEq, Repr

/-- `total` and `crc` are variables of `copy_and_crc`; `input` is all that its reads returned. -/
structure Packing where
  point : Point
  bytes : List UInt8
  offset : Nat
  total : Nat
  crc : UInt32
  input : List UInt8
  deriving DecidableEq, Repr

inductive Outcome where
  | wrote (transfer : Transfer)
  | read (delivery : Delivery UInt8)
  | seek (ok : Bool)
  deriving DecidableEq, Repr

/-- The output file has been truncated. -/
def opened : Packing := ⟨.placeholder, [], 0, 0, mlrtCrc32Begin, []⟩

def Packing.store (s : Packing) (data : List UInt8) : Packing :=
  { s with bytes := writeAt s.bytes s.offset data, offset := s.offset + data.length }

/-- The inner loop of `copy_and_crc` goes on while bytes of the chunk are left. -/
def writingOf (rest : List UInt8) : Point := if rest = [] then .reading else .writing rest

/-- A write of forty bytes, which must be whole. -/
def Packing.writeHeader (s : Packing) (header : List UInt8) (done : Point) :
    Transfer → Option Packing
  | .moved n =>
      if n ≤ header.length then
        some { s.store (header.take n) with
          point := if n = fwHeaderSize then done else .returned 1 }
      else none
  | .interrupted => some { s with point := .returned 1 }
  | .failed => some { s with point := .returned 1 }

/-- A read into the buffer of 8192 bytes. -/
def Packing.readChunk (s : Packing) (expected : UInt64) : Delivery UInt8 → Option Packing
  | .interrupted => some s
  | .failed => some { s with point := .returned 1 }
  | .data buf =>
      if buf.length > 8192 then none
      else if buf = [] then
        if s.total ≠ expected.toNat then some { s with point := .returned 1 }
        else some { s with point := .seeking, crc := mlrtCrc32End s.crc }
      else
        let s := { s with input := s.input ++ buf, total := s.total + buf.length }
        if s.total > expected.toNat then some { s with point := .returned 1 }
        else some { s with point := .writing buf, crc := mlrtCrc32Update s.crc buf }

/-- A write of the rest of a chunk. -/
def Packing.writeChunk (s : Packing) (rest : List UInt8) : Transfer → Option Packing
  | .moved n =>
      if n ≤ rest.length then
        some { s.store (rest.take n) with point := writingOf (rest.drop n) }
      else none
  | .interrupted => some s
  | .failed => some { s with point := .returned 1 }

/-- The header that `pack_image` writes at its end. -/
def finished (given : FwHeader) (size : Nat) (crc : UInt32) : List UInt8 :=
  serializeHeader { given with imageSize := UInt64.ofNat size, crc32 := crc }

/-- One system call of `pack_image` on an input whose `st_size` was `size`; none for an outcome
of another call. -/
def step (given : FwHeader) (size : Nat) (s : Packing) (outcome : Outcome) : Option Packing :=
  match s.point, outcome with
  | .placeholder, .wrote transfer =>
      s.writeHeader (List.replicate fwHeaderSize 0) .reading transfer
  | .reading, .read delivery => s.readChunk (UInt64.ofNat size) delivery
  | .writing rest, .wrote transfer => s.writeChunk rest transfer
  | .seeking, .seek true => some { s with point := .finalHeader, offset := 0 }
  | .seeking, .seek false => some { s with point := .returned 1 }
  | .finalHeader, .wrote transfer =>
      s.writeHeader (finished given size s.crc) (.returned 0) transfer
  | _, _ => none

/-! ## The invariant -/

def zeros : List UInt8 := List.replicate fwHeaderSize 0

/-- No byte of the header is set. -/
def Blank (file : List UInt8) : Prop := ∀ byte ∈ file.take fwHeaderSize, byte = 0

/-- Behind the header is all that was read, as much as the input was long. -/
def Complete (size : Nat) (s : Packing) : Prop :=
  s.bytes.drop fwHeaderSize = s.input ∧ s.input.length = size

/-- What holds before each call. -/
def Consistent (size : Nat) (s : Packing) : Prop :=
  match s.point with
  | .placeholder => s.bytes = [] ∧ s.offset = 0 ∧ s.input = [] ∧ s.total = 0
  | .reading => s.bytes = zeros ++ s.input ∧ s.offset = s.bytes.length ∧ s.total = s.input.length
  | .writing rest =>
      ∃ stored, s.bytes = zeros ++ stored ∧ s.input = stored ++ rest ∧
        s.offset = s.bytes.length ∧ s.total = s.input.length
  | .seeking => s.bytes = zeros ++ s.input ∧ s.input.length = size
  | .finalHeader => s.bytes = zeros ++ s.input ∧ s.input.length = size ∧ s.offset = 0
  | .returned _ => Blank s.bytes ∨ Complete size s

section Invariant
variable {given : FwHeader} {size : Nat} {s next : Packing}

theorem length_zeros : zeros.length = fwHeaderSize := List.length_replicate ..

theorem blank_zeros (rest : List UInt8) : Blank (zeros ++ rest) := by
  intro byte member
  rw [List.take_left' length_zeros] at member
  exact List.eq_of_mem_replicate member

theorem blank_replicate (count : Nat) : Blank (List.replicate count 0) := fun _ member =>
  List.eq_of_mem_replicate (List.mem_of_mem_take member)

/-- A file with a blank header is no image: its magic is zero. -/
theorem not_isImage_of_blank {file : List UInt8} (blank : Blank file) : ¬ IsImage file := by
  intro image
  have magic := image.magic
  have long : 4 ≤ file.length := by
    have size := image.size
    omega
  match file, long with
  | b0 :: b1 :: b2 :: b3 :: rest, _ =>
      have zero : b0 = 0 := blank b0 (by simp [fwHeaderSize])
      subst zero
      have spelled : field (0 :: b1 :: b2 :: b3 :: rest) 0 4 = 0 + 256 * ofBytes [b1, b2, b3] := rfl
      omega

theorem Consistent.blank_or_complete (consistent : Consistent size s) :
    Blank s.bytes ∨ Complete size s := by
  unfold Consistent at consistent
  cases point : s.point with
  | placeholder =>
      rw [point] at consistent
      rw [consistent.1]
      exact Or.inl (blank_replicate 0)
  | reading =>
      rw [point] at consistent
      rw [consistent.1]
      exact Or.inl (blank_zeros s.input)
  | writing rest =>
      rw [point] at consistent
      obtain ⟨stored, bytes, -⟩ := consistent
      rw [bytes]
      exact Or.inl (blank_zeros stored)
  | seeking =>
      rw [point] at consistent
      rw [consistent.1]
      exact Or.inl (blank_zeros s.input)
  | finalHeader =>
      rw [point] at consistent
      rw [consistent.1]
      exact Or.inl (blank_zeros s.input)
  | returned status =>
      rw [point] at consistent
      exact consistent

theorem store_at_end {bytes : List UInt8} (holds : s.bytes = bytes)
    (atEnd : s.offset = s.bytes.length) (data : List UInt8) :
    (s.store data).bytes = bytes ++ data ∧
      (s.store data).offset = (s.store data).bytes.length := by
  have stored : (s.store data).bytes = s.bytes ++ data := by
    have appended := writeAt_append s.bytes [] s.offset data atEnd.symm
    rw [List.append_nil, List.drop_nil, List.append_nil] at appended
    exact appended
  refine ⟨by rw [stored, holds], ?_⟩
  change s.offset + data.length = _
  rw [stored, List.length_append, atEnd]

/-- A partial header over the zeros leaves the payload alone. -/
theorem complete_of_header {header : List UInt8} (bytes : s.bytes = zeros ++ s.input)
    (all : s.input.length = size) (front : s.offset = 0) (short : header.length ≤ fwHeaderSize)
    (point : Point) : Complete size { s.store header with point } := by
  refine ⟨?_, all⟩
  change (writeAt s.bytes s.offset header).drop fwHeaderSize = s.input
  have taken : (header ++ zeros.drop header.length).length = fwHeaderSize := by
    rw [List.length_append, List.length_drop, length_zeros]
    omega
  have split : writeAt (zeros ++ s.input) 0 header =
      header ++ zeros.drop header.length ++ s.input := by
    rw [writeAt, List.take_zero, List.nil_append, Nat.zero_add,
      List.drop_append_of_le_length (by rw [length_zeros]; exact short), List.append_assoc]
  rw [bytes, front, split, List.drop_left' taken]

/-- A write of a header fails, or stores its front and goes on when that was all of it. -/
theorem writeHeader_cases {transfer : Transfer} {header : List UInt8} {done : Point}
    (moved : s.writeHeader header done transfer = some next) :
    next = { s with point := .returned 1 } ∨
      ∃ n, next = { s.store (header.take n) with
        point := if n = fwHeaderSize then done else .returned 1 } := by
  cases transfer with
  | interrupted => exact Or.inl (Option.some.inj moved).symm
  | failed => exact Or.inl (Option.some.inj moved).symm
  | moved n =>
      unfold Packing.writeHeader at moved
      dsimp only at moved
      split at moved
      · exact Or.inr ⟨n, (Option.some.inj moved).symm⟩
      · cases moved

theorem placeholder_kept {transfer : Transfer} (point : s.point = .placeholder)
    (consistent : Consistent size s)
    (moved : s.writeHeader zeros .reading transfer = some next) : Consistent size next := by
  unfold Consistent at consistent
  rw [point] at consistent
  obtain ⟨bytes, offset, input, total⟩ := consistent
  rcases writeHeader_cases moved with rfl | ⟨n, rfl⟩
  · refine Or.inl ?_
    change Blank s.bytes
    rw [bytes]
    exact blank_replicate 0
  · have atEnd : s.offset = s.bytes.length := by rw [bytes, offset]; rfl
    obtain ⟨stored, ended⟩ := store_at_end bytes atEnd (zeros.take n)
    rw [List.nil_append] at stored
    by_cases whole : n = fwHeaderSize
    · have all : zeros.take n = zeros := by rw [whole, ← length_zeros, List.take_length]
      rw [if_pos whole]
      refine ⟨?_, ended, ?_⟩
      · change (s.store (zeros.take n)).bytes = zeros ++ s.input
        rw [stored, all, input, List.append_nil]
      · change s.total = s.input.length
        rw [total, input]
        rfl
    · rw [if_neg whole]
      refine Or.inl ?_
      change Blank (s.store (zeros.take n)).bytes
      rw [stored, zeros, List.take_replicate]
      exact blank_replicate _

theorem reading_kept {delivery : Delivery UInt8} (small : size ≤ fwMaxImage)
    (point : s.point = .reading) (consistent : Consistent size s)
    (moved : s.readChunk (UInt64.ofNat size) delivery = some next) : Consistent size next := by
  have stays := consistent
  unfold Consistent at consistent
  rw [point] at consistent
  obtain ⟨bytes, atEnd, total⟩ := consistent
  have blank : Blank s.bytes := by
    rw [bytes]
    exact blank_zeros s.input
  cases delivery with
  | interrupted =>
      obtain rfl := Option.some.inj moved
      exact stays
  | failed =>
      obtain rfl := Option.some.inj moved
      exact Or.inl blank
  | data buf =>
      unfold Packing.readChunk at moved
      dsimp only at moved
      rw [toNat_size small] at moved
      split_ifs at moved with long none short beyond
      · obtain rfl := Option.some.inj moved
        exact Or.inl blank
      · obtain rfl := Option.some.inj moved
        exact ⟨bytes, (by omega : s.input.length = size)⟩
      · obtain rfl := Option.some.inj moved
        exact Or.inl blank
      · obtain rfl := Option.some.inj moved
        refine ⟨s.input, bytes, rfl, atEnd, ?_⟩
        change s.total + buf.length = (s.input ++ buf).length
        rw [total, List.length_append]

theorem writing_kept {transfer : Transfer} {rest : List UInt8} (point : s.point = .writing rest)
    (consistent : Consistent size s) (moved : s.writeChunk rest transfer = some next) :
    Consistent size next := by
  have stays := consistent
  unfold Consistent at consistent
  rw [point] at consistent
  obtain ⟨stored, bytes, input, atEnd, total⟩ := consistent
  cases transfer with
  | interrupted =>
      obtain rfl := Option.some.inj moved
      exact stays
  | failed =>
      obtain rfl := Option.some.inj moved
      refine Or.inl ?_
      change Blank s.bytes
      rw [bytes]
      exact blank_zeros stored
  | moved n =>
      unfold Packing.writeChunk at moved
      dsimp only at moved
      split_ifs at moved with fits
      obtain rfl := Option.some.inj moved
      obtain ⟨bytes', atEnd'⟩ := store_at_end bytes atEnd (rest.take n)
      rw [List.append_assoc] at bytes'
      have input' : s.input = stored ++ rest.take n ++ rest.drop n := by
        rw [input, List.append_assoc, List.take_append_drop]
      unfold Consistent writingOf
      dsimp only
      by_cases last : rest.drop n = []
      · rw [if_pos last]
        rw [last, List.append_nil] at input'
        exact ⟨bytes'.trans (by rw [← input']; rfl), atEnd', total⟩
      · rw [if_neg last]
        exact ⟨stored ++ rest.take n, bytes', input', atEnd', total⟩

theorem finalHeader_kept {transfer : Transfer} {header : List UInt8} {status : Nat}
    (point : s.point = .finalHeader) (whole : header.length = fwHeaderSize)
    (consistent : Consistent size s)
    (moved : s.writeHeader header (.returned status) transfer = some next) :
    Consistent size next := by
  unfold Consistent at consistent
  rw [point] at consistent
  obtain ⟨bytes, all, front⟩ := consistent
  rcases writeHeader_cases moved with rfl | ⟨n, rfl⟩
  · refine Or.inl ?_
    change Blank s.bytes
    rw [bytes]
    exact blank_zeros s.input
  · have short : (header.take n).length ≤ fwHeaderSize := by
      rw [List.length_take]
      omega
    have complete := complete_of_header bytes all front short
    by_cases exact : n = fwHeaderSize
    · rw [if_pos exact]
      exact Or.inr (complete _)
    · rw [if_neg exact]
      exact Or.inr (complete _)

/-- One system call keeps the invariant. -/
theorem step_consistent (small : size ≤ fwMaxImage) {outcome : Outcome}
    (consistent : Consistent size s) (moved : step given size s outcome = some next) :
    Consistent size next := by
  unfold step at moved
  cases point : s.point with
  | placeholder =>
      cases outcome with
      | wrote transfer =>
          rw [point] at moved
          exact placeholder_kept point consistent moved
      | read delivery => simp [point] at moved
      | seek ok => simp [point] at moved
  | reading =>
      cases outcome with
      | read delivery =>
          rw [point] at moved
          exact reading_kept small point consistent moved
      | wrote transfer => simp [point] at moved
      | seek ok => simp [point] at moved
  | writing rest =>
      cases outcome with
      | wrote transfer =>
          rw [point] at moved
          exact writing_kept point consistent moved
      | read delivery => simp [point] at moved
      | seek ok => simp [point] at moved
  | seeking =>
      have before := consistent
      unfold Consistent at before
      rw [point] at before
      obtain ⟨bytes, all⟩ := before
      cases outcome with
      | seek ok =>
          rw [point] at moved
          cases ok with
          | true =>
              obtain rfl := Option.some.inj moved
              exact ⟨bytes, all, rfl⟩
          | false =>
              obtain rfl := Option.some.inj moved
              refine Or.inl ?_
              change Blank s.bytes
              rw [bytes]
              exact blank_zeros s.input
      | wrote transfer => simp [point] at moved
      | read delivery => simp [point] at moved
  | finalHeader =>
      cases outcome with
      | wrote transfer =>
          rw [point] at moved
          exact finalHeader_kept point (length_serializeHeader _) consistent moved
      | read delivery => simp [point] at moved
      | seek ok => simp [point] at moved
  | returned status => cases outcome <;> simp [point] at moved

theorem opened_consistent (size : Nat) : Consistent size opened := ⟨rfl, rfl, rfl, rfl⟩

end Invariant

/-! ## The calls of `packImage` -/

section Calls
variable {given : FwHeader} {size : Nat} {s next t : Packing}

def Reaches (given : FwHeader) (size : Nat) (s t : Packing) : Prop :=
  ∃ outcomes, runPartial (step given size) s outcomes = some t

theorem Reaches.refl (s : Packing) : Reaches given size s s := ⟨[], rfl⟩

theorem Reaches.head {outcome : Outcome} (moved : step given size s outcome = some next)
    (reaches : Reaches given size next t) : Reaches given size s t := by
  obtain ⟨outcomes, ran⟩ := reaches
  refine ⟨outcome :: outcomes, ?_⟩
  rw [runPartial, moved, Option.bind_some, ran]

theorem Reaches.trans (first : Reaches given size s next) (second : Reaches given size next t) :
    Reaches given size s t := by
  obtain ⟨outcomes, ran⟩ := first
  obtain ⟨more, ran'⟩ := second
  refine ⟨outcomes ++ more, ?_⟩
  rw [runPartial_append, ran, Option.bind_some, ran']

/-- The machine holds the file of the model. -/
def Holds (s : Packing) (file : OutFile) : Prop := s.bytes = file.bytes ∧ s.offset = file.offset

theorem Holds.store {file : OutFile} (holds : Holds s file) (data : List UInt8)
    (writes : List Transfer) (point : Point) :
    Holds { s.store data with point } { file.store data with writes } := by
  obtain ⟨bytes, offset⟩ := holds
  refine ⟨?_, ?_⟩
  · change writeAt s.bytes s.offset data = writeAt file.bytes file.offset data
    rw [bytes, offset]
  · change s.offset + data.length = file.offset + data.length
    rw [offset]

/-- Where the inner loop of `copy_and_crc` ends. -/
structure WriteEnds (given : FwHeader) (size : Nat) (s : Packing) (result : Bool × OutFile)
    (t : Packing) : Prop where
  reaches : Reaches given size s t
  point : t.point = if result.1 then .reading else .returned 1
  holds : Holds t result.2
  total : t.total = s.total
  crc : t.crc = s.crc

theorem writeAll_reaches (file : OutFile) (data : List UInt8) (point : s.point = writingOf data)
    (holds : Holds s file) : ∃ t, WriteEnds given size s (file.writeAll data) t := by
  fun_induction OutFile.writeAll file data generalizing s with
  | case1 file => exact ⟨s, Reaches.refl s, point, holds, rfl, rfl⟩
  | case2 file data some next result ih =>
      obtain ⟨writes, rfl⟩ := write_interrupted result
      exact ih point holds
  | case3 file data some next result =>
      obtain ⟨writes, rfl⟩ := write_failed result
      rw [writingOf, if_neg some] at point
      have moved : step given size s (.wrote .failed) =
          Option.some { s with point := .returned 1 } := by
        simp [step, point, Packing.writeChunk]
      exact ⟨_, Reaches.head moved (Reaches.refl _), rfl, holds, rfl, rfl⟩
  | case4 file data some count next result ih =>
      obtain ⟨fits, writes, rfl⟩ := write_moved result
      rw [writingOf, if_neg some] at point
      have moved : step given size s (.wrote (.moved count)) =
          Option.some { s.store (data.take count) with
            point := writingOf (data.drop count) } := by
        simp [step, point, Packing.writeChunk, fits]
      obtain ⟨t, ends⟩ := ih (s := { s.store (data.take count) with
        point := writingOf (data.drop count) }) rfl (holds.store _ _ _)
      exact ⟨t, Reaches.head moved ends.reaches, ends.point, ends.holds, ends.total, ends.crc⟩

/-- Where `copy_and_crc` ends. -/
structure CopyEnds (given : FwHeader) (size : Nat) (s : Packing)
    (result : Option UInt32 × Option OutFile) (t : Packing) : Prop where
  reaches : Reaches given size s t
  holds : ∃ file, result.2 = some file ∧ Holds t file
  point : match result.1 with
    | none => t.point = .returned 1
    | some crc => t.point = .seeking ∧ t.crc = crc

/-- A chunk is read that does not exceed the expected length. -/
def chunkRead (s : Packing) (chunk : List UInt8) : Packing :=
  { s with
    point := writingOf chunk
    input := s.input ++ chunk
    total := s.total + chunk.length
    crc := mlrtCrc32Update s.crc chunk }

theorem chunkRead_step {chunk : List UInt8} (point : s.point = .reading) (nonempty : chunk ≠ [])
    (fits : chunk.length ≤ 8192)
    (within : ¬ s.total + chunk.length > (UInt64.ofNat size).toNat) :
    step given size s (.read (.data chunk)) = some (chunkRead s chunk) := by
  simp only [step, point, Packing.readChunk]
  rw [if_neg (by omega), if_neg nonempty, if_neg within, chunkRead, writingOf, if_neg nonempty]

variable (given) in
/-- A chunk is read and written, or the write fails. -/
theorem chunk_reaches {file : OutFile} {chunk : List UInt8} (point : s.point = .reading)
    (holds : Holds s file) (nonempty : chunk ≠ []) (fits : chunk.length ≤ 8192)
    (within : ¬ s.total + chunk.length > (UInt64.ofNat size).toNat) :
    ∃ t, Reaches given size s t ∧ Holds t (file.writeAll chunk).2 ∧
      t.total = s.total + chunk.length ∧ t.crc = mlrtCrc32Update s.crc chunk ∧
      t.point = if (file.writeAll chunk).1 then .reading else .returned 1 := by
  have written : ∃ t, WriteEnds given size (chunkRead s chunk) (file.writeAll chunk) t :=
    writeAll_reaches file chunk rfl holds
  obtain ⟨t, ends⟩ := written
  exact ⟨t, Reaches.head (chunkRead_step point nonempty fits within) ends.reaches, ends.holds,
    ends.total, ends.crc, ends.point⟩

theorem copyLoop_reaches (total : Nat) (crc : UInt32) (input : List (Delivery UInt8))
    (file : OutFile) (point : s.point = .reading) (holds : Holds s file)
    (sameTotal : s.total = total) (sameCrc : s.crc = crc) :
    ∃ t, CopyEnds given size s (copyLoop (UInt64.ofNat size) total crc input (some file)) t := by
  generalize here : some file = out
  fun_induction copyLoop (UInt64.ofNat size) total crc input out generalizing s file with
  | case1 total crc input out rest result ih => exact ih file point holds sameTotal sameCrc here
  | case2 total crc input out rest result =>
      subst here
      have moved : step given size s (.read .failed) = some { s with point := .returned 1 } := by
        simp [step, point, Packing.readChunk]
      exact ⟨_, Reaches.head moved (Reaches.refl _), ⟨file, rfl, holds⟩, rfl⟩
  | case3 total crc input out rest result =>
      subst here sameTotal sameCrc
      by_cases whole : s.total = (UInt64.ofNat size).toNat
      · have moved : step given size s (.read (.data [])) =
            some { s with point := .seeking, crc := mlrtCrc32End s.crc } := by
          simp [step, point, Packing.readChunk, whole]
        rw [if_neg (not_not.mpr whole)]
        exact ⟨_, Reaches.head moved (Reaches.refl _), ⟨file, rfl, holds⟩, rfl, rfl⟩
      · have moved : step given size s (.read (.data [])) =
            some { s with point := .returned 1 } := by
          simp only [step, point, Packing.readChunk]
          rw [if_neg (by simp), if_pos trivial, if_pos whole]
        rw [if_pos whole]
        exact ⟨_, Reaches.head moved (Reaches.refl _), ⟨file, rfl, holds⟩, rfl⟩
  | case4 total crc input out chunk rest result nonempty total' =>
      rename_i beyond
      subst here sameTotal sameCrc
      have moved : step given size s (.read (.data chunk)) = some { s with
          input := s.input ++ chunk, total := s.total + chunk.length, point := .returned 1 } := by
        have fits := length_read result
        simp only [step, point, Packing.readChunk]
        rw [if_neg (by omega), if_neg nonempty, if_pos beyond]
      exact ⟨_, Reaches.head moved (Reaches.refl _), ⟨file, rfl, holds⟩, rfl⟩
  | case5 total crc input out chunk rest result nonempty total' within crc' stored ok =>
      rename_i ih
      subst here sameTotal sameCrc
      obtain ⟨middle, reaches, holds', total, crc, point'⟩ :=
        chunk_reaches given point holds nonempty (length_read result) within
      rw [if_pos (show (file.writeAll chunk).1 = true from ok)] at point'
      obtain ⟨t, copied⟩ := ih (file.writeAll chunk).2 point' holds' total crc rfl
      exact ⟨t, reaches.trans copied.reaches, copied.holds, copied.point⟩
  | case6 total crc input out chunk rest result nonempty total' within stored =>
      rename_i failed
      subst here sameTotal sameCrc
      obtain ⟨middle, reaches, holds', -, -, point'⟩ :=
        chunk_reaches given point holds nonempty (length_read result) within
      rw [if_neg (show ¬ (file.writeAll chunk).1 = true from failed)] at point'
      exact ⟨middle, reaches, ⟨_, rfl, holds'⟩, point'⟩

/-- A whole or short write of forty bytes, as the model and the machine see it. -/
theorem writeHeader_reaches {file next : OutFile} {transfer : Transfer} (header : List UInt8)
    (done : Point) (holds : Holds s file) (written : file.write header = (transfer, next))
    (due : ∀ transfer, step given size s (.wrote transfer) = s.writeHeader header done transfer) :
    ∃ t, Reaches given size s t ∧ Holds t next ∧ t.total = s.total ∧ t.crc = s.crc ∧
      t.point = if transfer = .moved 40 then done else .returned 1 := by
  rcases write_cases file header with ⟨writes, same⟩ | ⟨writes, same⟩ | ⟨n, writes, fits, same⟩
  · rw [written] at same
    obtain ⟨rfl, rfl⟩ := Prod.mk.inj same
    exact ⟨_, Reaches.head (due .interrupted) (Reaches.refl _), holds, rfl, rfl,
      (if_neg (by simp)).symm⟩
  · rw [written] at same
    obtain ⟨rfl, rfl⟩ := Prod.mk.inj same
    exact ⟨_, Reaches.head (due .failed) (Reaches.refl _), holds, rfl, rfl,
      (if_neg (by simp)).symm⟩
  · rw [written] at same
    obtain ⟨rfl, rfl⟩ := Prod.mk.inj same
    have moved : step given size s (.wrote (.moved n)) = some { s.store (header.take n) with
        point := if n = fwHeaderSize then done else .returned 1 } := by
      rw [due, Packing.writeHeader, if_pos fits]
    refine ⟨_, Reaches.head moved (Reaches.refl _), holds.store _ _ _, rfl, rfl, ?_⟩
    by_cases whole : n = 40
    · rw [if_pos (congrArg Transfer.moved whole)]
      exact if_pos whole
    · rw [if_neg fun same => whole (Transfer.moved.inj same)]
      exact if_neg whole

/-- The ways `pack_image` ends after it has opened its output, with the status it returns and the
file it leaves. -/
inductive PackEnds (calls : PackCalls) (size : Nat) (given : FwHeader) : Nat → List UInt8 → Prop where
  | placeholder {transfer : Transfer} {file : OutFile}
      (written : OutFile.write ⟨[], 0, calls.writes⟩ zeros = (transfer, file))
      (cut : transfer ≠ .moved 40) : PackEnds calls size given 1 file.bytes
  | copy {file : OutFile} {sum : Option UInt32} {out : Option OutFile}
      (written : OutFile.write ⟨[], 0, calls.writes⟩ zeros = (.moved 40, file))
      (copied : copyAndCrc calls.reads (some file) (UInt64.ofNat size) = (sum, out))
      (failed : sum = none ∨ out = none) :
      PackEnds calls size given 1 ((out.map OutFile.bytes).getD [])
  | seek {file copy : OutFile} {crc : UInt32}
      (written : OutFile.write ⟨[], 0, calls.writes⟩ zeros = (.moved 40, file))
      (copied : copyAndCrc calls.reads (some file) (UInt64.ofNat size) = (some crc, some copy)) :
      PackEnds calls size given 1 copy.bytes
  | header {file copy final : OutFile} {crc : UInt32} {transfer : Transfer}
      (written : OutFile.write ⟨[], 0, calls.writes⟩ zeros = (.moved 40, file))
      (copied : copyAndCrc calls.reads (some file) (UInt64.ofNat size) = (some crc, some copy))
      (last : OutFile.write { copy with offset := 0 } (finished given size crc) =
        (transfer, final)) :
      PackEnds calls size given (if transfer = .moved 40 then 0 else 1) final.bytes

theorem packInto_ends (calls : PackCalls) (size : Nat) (output : String) (given : FwHeader) :
    PackEnds calls size given (packInto calls size output given).status
      (packInto calls size output given).file := by
  unfold packInto
  simp only
  split
  next file written =>
    split
    next crc copy copied =>
      split
      · split
        next final last =>
          have ends := PackEnds.header written copied last
          rw [if_pos rfl] at ends
          exact ends
        next transfer final cut last =>
          have ends := PackEnds.header written copied last
          rw [if_neg cut] at ends
          exact ends
      · exact PackEnds.seek written copied
    next sum out other copied =>
      refine PackEnds.copy written copied ?_
      cases sum with
      | none => exact Or.inl rfl
      | some crc =>
          cases out with
          | none => exact Or.inr rfl
          | some copy => exact (other crc copy rfl rfl).elim
  next transfer file cut written => exact PackEnds.placeholder written cut

variable (given size) in
/-- The write of the placeholder. -/
theorem placeholder_reaches {writes : List Transfer} {transfer : Transfer} {file : OutFile}
    (written : OutFile.write ⟨[], 0, writes⟩ zeros = (transfer, file)) :
    ∃ t, Reaches given size opened t ∧ Holds t file ∧ t.total = 0 ∧ t.crc = mlrtCrc32Begin ∧
      t.point = if transfer = .moved 40 then .reading else .returned 1 :=
  writeHeader_reaches zeros .reading ⟨rfl, rfl⟩ written fun _ => rfl

variable (given) in
/-- The copy behind a whole placeholder. -/
theorem copy_reaches {writes : List Transfer} {reads : List (Delivery UInt8)} {file : OutFile}
    {result : Option UInt32 × Option OutFile}
    (written : OutFile.write ⟨[], 0, writes⟩ zeros = (.moved 40, file))
    (copied : copyAndCrc reads (some file) (UInt64.ofNat size) = result) :
    ∃ t, CopyEnds given size opened result t := by
  obtain ⟨first, reaches, holds, total, crc, point⟩ := placeholder_reaches given size written
  rw [if_pos rfl] at point
  have loop : ∃ t, CopyEnds given size first
      (copyAndCrc reads (some file) (UInt64.ofNat size)) t :=
    copyLoop_reaches 0 mlrtCrc32Begin reads file point holds total crc
  obtain ⟨second, ends⟩ := loop
  rw [← copied]
  exact ⟨second, reaches.trans ends.reaches, ends.holds, ends.point⟩

/-- What a `pack_image` that opened its output leaves is what a run of the machine leaves. -/
theorem packInto_reaches (calls : PackCalls) (output : String) :
    ∃ s, Reaches given size opened s ∧ s.bytes = (packInto calls size output given).file ∧
      s.point = .returned (packInto calls size output given).status := by
  generalize statusEq : (packInto calls size output given).status = status
  generalize fileEq : (packInto calls size output given).file = bytes
  have ends := packInto_ends calls size output given
  rw [statusEq, fileEq] at ends
  cases ends with
  | placeholder written cut =>
      obtain ⟨first, reaches, holds, -, -, point⟩ := placeholder_reaches given size written
      rw [if_neg cut] at point
      exact ⟨first, reaches, holds.1, point⟩
  | copy written copied failed =>
      obtain ⟨second, reaches, ⟨file, rfl, holds⟩, point⟩ := copy_reaches given written copied
      rcases failed with rfl | impossible
      · exact ⟨second, reaches, holds.1, point⟩
      · cases impossible
  | seek written copied =>
      obtain ⟨second, reaches, ⟨file, same, holds⟩, point, -⟩ := copy_reaches given written copied
      obtain rfl := Option.some.inj same
      have refused : step given size second (.seek false) =
          some { second with point := .returned 1 } := by
        simp [step, point]
      exact ⟨_, reaches.trans (Reaches.head refused (Reaches.refl _)), holds.1, rfl⟩
  | @header placed copy final crc transfer written copied last =>
      obtain ⟨second, reaches, ⟨file, same, holds⟩, point, rfl⟩ := copy_reaches given written copied
      obtain rfl := Option.some.inj same
      have sought : step given size second (.seek true) =
          some { second with point := .finalHeader, offset := 0 } := by
        simp [step, point]
      have due (transfer : Transfer) : step given size
          { second with point := .finalHeader, offset := 0 } (.wrote transfer) =
          Packing.writeHeader { second with point := .finalHeader, offset := 0 }
            (finished given size second.crc) (.returned 0) transfer := rfl
      have front : Holds { second with point := .finalHeader, offset := 0 }
          { copy with offset := 0 } := ⟨holds.1, rfl⟩
      obtain ⟨third, finish, holds', -, -, point'⟩ :=
        writeHeader_reaches (finished given size second.crc) (.returned 0) front last due
      refine ⟨third, reaches.trans (Reaches.head sought finish), holds'.1, ?_⟩
      rw [point']
      split_ifs <;> rfl

end Calls

/-- Wherever a pack stops after its output was opened, a file that verifies holds behind its
header all that was read from the input, as much as the input was long at first. -/
theorem interrupted_pack (given : FwHeader) (size : Nat) (small : size ≤ fwMaxImage)
    (outcomes : List Outcome) (s : Packing)
    (ran : runPartial (step given size) opened outcomes = some s) (calls : ReadCalls)
    (reads : Reads calls s.bytes)
    (valid : (inspectOrVerify calls s.bytes.length true).1 = 0 ∨ Verified calls s.bytes.length) :
    s.bytes.drop fwHeaderSize = s.input ∧ s.input.length = size := by
  have consistent : Consistent size s := runPartial_keeps (Consistent size)
    (fun holds _ moved => step_consistent small holds moved) outcomes (opened_consistent size)
    (admitsPartial_true opened outcomes) ran
  have accepts := verifiers_accept_format calls s.bytes reads
  have image : IsImage s.bytes := valid.elim accepts.1.mp accepts.2.mp
  exact consistent.blank_or_complete.resolve_left fun blank => not_isImage_of_blank blank image

/-- Only 28 bytes of the header are written: the other twelve are zero anyway. -/
def cutHeader : List Outcome :=
  [.wrote (.moved 40), .read (.data [0x4d, 0x4c]), .wrote (.moved 2), .read (.data []), .seek true,
    .wrote (.moved 28)]

theorem interrupted_pack_cut_header :
    ∃ s, runPartial (step versionOneTwoThree 2) opened cutHeader = some s ∧
      s.point = .returned 1 ∧ Verified (readsOf s.bytes) s.bytes.length ∧
      s.bytes.drop fwHeaderSize = s.input ∧ s.input.length = 2 := by
  have facts : (runPartial (step versionOneTwoThree 2) opened cutHeader).map
      (fun s => (s.point, s.bytes)) =
      some (.returned 1, imageOf versionOneTwoThree [0x4d, 0x4c]) := by decide +kernel
  obtain ⟨s, ran, observed⟩ := Option.map_eq_some_iff.mp facts
  obtain ⟨point, bytes⟩ := Prod.mk.inj observed
  have some : s.bytes ≠ [] := by
    rw [bytes, ← List.length_pos_iff, length_imageOf]
    decide
  have reads := reads_readsOf some
  have valid := (verified_iff reads).mpr
    ⟨_, bytes ▸ validAs_imageOf versionOneTwoThree [0x4d, 0x4c] (by decide)⟩
  exact ⟨s, ran, point, valid, interrupted_pack versionOneTwoThree 2 (by decide) cutHeader s ran
    (readsOf s.bytes) reads (Or.inr valid)⟩

end EmbeddedRuntime.Firmware.Interruption
