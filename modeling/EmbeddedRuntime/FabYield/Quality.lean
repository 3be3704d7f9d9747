import EmbeddedRuntime.FabYield.Aggregates

/-!
# Accounting for every row

`max_invalid` is meant to bound how many rejected rows are listed.  The number of
rejected rows is taken from that list, so that it is bounded too.
-/

set_option autoImplicit false

namespace EmbeddedRuntime.FabYield.Transform

open EmbeddedRuntime.Bmc.Python (Bytes)

variable {F : Type} (lib : Library F)

/-- The metadata count each row, and the rejected rows are listed up to the bound. -/
structure Accounts (rows : List Row) (maxInvalid : Int) (s : Snapshot F) : Prop where
  counted : s.metadata.rowsAccepted + s.metadata.rowsRejected = rows.length
  listed : s.invalidRows =
    (rejectedRows lib rows).take (min maxInvalid.toNat s.metadata.rowsRejected)

section
variable {lib} {events : Bytes} {notes : Option Bytes} {maxInvalid : Int} {snapshot : Snapshot F}

theorem build_rejected (built : build lib events notes maxInvalid = .ok snapshot) :
    snapshot.invalidRows = (rejectedRows lib (dataRows lib events)).take maxInvalid.toNat ∧
      snapshot.metadata.rowsRejected =
        min maxInvalid.toNat (rejectedRows lib (dataRows lib events)).length := by
  obtain ⟨s, summed, published⟩ := build_ok lib events notes maxInvalid snapshot built
  rw [published.invalidRows, published.rowsRejected, summed.invalid]
  exact ⟨rfl, List.length_take⟩

/-- The list is right in any case. -/
theorem build_listed (built : build lib events notes maxInvalid = .ok snapshot) :
    snapshot.invalidRows = (rejectedRows lib (dataRows lib events)).take
      (min maxInvalid.toNat snapshot.metadata.rowsRejected) := by
  obtain ⟨listed, counted⟩ := build_rejected built
  rw [listed, counted, ← min_assoc, min_self, ← List.take_take, List.take_length]

theorem build_rows_iff (built : build lib events notes maxInvalid = .ok snapshot) :
    snapshot.metadata.rowsAccepted + snapshot.metadata.rowsRejected =
        (dataRows lib events).length ↔
      (rejectedRows lib (dataRows lib events)).length ≤ maxInvalid.toNat := by
  have counted := (build_rejected built).2
  have accepted := (build_conserves lib events notes maxInvalid snapshot built).rowsAccepted
  have split := accepted_and_rejected lib (dataRows lib events)
  omega

end

theorem every_row_accounted_iff (events : Bytes) (notes : Option Bytes) (maxInvalid : Int)
    (nonneg : 0 ≤ maxInvalid) (snapshot : Snapshot F)
    (built : build lib events notes maxInvalid = .ok snapshot) :
    Accounts lib (dataRows lib events) maxInvalid snapshot ↔
      ((rejectedRows lib (dataRows lib events)).length : Int) ≤ maxInvalid := by
  have bound : (rejectedRows lib (dataRows lib events)).length ≤ maxInvalid.toNat ↔
      ((rejectedRows lib (dataRows lib events)).length : Int) ≤ maxInvalid := by omega
  rw [← bound, ← build_rows_iff built]
  exact ⟨Accounts.counted, fun counted => ⟨counted, build_listed built⟩⟩

/-- One row of the three is a duplicate. -/
theorem every_row_accounted_lab :
    ∃ snapshot, build labLibrary labEvents none 10000 = .ok snapshot ∧
      Accounts labLibrary (dictReader labRecords) 10000 snapshot := by
  obtain ⟨snapshot, built⟩ := build_total labLibrary labLibrary_documented
    (readable_without_notes labLibrary rfl) 10000 labLibrary_valid
  have exact := every_row_accounted_iff labLibrary labEvents none 10000 (by decide) snapshot built
  rw [labLibrary_rows] at exact
  refine ⟨snapshot, built, exact.mpr ?_⟩
  decide +kernel

/-! ## Too many duplicates -/

/-- One record again and again. -/
def copies (count : Nat) : List (List String) :=
  labRecords.take 1 ++ List.replicate count (labRecords.getD 1 [])

def copiesEvents (count : Nat) : Bytes :=
  ("\n".intercalate ((copies count).map fun record => ",".intercalate record)).toUTF8.toList

def copiesLibrary (count : Nat) : Library ℚ :=
  { labLibrary with
    csvReader := fun content => ⟨if content = copiesEvents count then copies count else [], none⟩ }

def copiedRow : Row := dictRow (labRecords.getD 0 []) (labRecords.getD 1 [])

theorem copies_rows (count : Nat) :
    dataRows (copiesLibrary count) (copiesEvents count) = List.replicate count copiedRow := by
  have records : dataRows (copiesLibrary count) (copiesEvents count) = dictReader (copies count) :=
    congrArg dictReader (if_pos rfl)
  have kept : (List.replicate count (labRecords.getD 1 [])).filter (fun record => !record.isEmpty) =
      List.replicate count (labRecords.getD 1 []) := List.filter_replicate_of_pos rfl
  rw [records]
  exact (congrArg (List.map (dictRow (labRecords.getD 0 []))) kept).trans List.map_replicate

/-- Of the copies of a row at most one is accepted. -/
theorem copies_rejected (row : Row) (count : Nat) :
    count ≤ (rejectedRows lib (List.replicate count row)).length + 1 := by
  have split := accepted_and_rejected lib (List.replicate count row)
  have same : ∀ event ∈ (firstValid lib (List.replicate count row)).map Record.event,
      HasEvent lib event row := by
    intro event member
    obtain ⟨r, kept, rfl⟩ := List.mem_map.mp member
    obtain ⟨copy, inside, valid⟩ := accepted_valid lib _ r kept
    rw [List.eq_of_mem_replicate inside] at valid
    exact ⟨r, valid, rfl⟩
  have once : (firstValid lib (List.replicate count row)).length ≤ 1 := by
    rw [← List.length_map Record.event]
    have distinct := events_distinct lib (List.replicate count row)
    cases events : (firstValid lib (List.replicate count row)).map Record.event with
    | nil => exact Nat.zero_le 1
    | cons event rest =>
      cases rest with
      | nil => exact le_refl 1
      | cons other rest =>
        rw [events] at distinct same
        obtain ⟨r, valid, first⟩ := same event (by simp)
        obtain ⟨r', valid', second⟩ := same other (by simp)
        obtain rfl : r = r' := Except.ok.inj (valid.symm.trans valid')
        rw [← first, ← second] at distinct
        simp at distinct
  rw [List.length_replicate] at split
  omega

theorem copies_built (count : Nat) (some : count ≠ 0) (maxInvalid : Int) :
    ∃ snapshot, build (copiesLibrary count) (copiesEvents count) none maxInvalid = .ok snapshot := by
  have documented : Documented (copiesLibrary count) :=
    ⟨labLibrary_documented.int, labLibrary_documented.float, labLibrary_documented.fromIsoFormat⟩
  have valid : HasEvent labLibrary "1" copiedRow := by decide +kernel
  obtain ⟨r, accepted, -⟩ := valid
  refine build_total (copiesLibrary count) documented
    (readable_without_notes (copiesLibrary count) rfl) maxInvalid ⟨copiedRow, ?_, r, accepted⟩
  rw [copies_rows]
  exact List.mem_replicate.mpr ⟨some, rfl⟩

/-- Ten thousand and one duplicates behind the first row: one of them is not counted. -/
theorem surplus_rejections_uncounted :
    ∃ snapshot, build (copiesLibrary 10002) (copiesEvents 10002) none 10000 = .ok snapshot ∧
      ¬Accounts (copiesLibrary 10002) (dataRows (copiesLibrary 10002) (copiesEvents 10002)) 10000
        snapshot := by
  obtain ⟨snapshot, built⟩ := copies_built 10002 (by decide) 10000
  refine ⟨snapshot, built, fun accounts => ?_⟩
  have few := (build_rows_iff built).mp accounts.counted
  rw [copies_rows] at few
  have many := copies_rejected (copiesLibrary 10002) copiedRow 10002
  omega

end EmbeddedRuntime.FabYield.Transform
