import EmbeddedRuntime.FabYield.Progress
import Mathlib.Data.Rat.Floor

/-!
# The tables add up

The accepted rows are the first valid row of each event, the tables are theirs,
and with one of them there is a snapshot.
-/

set_option autoImplicit false

namespace EmbeddedRuntime.FabYield.Transform

open EmbeddedRuntime.Bmc.Python (Bytes Kind Raised valueError)

variable {F : Type} (lib : Library F)

/-- The records of the first valid row of each event. -/
structure FirstOfEach (rows : List Row) (records : List (Record F)) : Prop where
  first : ∀ r, r ∈ records ↔
    ∃ i row, rows[i]? = some row ∧ validate lib row = .ok r ∧
      ¬∃ before ∈ rows.take i, HasEvent lib r.event before
  distinct : (records.map Record.event).Nodup

/-- The tables of a snapshot are those of the accepted rows, which are the first valid row of
each event; and one valid row is enough for a snapshot. -/
theorem yield_aggregates_conserved (events : Bytes) (notes : Option Bytes) (maxInvalid : Int) :
    FirstOfEach lib (dataRows lib events) (firstValid lib (dataRows lib events)) ∧
      (∀ snapshot, build lib events notes maxInvalid = .ok snapshot →
        Conserves (firstValid lib (dataRows lib events)) snapshot) ∧
      (Documented lib → Readable lib events notes →
        (∃ row ∈ dataRows lib events, ∃ r, validate lib row = .ok r) →
        ∃ snapshot, build lib events notes maxInvalid = .ok snapshot) :=
  ⟨⟨mem_firstValid lib _, events_distinct lib _⟩, build_conserves lib events notes maxInvalid,
    fun documented readable => build_total lib documented readable maxInvalid⟩

/-! ## A file of three rows -/

def labRecords : List (List String) :=
  [["event_id", "timestamp", "lot_id", "wafer_id", "tool_id", "process_step", "dies_tested",
      "dies_passed", "cycle_seconds", "temperature_c"],
    ["1", "2026-09-01T00:00:00+00:00", "L-1", "W1", "ETCH-02", "etch", "100", "80", "20", "26"],
    ["1", "2026-09-01T00:00:00+00:00", "L-1", "W1", "ETCH-02", "etch", "100", "80", "20", "26"],
    ["4", "2026-09-01T00:00:00+00:00", "L2", "W1", "ETCH-02", "etch", "100", "80", "20", "26"]]

/-- The records as the text of a file. -/
def labEvents : Bytes :=
  ("\n".intercalate (labRecords.map fun record => ",".intercalate record)).toUTF8.toList

/-- A reader of this file, with exact fractions for numbers. -/
def labLibrary : Library ℚ where
  csvReader := fun content => ⟨if content = labEvents then labRecords else [], none⟩
  lines := fun _ => ⟨[], none⟩
  int := fun text =>
    match text with
    | "100" => .ok 100
    | "80" => .ok 80
    | _ => valueError "invalid literal for int()"
  float := fun text =>
    match text with
    | "20" => .ok 20
    | "26" => .ok 26
    | _ => valueError "could not convert string to float"
  fromIsoFormat := fun text =>
    match text with
    | "2026-09-01T00:00:00+00:00" => .ok ⟨2026, 9, 1, true⟩
    | _ => valueError "Invalid isoformat string"
  loads := fun _ => .error ⟨.jsonDecodeError, "Expecting value"⟩
  lower := fun text => String.ofList (text.toList.map Char.toLower)
  ofInt := fun value => value
  lt := fun first second => decide (first < second)
  le := fun first second => decide (first ≤ second)
  add := fun first second => first + second
  mul := fun first second => first * second
  quotient := fun dividend divisor => dividend / divisor
  divide := fun dividend divisor => dividend / divisor
  round := fun value => round (value * 100) / 100

theorem labLibrary_documented : Documented labLibrary where
  int := by
    intro text error refused
    simp only [labLibrary] at refused
    split at refused <;> cases refused
    rfl
  float := by
    intro text error refused
    simp only [labLibrary] at refused
    split at refused <;> cases refused
    rfl
  fromIsoFormat := by
    intro text error refused
    simp only [labLibrary] at refused
    split at refused <;> cases refused
    rfl

theorem labLibrary_rows : dataRows labLibrary labEvents = dictReader labRecords :=
  congrArg dictReader (if_pos rfl)

theorem labLibrary_valid :
    ∃ row ∈ dataRows labLibrary labEvents, ∃ r, validate labLibrary row = .ok r := by
  have first : ∃ row ∈ dictReader labRecords, HasEvent labLibrary "1" row := by decide +kernel
  obtain ⟨row, member, r, valid, -⟩ := first
  exact ⟨row, labLibrary_rows ▸ member, r, valid⟩

theorem yield_aggregates_conserved_lab :
    ∃ snapshot, build labLibrary labEvents none 10000 = .ok snapshot ∧
      snapshot.metadata.rowsAccepted = 2 ∧ snapshot.summary.diesPassed = 160 := by
  obtain ⟨-, conserved, returns⟩ := yield_aggregates_conserved labLibrary labEvents none 10000
  obtain ⟨snapshot, built⟩ := returns labLibrary_documented (readable_without_notes labLibrary rfl)
    labLibrary_valid
  rw [labLibrary_rows] at conserved
  refine ⟨snapshot, built, ?_, ?_⟩
  · rw [(conserved snapshot built).rowsAccepted]
    decide +kernel
  · rw [(conserved snapshot built).diesPassed]
    decide +kernel

end EmbeddedRuntime.FabYield.Transform
