import EmbeddedRuntime.FabYield.Tables

/-!
# Alerts and notes of a snapshot

A lot with a low yield has one alert, and a note that is kept names a lot of the
snapshot.  The notes that are kept and those that are counted as errors are all
lines of the file that are not blank.
-/

set_option autoImplicit false

namespace EmbeddedRuntime.FabYield.Transform

open EmbeddedRuntime.Bmc.Python (Bytes Raised)
open EmbeddedRuntime.Lib.Fallible EmbeddedRuntime.Lib.Grouping

variable {F : Type} (lib : Library F)

/-! ## Notes -/

/-- A note that is kept. -/
structure Kept (lots : Table String (Bucket F)) (row : Note) : Prop where
  lot : row.lotId ∈ lots
  short : row.message.length ≤ 300

theorem note_ok (lots : Table String (Bucket F)) (line : String) (row : Note)
    (ran : note lib lots line = .ok row) : Kept lots row := by
  obtain ⟨obj, -, ran⟩ := bind_eq_ok.mp ran
  split at ran
  · cases ran
  · obtain ⟨lot, -, ran⟩ := bind_eq_ok.mp ran
    obtain ⟨message, -, ran⟩ := bind_eq_ok.mp ran
    split at ran
    · split at ran
      · rename_i known
        cases ran
        exact ⟨known, by simp [String.length_ofList]⟩
      · cases ran
    · cases ran

/-- The lines of the file that are not blank. -/
def noteLines (notes : Option Bytes) : List String :=
  match notes with
  | none => []
  | some content => (lib.lines content).items.filter fun line => !blank line

/-- The notes of these lines. -/
structure NotesOf (lots : Table String (Bucket F)) (lines : List String) (read : Notes) : Prop where
  counted : read.rows.length + read.errors = (lines.filter fun line => !blank line).length
  kept : ∀ row ∈ read.rows, Kept lots row

theorem readNote_of {lots : Table String (Bucket F)} {lines : List String} {read next : Notes}
    (notes : NotesOf lots lines read) (line : String)
    (ran : readNote lib lots read line = .ok next) : NotesOf lots (lines ++ [line]) next := by
  obtain ⟨counted, kept⟩ := notes
  unfold readNote at ran
  split at ran
  · rename_i empty
    cases ran
    refine ⟨?_, kept⟩
    rw [List.filter_append, List.length_append, counted]
    simp [empty]
  · rename_i full
    have one : ((lines ++ [line]).filter fun line => !blank line).length =
        (lines.filter fun line => !blank line).length + 1 := by
      rw [List.filter_append, List.length_append]
      simp [full]
    split at ran
    · rename_i row found
      cases ran
      refine ⟨?_, ?_⟩
      · rw [one, List.length_append, List.length_singleton]
        dsimp only
        omega
      · intro other member
        rcases List.mem_append.mp member with member | member
        · exact kept other member
        · rw [List.mem_singleton.mp member]
          exact note_ok lib lots line row found
    · split at ran
      · cases ran
        refine ⟨?_, kept⟩
        rw [one]
        dsimp only
        omega
      · cases ran

theorem readNotes_ok {lots : Table String (Bucket F)} {notes : Option Bytes} {read : Notes}
    (ran : readNotes lib lots notes = .ok read) :
    read.rows.length + read.errors = (noteLines lib notes).length ∧
      ∀ row ∈ read.rows, Kept lots row := by
  cases notes with
  | none =>
    cases ran
    exact ⟨rfl, nofun⟩
  | some content =>
    obtain ⟨last, ran, ended⟩ := bind_eq_ok.mp ran
    obtain ⟨_, -, same⟩ := bind_eq_ok.mp ended
    cases same
    suffices of : ∀ (lines : List String) (read : Notes),
        lines.foldlM (readNote lib lots) ⟨[], 0⟩ = .ok read → NotesOf lots lines read from
      ⟨(of _ _ ran).counted, (of _ _ ran).kept⟩
    intro lines
    induction lines using List.reverseRecOn with
    | nil =>
      intro read ran
      cases ran
      exact ⟨rfl, nofun⟩
    | append_singleton lines line ih =>
      intro read ran
      rw [foldlM_snoc] at ran
      obtain ⟨before, earlier, ran⟩ := bind_eq_ok.mp ran
      exact readNote_of lib (ih before earlier) line ran

/-! ## Rows and alerts -/

/-- The yield of a row is a percentage of its dies. -/
def PercentageOf (row : LotRow F) : Prop :=
  percentage lib row.summary.metrics.diesPassed row.summary.metrics.diesTested =
    .ok row.summary.metrics.yieldPct

theorem lotRow_percentage (entry : Sigma fun _ : String => Bucket F) (row : LotRow F)
    (ran : lotRow lib entry = .ok row) : PercentageOf lib row := by
  obtain ⟨metrics, summed, ran⟩ := bind_eq_ok.mp ran
  obtain ⟨toolId, -, ran⟩ := bind_eq_ok.mp ran
  obtain ⟨processStep, -, ran⟩ := bind_eq_ok.mp ran
  cases ran
  obtain ⟨yieldPct, percent, summed⟩ := bind_eq_ok.mp summed
  obtain ⟨cycle, -, summed⟩ := bind_eq_ok.mp summed
  obtain ⟨temperature, -, summed⟩ := bind_eq_ok.mp summed
  cases summed
  exact percent

/-- What `build` says about a snapshot beside its tables. -/
structure Announces (notes : Option Bytes) (s : Snapshot F) : Prop where
  alerts : s.alerts = s.lots.filterMap (alert lib)
  alertCount : s.summary.alertCount = s.alerts.length
  totalLots : s.summary.totalLots = s.lots.length
  schemaVersion : s.metadata.schemaVersion = 1
  yields : ∀ row ∈ s.lots, PercentageOf lib row
  notes : s.notes.length + s.metadata.notesRejected = (noteLines lib notes).length
  kept : ∀ row ∈ s.notes, row.lotId ∈ s.lotTable.map Prod.fst ∧ row.message.length ≤ 300

theorem publish_announces (s : State F) (notes : Option Bytes) (snapshot : Snapshot F)
    (ran : publish lib s notes = .ok snapshot) : Announces lib notes snapshot := by
  have lots := (publish_ok lib s notes snapshot ran).lots
  unfold publish at ran
  by_cases empty : s.accepted = 0
  · rw [if_pos empty] at ran
    cases ran
  · rw [if_neg empty] at ran
    obtain ⟨lotRows, rowsRan, ran⟩ := bind_eq_ok.mp ran
    obtain ⟨tools, -, ran⟩ := bind_eq_ok.mp ran
    obtain ⟨trend, -, ran⟩ := bind_eq_ok.mp ran
    obtain ⟨read, notesRan, ran⟩ := bind_eq_ok.mp ran
    obtain ⟨yieldPct, -, ran⟩ := bind_eq_ok.mp ran
    cases ran
    obtain ⟨counted, kept⟩ := readNotes_ok lib notesRan
    refine ⟨rfl, rfl, rfl, rfl, fun row member => ?_, counted, fun row member => ?_⟩
    · obtain ⟨entry, -, here⟩ := mapM_ok_mem _ _ _ rowsRan member
      exact lotRow_percentage lib entry row here
    · refine ⟨?_, (kept row member).short⟩
      rw [lots, List.map_map]
      exact (key_mem_byKey s.lots row.lotId).mpr (kept row member).lot

theorem build_announces (events : Bytes) (notes : Option Bytes) (maxInvalid : Int)
    (snapshot : Snapshot F) (ran : build lib events notes maxInvalid = .ok snapshot) :
    Announces lib notes snapshot := by
  obtain ⟨s, -, ran⟩ := bind_eq_ok.mp ran
  obtain ⟨_, -, ran⟩ := bind_eq_ok.mp ran
  exact publish_announces lib s notes snapshot ran

end EmbeddedRuntime.FabYield.Transform
