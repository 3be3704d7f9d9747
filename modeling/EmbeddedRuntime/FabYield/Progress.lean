import EmbeddedRuntime.FabYield.Tables

/-!
# There is a snapshot

With one valid row `build` returns: a text that is no number or time only costs
its row, and no row of a table divides by zero.
-/

set_option autoImplicit false

namespace EmbeddedRuntime.FabYield.Transform

open EmbeddedRuntime.Bmc.Python (Bytes Raised)
open EmbeddedRuntime.Lib.Fallible EmbeddedRuntime.Lib.Grouping

variable {F : Type} (lib : Library F)

/-- A text that is no number or time raises a `ValueError`. -/
structure Documented : Prop where
  int : ∀ text error, lib.int text = .error error → error.kind.isValueError
  float : ∀ text error, lib.float text = .error error → error.kind.isValueError
  fromIsoFormat : ∀ text error, lib.fromIsoFormat text = .error error → error.kind.isValueError

/-- Both files can be read to their ends, and a note that is no JSON raises a `ValueError`. -/
structure Readable (events : Bytes) (notes : Option Bytes) : Prop where
  rowsEnd : (lib.csvReader events).failure = none
  linesEnd : ∀ content, notes = some content → (lib.lines content).failure = none
  loads : ∀ content, notes = some content → ∀ line ∈ (lib.lines content).items,
    ∀ error, lib.loads line = .error error → error.kind.isValueError

theorem readable_without_notes {events : Bytes} (ended : (lib.csvReader events).failure = none) :
    Readable lib events none := ⟨ended, nofun, nofun⟩

theorem checkRequired_error (row : Row) (keys : List String) (error : Raised)
    (refused : checkRequired row keys = .error error) : error.kind.isValueError := by
  induction keys with
  | nil => cases refused
  | cons key keys ih =>
    rw [checkRequired] at refused
    split at refused
    · split at refused
      · cases refused
        rfl
      · exact ih refused
    · cases refused
      rfl

theorem validate_error (documented : Documented lib) (row : Row) (error : Raised)
    (refused : validate lib row = .error error) : error.kind.isValueError := by
  rcases bind_error refused with refused | ⟨_, -, refused⟩
  · exact checkRequired_error row required error refused
  rcases bind_error refused with refused | ⟨tested, -, refused⟩
  · exact documented.int _ _ refused
  rcases bind_error refused with refused | ⟨passed, -, refused⟩
  · exact documented.int _ _ refused
  split at refused
  · cases refused
    rfl
  rcases bind_error refused with refused | ⟨cycle, -, refused⟩
  · exact documented.float _ _ refused
  rcases bind_error refused with refused | ⟨temperature, -, refused⟩
  · exact documented.float _ _ refused
  split at refused
  · cases refused
    rfl
  rcases bind_error refused with refused | ⟨timestamp, -, refused⟩
  · exact documented.fromIsoFormat _ _ refused
  split at refused
  · cases refused
    rfl
  · cases refused

theorem tryRow_error (documented : Documented lib) (seen : List String) (row : Row) (error : Raised)
    (refused : tryRow lib seen row = .error error) : caught error = true := by
  have valueError : error.kind.isValueError := by
    rcases bind_error refused with refused | ⟨r, -, refused⟩
    · exact validate_error lib documented row error refused
    · split at refused
      · cases refused
        rfl
      · cases refused
  simp [caught, valueError]

theorem step_total (documented : Documented lib) (maxInvalid : Int) (s : State F)
    (numbered : Row × Nat) : ∃ next, step lib maxInvalid s numbered = .ok next := by
  unfold step
  cases admitted : tryRow lib s.seen numbered.1 with
  | ok r => exact ⟨_, rfl⟩
  | error error => exact ⟨_, if_pos (tryRow_error lib documented _ _ error admitted)⟩

theorem readRows_total (documented : Documented lib) (maxInvalid : Int) (rows : List Row) :
    ∃ s, readRows lib maxInvalid rows = .ok s :=
  foldlM_total _ _ _ fun s numbered _ => step_total lib documented maxInvalid s numbered

theorem nonzero_total {divisor : Int} (text : String) (other : divisor ≠ 0) :
    nonzero divisor text = .ok () := if_neg other

theorem summary_total (entry : Sigma fun _ : String => Bucket F)
    (some : entry.2.tested ≠ 0 ∧ entry.2.wafers ≠ 0) : ∃ row, summary lib entry = .ok row := by
  have wafers : (entry.2.wafers : Int) ≠ 0 := by exact_mod_cast some.2
  simp only [summary, percentage, average, nonzero_total _ some.1, nonzero_total _ wafers]
  exact ⟨_, rfl⟩

theorem trendRow_total (entry : Sigma fun _ : String => Bucket F)
    (some : entry.2.tested ≠ 0 ∧ entry.2.wafers ≠ 0) : ∃ row, trendRow lib entry = .ok row := by
  obtain ⟨row, summed⟩ := summary_total lib entry some
  exact ⟨⟨row.id, row.metrics⟩, by rw [trendRow, summed]; rfl⟩

/-- The last record of a lot has set both keys of its bucket. -/
theorem filled_keys (b : Bucket F) (records : List (Record F)) (some : records ≠ []) :
    ∃ toolId processStep, (records.foldl (addLotRecord lib) b).toolId = .some toolId ∧
      (records.foldl (addLotRecord lib) b).processStep = .some processStep := by
  have last := List.dropLast_append_getLast some
  rw [← last, List.foldl_append]
  exact ⟨(records.getLast some).tool, (records.getLast some).step, rfl, rfl⟩

theorem lotRow_total (records : List (Record F)) (entry : Sigma fun _ : String => Bucket F)
    (member : entry ∈ byKey (group Record.lot (bucket lib) (addLotRecord lib) records)) :
    ∃ row, lotRow lib entry = .ok row := by
  obtain ⟨row, summed⟩ := summary_total lib entry (bucket_tested (addLotRecord_adds lib) member)
  obtain ⟨some, filled⟩ := entry_group Record.lot (bucket lib) (addLotRecord lib) records entry
    ((mem_byKey _ entry).mp member)
  obtain ⟨toolId, processStep, tool, step⟩ := filled_keys lib (bucket lib) _ some
  rw [← filled] at tool step
  refine ⟨⟨row, toolId, processStep⟩, ?_⟩
  rw [lotRow, summed, tool, step]
  rfl

theorem note_error {line : String}
    (documented : ∀ error, lib.loads line = .error error → error.kind.isValueError)
    (lots : Table String (Bucket F)) (error : Raised)
    (refused : note lib lots line = .error error) : noteCaught error = true := by
  have entries : ∀ obj name error, entryOf obj name = .error error → noteCaught error = true := by
    intro obj name error missing
    unfold entryOf at missing
    split at missing
    · cases missing
    · cases missing
      rfl
  rcases bind_error refused with refused | ⟨obj, -, refused⟩
  · simp [noteCaught, documented error refused]
  split at refused
  · cases refused
    rfl
  rcases bind_error refused with refused | ⟨lot, -, refused⟩
  · exact entries _ _ error refused
  rcases bind_error refused with refused | ⟨message, -, refused⟩
  · exact entries _ _ error refused
  split at refused
  · split at refused
    · cases refused
    · cases refused
      rfl
  · cases refused
    rfl

theorem readNotes_total {events : Bytes} {notes : Option Bytes}
    (readable : Readable lib events notes) (lots : Table String (Bucket F)) :
    ∃ read, readNotes lib lots notes = .ok read := by
  cases notes with
  | none => exact ⟨_, rfl⟩
  | some content =>
    have turn : ∀ read, ∀ line ∈ (lib.lines content).items,
        ∃ next, readNote lib lots read line = .ok next := by
      intro read line member
      unfold readNote
      split
      · exact ⟨_, rfl⟩
      cases found : note lib lots line with
      | ok row => exact ⟨_, rfl⟩
      | error error =>
        exact ⟨_, if_pos (note_error lib (readable.loads content rfl line member) lots error found)⟩
    obtain ⟨read, ran⟩ := foldlM_total (readNote lib lots) _ ⟨[], 0⟩ turn
    refine ⟨read, ?_⟩
    simp only [readNotes, ran, ended, readable.linesEnd content rfl]
    rfl

theorem publish_total {events : Bytes} {notes : Option Bytes} {maxInvalid : Int} {rows : List Row}
    {s : State F} (readable : Readable lib events notes) (summed : Summed lib maxInvalid rows s)
    (some : firstValid lib rows ≠ []) : ∃ snapshot, publish lib s notes = .ok snapshot := by
  have accepted : s.accepted ≠ 0 := by
    rw [summed.accepted]
    exact List.length_pos_iff.mpr some |>.ne'
  have tested : s.tested ≠ 0 := by
    have pos := records_pos _ some
    rw [summed.tested]
    exact (Int.lt_of_lt_of_le Int.one_pos pos).ne'
  obtain ⟨lots, lotRows⟩ := mapM_total (lotRow lib) (byKey s.lots) fun entry member =>
    lotRow_total lib _ entry (summed.lots ▸ member)
  obtain ⟨tools, toolRows⟩ := mapM_total (summary lib) (byKey s.tools) fun entry member =>
    summary_total lib entry (bucket_tested (addRecord_adds lib) (summed.tools ▸ member))
  obtain ⟨trend, trendRows⟩ := mapM_total (trendRow lib) (byKey s.days) fun entry member =>
    trendRow_total lib entry (bucket_tested (addRecord_adds lib) (summed.days ▸ member))
  obtain ⟨read, notesRead⟩ := readNotes_total lib readable s.lots
  unfold publish
  rw [if_neg accepted, lotRows, toolRows, trendRows, notesRead, percentage, nonzero_total _ tested]
  exact ⟨_, rfl⟩

theorem build_total (documented : Documented lib) {events : Bytes} {notes : Option Bytes}
    (readable : Readable lib events notes) (maxInvalid : Int)
    (some : ∃ row ∈ dataRows lib events, ∃ r, validate lib row = .ok r) :
    ∃ snapshot, build lib events notes maxInvalid = .ok snapshot := by
  obtain ⟨row, member, r, valid⟩ := some
  obtain ⟨accepted, kept, -⟩ := event_accepted lib _ row member r.event ⟨r, valid, rfl⟩
  obtain ⟨s, read⟩ := readRows_total lib documented maxInvalid (dataRows lib events)
  have summed := readRows_summed lib maxInvalid _ s read
  obtain ⟨snapshot, published⟩ := publish_total lib readable summed (List.ne_nil_of_mem kept)
  refine ⟨snapshot, ?_⟩
  rw [build, read, ended, readable.rowsEnd]
  exact published

end EmbeddedRuntime.FabYield.Transform
