import EmbeddedRuntime.FabYield.Alerts
import EmbeddedRuntime.FabYield.Api
import EmbeddedRuntime.FabYield.Reads
import Mathlib.Data.List.Perm.Basic

/-!
# What the service shows of the events

From the rows of a file of events through a snapshot to the answers of the
service, whatever pipelines and requests do at the same time.
-/

set_option autoImplicit false

namespace EmbeddedRuntime.FabYield.Api

open EmbeddedRuntime.Bmc.Python (Bytes)
open EmbeddedRuntime.FabYield.Lots (LotMetric Runtime)
open EmbeddedRuntime.FabYield.Transform
  (Library Row firstValid rejectedRows testedSum passedSum noteLines percentage build)
open EmbeddedRuntime.Lib.Fallible EmbeddedRuntime.Lib.Paging

variable {F : Type}

/-! ## Through the file -/

theorem int32_toInt {value : Int} {read : Int32} (fits : int32 value = some read) :
    read.toInt = value := by
  unfold int32 at fits
  split at fits
  · rename_i bounds
    cases fits
    exact Int32.toInt_ofInt_of_le bounds.1 bounds.2
  · cases fits

theorem int64_toInt {value : Int} {read : Int64} (fits : int64 value = some read) :
    read.toInt = value := by
  unfold int64 at fits
  split at fits
  · rename_i bounds
    cases fits
    exact Int64.toInt_ofInt_of_le bounds.1 bounds.2
  · cases fits

theorem lotMetric_carries (row : Transform.LotRow F) (l : LotMetric F)
    (fits : lotMetric row = some l) :
    (l.id, l.yieldPct) = (row.summary.id, row.summary.metrics.yieldPct) := by
  rw [lotMetric] at fits
  obtain ⟨m, fits, same⟩ := Option.bind_eq_some_iff.mp fits
  rw [metric] at fits
  obtain ⟨wafers, -, fits⟩ := Option.bind_eq_some_iff.mp fits
  obtain ⟨tested, -, fits⟩ := Option.bind_eq_some_iff.mp fits
  obtain ⟨passed, -, fits⟩ := Option.bind_eq_some_iff.mp fits
  obtain ⟨failed, -, fits⟩ := Option.bind_eq_some_iff.mp fits
  cases fits
  cases same
  rfl

theorem invalidRow_carries (row : Transform.InvalidRow) (read : InvalidRow)
    (fits : invalidRow row = some read) :
    (read.line.toInt, read.reason) = ((row.line : Int), row.reason) := by
  rw [invalidRow] at fits
  obtain ⟨line, lineFits, same⟩ := Option.bind_eq_some_iff.mp fits
  cases same
  rw [int32_toInt lineFits]

/-- What the endpoints need of a snapshot from the file. -/
structure Carries (s : Transform.Snapshot F) (data : Snapshot F) : Prop where
  rowsAccepted : data.metadata.rowsAccepted.toInt = s.metadata.rowsAccepted
  notesRejected : data.metadata.notesRejected.toInt = s.metadata.notesRejected
  schemaVersion : data.metadata.schemaVersion.toInt = s.metadata.schemaVersion
  diesTested : data.summary.diesTested.toInt = s.summary.diesTested
  diesPassed : data.summary.diesPassed.toInt = s.summary.diesPassed
  alertCount : data.summary.alertCount.toInt = s.summary.alertCount
  lots : data.lots.map (fun l => (l.id, l.yieldPct)) =
    s.lots.map fun row => (row.summary.id, row.summary.metrics.yieldPct)
  alerts : data.alerts = s.alerts.map yieldAlert
  notes : data.notes = s.notes.map technicianNote
  invalidRows : data.invalidRows.map (fun row => (row.line.toInt, row.reason)) =
    s.invalidRows.map fun row => ((row.line : Int), row.reason)

theorem deserialized_carries {s : Transform.Snapshot F} {data : Snapshot F}
    (fits : deserialized s = some data) : Carries s data := by
  rw [deserialized] at fits
  obtain ⟨m, metaFits, fits⟩ := Option.bind_eq_some_iff.mp fits
  obtain ⟨totals, totalFits, fits⟩ := Option.bind_eq_some_iff.mp fits
  obtain ⟨lots, lotsFit, fits⟩ := Option.bind_eq_some_iff.mp fits
  obtain ⟨tools, -, fits⟩ := Option.bind_eq_some_iff.mp fits
  obtain ⟨trend, -, fits⟩ := Option.bind_eq_some_iff.mp fits
  obtain ⟨invalidRows, invalidFit, fits⟩ := Option.bind_eq_some_iff.mp fits
  split at fits
  · cases fits
    rw [metadata] at metaFits
    rw [yieldSummary] at totalFits
    obtain ⟨accepted, acceptedFits, metaFits⟩ := Option.bind_eq_some_iff.mp metaFits
    obtain ⟨rejected, -, metaFits⟩ := Option.bind_eq_some_iff.mp metaFits
    obtain ⟨notes, notesFit, metaFits⟩ := Option.bind_eq_some_iff.mp metaFits
    obtain ⟨version, versionFits, same⟩ := Option.bind_eq_some_iff.mp metaFits
    cases same
    obtain ⟨totalLots, -, totalFits⟩ := Option.bind_eq_some_iff.mp totalFits
    obtain ⟨wafers, -, totalFits⟩ := Option.bind_eq_some_iff.mp totalFits
    obtain ⟨tested, testedFits, totalFits⟩ := Option.bind_eq_some_iff.mp totalFits
    obtain ⟨passed, passedFits, totalFits⟩ := Option.bind_eq_some_iff.mp totalFits
    obtain ⟨failed, -, totalFits⟩ := Option.bind_eq_some_iff.mp totalFits
    obtain ⟨alerts, alertsFit, same⟩ := Option.bind_eq_some_iff.mp totalFits
    cases same
    exact { rowsAccepted := int32_toInt acceptedFits, notesRejected := int32_toInt notesFit,
            schemaVersion := int32_toInt versionFits, diesTested := int64_toInt testedFits,
            diesPassed := int64_toInt passedFits, alertCount := int32_toInt alertsFit,
            lots := map_of_mapM_some _ _ _ lotMetric_carries _ _ lotsFit,
            alerts := rfl, notes := rfl,
            invalidRows := map_of_mapM_some _ _ _ invalidRow_carries _ _ invalidFit }
  · cases fits

/-! ## The answers -/

/-- All pages of a listing, one after another. -/
def listing (rt : Runtime F) (data : Snapshot F) (q : Lots.Query F) : List (LotMetric F) :=
  (List.range (pageCount q.size.toInt.toNat
    (Lots.orderLots rt (Lots.matching rt data.pages q)))).flatMap
      fun i => (lots (some data) rt (q.atPage i)).items

def lotIds (data : Snapshot F) : List String := data.lots.map LotMetric.id

/-- The answers of the service over these rows and this many notes. -/
structure Faithful (lib : Library F) (rt : Runtime F) (rows : List Row) (noteCount : Nat)
    (maxInvalid : Int) (data : Snapshot F) : Prop where
  healthy : health (some data) = .ok ("ok", "ready")
  totals : ∃ totals m, summary (some data) = .ok (totals, m) ∧
    m.rowsAccepted.toInt = (firstValid lib rows).length ∧
    totals.diesTested.toInt = testedSum (firstValid lib rows) ∧
    totals.diesPassed.toInt = passedSum (firstValid lib rows)
  lots : (lotIds data).Nodup ∧ ∀ id, id ∈ lotIds data ↔ ∃ r ∈ firstValid lib rows, r.lot = id
  severities : ∃ all high medium, alerts (some data) none = .ok all ∧
    alerts (some data) (some "high") = .ok high ∧
    alerts (some data) (some "medium") = .ok medium ∧ (high ++ medium).Perm all ∧
    (∀ a ∈ high, lib.lt a.observed (lib.ofInt 90) = true) ∧
    (∀ a ∈ medium, lib.lt a.observed (lib.ofInt 90) = false) ∧
    data.summary.alertCount.toInt = all.length
  /-- Each lot has an alert, or is listed when only good yields are asked for, and not both. -/
  alerted : ∀ q, q.tool = none → q.minYield = some (rt.ofInt 93) → Lots.invalid rt q = false →
    ∀ all, alerts (some data) none = .ok all →
      ((listing rt data q).map LotMetric.id ++ all.map YieldAlert.lotId).Perm (lotIds data)
  notes : ∃ all flagged plain, notes (some data) none = .ok all ∧
    notes (some data) (some true) = .ok flagged ∧ notes (some data) (some false) = .ok plain ∧
    (flagged ++ plain).Perm all ∧ (∀ n ∈ all, n.lotId ∈ lotIds data) ∧
    all.length + data.metadata.notesRejected.toInt = noteCount
  quality : ∃ m rejected, dataQuality (some data) = .ok (m, rejected) ∧
    rejected.map (fun row => (row.line.toInt, row.reason)) =
      (((rejectedRows lib rows).take maxInvalid.toNat).take 100).map
        fun row => ((row.line : Int), row.reason)

section
variable {lib : Library F} {rt : Runtime F} {events : Bytes} {fileNotes : Option Bytes}
variable {maxInvalid : Int} {s : Transform.Snapshot F} {data : Snapshot F}

theorem lotIds_eq (carries : Carries s data) : lotIds data = s.lotTable.map Prod.fst := by
  have ids := congrArg (List.map Prod.fst) carries.lots
  rw [List.map_map, List.map_map] at ids
  rw [Transform.Snapshot.lotTable, List.map_map]
  exact ids

/-- A published snapshot passes the checks of the store. -/
theorem read_carried (built : build lib events fileNotes maxInvalid = .ok s)
    (carries : Carries s data) : read (some data) = some data := by
  have version : data.metadata.schemaVersion = 1 := by
    apply Int32.toInt_inj.mp
    rw [carries.schemaVersion, (Transform.build_announces lib _ _ _ _ built).schemaVersion]
    rfl
  have tested : ¬data.summary.diesTested < 1 := by
    obtain ⟨state, summed, published⟩ := Transform.build_ok lib _ _ _ _ built
    have some : firstValid lib (Transform.dataRows lib events) ≠ [] := by
      rw [← List.length_pos_iff, ← summed.accepted]
      exact Nat.pos_of_ne_zero published.accepted
    have pos := Transform.records_pos _ some
    rw [Int64.lt_iff_toInt_lt, carries.diesTested, published.diesTested, summed.tested]
    exact not_lt.mpr pos
  exact if_neg (not_or.mpr ⟨not_not.mpr version, tested⟩)

theorem withSnapshot_ok {A : Type} (ready : read (some data) = some data)
    (success : Snapshot F → A) : withSnapshot (some data) success = .ok (success data) := by
  rw [withSnapshot, ready]

/-- The lots with alerts, in the order of the table. -/
theorem alerts_eq (built : build lib events fileNotes maxInvalid = .ok s)
    (carries : Carries s data) :
    data.alerts.map YieldAlert.lotId =
        (data.lots.filter fun l => lib.lt l.yieldPct (lib.ofInt 93)).map LotMetric.id ∧
      ∀ a ∈ data.alerts, a.severity =
        if lib.lt a.observed (lib.ofInt 90) then "high" else "medium" := by
  have announced := Transform.build_announces lib _ _ _ _ built
  constructor
  · have pairs : ∀ rows : List (Transform.LotRow F), ∀ read : List (LotMetric F),
        read.map (fun l => (l.id, l.yieldPct)) =
          rows.map (fun row => (row.summary.id, row.summary.metrics.yieldPct)) →
        ((rows.filterMap (Transform.alert lib)).map yieldAlert).map YieldAlert.lotId =
          (read.filter fun l => lib.lt l.yieldPct (lib.ofInt 93)).map LotMetric.id := by
      intro rows
      induction rows with
      | nil =>
        intro read same
        rw [List.map_nil, List.map_eq_nil_iff] at same
        subst same
        rfl
      | cons row rows ih =>
        intro read same
        cases read with
        | nil => cases same
        | cons l read =>
          rw [List.map_cons, List.map_cons, List.cons.injEq, Prod.mk.injEq] at same
          obtain ⟨⟨id, yieldPct⟩, same⟩ := same
          by_cases low : lib.lt row.summary.metrics.yieldPct (lib.ofInt 93) = true
          · obtain ⟨alert, raised, lotId⟩ : ∃ alert, Transform.alert lib row = some alert ∧
                alert.lotId = row.summary.id := ⟨_, if_pos low, rfl⟩
            rw [List.filterMap_cons_some raised, List.filter_cons_of_pos (yieldPct ▸ low),
              List.map_cons, List.map_cons, List.map_cons, ih read same, id, ← lotId]
            rfl
          · have silent : Transform.alert lib row = none := if_neg low
            rw [List.filterMap_cons_none silent, List.filter_cons_of_neg (yieldPct ▸ low),
              ih read same]
    rw [carries.alerts, announced.alerts]
    exact pairs _ _ carries.lots
  · intro a member
    rw [carries.alerts, announced.alerts] at member
    obtain ⟨alert, inside, rfl⟩ := List.mem_map.mp member
    obtain ⟨row, -, found⟩ := List.mem_filterMap.mp inside
    unfold Transform.alert at found
    dsimp only at found
    split at found
    · cases found
      rfl
    · cases found

theorem faithful_severities (built : build lib events fileNotes maxInvalid = .ok s)
    (carries : Carries s data) (ready : read (some data) = some data) :
    ∃ all high medium, alerts (some data) none = .ok all ∧
      alerts (some data) (some "high") = .ok high ∧
      alerts (some data) (some "medium") = .ok medium ∧ (high ++ medium).Perm all ∧
      (∀ a ∈ high, lib.lt a.observed (lib.ofInt 90) = true) ∧
      (∀ a ∈ medium, lib.lt a.observed (lib.ofInt 90) = false) ∧
      data.summary.alertCount.toInt = all.length := by
  have severity := (alerts_eq built carries).2
  have either : ∀ a ∈ data.alerts, (a.severity == "medium") = !(a.severity == "high") := by
    intro a member
    rw [severity a member]
    split <;> rfl
  have answer : ∀ severity, (severity = "high" ∨ severity = "medium") →
      alerts (some data) (some severity) =
        .ok (data.alerts.filter fun a => a.severity == severity) := by
    rintro severity (rfl | rfl) <;> exact withSnapshot_ok ready _
  refine ⟨data.alerts, data.alerts.filter fun a => a.severity == "high",
    data.alerts.filter fun a => a.severity == "medium", ?_, answer _ (.inl rfl),
    answer _ (.inr rfl), ?_, ?_, ?_, ?_⟩
  · refine (withSnapshot_ok ready _).trans (congrArg _ ?_)
    exact List.filter_eq_self.mpr fun _ _ => rfl
  · rw [List.filter_congr either]
    exact List.filter_append_perm _ _
  · intro a member
    obtain ⟨member, high⟩ := List.mem_filter.mp member
    rw [severity a member] at high
    split at high
    · assumption
    · cases high
  · intro a member
    obtain ⟨member, medium⟩ := List.mem_filter.mp member
    rw [severity a member] at medium
    split at medium
    · cases medium
    · rename_i notHigh
      exact Bool.eq_false_iff.mpr notHigh
  · rw [carries.alertCount, (Transform.build_announces lib _ _ _ _ built).alertCount,
      carries.alerts, List.length_map]

/-- The comparisons of the two programs agree on percentages, which are numbers. -/
def Comparable (lib : Library F) (rt : Runtime F) : Prop :=
  ∀ passed total yieldPct, percentage lib passed total = .ok yieldPct →
    rt.le (rt.ofInt 93) yieldPct = !lib.lt yieldPct (lib.ofInt 93)

theorem faithful_alerted (comparable : Comparable lib rt)
    (built : build lib events fileNotes maxInvalid = .ok s) (carries : Carries s data)
    (ready : read (some data) = some data) (q : Lots.Query F) (anyTool : q.tool = none)
    (good : q.minYield = some (rt.ofInt 93)) (accepted : Lots.invalid rt q = false)
    (all : List (YieldAlert F)) (answered : alerts (some data) none = .ok all) :
    ((listing rt data q).map LotMetric.id ++ all.map YieldAlert.lotId).Perm (lotIds data) := by
  have same : all = data.alerts := by
    have answer := (withSnapshot_ok ready _).symm.trans answered
    rw [Answer.ok.injEq] at answer
    rw [← answer]
    exact List.filter_eq_self.mpr fun _ _ => rfl
  have pagesReady : Lots.read (some data.pages) = some data.pages := by
    have checked := ready
    unfold read at checked
    dsimp only at checked
    split at checked
    · cases checked
    · rename_i fine
      exact if_neg fine
  have matching : Lots.matching rt data.pages q =
      data.lots.filter fun l => rt.le (rt.ofInt 93) l.yieldPct := by
    rw [Lots.matching, Lots.givenTool, anyTool, good]
    rfl
  have yields : ∀ l ∈ data.lots,
      rt.le (rt.ofInt 93) l.yieldPct = !lib.lt l.yieldPct (lib.ofInt 93) := by
    intro l member
    have pair : (l.id, l.yieldPct) ∈ s.lots.map fun row =>
        (row.summary.id, row.summary.metrics.yieldPct) := by
      rw [← carries.lots]
      exact List.mem_map_of_mem member
    obtain ⟨row, inside, here⟩ := List.mem_map.mp pair
    rw [Prod.mk.injEq] at here
    rw [← here.2]
    exact comparable _ _ _ ((Transform.build_announces lib _ _ _ _ built).yields row inside)
  have pages : listing rt data q = Lots.orderLots rt (Lots.matching rt data.pages q) :=
    Lots.pages_partition rt pagesReady accepted
  rw [pages, same, (alerts_eq built carries).1, ← List.map_append]
  refine List.Perm.map _ (((Lots.orderLots_perm rt _).append_right _).trans ?_)
  rw [matching, List.filter_congr yields]
  exact List.perm_append_comm.trans (List.filter_append_perm _ _)

theorem faithful_notes (built : build lib events fileNotes maxInvalid = .ok s)
    (carries : Carries s data) (ready : read (some data) = some data) :
    ∃ all flagged plain, notes (some data) none = .ok all ∧
      notes (some data) (some true) = .ok flagged ∧ notes (some data) (some false) = .ok plain ∧
      (flagged ++ plain).Perm all ∧ (∀ n ∈ all, n.lotId ∈ lotIds data) ∧
      all.length + data.metadata.notesRejected.toInt = (noteLines lib fileNotes).length := by
  have announced := Transform.build_announces lib _ _ _ _ built
  refine ⟨data.notes, _, _, ?_, withSnapshot_ok ready _, withSnapshot_ok ready _, ?_, ?_, ?_⟩
  · refine (withSnapshot_ok ready _).trans (congrArg _ ?_)
    exact List.filter_eq_self.mpr fun _ _ => rfl
  · have either : ∀ n ∈ data.notes, (n.flagged == false) = !(n.flagged == true) := by
      intro n _
      cases n.flagged <;> rfl
    change (data.notes.filter (fun n => n.flagged == true) ++
      data.notes.filter fun n => n.flagged == false).Perm data.notes
    rw [List.filter_congr either]
    exact List.filter_append_perm _ _
  · intro n member
    rw [carries.notes] at member
    obtain ⟨row, inside, rfl⟩ := List.mem_map.mp member
    rw [lotIds_eq carries]
    exact (announced.kept row inside).1
  · rw [carries.notes, List.length_map, carries.notesRejected, ← announced.notes]
    exact (Int.natCast_add ..).symm

theorem faithful (comparable : Comparable lib rt)
    (built : build lib events fileNotes maxInvalid = .ok s) (fits : deserialized s = some data) :
    Faithful lib rt (Transform.dataRows lib events) (noteLines lib fileNotes).length maxInvalid
      data := by
  have carries := deserialized_carries fits
  have ready := read_carried built carries
  have conserved := Transform.build_conserves lib _ _ _ _ built
  obtain ⟨state, summed, published⟩ := Transform.build_ok lib _ _ _ _ built
  refine { healthy := ?_, totals := ?_, lots := ?_,
           severities := faithful_severities built carries ready,
           alerted := faithful_alerted comparable built carries ready,
           notes := faithful_notes built carries ready, quality := ?_ }
  · rw [health, ready]
  · refine ⟨_, _, withSnapshot_ok ready _, ?_, ?_, ?_⟩
    · rw [carries.rowsAccepted, conserved.rowsAccepted]
    · rw [carries.diesTested, conserved.diesTested]
    · rw [carries.diesPassed, conserved.diesPassed]
  · rw [lotIds_eq carries]
    exact ⟨conserved.lots.ascending.imp ne_of_lt, conserved.lots.keys⟩
  · refine ⟨_, _, withSnapshot_ok ready _, ?_⟩
    rw [Lots.take_eq_take, List.map_take, carries.invalidRows, published.invalidRows,
      summed.invalid, List.map_take, List.map_take, List.map_take]
    rfl

end

end EmbeddedRuntime.FabYield.Api
