import EmbeddedRuntime.FabYield.Verdicts

/-!
# The tables of a snapshot

Each table of a snapshot splits the accepted rows by one key, so that its sums
are those of all accepted rows.
-/

set_option autoImplicit false

namespace EmbeddedRuntime.FabYield.Transform

open EmbeddedRuntime.Bmc.Python (Bytes Raised)
open EmbeddedRuntime.Lib.Fallible EmbeddedRuntime.Lib.Grouping

variable {F : Type} (lib : Library F)

/-! ## What a table has to say -/

/-- The whole numbers of a row of a table. -/
structure Counts where
  wafers : Nat
  diesTested : Int
  diesPassed : Int
  diesFailed : Int

def Metrics.counts (m : Metrics F) : Counts := ⟨m.wafers, m.diesTested, m.diesPassed, m.diesFailed⟩

abbrev CountTable := List (String × Counts)

def Snapshot.lotTable (s : Snapshot F) : CountTable :=
  s.lots.map fun row => (row.summary.id, row.summary.metrics.counts)

def Snapshot.toolTable (s : Snapshot F) : CountTable :=
  s.tools.map fun row => (row.id, row.metrics.counts)

def Snapshot.trendTable (s : Snapshot F) : CountTable :=
  s.trend.map fun row => (row.date, row.metrics.counts)

def testedSum (records : List (Record F)) : Int := (records.map Record.tested).sum

def passedSum (records : List (Record F)) : Int := (records.map Record.passed).sum

/-- A table that splits records by a key. -/
structure Tabulates (key : Record F → String) (records : List (Record F)) (table : CountTable) :
    Prop where
  ascending : (table.map Prod.fst).Pairwise (· < ·)
  keys : ∀ k, k ∈ table.map Prod.fst ↔ ∃ r ∈ records, key r = k
  row : ∀ row ∈ table,
    row.2.wafers = (having key row.1 records).length ∧
      row.2.diesTested = testedSum (having key row.1 records) ∧
      row.2.diesPassed = passedSum (having key row.1 records)
  yields : ∀ row ∈ table,
    row.2.diesPassed + row.2.diesFailed = row.2.diesTested ∧
      0 ≤ row.2.diesPassed ∧ row.2.diesPassed ≤ row.2.diesTested ∧ 1 ≤ row.2.diesTested
  wafers : (table.map fun row => row.2.wafers).sum = records.length
  tested : (table.map fun row => row.2.diesTested).sum = testedSum records
  passed : (table.map fun row => row.2.diesPassed).sum = passedSum records

/-- A snapshot of these records. -/
structure Conserves (records : List (Record F)) (s : Snapshot F) : Prop where
  rowsAccepted : s.metadata.rowsAccepted = records.length
  diesTested : s.summary.diesTested = testedSum records
  diesPassed : s.summary.diesPassed = passedSum records
  lots : Tabulates Record.lot records s.lotTable
  tools : Tabulates Record.tool records s.toolTable
  trend : Tabulates Record.date records s.trendTable

/-! ## Sums of records -/

theorem records_bounds (records : List (Record F)) :
    0 ≤ passedSum records ∧ passedSum records ≤ testedSum records ∧
      (records.length : Int) ≤ testedSum records := by
  induction records with
  | nil => simp [passedSum, testedSum]
  | cons r records ih =>
    have nonneg := r.passed_nonneg
    have le := r.passed_le
    have pos := r.tested_pos
    simp only [passedSum, testedSum, List.map_cons, List.sum_cons, List.length_cons] at ih ⊢
    omega

theorem records_pos (records : List (Record F)) (some : records ≠ []) : 1 ≤ testedSum records := by
  have bounds := records_bounds records
  have length := List.length_pos_iff.mpr some
  omega

/-! ## Buckets -/

/-- Adding a record to a bucket counts its dies and its wafer. -/
structure Adds (add : Bucket F → Record F → Bucket F) : Prop where
  tested : ∀ b r, (add b r).tested = b.tested + r.tested
  passed : ∀ b r, (add b r).passed = b.passed + r.passed
  wafers : ∀ b r, (add b r).wafers = b.wafers + 1

theorem addRecord_adds : Adds (addRecord lib) :=
  ⟨fun _ _ => rfl, fun _ _ => rfl, fun _ _ => rfl⟩

theorem addLotRecord_adds : Adds (addLotRecord lib) :=
  ⟨fun _ _ => rfl, fun _ _ => rfl, fun _ _ => rfl⟩

def Bucket.counts (b : Bucket F) : Counts := ⟨b.wafers, b.tested, b.passed, b.tested - b.passed⟩

section
variable {lib}
variable {add : Bucket F → Record F → Bucket F} (adds : Adds add)
include adds

theorem filled_tested (records : List (Record F)) :
    (records.foldl add (bucket lib)).tested = testedSum records :=
  value_foldl (bucket lib) add Bucket.tested Record.tested rfl adds.tested records

theorem filled_passed (records : List (Record F)) :
    (records.foldl add (bucket lib)).passed = passedSum records :=
  value_foldl (bucket lib) add Bucket.passed Record.passed rfl adds.passed records

theorem filled_wafers (records : List (Record F)) :
    (records.foldl add (bucket lib)).wafers = records.length := by
  rw [value_foldl (bucket lib) add Bucket.wafers (fun _ => 1) rfl adds.wafers records]
  simp

variable {key : Record F → String} {records : List (Record F)}

theorem bucket_tested {entry : Sigma fun _ : String => Bucket F}
    (member : entry ∈ byKey (group key (bucket lib) add records)) :
    entry.2.tested ≠ 0 ∧ entry.2.wafers ≠ 0 := by
  obtain ⟨some, filled⟩ := entry_group key (bucket lib) add records entry
    ((mem_byKey _ entry).mp member)
  have tested := records_pos _ some
  have wafers := List.length_pos_iff.mpr some
  rw [filled, filled_tested adds, filled_wafers adds]
  omega

theorem group_tabulates :
    Tabulates key records
      ((byKey (group key (bucket lib) add records)).map fun entry => (entry.1, entry.2.counts)) where
  ascending := by
    rw [List.map_map]
    exact byKey_ascending _
  keys k := by
    rw [List.map_map]
    exact (key_mem_byKey _ k).trans ((mem_group key _ add records k).trans List.mem_map)
  row row member := by
    obtain ⟨entry, inside, rfl⟩ := List.mem_map.mp member
    have filled := (entry_group key _ add records entry ((mem_byKey _ entry).mp inside)).2
    simp only [Bucket.counts, filled, filled_tested adds, filled_passed adds, filled_wafers adds,
      and_self]
  yields row member := by
    obtain ⟨entry, inside, rfl⟩ := List.mem_map.mp member
    obtain ⟨some, filled⟩ := entry_group key _ add records entry ((mem_byKey _ entry).mp inside)
    have bounds := records_bounds (having key entry.1 records)
    have pos := records_pos _ some
    simp only [Bucket.counts, filled, filled_tested adds, filled_passed adds]
    omega
  wafers := by
    rw [List.map_map]
    refine (sum_byKey Bucket.wafers _).trans ?_
    rw [total_group key _ add Bucket.wafers (fun _ => 1) rfl adds.wafers records]
    simp
  tested := by
    rw [List.map_map]
    exact (sum_byKey Bucket.tested _).trans
      (total_group key _ add Bucket.tested Record.tested rfl adds.tested records)
  passed := by
    rw [List.map_map]
    exact (sum_byKey Bucket.passed _).trans
      (total_group key _ add Bucket.passed Record.passed rfl adds.passed records)

end

/-! ## What a snapshot takes from the state -/

theorem summary_ok (entry : Sigma fun _ : String => Bucket F) (row : Summary F)
    (ran : summary lib entry = .ok row) : (row.id, row.metrics.counts) = (entry.1, entry.2.counts) := by
  obtain ⟨yieldPct, -, ran⟩ := bind_eq_ok.mp ran
  obtain ⟨cycle, -, ran⟩ := bind_eq_ok.mp ran
  obtain ⟨temperature, -, ran⟩ := bind_eq_ok.mp ran
  cases ran
  rfl

theorem lotRow_ok (entry : Sigma fun _ : String => Bucket F) (row : LotRow F)
    (ran : lotRow lib entry = .ok row) :
    (row.summary.id, row.summary.metrics.counts) = (entry.1, entry.2.counts) := by
  obtain ⟨metrics, summed, ran⟩ := bind_eq_ok.mp ran
  obtain ⟨toolId, -, ran⟩ := bind_eq_ok.mp ran
  obtain ⟨processStep, -, ran⟩ := bind_eq_ok.mp ran
  cases ran
  exact summary_ok lib entry metrics summed

theorem trendRow_ok (entry : Sigma fun _ : String => Bucket F) (row : TrendRow F)
    (ran : trendRow lib entry = .ok row) :
    (row.date, row.metrics.counts) = (entry.1, entry.2.counts) := by
  obtain ⟨metrics, summed, ran⟩ := bind_eq_ok.mp ran
  cases ran
  exact summary_ok lib entry metrics summed

structure Published (s : State F) (snapshot : Snapshot F) : Prop where
  accepted : s.accepted ≠ 0
  rowsAccepted : snapshot.metadata.rowsAccepted = s.accepted
  rowsRejected : snapshot.metadata.rowsRejected = s.invalid.length
  invalidRows : snapshot.invalidRows = s.invalid
  diesTested : snapshot.summary.diesTested = s.tested
  diesPassed : snapshot.summary.diesPassed = s.passed
  lots : snapshot.lotTable = (byKey s.lots).map fun entry => (entry.1, entry.2.counts)
  tools : snapshot.toolTable = (byKey s.tools).map fun entry => (entry.1, entry.2.counts)
  trend : snapshot.trendTable = (byKey s.days).map fun entry => (entry.1, entry.2.counts)

theorem publish_ok (s : State F) (notes : Option Bytes) (snapshot : Snapshot F)
    (ran : publish lib s notes = .ok snapshot) : Published s snapshot := by
  unfold publish at ran
  by_cases empty : s.accepted = 0
  · rw [if_pos empty] at ran
    cases ran
  · rw [if_neg empty] at ran
    obtain ⟨lots, lotRows, ran⟩ := bind_eq_ok.mp ran
    obtain ⟨tools, toolRows, ran⟩ := bind_eq_ok.mp ran
    obtain ⟨trend, trendRows, ran⟩ := bind_eq_ok.mp ran
    obtain ⟨read, -, ran⟩ := bind_eq_ok.mp ran
    obtain ⟨yieldPct, -, ran⟩ := bind_eq_ok.mp ran
    cases ran
    exact { accepted := empty, rowsAccepted := rfl, rowsRejected := rfl, invalidRows := rfl,
            diesTested := rfl, diesPassed := rfl,
            lots := map_of_mapM_ok _ _ _ (lotRow_ok lib) _ _ lotRows,
            tools := map_of_mapM_ok _ _ _ (summary_ok lib) _ _ toolRows,
            trend := map_of_mapM_ok _ _ _ (trendRow_ok lib) _ _ trendRows }

theorem build_ok (events : Bytes) (notes : Option Bytes) (maxInvalid : Int) (snapshot : Snapshot F)
    (ran : build lib events notes maxInvalid = .ok snapshot) :
    ∃ s, Summed lib maxInvalid (dataRows lib events) s ∧ Published s snapshot := by
  obtain ⟨s, read, ran⟩ := bind_eq_ok.mp ran
  obtain ⟨_, -, ran⟩ := bind_eq_ok.mp ran
  exact ⟨s, readRows_summed lib maxInvalid _ s read, publish_ok lib s notes snapshot ran⟩

theorem build_conserves (events : Bytes) (notes : Option Bytes) (maxInvalid : Int)
    (snapshot : Snapshot F) (ran : build lib events notes maxInvalid = .ok snapshot) :
    Conserves (firstValid lib (dataRows lib events)) snapshot := by
  obtain ⟨s, summed, published⟩ := build_ok lib events notes maxInvalid snapshot ran
  refine ⟨?_, ?_, ?_, ?_, ?_, ?_⟩
  · rw [published.rowsAccepted, summed.accepted]
  · rw [published.diesTested, summed.tested]
    rfl
  · rw [published.diesPassed, summed.passed]
    rfl
  · rw [published.lots, summed.lots]
    exact group_tabulates (addLotRecord_adds lib)
  · rw [published.tools, summed.tools]
    exact group_tabulates (addRecord_adds lib)
  · rw [published.trend, summed.days]
    exact group_tabulates (addRecord_adds lib)

end EmbeddedRuntime.FabYield.Transform
