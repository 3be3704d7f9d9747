import EmbeddedRuntime.FabYield.Lots
import EmbeddedRuntime.FabYield.Tables

/-!
# The endpoints of the service

`Models.cs`, `SnapshotStore.cs` and `Program.cs`, over what the deserializer makes
of the file.  The page of `/api/lots` has a module of its own.
-/

set_option autoImplicit false

namespace EmbeddedRuntime.FabYield.Api

open EmbeddedRuntime.FabYield.Lots (LotMetric Runtime)

/-! ## `Models.cs` -/

structure Metadata where
  source : String
  rowsAccepted : Int32
  rowsRejected : Int32
  notesRejected : Int32
  schemaVersion : Int32

structure YieldSummary (F : Type) where
  totalLots : Int32
  totalWafers : Int32
  diesTested : Int64
  diesPassed : Int64
  diesFailed : Int64
  overallYieldPct : F
  alertCount : Int32

/-- `ToolMetric`, and `TrendPoint` with a date for its `id`. -/
structure ToolMetric (F : Type) where
  id : String
  wafers : Int32
  diesTested : Int64
  diesPassed : Int64
  diesFailed : Int64
  yieldPct : F
  avgCycleSeconds : F
  avgTemperatureC : F

structure YieldAlert (F : Type) where
  lotId : String
  toolId : String
  severity : String
  metric : String
  observed : F
  threshold : F
  reason : String

structure TechnicianNote where
  lotId : String
  message : String
  flagged : Bool

structure InvalidRow where
  line : Int32
  reason : String

/-- The length of an array is an `int`. -/
structure Snapshot (F : Type) where
  metadata : Metadata
  summary : YieldSummary F
  lots : List (LotMetric F)
  tools : List (ToolMetric F)
  trend : List (ToolMetric F)
  alerts : List (YieldAlert F)
  notes : List TechnicianNote
  invalidRows : List InvalidRow
  lots_fit : lots.length < 2 ^ 31

variable {F : Type}

/-- What `/api/lots` takes from a snapshot. -/
def Snapshot.pages (s : Snapshot F) : Lots.Snapshot F :=
  ⟨s.metadata.schemaVersion, s.summary.diesTested, s.lots, s.lots_fit⟩

/-! ## `SnapshotStore.cs` -/

/-- `SnapshotStore.Read`; `none` is a file that is missing or cannot be deserialized. -/
def read (stored : Option (Snapshot F)) : Option (Snapshot F) :=
  match stored with
  | none => none
  | some snapshot =>
    if snapshot.metadata.schemaVersion ≠ 1 ∨ snapshot.summary.diesTested < 1 then none
    else some snapshot

/-! ## `Program.cs` -/

inductive Answer (A : Type) where
  | ok (body : A)
  | badRequest (error : String)
  | problem (title detail : String) (statusCode : Nat)
  | unavailable (status snapshot : String) (statusCode : Nat)

def Answer.body? {A : Type} : Answer A → Option A
  | .ok body => some body
  | _ => none

section
variable (stored : Option (Snapshot F))

def withSnapshot {A : Type} (success : Snapshot F → A) : Answer A :=
  match read stored with
  | none => .problem "Analytics unavailable" "Run the data pipeline first." 503
  | some snapshot => .ok (success snapshot)

def health : Answer (String × String) :=
  match read stored with
  | some _ => .ok ("ok", "ready")
  | none => .unavailable "unavailable" "missing-or-invalid" 503

def summary : Answer (YieldSummary F × Metadata) :=
  withSnapshot stored fun data => (data.summary, data.metadata)

def lots (rt : Runtime F) (q : Lots.Query F) : Lots.Response F :=
  Lots.lots rt (stored.map Snapshot.pages) q

def tools : Answer (List (ToolMetric F)) := withSnapshot stored Snapshot.tools

def trend : Answer (List (ToolMetric F)) := withSnapshot stored Snapshot.trend

def alerts (severity : Option String) : Answer (List (YieldAlert F)) :=
  if severity.any fun severity => !(severity == "high" || severity == "medium") then
    .badRequest "severity must be high or medium"
  else
    withSnapshot stored fun data =>
      data.alerts.filter fun a => severity.all fun severity => a.severity == severity

def notes (flagged : Option Bool) : Answer (List TechnicianNote) :=
  withSnapshot stored fun data =>
    data.notes.filter fun n => flagged.all fun flagged => n.flagged == flagged

def dataQuality : Answer (Metadata × List InvalidRow) :=
  withSnapshot stored fun data => (data.metadata, Lots.take 100 data.invalidRows)

end

/-! ## From the pipeline to the service -/

def int32 (value : Int) : Option Int32 :=
  if -2 ^ 31 ≤ value ∧ value < 2 ^ 31 then some (Int32.ofInt value) else none

def int64 (value : Int) : Option Int64 :=
  if -2 ^ 63 ≤ value ∧ value < 2 ^ 63 then some (Int64.ofInt value) else none

/-- The columns that the rows of all tables have. -/
def metric (id : String) (m : Transform.Metrics F) : Option (ToolMetric F) := do
  let wafers ← int32 m.wafers
  let diesTested ← int64 m.diesTested
  let diesPassed ← int64 m.diesPassed
  let diesFailed ← int64 m.diesFailed
  some { id, wafers, diesTested, diesPassed, diesFailed, yieldPct := m.yieldPct,
         avgCycleSeconds := m.avgCycleSeconds, avgTemperatureC := m.avgTemperatureC }

def lotMetric (row : Transform.LotRow F) : Option (LotMetric F) := do
  let m ← metric row.summary.id row.summary.metrics
  some ⟨m.id, m.wafers, m.diesTested, m.diesPassed, m.diesFailed, m.yieldPct, m.avgCycleSeconds,
    m.avgTemperatureC, row.toolId, row.processStep⟩

def yieldAlert (a : Transform.Alert F) : YieldAlert F :=
  ⟨a.lotId, a.toolId, a.severity, a.metric, a.observed, a.threshold, a.reason⟩

def technicianNote (n : Transform.Note) : TechnicianNote := ⟨n.lotId, n.message, n.flagged⟩

def invalidRow (row : Transform.InvalidRow) : Option InvalidRow := do
  let line ← int32 row.line
  some ⟨line, row.reason⟩

def metadata (m : Transform.Metadata) : Option Metadata := do
  let rowsAccepted ← int32 m.rowsAccepted
  let rowsRejected ← int32 m.rowsRejected
  let notesRejected ← int32 m.notesRejected
  let schemaVersion ← int32 m.schemaVersion
  some ⟨m.source, rowsAccepted, rowsRejected, notesRejected, schemaVersion⟩

def yieldSummary (t : Transform.Totals F) : Option (YieldSummary F) := do
  let totalLots ← int32 t.totalLots
  let totalWafers ← int32 t.totalWafers
  let diesTested ← int64 t.diesTested
  let diesPassed ← int64 t.diesPassed
  let diesFailed ← int64 t.diesFailed
  let alertCount ← int32 t.alertCount
  some ⟨totalLots, totalWafers, diesTested, diesPassed, diesFailed, t.overallYieldPct, alertCount⟩

/-- The snapshot that the service finds in the file of a pipeline.  A number that does not fit its
field makes the file invalid. -/
def deserialized (s : Transform.Snapshot F) : Option (Snapshot F) := do
  let metadata ← metadata s.metadata
  let summary ← yieldSummary s.summary
  let lots ← s.lots.mapM lotMetric
  let tools ← s.tools.mapM fun row => metric row.id row.metrics
  let trend ← s.trend.mapM fun row => metric row.date row.metrics
  let invalidRows ← s.invalidRows.mapM invalidRow
  if lots_fit : lots.length < 2 ^ 31 then
    some { metadata, summary, lots, tools, trend, alerts := s.alerts.map yieldAlert,
           notes := s.notes.map technicianNote, invalidRows, lots_fit }
  else
    none

end EmbeddedRuntime.FabYield.Api
