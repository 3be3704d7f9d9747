import EmbeddedRuntime.Bmc.Python
import EmbeddedRuntime.Lib.Grouping
import Mathlib.Algebra.Order.Ring.Int
import Mathlib.Data.List.Infix
import Mathlib.Data.String.Basic

/-!
# The yield pipeline

`validate` and `build` over the rows of a CSV file and the lines of a file of
notes.  Reading a file ends at its end or with an exception.  What the standard
library makes of a text is left open, and so is floating point: `F` is `float`.
-/

set_option autoImplicit false

namespace EmbeddedRuntime.FabYield.Transform

open EmbeddedRuntime.Bmc.Python (Bytes Json Kind Raised item valueError)
open EmbeddedRuntime.Lib.Grouping

/-! ## The standard library -/

/-- What a loop over an open file meets. -/
structure Iteration (α : Type) where
  items : List α
  failure : Option Raised

/-- The date of a `datetime`, and whether it has a time zone. -/
structure Stamp where
  year : Nat
  month : Nat
  day : Nat
  zoned : Bool

structure Library (F : Type) where
  /-- The records of `csv.reader`, the header first. -/
  csvReader : Bytes → Iteration (List String)
  /-- The lines of a text file. -/
  lines : Bytes → Iteration String
  int : String → Except Raised Int
  float : String → Except Raised F
  fromIsoFormat : String → Except Raised Stamp
  loads : String → Except Raised Json
  lower : String → String
  ofInt : Int → F
  lt : F → F → Bool
  le : F → F → Bool
  add : F → F → F
  mul : F → F → F
  /-- The quotient of two integers. -/
  quotient : Int → Int → F
  /-- A float divided by an integer. -/
  divide : F → Int → F
  /-- `round(value, 2)`. -/
  round : F → F

variable {F : Type} (lib : Library F)

/-- White space of `str.strip`. -/
def isSpace (char : Char) : Bool :=
  let code := char.toNat
  (decide (9 ≤ code) && decide (code ≤ 13)) || (decide (28 ≤ code) && decide (code ≤ 32)) ||
    (decide (8192 ≤ code) && decide (code ≤ 8202)) ||
    decide (code ∈ [133, 160, 5760, 8232, 8233, 8239, 8287, 12288])

/-- `not text.strip()`. -/
def blank (text : String) : Bool := text.toList.all isSpace

def padded (width number : Nat) : String :=
  let digits := Nat.toDigits 10 number
  String.ofList (List.replicate (width - digits.length) '0' ++ digits)

/-- `date.isoformat()`. -/
def Stamp.isoFormat (stamp : Stamp) : String :=
  padded 4 stamp.year ++ "-" ++ padded 2 stamp.month ++ "-" ++ padded 2 stamp.day

/-! ## Rows -/

/-- A dictionary of `csv.DictReader`; a field that its record lacks is `None`. -/
abbrev Row := List (String × Option String)

/-- Fields beyond the header's are kept under a key that is no name; nothing reads them. -/
def dictRow : List String → List String → Row
  | [], _ => []
  | name :: names, [] => (name, none) :: dictRow names []
  | name :: names, field :: fields => (name, some field) :: dictRow names fields

/-- The rows of `csv.DictReader`, which skips blank lines behind the header. -/
def dictReader : List (List String) → List Row
  | [] => []
  | header :: records => (records.filter fun record => !record.isEmpty).map (dictRow header)

def Row.entry (row : Row) (name : String) : Option (Option String) :=
  (row.reverse.find? fun entry => entry.1 = name).map Prod.snd

/-- `row[name]`, where `validate` has found a text. -/
def Row.field (row : Row) (name : String) : String := ((row.entry name).bind id).getD ""

def required : List String :=
  ["event_id", "timestamp", "lot_id", "wafer_id", "tool_id", "process_step", "dies_tested",
    "dies_passed", "cycle_seconds", "temperature_c"]

def checkRequired (row : Row) : List String → Except Raised Unit
  | [] => .ok ()
  | key :: keys =>
    match row.entry key with
    | some (some text) =>
      if blank text then valueError ("missing " ++ key) else checkRequired row keys
    | _ => valueError ("missing " ++ key)

/-- What `validate` returns. -/
structure Record (F : Type) where
  event : String
  timestamp : Stamp
  lot : String
  tool : String
  step : String
  tested : Int
  passed : Int
  cycle : F
  temperature : F
  passed_nonneg : 0 ≤ passed
  passed_le : passed ≤ tested
  tested_pos : 1 ≤ tested

def validate (row : Row) : Except Raised (Record F) := do
  checkRequired row required
  let tested ← lib.int (row.field "dies_tested")
  let passed ← lib.int (row.field "dies_passed")
  if counts : ¬(0 ≤ passed ∧ passed ≤ tested) ∨ tested = 0 ∨ 100000 < tested then
    valueError "inconsistent die counts"
  else
    let cycle ← lib.float (row.field "cycle_seconds")
    let temperature ← lib.float (row.field "temperature_c")
    if !(lib.lt (lib.ofInt 0) cycle && lib.lt cycle (lib.ofInt 100000)) ||
        !(lib.le (lib.ofInt (-50)) temperature && lib.le temperature (lib.ofInt 200)) then
      valueError "invalid numeric reading"
    else
      let timestamp ← lib.fromIsoFormat (row.field "timestamp")
      if !timestamp.zoned then
        valueError "timestamp must include timezone"
      else
        .ok { event := row.field "event_id", timestamp := timestamp, lot := row.field "lot_id",
              tool := row.field "tool_id", step := row.field "process_step", tested := tested,
              passed := passed, cycle := cycle, temperature := temperature,
              passed_nonneg := by omega, passed_le := by omega, tested_pos := by omega }

/-! ## Buckets -/

/-- The last two keys are set for lots only. -/
structure Bucket (F : Type) where
  tested : Int
  passed : Int
  wafers : Nat
  cycle : F
  temperature : F
  toolId : Option String
  processStep : Option String

def bucket : Bucket F := ⟨0, 0, 0, lib.ofInt 0, lib.ofInt 0, none, none⟩

def addRecord (b : Bucket F) (r : Record F) : Bucket F :=
  { b with
    tested := b.tested + r.tested
    passed := b.passed + r.passed
    wafers := b.wafers + 1
    cycle := lib.add b.cycle r.cycle
    temperature := lib.add b.temperature r.temperature }

def addLotRecord (b : Bucket F) (r : Record F) : Bucket F :=
  { addRecord lib b r with toolId := some r.tool, processStep := some r.step }

def Record.date (r : Record F) : String := r.timestamp.isoFormat

/-! ## The row loop -/

structure InvalidRow where
  line : Nat
  reason : String
  deriving DecidableEq, Repr

structure State (F : Type) where
  lots : Table String (Bucket F)
  tools : Table String (Bucket F)
  days : Table String (Bucket F)
  seen : List String
  invalid : List InvalidRow
  accepted : Nat
  tested : Int
  passed : Int

def start : State F := ⟨∅, ∅, ∅, [], [], 0, 0, 0⟩

/-- The `try` block. -/
def tryRow (seen : List String) (row : Row) : Except Raised (Record F) := do
  let r ← validate lib row
  if r.event ∈ seen then valueError "duplicate event_id" else .ok r

/-- `except (ValueError, TypeError, OverflowError)`. -/
def caught (error : Raised) : Bool :=
  error.kind.isValueError || decide (error.kind = .typeError) ||
    decide (error.kind = .other "OverflowError")

def reject (maxInvalid : Int) (s : State F) (line : Nat) (error : Raised) : State F :=
  if (s.invalid.length : Int) < maxInvalid then
    { s with invalid := s.invalid ++ [⟨line, error.text⟩] }
  else
    s

def accept (s : State F) (r : Record F) : State F :=
  { s with
    seen := r.event :: s.seen
    accepted := s.accepted + 1
    tested := s.tested + r.tested
    passed := s.passed + r.passed
    lots := enter Record.lot (bucket lib) (addLotRecord lib) s.lots r
    tools := enter Record.tool (bucket lib) (addRecord lib) s.tools r
    days := enter Record.date (bucket lib) (addRecord lib) s.days r }

def step (maxInvalid : Int) (s : State F) (numbered : Row × Nat) : Except Raised (State F) :=
  match tryRow lib s.seen numbered.1 with
  | .ok r => .ok (accept lib s r)
  | .error error =>
    if caught error then .ok (reject maxInvalid s numbered.2 error) else .error error

/-- `enumerate(rows, start=2)`. -/
def readRows (maxInvalid : Int) (rows : List Row) : Except Raised (State F) :=
  (rows.zipIdx 2).foldlM (step lib maxInvalid) start

/-! ## The tables -/

structure Metrics (F : Type) where
  wafers : Nat
  diesTested : Int
  diesPassed : Int
  diesFailed : Int
  yieldPct : F
  avgCycleSeconds : F
  avgTemperatureC : F

structure Summary (F : Type) where
  id : String
  metrics : Metrics F

structure LotRow (F : Type) where
  summary : Summary F
  toolId : String
  processStep : String

structure TrendRow (F : Type) where
  date : String
  metrics : Metrics F

def nonzero (divisor : Int) (text : String) : Except Raised Unit :=
  if divisor = 0 then .error ⟨.other "ZeroDivisionError", text⟩ else .ok ()

/-- `round(passed / total * 100, 2)`; a quotient above the range of floats cannot come up. -/
def percentage (passed total : Int) : Except Raised F := do
  nonzero total "division by zero"
  .ok (lib.round (lib.mul (lib.quotient passed total) (lib.ofInt 100)))

/-- `round(sum / count, 2)`. -/
def average (sum : F) (count : Nat) : Except Raised F := do
  nonzero count "float division by zero"
  .ok (lib.round (lib.divide sum count))

def summary (entry : Sigma fun _ : String => Bucket F) : Except Raised (Summary F) := do
  let v := entry.2
  let yieldPct ← percentage lib v.passed v.tested
  let avgCycleSeconds ← average lib v.cycle v.wafers
  let avgTemperatureC ← average lib v.temperature v.wafers
  .ok ⟨entry.1, { wafers := v.wafers, diesTested := v.tested, diesPassed := v.passed,
                  diesFailed := v.tested - v.passed, yieldPct := yieldPct,
                  avgCycleSeconds := avgCycleSeconds, avgTemperatureC := avgTemperatureC }⟩

def keyed (value : Option String) (name : String) : Except Raised String :=
  match value with
  | some text => .ok text
  | none => .error ⟨.keyError, name⟩

def lotRow (entry : Sigma fun _ : String => Bucket F) : Except Raised (LotRow F) := do
  let row ← summary lib entry
  let toolId ← keyed entry.2.toolId "toolId"
  let processStep ← keyed entry.2.processStep "processStep"
  .ok ⟨row, toolId, processStep⟩

def trendRow (entry : Sigma fun _ : String => Bucket F) : Except Raised (TrendRow F) := do
  let row ← summary lib entry
  .ok ⟨row.id, row.metrics⟩

structure Alert (F : Type) where
  lotId : String
  toolId : String
  severity : String
  metric : String
  observed : F
  threshold : F
  reason : String

def alert (l : LotRow F) : Option (Alert F) :=
  let yieldPct := l.summary.metrics.yieldPct
  if lib.lt yieldPct (lib.ofInt 93) then
    some { lotId := l.summary.id, toolId := l.toolId,
           severity := if lib.lt yieldPct (lib.ofInt 90) then "high" else "medium",
           metric := "yieldPct", observed := yieldPct, threshold := lib.ofInt 93,
           reason := "Lot yield below synthetic demo threshold" }
  else
    none

/-! ## Notes -/

structure Note where
  lotId : String
  message : String
  flagged : Bool

def keywords : List String := ["defect", "spike", "deviation", "failure"]

/-- `any(x in message.lower() for x in keywords)`. -/
def flagged (message : String) : Bool :=
  keywords.any fun keyword => decide (keyword.toList <:+: (lib.lower message).toList)

def entryOf (entries : List (String × Json)) (name : String) : Except Raised Json :=
  match item entries name with
  | some value => .ok value
  | none => .error ⟨.keyError, name⟩

def note (lots : Table String (Bucket F)) (line : String) : Except Raised Note := do
  let obj ← lib.loads line
  match obj.dict? with
  | none => valueError "object required"
  | some entries =>
    let lot ← entryOf entries "lotId"
    let message ← entryOf entries "text"
    match message.str?, lot.str? with
    | some message, some lot =>
      if lot ∈ lots then
        .ok ⟨lot, String.ofList (message.toList.take 300), flagged lib message⟩
      else
        valueError "unknown lot"
    | _, _ => valueError "invalid note"

structure Notes where
  rows : List Note
  errors : Nat

/-- `except (ValueError, KeyError, TypeError)`. -/
def noteCaught (error : Raised) : Bool :=
  error.kind.isValueError || decide (error.kind = .keyError) || decide (error.kind = .typeError)

def readNote (lots : Table String (Bucket F)) (notes : Notes) (line : String) :
    Except Raised Notes :=
  if blank line then
    .ok notes
  else
    match note lib lots line with
    | .ok row => .ok { notes with rows := notes.rows ++ [row] }
    | .error error =>
      if noteCaught error then .ok { notes with errors := notes.errors + 1 } else .error error

def ended {α : Type} (file : Iteration α) : Except Raised Unit :=
  match file.failure with
  | some error => .error error
  | none => .ok ()

/-- `none` is a file of notes that does not exist. -/
def readNotes (lots : Table String (Bucket F)) (notes : Option Bytes) : Except Raised Notes :=
  match notes with
  | none => .ok ⟨[], 0⟩
  | some content => do
    let read ← (lib.lines content).items.foldlM (readNote lib lots) ⟨[], 0⟩
    ended (lib.lines content)
    .ok read

/-! ## The snapshot -/

structure Metadata where
  source : String
  rowsAccepted : Nat
  rowsRejected : Nat
  notesRejected : Nat
  schemaVersion : Nat

structure Totals (F : Type) where
  totalLots : Nat
  totalWafers : Nat
  diesTested : Int
  diesPassed : Int
  diesFailed : Int
  overallYieldPct : F
  alertCount : Nat

structure Snapshot (F : Type) where
  metadata : Metadata
  summary : Totals F
  lots : List (LotRow F)
  tools : List (Summary F)
  trend : List (TrendRow F)
  alerts : List (Alert F)
  notes : List Note
  invalidRows : List InvalidRow

/-- The code of `build` behind the row loop. -/
def publish (s : State F) (notes : Option Bytes) : Except Raised (Snapshot F) := do
  if s.accepted = 0 then
    valueError "no valid events; refusing to publish empty analytics"
  else
    let lotRows ← (byKey s.lots).mapM (lotRow lib)
    let toolRows ← (byKey s.tools).mapM (summary lib)
    let trend ← (byKey s.days).mapM (trendRow lib)
    let alerts := lotRows.filterMap (alert lib)
    let read ← readNotes lib s.lots notes
    let overallYieldPct ← percentage lib s.passed s.tested
    .ok { metadata := { source := "deterministic synthetic demo only",
                        rowsAccepted := s.accepted, rowsRejected := s.invalid.length,
                        notesRejected := read.errors, schemaVersion := 1 },
          summary := { totalLots := lotRows.length, totalWafers := s.accepted,
                       diesTested := s.tested, diesPassed := s.passed,
                       diesFailed := s.tested - s.passed, overallYieldPct := overallYieldPct,
                       alertCount := alerts.length },
          lots := lotRows, tools := toolRows, trend := trend, alerts := alerts,
          notes := read.rows, invalidRows := s.invalid }

/-- The rows that the loop reads from the file. -/
def dataRows (events : Bytes) : List Row := dictReader (lib.csvReader events).items

def build (events : Bytes) (notes : Option Bytes) (maxInvalid : Int) :
    Except Raised (Snapshot F) := do
  let s ← readRows lib maxInvalid (dataRows lib events)
  ended (lib.csvReader events)
  publish lib s notes

end EmbeddedRuntime.FabYield.Transform
