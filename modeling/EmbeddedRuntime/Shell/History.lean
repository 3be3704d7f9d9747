import EmbeddedRuntime.Lib.Buffer
import EmbeddedRuntime.Shell.Parser
import Mathlib.Algebra.Group.Nat.Defs
import Mathlib.Algebra.Group.Int.Defs
import Mathlib.Data.List.DropRight

/-!
# The history of `shell/shell.c`

The history is an array of a hundred pointers; `none` is NULL.  Functions that
would follow a NULL pointer have no result.  Of `shell_run_line` the job table,
the other builtins and the external commands are left out: they do not touch the
history.  Numbers of entries, of type `unsigned long`, are not bounded here.
-/

set_option autoImplicit false

namespace EmbeddedRuntime.Shell.History

open EmbeddedRuntime.Lib.Buffer
open EmbeddedRuntime.Shell.Tokens
open EmbeddedRuntime.Shell.Parser

def ascii (text : String) : Bytes := text.toList.map fun c => UInt8.ofNat c.toNat

/-! ## C strings -/

instance : DecidableEq CString := fun first second =>
  decidable_of_iff (first.bytes = second.bytes) (Iff.of_eq (CString.mk.injEq ..).symm)

def isNewline (c : UInt8) : Bool := c == 0x0a || c == 0x0d

def isBlank (c : UInt8) : Bool := c == 0x20 || c == 0x09

/-- The loop that cuts `\n` and `\r` off the end. -/
def trimNewlines (text : CString) : CString where
  bytes := text.bytes.rdropWhile isNewline
  noNul := fun member => text.noNul ((List.rdropWhile_prefix isNewline text.bytes).subset member)

/-- The loop that steps over blanks. -/
def skipBlanks (text : CString) : CString where
  bytes := text.bytes.dropWhile isBlank
  noNul := fun member => text.noNul ((List.dropWhile_suffix isBlank).subset member)

def isDigit (c : UInt8) : Bool := 0x30 ≤ c && c ≤ 0x39

def decimal (digits : Bytes) : Nat :=
  digits.foldl (fun value c => 10 * value + (c.toNat - 0x30)) 0

/-- The sign of a number and the text after it. -/
def readSign : Bytes → Bool × Bytes
  | [] => (false, [])
  | c :: rest =>
      if c = 0x2d then (true, rest)
      else if c = 0x2b then (false, rest)
      else (false, c :: rest)

/-- What `strtol` and `strtoul` convert in base 10: the sign, the magnitude and where they stop;
nothing without digits. -/
def convert (text : Bytes) : Option (Bool × Nat × Bytes) :=
  let (negative, text) := readSign (text.dropWhile isspace)
  let digits := text.takeWhile isDigit
  if digits = [] then none else some (negative, decimal digits, text.dropWhile isDigit)

/-- The number, `errno ≠ 0`, and the text at `end`. -/
def strtoul (text : Bytes) : Nat × Bool × Bytes :=
  match convert text with
  | none => (0, false, text)
  | some (negative, magnitude, rest) =>
      if magnitude ≥ 2 ^ 64 then (2 ^ 64 - 1, true, rest)
      else (if negative then (2 ^ 64 - magnitude) % 2 ^ 64 else magnitude, false, rest)

/-- The number and the text at `end`. -/
def strtol (text : Bytes) : Int × Bytes :=
  match convert text with
  | none => (0, text)
  | some (negative, magnitude, rest) =>
      if negative then (if magnitude > 2 ^ 63 then -2 ^ 63 else -magnitude, rest)
      else (if magnitude ≥ 2 ^ 63 then 2 ^ 63 - 1 else magnitude, rest)

/-! ## The history -/

def historyMax : Nat := 100

structure ShellState where
  history : List (Option CString)
  historyCount : Nat
  historyBase : Nat
  interactive : Bool
  shouldExit : Bool

def shellStateInit (interactive : Bool) : ShellState where
  history := List.replicate historyMax none
  historyCount := 0
  historyBase := 1
  interactive := interactive
  shouldExit := false

/-- The branch of `history_add` for a full array: `memmove` by one entry. -/
def ShellState.evict (state : ShellState) : ShellState :=
  { state with
    history := writeAt state.history 0 (readAt state.history 1 (historyMax - 1))
    historyCount := state.historyCount - 1
    historyBase := state.historyBase + 1 }

def historyAdd (state : ShellState) (line : CString) : ShellState :=
  if line.bytes = [] then state
  else
    let copy := trimNewlines line
    if copy.bytes = [] then state
    else
      let state := if state.historyCount = historyMax then state.evict else state
      { state with
        history := state.history.set state.historyCount (some copy)
        historyCount := state.historyCount + 1 }

def historyLookup (state : ShellState) (number : Nat) : Option CString :=
  if number < state.historyBase then none
  else
    let index := number - state.historyBase
    if index ≥ state.historyCount then none else state.history.getD index none

inductive HistoryError where
  | noPrevious
  | tooLong
  | invalid (event : Bytes)
  | notFound (number : Nat)
  deriving DecidableEq, Repr

def HistoryError.message : HistoryError → Bytes
  | .noPrevious => ascii "history: no previous command\n"
  | .tooLong => ascii "history: event specifier too long\n"
  | .invalid event => ascii "history: invalid event '" ++ event ++ ascii "'\n"
  | .notFound number => ascii ("history: event " ++ toString number ++ " not found\n")

def bang : UInt8 := 0x21

/-- The event a line names: its bytes up to a newline. -/
def specifier (line : CString) : Bytes := line.bytes.takeWhile fun c => !isNewline c

def historyExpand (state : ShellState) (line : CString) :
    Option (Except HistoryError CString) :=
  let line := skipBlanks line
  let event := specifier line
  if event = [bang, bang] then
    if state.historyCount = 0 then some (.error .noPrevious)
    else (state.history.getD (state.historyCount - 1) none).map .ok
  else if event.length > 1 ∧ event.head? = some bang then
    if event.length ≥ 64 then some (.error .tooLong)
    else
      let (n, failed, rest) := strtoul event.tail
      if failed ∨ rest ≠ [] then some (.error (.invalid event))
      else
        match historyLookup state n with
        | none => some (.error (.notFound n))
        | some entry => some (.ok entry)
  else some (.ok line)

/-! ## The builtin -/

/-- An entry that `history` prints. -/
structure HistoryRow where
  number : Nat
  text : CString
  deriving DecidableEq

/-- The conversion `%5lu`. -/
def padFive (number : Nat) : String :=
  let digits := toString number
  String.ofList (List.replicate (5 - digits.length) ' ') ++ digits

def HistoryRow.line (row : HistoryRow) : Bytes :=
  ascii (padFive row.number) ++ ascii "  " ++ row.text.bytes ++ ascii "\n"

/-- The loop of `builtin_history` from entry `i` on, with `left` entries to go. -/
def historyRows (state : ShellState) (start begin i : Nat) : Nat → Option (List HistoryRow)
  | 0 => some []
  | left + 1 => do
      let text ← state.history.getD i none
      let rows ← historyRows state start begin (i + 1) left
      return { number := start + (i - begin), text } :: rows

/-- `argv[1]` when there is one argument. -/
def countArgument (cmd : ShellCommand) : Option Bytes :=
  if cmd.argc = 2 then cmd.argv.getD 1 none else none

/-- The first entry that is printed. -/
def historyBegin (count : Nat) (argument : Option Bytes) : Nat :=
  match argument with
  | none => 0
  | some text =>
      let (n, rest) := strtol text
      if rest = [] ∧ n ≥ 0 ∧ n.toNat < count then count - n.toNat else 0

def builtinHistory (state : ShellState) (cmd : ShellCommand) : Option (List HistoryRow) :=
  if cmd.argc = 2 ∧ countArgument cmd = none then none
  else
    let begin := historyBegin state.historyCount (countArgument cmd)
    historyRows state (state.historyBase + begin) begin begin (state.historyCount - begin)

/-! ## Running a line -/

/-- What a pipeline does: print the history, leave the shell, or something else. -/
inductive Action where
  | history (argument : Option Bytes) (rows : List HistoryRow)
  | exit
  | other (pipeline : ShellPipeline)
  deriving DecidableEq

def runBuiltin (state : ShellState) (pipeline : ShellPipeline) : Option (Action × ShellState) :=
  match pipeline.commands with
  | [cmd] => do
      let name ← cmd.argv.getD 0 none
      if name = ascii "exit" ∨ name = ascii "quit" then
        return (.exit, { state with shouldExit := true })
      else if name = ascii "history" then
        let rows ← builtinHistory state cmd
        return (.history (countArgument cmd) rows, state)
      else return (.other pipeline, state)
  | _ => some (.other pipeline, state)

/-- How `shell_run_line` ends. -/
inductive Outcome where
  | expansionFailed (error : HistoryError)
  | empty
  | parseFailed (error : ParseError)
  | noCommand
  | ran (expanded : CString) (echoed : Bool) (action : Action)
  deriving DecidableEq

/-- The text on `err_fd`. -/
def Outcome.err : Outcome → Bytes
  | .expansionFailed error => error.message
  | .parseFailed error => ascii ("parse: " ++ error.message ++ "\n")
  | _ => []

/-- The text on `out_fd`, without that of other commands. -/
def Outcome.out : Outcome → Bytes
  | .ran expanded echoed action =>
      (if echoed then expanded.bytes ++ ascii "\n" else []) ++
        match action with
        | .history _ rows => rows.flatMap HistoryRow.line
        | _ => []
  | _ => []

/-- The status, nothing where another command gives it. -/
def Outcome.status : Outcome → Option Nat
  | .expansionFailed _ => some 1
  | .empty => some 0
  | .parseFailed _ => some 2
  | .noCommand => some 0
  | .ran _ _ (.other _) => none
  | .ran _ _ _ => some 0

def shellRunLine (state : ShellState) (line : CString) : Option (Outcome × ShellState) := do
  match ← historyExpand state line with
  | .error error => return (.expansionFailed error, state)
  | .ok text =>
      let expanded := trimNewlines text
      if expanded.bytes = [] then return (.empty, state)
      else
        match shellParseLine (some expanded) (some {}) with
        | (.error error, _) => return (.parseFailed error, state)
        | (.ok _, none) => none
        | (.ok _, some pipeline) =>
            if pipeline.commands = [] then return (.noCommand, state)
            else
              let state := historyAdd state expanded
              let echoed := decide (expanded.bytes ≠ line.bytes) && state.interactive
              let (action, state) ← runBuiltin state pipeline
              return (.ran expanded echoed action, state)

end EmbeddedRuntime.Shell.History
