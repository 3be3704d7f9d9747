import EmbeddedRuntime.Lib.BoundedLog
import EmbeddedRuntime.Lib.Machine
import EmbeddedRuntime.Shell.Grammar
import EmbeddedRuntime.Shell.History

/-!
# History numbers are stable

The log is the list of all lines recorded so far.  The array holds the window of
its last hundred lines, and `history_base` is the number of the oldest of these:
`Represents`, kept by every line that is run.  Lookup, `!!` and the builtin are
then read off the log.
-/

set_option autoImplicit false

namespace EmbeddedRuntime.Shell.HistoryNumbers

open EmbeddedRuntime.Lib.BoundedLog
open EmbeddedRuntime.Lib.Buffer
open EmbeddedRuntime.Lib.Machine
open EmbeddedRuntime.Shell.Tokens
open EmbeddedRuntime.Shell.Parser
open EmbeddedRuntime.Shell.Grammar
open EmbeddedRuntime.Shell.History

/-- The array holds the window of a log. -/
structure Represents (state : ShellState) (log : List CString) : Prop where
  slots : state.history.length = historyMax
  count : state.historyCount = (window historyMax log).length
  filled : state.history.take state.historyCount = (window historyMax log).map some
  base : state.historyBase = oldest historyMax log

theorem represents_init (interactive : Bool) : Represents (shellStateInit interactive) [] where
  slots := List.length_replicate ..
  count := rfl
  filled := rfl
  base := rfl

section State
variable {state : ShellState} {log : List CString}

theorem Represents.count_eq (represents : Represents state log) :
    state.historyCount = min log.length historyMax :=
  represents.count.trans length_window

theorem Represents.count_le (represents : Represents state log) :
    state.historyCount ≤ historyMax := by
  rw [represents.count_eq]
  exact Nat.min_le_right ..

theorem Represents.slot (represents : Represents state log) {index : Nat}
    (inside : index < state.historyCount) :
    state.history.getD index none = (window historyMax log)[index]? := by
  have slot := congrArg (fun entries => entries[index]?) represents.filled
  simp only [List.getElem?_take_of_lt inside, List.getElem?_map] at slot
  rw [List.getD_eq_getElem?_getD, slot]
  cases (window historyMax log)[index]? <;> rfl

/-! ## Adding a line -/

/-- The entries move down by one place. -/
theorem Represents.evict_history (represents : Represents state log) :
    state.evict.history = state.history.tail ++ state.history.drop (historyMax - 1) := by
  have slots := represents.slots
  have limit : historyMax = 100 := rfl
  have moved : (readAt state.history 1 (historyMax - 1)).length = historyMax - 1 := by
    rw [readAt, List.length_take, List.length_drop]
    omega
  rw [ShellState.evict]
  simp only [writeAt, List.take_zero, List.nil_append, Nat.zero_add, moved]
  rw [readAt, List.take_of_length_le (by rw [List.length_drop]; omega), List.drop_one]

/-- A full array takes a new line. -/
theorem Represents.add_full (represents : Represents state log)
    (full : state.historyCount = historyMax) (new : CString) :
    Represents
      { state.evict with
        history := state.evict.history.set state.evict.historyCount (some new)
        historyCount := state.evict.historyCount + 1 } (log ++ [new]) := by
  have limit : historyMax = 100 := rfl
  have slots := represents.slots
  have long : historyMax ≤ log.length := by
    have count := represents.count_eq
    omega
  have whole : state.history = (window historyMax log).map some := by
    rw [← represents.filled, full, ← slots, List.take_length]
  have last : state.evict.historyCount = state.history.tail.length := by
    rw [List.length_tail, slots, ← full]
    rfl
  have after : (state.history.drop (historyMax - 1)).set 0 (some new) = [some new] := by
    obtain ⟨only, equal⟩ := List.length_eq_one_iff.mp
      (show (state.history.drop (historyMax - 1)).length = 1 by rw [List.length_drop, slots]; rfl)
    rw [equal]
    rfl
  have placed : state.evict.history.set state.evict.historyCount (some new) =
      (window historyMax (log ++ [new])).map some := by
    rw [represents.evict_history, last, List.set_append_right _ _ (Nat.le_refl _), Nat.sub_self,
      after, whole, window_append_full long (by decide), List.map_append, List.map_tail]
    rfl
  have count : state.evict.historyCount + 1 = (window historyMax (log ++ [new])).length := by
    rw [last, List.length_tail, slots, length_window, List.length_append, List.length_singleton]
    omega
  refine ⟨?_, count, ?_, ?_⟩
  · rw [placed, List.length_map, ← count, last, List.length_tail, slots]
    rfl
  · rw [placed, count, List.take_of_length_le (by rw [List.length_map])]
  · rw [oldest_append_full long, ← represents.base]
    rfl

/-- A line is added where there is room. -/
theorem Represents.add_room (represents : Represents state log)
    (room : state.historyCount ≠ historyMax) (new : CString) :
    Represents
      { state with
        history := state.history.set state.historyCount (some new)
        historyCount := state.historyCount + 1 } (log ++ [new]) := by
  have most := represents.count_le
  have slots := represents.slots
  have short : log.length < historyMax := by
    have count := represents.count_eq
    omega
  refine ⟨?_, ?_, ?_, ?_⟩
  · rw [List.length_set, slots]
  · rw [represents.count, window_append_room short, List.length_append, List.length_singleton]
  · rw [window_append_room short, List.map_append, ← represents.filled, List.take_add_one,
      List.take_set_of_le (Nat.le_refl _), List.getElem?_set_self (by omega)]
    rfl
  · rw [oldest_append_room short]
    exact represents.base

theorem Represents.add (represents : Represents state log) {line : CString}
    (some : (trimNewlines line).bytes ≠ []) :
    Represents (historyAdd state line) (log ++ [trimNewlines line]) := by
  have nonempty : line.bytes ≠ [] := by
    intro empty
    apply some
    change line.bytes.rdropWhile isNewline = []
    rw [empty]
    rfl
  rw [historyAdd, if_neg nonempty]
  simp only [if_neg some]
  by_cases full : state.historyCount = historyMax
  · rw [if_pos full]
    exact represents.add_full full _
  · rw [if_neg full]
    exact represents.add_room full _

/-! ## Reading it -/

theorem Represents.lookup (represents : Represents state log) (number : Nat) :
    historyLookup state number =
      if 1 ≤ number ∧ log.length < number + historyMax then entry log number else none := by
  rw [← window_lookup, historyLookup, represents.base]
  by_cases early : number < oldest historyMax log
  · rw [if_pos early, if_pos early]
  · rw [if_neg early, if_neg early]
    by_cases late : number - oldest historyMax log ≥ state.historyCount
    · simp only [if_pos late]
      rw [represents.count] at late
      exact (List.getElem?_eq_none late).symm
    · simp only [if_neg late]
      exact represents.slot (Nat.not_le.mp late)

/-- The last line of the array is the last of the log. -/
theorem Represents.last (represents : Represents state log) (some : state.historyCount ≠ 0) :
    state.history.getD (state.historyCount - 1) none = log.getLast? := by
  have count := represents.count_eq
  have number : oldest historyMax log + (state.historyCount - 1) = log.length := by
    unfold oldest
    omega
  rw [represents.slot (by omega), window_getElem?, number, entry, if_neg (by omega),
    List.getLast?_eq_getElem?]

/-- `!!` stands for the last line of the log. -/
theorem Represents.expand_bangBang (represents : Represents state log) {line : CString}
    (event : specifier (skipBlanks line) = [bang, bang]) :
    historyExpand state line = some
      (match log.getLast? with
      | none => .error .noPrevious
      | some last => .ok last) := by
  have count := represents.count_eq
  rw [historyExpand]
  simp only [if_pos event]
  by_cases empty : state.historyCount = 0
  · have nothing : log = [] := by
      apply List.eq_nil_of_length_eq_zero
      have limit : historyMax = 100 := rfl
      omega
    rw [if_pos empty, nothing]
    rfl
  · rw [if_neg empty, represents.last empty]
    cases last : log.getLast? with
    | none =>
        rw [List.getLast?_eq_none_iff.mp last] at count
        exact absurd count empty
    | some line => rfl

/-- An expansion always has a result. -/
theorem Represents.expand_exists (represents : Represents state log) (line : CString) :
    ∃ result, historyExpand state line = some result := by
  by_cases event : specifier (skipBlanks line) = [bang, bang]
  · exact ⟨_, represents.expand_bangBang event⟩
  · rw [historyExpand]
    simp only [if_neg event]
    split_ifs
    · exact ⟨_, rfl⟩
    · exact ⟨_, rfl⟩
    · cases historyLookup state (strtoul (specifier (skipBlanks line)).tail).1 with
      | none => exact ⟨_, rfl⟩
      | some entry => exact ⟨_, rfl⟩
    · exact ⟨_, rfl⟩

/-! ## Printing it -/

theorem Represents.rows (represents : Represents state log) (start begin i left : Nat)
    (inside : i + left = state.historyCount) (ordered : begin ≤ i) :
    ∃ rows, historyRows state start begin i left = some rows ∧
      rows.map HistoryRow.number = List.range' (start + (i - begin)) left ∧
      rows.map HistoryRow.text = (window historyMax log).drop i := by
  induction left generalizing i with
  | zero =>
      refine ⟨[], rfl, rfl, ?_⟩
      rw [List.drop_of_length_le (by rw [← represents.count]; omega)]
      rfl
  | succ left ih =>
      have within : i < (window historyMax log).length := by
        rw [← represents.count]
        omega
      obtain ⟨rows, printed, numbers, texts⟩ := ih (i + 1) (by omega) (by omega)
      have here : state.history.getD i none = some (window historyMax log)[i] := by
        rw [represents.slot (by omega), List.getElem?_eq_getElem within]
      have next : start + (i + 1 - begin) = start + (i - begin) + 1 := by omega
      refine ⟨⟨start + (i - begin), (window historyMax log)[i]⟩ :: rows, ?_, ?_, ?_⟩
      · rw [historyRows, here, printed]
        rfl
      · rw [List.map_cons, numbers, next]
        rfl
      · rw [List.map_cons, texts]
        exact (List.drop_eq_getElem_cons within).symm

/-- How many of `total` entries the builtin prints. -/
def shownCount (total : Nat) : Option Bytes → Nat
  | none => total
  | some text =>
      if (strtol text).2 = [] ∧ (strtol text).1 ≥ 0 ∧ (strtol text).1.toNat < total then
        (strtol text).1.toNat
      else total

theorem shownCount_le (total : Nat) (argument : Option Bytes) :
    shownCount total argument ≤ total := by
  cases argument with
  | none => exact Nat.le_refl _
  | some text =>
      simp only [shownCount]
      split_ifs with valid
      · exact Nat.le_of_lt valid.2.2
      · exact Nat.le_refl _

theorem historyBegin_eq (count : Nat) (argument : Option Bytes) :
    historyBegin count argument = count - shownCount count argument := by
  cases argument with
  | none => exact (Nat.sub_self count).symm
  | some text =>
      simp only [historyBegin, shownCount]
      split_ifs
      · rfl
      · exact (Nat.sub_self count).symm

/-- Rows that are the last entries of the log, in order and with their numbers. -/
structure Shows (log : List CString) (argument : Option Bytes) (rows : List HistoryRow) :
    Prop where
  count : rows.length = shownCount (min log.length historyMax) argument
  numbers : rows.map HistoryRow.number = List.range' (log.length - rows.length + 1) rows.length
  texts : rows.map HistoryRow.text = log.drop (log.length - rows.length)

theorem Represents.builtin (represents : Represents state log) (cmd : ShellCommand)
    (present : ¬ (cmd.argc = 2 ∧ countArgument cmd = none)) :
    ∃ rows, builtinHistory state cmd = some rows ∧ Shows log (countArgument cmd) rows := by
  have total := represents.count_eq
  have most := shownCount_le state.historyCount (countArgument cmd)
  have begins := historyBegin_eq state.historyCount (countArgument cmd)
  obtain ⟨rows, printed, numbers, texts⟩ := represents.rows
    (state.historyBase + historyBegin state.historyCount (countArgument cmd))
    (historyBegin state.historyCount (countArgument cmd))
    (historyBegin state.historyCount (countArgument cmd))
    (state.historyCount - historyBegin state.historyCount (countArgument cmd))
    (by omega) (Nat.le_refl _)
  have left : state.historyCount - historyBegin state.historyCount (countArgument cmd) =
      shownCount state.historyCount (countArgument cmd) := by omega
  have length : rows.length = shownCount state.historyCount (countArgument cmd) := by
    have lengths := congrArg List.length numbers
    rw [List.length_map, List.length_range', left] at lengths
    exact lengths
  refine ⟨rows, ?_, ?_, ?_, ?_⟩
  · rw [builtinHistory, if_neg present]
    exact printed
  · rw [length, total]
  · have first : state.historyBase + historyBegin state.historyCount (countArgument cmd) +
        (historyBegin state.historyCount (countArgument cmd) -
          historyBegin state.historyCount (countArgument cmd)) =
        log.length - rows.length + 1 := by
      rw [represents.base, oldest, begins, length]
      omega
    rw [numbers, left, first, length]
  · rw [texts, begins, ← length, represents.count, drop_window]
    rw [← represents.count, length]
    exact most

/-- A row that is shown is found under its number. -/
theorem Shows.lookup {argument : Option Bytes} {rows : List HistoryRow}
    (shows : Shows log argument rows) (represents : Represents state log) :
    ∀ row ∈ rows, historyLookup state row.number = some row.text := by
  intro row member
  obtain ⟨index, inside, here⟩ := List.getElem_of_mem member
  have short : rows.length ≤ min log.length historyMax := by
    rw [shows.count]
    exact shownCount_le ..
  have number : row.number = log.length - rows.length + 1 + index := by
    have entries := congrArg (fun numbers => numbers[index]?) shows.numbers
    simp only [List.getElem?_map, List.getElem?_eq_getElem inside, here, Option.map_some,
      List.getElem?_range' inside, Nat.one_mul, Option.some.injEq] at entries
    exact entries
  have text : log[log.length - rows.length + index]? = some row.text := by
    have entries := congrArg (fun texts => texts[index]?) shows.texts
    simp only [List.getElem?_map, List.getElem?_eq_getElem inside, here, Option.map_some,
      List.getElem?_drop] at entries
    exact entries.symm
  have kept : 1 ≤ row.number ∧ log.length < row.number + historyMax := by omega
  rw [represents.lookup, if_pos kept, entry, if_neg (by omega), ← text, number]
  congr 1
  omega

/-! ## Running a line -/

theorem trimNewlines_trimNewlines (text : CString) :
    trimNewlines (trimNewlines text) = trimNewlines text := by
  have same := List.rdropWhile_idempotent isNewline text.bytes
  exact (CString.mk.injEq ..).mpr same

/-- Every command of a parsed line has its arguments. -/
theorem parsed_arguments {line : CString} {before pipeline : ShellPipeline}
    (parsed : shellParseLine (some line) (some before) = (.ok (), some pipeline)) :
    ∀ cmd ∈ pipeline.commands, 1 ≤ cmd.argc ∧
      ∀ index < cmd.argc, ∃ text, cmd.argv.getD index none = some text := by
  intro cmd member
  obtain ⟨tokens, -, ⟨-, rfl⟩ | ⟨sentence, -, rfl⟩⟩ :=
    (parse_line_success line before pipeline).mp parsed
  · exact absurd member List.not_mem_nil
  · obtain ⟨stage, inside, rfl⟩ := List.mem_map.mp member
    have nonempty := sentence.hasWord stage inside
    refine ⟨List.length_pos_iff.mpr nonempty, ?_⟩
    intro index within
    have argv : (command stage).argv = (words stage).map some ++ [none] := if_neg nonempty
    have short : index < (words stage).length := within
    refine ⟨(words stage)[index], ?_⟩
    rw [argv, List.getD_eq_getElem?_getD,
      List.getElem?_append_left (by rw [List.length_map]; exact short), List.getElem?_map,
      List.getElem?_eq_getElem short]
    rfl

/-- The rows an action prints are those of the log. -/
def ActionShows (log : List CString) : Action → Prop
  | .history argument rows => Shows log argument rows
  | _ => True

theorem Represents.run_builtin (represents : Represents state log) {line : CString}
    {before pipeline : ShellPipeline}
    (parsed : shellParseLine (some line) (some before) = (.ok (), some pipeline)) :
    ∃ action next, runBuiltin state pipeline = some (action, next) ∧ Represents next log ∧
      ActionShows log action := by
  have arguments := parsed_arguments parsed
  unfold runBuiltin
  split
  next cmd single =>
    obtain ⟨named, filled⟩ := arguments cmd (single ▸ List.mem_singleton_self cmd)
    obtain ⟨name, first⟩ := filled 0 named
    simp only [first, Option.bind_eq_bind, Option.bind_some]
    by_cases leaves : name = ascii "exit" ∨ name = ascii "quit"
    · rw [if_pos leaves]
      exact ⟨_, _, rfl, ⟨represents.slots, represents.count, represents.filled, represents.base⟩,
        trivial⟩
    rw [if_neg leaves]
    by_cases history : name = ascii "history"
    · have present : ¬ (cmd.argc = 2 ∧ countArgument cmd = none) := by
        rintro ⟨two, missing⟩
        obtain ⟨text, second⟩ := filled 1 (by omega)
        rw [countArgument, if_pos two, second] at missing
        cases missing
      obtain ⟨rows, printed, shows⟩ := represents.builtin cmd present
      rw [if_pos history, printed]
      exact ⟨_, _, rfl, represents, shows⟩
    · rw [if_neg history]
      exact ⟨_, _, rfl, represents, trivial⟩
  · exact ⟨_, _, rfl, represents, trivial⟩

/-- The line that a run of `shell_run_line` records. -/
def recordedLine : Outcome → List CString
  | .ran expanded _ _ => [expanded]
  | _ => []

/-- The rows printed by a line are those of the log with the line itself. -/
def OutcomeShows (log : List CString) : Outcome → Prop
  | .ran _ _ action => ActionShows log action
  | _ => True

/-- One line: it has an outcome, and the log grows by what is recorded. -/
theorem Represents.run_line (represents : Represents state log) (line : CString) :
    ∃ outcome next, shellRunLine state line = some (outcome, next) ∧
      Represents next (log ++ (recordedLine outcome).map trimNewlines) ∧
      OutcomeShows (log ++ (recordedLine outcome).map trimNewlines) outcome := by
  have unchanged : Represents state (log ++ ([] : List CString).map trimNewlines) := by
    rw [List.map_nil, List.append_nil]
    exact represents
  obtain ⟨result, expansion⟩ := represents.expand_exists line
  unfold shellRunLine
  rw [expansion]
  simp only [Option.bind_eq_bind, Option.bind_some]
  cases result with
  | error error => exact ⟨_, _, rfl, unchanged, trivial⟩
  | ok text =>
      simp only
      by_cases empty : (trimNewlines text).bytes = []
      · rw [if_pos empty]
        exact ⟨_, _, rfl, unchanged, trivial⟩
      rw [if_neg empty]
      obtain ⟨pipeline, parsed⟩ | ⟨error, parsed⟩ := parse_line_total (trimNewlines text) {}
      · simp only [parsed]
        by_cases blank : pipeline.commands = []
        · rw [if_pos blank]
          exact ⟨_, _, rfl, unchanged, trivial⟩
        rw [if_neg blank]
        have stored : (trimNewlines (trimNewlines text)).bytes ≠ [] := by
          rw [trimNewlines_trimNewlines]
          exact empty
        have added := represents.add stored
        obtain ⟨action, next, ran, kept, shows⟩ := added.run_builtin parsed
        rw [ran]
        exact ⟨_, _, rfl, kept, shows⟩
      · simp only [parsed]
        exact ⟨_, _, rfl, unchanged, trivial⟩

end State

/-! ## Runs -/

/-- The shell and how every line so far ended. -/
structure Session where
  shell : ShellState
  outcomes : List Outcome

def Session.start (interactive : Bool) : Session := ⟨shellStateInit interactive, []⟩

def Session.runLine (session : Session) (line : CString) : Option Session := do
  let (outcome, shell) ← shellRunLine session.shell line
  return { shell, outcomes := session.outcomes ++ [outcome] }

/-- The lines recorded so far. -/
def Session.recorded (session : Session) : List CString :=
  session.outcomes.flatMap recordedLine

/-- The array holds the end of the lines recorded, and the last line printed from them. -/
structure Consistent (session : Session) : Prop where
  represents : Represents session.shell (session.recorded.map trimNewlines)
  shows : ∀ outcome, session.outcomes.getLast? = some outcome →
    OutcomeShows (session.recorded.map trimNewlines) outcome

theorem consistent_start (interactive : Bool) : Consistent (Session.start interactive) where
  represents := represents_init interactive
  shows := fun _ last => by cases last

theorem runLine_consistent {session : Session} (consistent : Consistent session)
    (line : CString) : ∃ next, session.runLine line = some next ∧ Consistent next := by
  obtain ⟨outcome, shell, ran, represents, shows⟩ := consistent.represents.run_line line
  have recorded : (Session.mk shell (session.outcomes ++ [outcome])).recorded.map trimNewlines =
      session.recorded.map trimNewlines ++ (recordedLine outcome).map trimNewlines := by
    simp only [Session.recorded, List.flatMap_append, List.flatMap_singleton, List.map_append]
  refine ⟨⟨shell, session.outcomes ++ [outcome]⟩, ?_, ?_, ?_⟩
  · rw [Session.runLine, ran]
    rfl
  · rw [recorded]
    exact represents
  · intro last isLast
    rw [recorded]
    rw [List.getLast?_concat] at isLast
    obtain rfl := Option.some.inj isLast
    exact shows

/-- For every sequence of lines from the start, with `T` lines recorded so far: lookup finds the
`n`-th of them exactly for the last hundred numbers up to `T`, `!!` stands for the `T`-th, and what
the builtin prints are the last lines in order, each found under its number. -/
theorem history_numbers_stable (interactive : Bool) (lines : List CString) :
    ∃ session, runPartial Session.runLine (Session.start interactive) lines = some session ∧
      (∀ number, historyLookup session.shell number =
        if 1 ≤ number ∧ session.recorded.length ≤ number + 99 ∧
            number ≤ session.recorded.length then
          session.recorded[number - 1]?.map trimNewlines
        else none) ∧
      (∀ line, specifier (skipBlanks line) = [bang, bang] →
        historyExpand session.shell line = some
          (match session.recorded.getLast? with
          | none => .error .noPrevious
          | some last => .ok (trimNewlines last))) ∧
      ∀ expanded echoed argument rows,
        session.outcomes.getLast? = some (.ran expanded echoed (.history argument rows)) →
          Shows (session.recorded.map trimNewlines) argument rows ∧
            ∀ row ∈ rows, historyLookup session.shell row.number = some row.text := by
  obtain ⟨session, ran, represents, shows⟩ := runPartial_invariant Consistent
    (fun session line consistent _ => runLine_consistent consistent line)
    (Session.start interactive) lines (consistent_start interactive)
    (admitsPartial_true (Session.start interactive) lines)
  refine ⟨session, ran, ?_, ?_, ?_⟩
  · intro number
    have limit : historyMax = 100 := rfl
    rw [represents.lookup, List.length_map]
    by_cases inside : 1 ≤ number ∧ session.recorded.length ≤ number + 99 ∧
        number ≤ session.recorded.length
    · rw [if_pos inside, if_pos (by omega), entry, if_neg (by omega), List.getElem?_map]
    · rw [if_neg inside]
      split_ifs with window
      · rw [entry, if_neg (by omega), List.getElem?_eq_none (by rw [List.length_map]; omega)]
      · rfl
  · intro line event
    rw [represents.expand_bangBang event, List.getLast?_map]
    cases session.recorded.getLast? with
    | none => rfl
    | some last => rfl
  · intro expanded echoed argument rows last
    have shown : Shows _ argument rows := shows _ last
    exact ⟨shown, shown.lookup represents⟩

def firstLine : CString := ⟨ascii "a", by decide⟩

def againLine : CString := ⟨ascii "!!", by decide⟩

def historyLine : CString := ⟨ascii "history 1", by decide⟩

theorem history_numbers_stable_three :
    ∃ session, runPartial Session.runLine (Session.start false)
        [firstLine, againLine, historyLine] = some session ∧
      historyLookup session.shell 3 = some historyLine ∧
      historyExpand session.shell againLine = some (.ok historyLine) := by
  obtain ⟨session, ran, -, expand, printed⟩ :=
    history_numbers_stable false [firstLine, againLine, historyLine]
  have ends : (runPartial Session.runLine (Session.start false)
      [firstLine, againLine, historyLine]).map
        (fun session => (session.outcomes.getLast?, session.recorded.getLast?)) =
      some (some (.ran historyLine false (.history (some (ascii "1")) [⟨3, historyLine⟩])),
        some historyLine) := by
    decide +kernel
  rw [ran, Option.map_some, Option.some.injEq, Prod.mk.injEq] at ends
  have rows := printed historyLine false (some (ascii "1")) [⟨3, historyLine⟩] ends.1
  have again := expand againLine (by decide)
  rw [ends.2] at again
  exact ⟨session, ran, rows.2 _ (List.mem_singleton_self _), again⟩

end EmbeddedRuntime.Shell.HistoryNumbers
