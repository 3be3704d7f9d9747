import EmbeddedRuntime.Shell.Parser

/-!
# The grammar of a command line

A stage is a list of items in any order, words and redirections; a sentence is
stages separated by `|` with an optional `&` at the end.  The parser accepts the
token lists of the sentences and builds the `command` of each stage.
-/

set_option autoImplicit false

namespace EmbeddedRuntime.Shell.Grammar

open EmbeddedRuntime.Shell.Tokens
open EmbeddedRuntime.Shell.Parser

/-- A word or a redirection with its path. -/
inductive Item where
  | word (text : Bytes)
  | input (path : Bytes)
  | output (path : Bytes) (append : Bool)
  deriving DecidableEq, Repr

def Item.tokens : Item → List Token
  | .word text => [.word text]
  | .input path => [.input, .word path]
  | .output path false => [.output, .word path]
  | .output path true => [.append, .word path]

abbrev Stage := List Item

def Item.word? : Item → Option Bytes
  | .word text => some text
  | _ => none

def Item.input? : Item → Option Bytes
  | .input path => some path
  | _ => none

def Item.output? : Item → Option (Bytes × Bool)
  | .output path append => some (path, append)
  | _ => none

def words (stage : Stage) : List Bytes := stage.filterMap Item.word?

def inputs (stage : Stage) : List Bytes := stage.filterMap Item.input?

def outputs (stage : Stage) : List (Bytes × Bool) := stage.filterMap Item.output?

/-- `argv` of a stage: its words and the NULL behind them, or no array yet. -/
def arguments (texts : List Bytes) : List (Option Bytes) :=
  if texts = [] then [] else texts.map some ++ [none]

/-- The command a stage stands for. -/
def command (stage : Stage) : ShellCommand where
  argv := arguments (words stage)
  argc := (words stage).length
  inputPath := (inputs stage).head?
  outputPath := (outputs stage).head?.map Prod.fst
  appendOutput := (outputs stage).head?.any Prod.snd

/-- At most one input and one output redirection. -/
def Single (stage : Stage) : Prop := (inputs stage).length ≤ 1 ∧ (outputs stage).length ≤ 1

/-- A sentence of the grammar: stages separated by `|` and an optional `&`. -/
structure Sentence where
  first : Stage
  more : List Stage
  background : Bool
  single : ∀ stage ∈ first :: more, Single stage
  hasWord : ∀ stage ∈ first :: more, words stage ≠ []
  inputFirst : ∀ stage ∈ more, inputs stage = []
  outputLast : ∀ stage ∈ (first :: more).dropLast, outputs stage = []

def stageTokens (stage : Stage) : List Token := stage.flatMap Item.tokens

def backgroundTokens (background : Bool) : List Token :=
  if background then [.background] else []

def joinTokens (first : Stage) (more : List Stage) (background : Bool) : List Token :=
  stageTokens first ++ (more.flatMap fun stage => .pipe :: stageTokens stage) ++
    backgroundTokens background

def Sentence.tokens (sentence : Sentence) : List Token :=
  joinTokens sentence.first sentence.more sentence.background

def Sentence.pipeline (sentence : Sentence) (line : CString) : ShellPipeline where
  commands := (sentence.first :: sentence.more).map command
  background := sentence.background
  source := some line.bytes

/-! ## What the command under construction stands for -/

theorem words_append (stage items : Stage) : words (stage ++ items) = words stage ++ words items :=
  List.filterMap_append

theorem inputs_append (stage items : Stage) :
    inputs (stage ++ items) = inputs stage ++ inputs items :=
  List.filterMap_append

theorem outputs_append (stage items : Stage) :
    outputs (stage ++ items) = outputs stage ++ outputs items :=
  List.filterMap_append

/-- What one more item adds to the words and to the redirections. -/
theorem parts_word (stage : Stage) (text : Bytes) :
    words (stage ++ [Item.word text]) = words stage ++ [text] ∧
      inputs (stage ++ [Item.word text]) = inputs stage ∧
      outputs (stage ++ [Item.word text]) = outputs stage :=
  ⟨words_append _ _, (inputs_append _ _).trans (List.append_nil _),
    (outputs_append _ _).trans (List.append_nil _)⟩

theorem parts_input (stage : Stage) (path : Bytes) :
    words (stage ++ [Item.input path]) = words stage ∧
      inputs (stage ++ [Item.input path]) = inputs stage ++ [path] ∧
      outputs (stage ++ [Item.input path]) = outputs stage :=
  ⟨(words_append _ _).trans (List.append_nil _), inputs_append _ _,
    (outputs_append _ _).trans (List.append_nil _)⟩

theorem parts_output (stage : Stage) (path : Bytes) (append : Bool) :
    words (stage ++ [Item.output path append]) = words stage ∧
      inputs (stage ++ [Item.output path append]) = inputs stage ∧
      outputs (stage ++ [Item.output path append]) = outputs stage ++ [(path, append)] :=
  ⟨(words_append _ _).trans (List.append_nil _), (inputs_append _ _).trans (List.append_nil _),
    outputs_append _ _⟩

theorem arguments_take (texts : List Bytes) :
    (arguments texts).take texts.length = texts.map some := by
  unfold arguments
  split
  case isTrue empty => simp [empty]
  case isFalse => exact List.take_left' (List.length_map some)

theorem command_word (stage : Stage) (text : Bytes) :
    commandAddArg (command stage) text = command (stage ++ [Item.word text]) := by
  obtain ⟨grown, sameInputs, sameOutputs⟩ := parts_word stage text
  have argv : (arguments (words stage)).take (words stage).length ++ [some text, none] =
      arguments (words stage ++ [text]) := by
    rw [arguments_take, arguments, if_neg (by simp), List.map_append, List.append_assoc]
    rfl
  simp only [commandAddArg, command, grown, sameInputs, sameOutputs, argv, List.length_append,
    List.length_singleton]

theorem command_input (stage : Stage) (path : Bytes) (fresh : inputs stage = []) :
    { command stage with inputPath := some path } = command (stage ++ [Item.input path]) := by
  obtain ⟨sameWords, grown, sameOutputs⟩ := parts_input stage path
  rw [fresh, List.nil_append] at grown
  simp only [command, sameWords, grown, sameOutputs, List.head?_cons]

theorem command_output (stage : Stage) (path : Bytes) (append : Bool)
    (fresh : outputs stage = []) :
    { command stage with outputPath := some path, appendOutput := append } =
      command (stage ++ [Item.output path append]) := by
  obtain ⟨sameWords, sameInputs, grown⟩ := parts_output stage path append
  rw [fresh, List.nil_append] at grown
  simp only [command, sameWords, sameInputs, grown, List.head?_cons, Option.map_some,
    Option.any_some]

theorem command_argc (stage : Stage) : (command stage).argc = 0 ↔ words stage = [] :=
  List.length_eq_zero_iff

theorem command_inputPath (stage : Stage) :
    (command stage).inputPath.isSome = false ↔ inputs stage = [] := by
  change (inputs stage).head?.isSome = false ↔ _
  cases inputs stage <;> simp

theorem command_outputPath (stage : Stage) :
    (command stage).outputPath.isSome = false ↔ outputs stage = [] := by
  change ((outputs stage).head?.map Prod.fst).isSome = false ↔ _
  cases outputs stage <;> simp

theorem Single.of_append {stage items : Stage} (single : Single (stage ++ items)) :
    Single stage := by
  obtain ⟨oneInput, oneOutput⟩ := single
  rw [inputs_append, List.length_append] at oneInput
  rw [outputs_append, List.length_append] at oneOutput
  exact ⟨by omega, by omega⟩

theorem single_word {stage : Stage} {text : Bytes} :
    Single (stage ++ [Item.word text]) ↔ Single stage := by
  obtain ⟨-, sameInputs, sameOutputs⟩ := parts_word stage text
  rw [Single, Single, sameInputs, sameOutputs]

theorem single_input {stage : Stage} {path : Bytes} :
    Single (stage ++ [Item.input path]) ↔ inputs stage = [] ∧ Single stage := by
  obtain ⟨-, grown, sameOutputs⟩ := parts_input stage path
  rw [Single, Single, grown, sameOutputs, List.length_append, ← List.length_eq_zero_iff,
    List.length_singleton]
  omega

theorem single_output {stage : Stage} {path : Bytes} {append : Bool} :
    Single (stage ++ [Item.output path append]) ↔ outputs stage = [] ∧ Single stage := by
  obtain ⟨-, sameInputs, grown⟩ := parts_output stage path append
  rw [Single, Single, grown, sameInputs, List.length_append, ← List.length_eq_zero_iff,
    List.length_singleton]
  omega

/-! ## A sentence is parsed -/

theorem parse_item (commands : List ShellCommand) (stage : Stage) (background : Bool)
    (item : Item) (rest : List Token) (single : Single (stage ++ [item])) :
    parseTokens commands (command stage) background (item.tokens ++ rest) =
      parseTokens commands (command (stage ++ [item])) background rest := by
  cases item with
  | word text =>
    rw [← command_word]
    rfl
  | input path =>
    obtain ⟨fresh, _⟩ := single_input.mp single
    rw [← command_input stage path fresh]
    change parseTokens _ _ _ (.input :: .word path :: rest) = _
    rw [parseTokens, (command_inputPath stage).mpr fresh, if_neg (by simp)]
  | output path append =>
    obtain ⟨fresh, _⟩ := single_output.mp single
    rw [← command_output stage path append fresh]
    cases append with
    | false =>
      change parseTokens _ _ _ (.output :: .word path :: rest) = _
      rw [parseTokens, (command_outputPath stage).mpr fresh, if_neg (by simp)]
    | true =>
      change parseTokens _ _ _ (.append :: .word path :: rest) = _
      rw [parseTokens, (command_outputPath stage).mpr fresh, if_neg (by simp)]

theorem parse_items (commands : List ShellCommand) (stage items : Stage) (background : Bool)
    (rest : List Token) (single : Single (stage ++ items)) :
    parseTokens commands (command stage) background (stageTokens items ++ rest) =
      parseTokens commands (command (stage ++ items)) background rest := by
  induction items generalizing stage with
  | nil => rw [List.append_nil, stageTokens, List.flatMap_nil, List.nil_append]
  | cons item items ih =>
    rw [List.append_cons] at single ⊢
    rw [stageTokens, List.flatMap_cons, List.append_assoc,
      parse_item _ _ _ _ _ single.of_append, ← ih _ single, stageTokens]

theorem parse_background (commands : List ShellCommand) (cmd : ShellCommand) (background : Bool) :
    parseTokens commands cmd false (backgroundTokens background) =
      .ok (commands ++ [cmd], background) := by
  cases background <;> rfl

theorem stageTokens_ne_nil (stage : Stage) (hasWord : words stage ≠ []) :
    stageTokens stage ≠ [] := by
  cases stage with
  | nil => exact absurd rfl hasWord
  | cons item items =>
    cases item with
    | word text => exact List.cons_ne_nil _ _
    | input path => exact List.cons_ne_nil _ _
    | output path append => cases append <;> exact List.cons_ne_nil _ _

theorem parse_join (commands : List ShellCommand) (first : Stage) (more : List Stage)
    (background : Bool) (single : ∀ stage ∈ first :: more, Single stage)
    (hasWord : ∀ stage ∈ first :: more, words stage ≠ []) :
    parseTokens commands {} false (joinTokens first more background) =
      .ok (commands ++ (first :: more).map command, background) := by
  induction more generalizing commands first with
  | nil =>
    rw [joinTokens, List.flatMap_nil, List.append_nil]
    exact (parse_items commands [] first false _ (single first List.mem_cons_self)).trans
      (parse_background commands _ background)
  | cons next more ih =>
    have stepped := parse_items commands [] first false
      (.pipe :: joinTokens next more background) (single first List.mem_cons_self)
    have follows : joinTokens next more background ≠ [] := by
      have nonempty := stageTokens_ne_nil next (hasWord next (by simp))
      simp [joinTokens, nonempty]
    have named : (command first).argc ≠ 0 :=
      mt (command_argc first).mp (hasWord first List.mem_cons_self)
    have join : joinTokens first (next :: more) background =
        stageTokens first ++ .pipe :: joinTokens next more background := by
      simp [joinTokens]
    rw [join]
    refine stepped.trans ?_
    rw [List.nil_append, parseTokens, if_neg named, if_neg follows,
      ih _ next (fun stage mem => single stage (List.mem_cons_of_mem _ mem))
        fun stage mem => hasWord stage (List.mem_cons_of_mem _ mem)]
    simp

/-! ## What is parsed is a sentence -/

/-- The loop, read backwards: what it has accepted are the rest of the current
stage and the stages after it. -/
theorem parse_sound (commands : List ShellCommand) (stage : Stage) (background : Bool)
    (tokens : List Token) (result : List ShellCommand) (last : Bool) (single : Single stage)
    (parsed : parseTokens commands (command stage) background tokens = .ok (result, last)) :
    ∃ items more final, tokens = joinTokens items more final ∧ last = (background || final) ∧
      (∀ stage' ∈ (stage ++ items) :: more, Single stage') ∧
      result = commands ++ ((stage ++ items) :: more).map command := by
  generalize built : command stage = cmd at parsed
  fun_induction parseTokens commands cmd background tokens generalizing stage with
  | case1 commands cmd background =>
    cases parsed
    refine ⟨[], [], false, rfl, by simp, ?_, ?_⟩
    · simpa using single
    · simp [built]
  | case2 commands cmd background text rest ih =>
    rw [← built, command_word] at ih parsed
    obtain ⟨items, more, final, rfl, flag, singles, rfl⟩ :=
      ih (stage ++ [Item.word text]) (single_word.mpr single) rfl parsed
    exact ⟨.word text :: items, more, final, rfl, flag, by simpa using singles, by simp⟩
  | case3 => cases parsed
  | case4 => cases parsed
  | case5 commands cmd background rest _ _ ih =>
    obtain ⟨items, more, final, rfl, flag, singles, rfl⟩ :=
      ih [] (by simp [Single, inputs, outputs]) rfl parsed
    refine ⟨[], items :: more, final, by simp [joinTokens, stageTokens], flag, ?_, by simp [built]⟩
    rw [List.append_nil, List.forall_mem_cons]
    exact ⟨single, singles⟩
  | case6 => cases parsed
  | case7 commands cmd background rest nonempty ih =>
    obtain rfl : rest = [] := not_not.mp nonempty
    cases parsed
    exact ⟨[], [], true, rfl, by simp, by simpa using single, by simp [built]⟩
  | case8 => cases parsed
  | case9 commands cmd background path rest absent ih =>
    have fresh := (command_inputPath stage).mp (by simpa [built] using absent)
    rw [← built, command_input stage path fresh] at ih parsed
    obtain ⟨items, more, final, rfl, flag, singles, rfl⟩ :=
      ih (stage ++ [Item.input path]) (single_input.mpr ⟨fresh, single⟩) rfl parsed
    exact ⟨.input path :: items, more, final, rfl, flag, by simpa using singles, by simp⟩
  | case10 => cases parsed
  | case11 commands cmd background path rest absent ih =>
    have fresh := (command_outputPath stage).mp (by simpa [built] using absent)
    rw [← built, command_output stage path false fresh] at ih parsed
    obtain ⟨items, more, final, rfl, flag, singles, rfl⟩ :=
      ih (stage ++ [Item.output path false]) (single_output.mpr ⟨fresh, single⟩) rfl parsed
    exact ⟨.output path false :: items, more, final, rfl, flag, by simpa using singles, by simp⟩
  | case12 => cases parsed
  | case13 commands cmd background path rest absent ih =>
    have fresh := (command_outputPath stage).mp (by simpa [built] using absent)
    rw [← built, command_output stage path true fresh] at ih parsed
    obtain ⟨items, more, final, rfl, flag, singles, rfl⟩ :=
      ih (stage ++ [Item.output path true]) (single_output.mpr ⟨fresh, single⟩) rfl parsed
    exact ⟨.output path true :: items, more, final, rfl, flag, by simpa using singles, by simp⟩
  | case14 => cases parsed
  | case15 => cases parsed
  | case16 => cases parsed

/-! ## The checks after the loop -/

theorem checkStages_cons (i : Nat) (cmd : ShellCommand) (rest : List ShellCommand) :
    checkStages i (cmd :: rest) = .ok () ↔
      cmd.argc ≠ 0 ∧ (0 < i → cmd.inputPath.isSome = false) ∧
      (rest ≠ [] → cmd.outputPath.isSome = false) ∧ checkStages (i + 1) rest = .ok () := by
  rw [checkStages]
  split_ifs with empty late early
  · simp [empty]
  · exact ⟨nofun, fun ⟨_, noInput, _⟩ => by simp [noInput late.1] at late⟩
  · exact ⟨nofun, fun ⟨_, _, noOutput, _⟩ => by simp [noOutput early.1] at early⟩
  · simp only [not_and, Bool.not_eq_true] at late early
    exact ⟨fun done => ⟨empty, late, early, done⟩, fun ⟨_, _, _, done⟩ => done⟩

theorem forall_dropLast_cons {α : Type} (P : α → Prop) (head : α) (tail : List α) :
    (∀ x ∈ (head :: tail).dropLast, P x) ↔ (tail ≠ [] → P head) ∧ ∀ x ∈ tail.dropLast, P x := by
  cases tail with
  | nil => simp
  | cons next tail => simp

/-- From the second stage on no input redirection is left. -/
theorem checkStages_succ (i : Nat) (commands : List ShellCommand) :
    checkStages (i + 1) commands = .ok () ↔
      (∀ cmd ∈ commands, cmd.argc ≠ 0) ∧
      (∀ cmd ∈ commands, cmd.inputPath.isSome = false) ∧
      ∀ cmd ∈ commands.dropLast, cmd.outputPath.isSome = false := by
  induction commands generalizing i with
  | nil => simp [checkStages]
  | cons cmd rest ih =>
    rw [checkStages_cons, ih, forall_dropLast_cons, List.forall_mem_cons, List.forall_mem_cons]
    constructor
    · rintro ⟨named, noInput, noOutput, allNamed, noInputs, noOutputs⟩
      exact ⟨⟨named, allNamed⟩, ⟨noInput i.succ_pos, noInputs⟩, noOutput, noOutputs⟩
    · rintro ⟨⟨named, allNamed⟩, ⟨noInput, noInputs⟩, noOutput, noOutputs⟩
      exact ⟨named, fun _ => noInput, noOutput, allNamed, noInputs, noOutputs⟩

theorem checkStages_first (first : ShellCommand) (more : List ShellCommand) :
    checkStages 0 (first :: more) = .ok () ↔
      (∀ cmd ∈ first :: more, cmd.argc ≠ 0) ∧
      (∀ cmd ∈ more, cmd.inputPath.isSome = false) ∧
      ∀ cmd ∈ (first :: more).dropLast, cmd.outputPath.isSome = false := by
  rw [checkStages_cons, checkStages_succ, forall_dropLast_cons, List.forall_mem_cons]
  constructor
  · rintro ⟨named, -, noOutput, allNamed, noInputs, noOutputs⟩
    exact ⟨⟨named, allNamed⟩, noInputs, noOutput, noOutputs⟩
  · rintro ⟨⟨named, allNamed⟩, noInputs, noOutput, noOutputs⟩
    exact ⟨named, nofun, noOutput, allNamed, noInputs, noOutputs⟩

/-- The checks, on commands that stand for stages. -/
theorem checkStages_command (first : Stage) (more : List Stage) :
    checkStages 0 ((first :: more).map command) = .ok () ↔
      (∀ stage ∈ first :: more, words stage ≠ []) ∧
      (∀ stage ∈ more, inputs stage = []) ∧
      ∀ stage ∈ (first :: more).dropLast, outputs stage = [] := by
  rw [List.map_cons, checkStages_first, ← List.map_cons, ← List.map_dropLast]
  simp only [List.forall_mem_map, ne_eq, command_argc, command_inputPath, command_outputPath]

theorem parseStages_ok (tokens : List Token) (commands : List ShellCommand) (background : Bool) :
    parseStages tokens = .ok (commands, background) ↔
      parseTokens [] {} false tokens = .ok (commands, background) ∧
        checkStages 0 commands = .ok () := by
  unfold parseStages
  cases parseTokens [] {} false tokens with
  | error failure => simp [bind, Except.bind]
  | ok result =>
    obtain ⟨built, flag⟩ := result
    cases check : checkStages 0 built with
    | error failure =>
      refine ⟨fun parsed => ?_, fun ⟨same, passed⟩ => ?_⟩
      · simp [bind, Except.bind, check] at parsed
      · cases same
        rw [check] at passed
        cases passed
    | ok _ =>
      refine ⟨fun parsed => ?_, fun ⟨same, _⟩ => ?_⟩
      · simp only [bind, Except.bind, check, pure, Except.pure] at parsed
        cases parsed
        exact ⟨rfl, check⟩
      · cases same
        simp only [bind, Except.bind, check, pure, Except.pure]

/-- The token lists that are parsed are the sentences. -/
theorem parseStages_iff (tokens : List Token) (commands : List ShellCommand) (background : Bool) :
    parseStages tokens = .ok (commands, background) ↔
      ∃ sentence : Sentence, tokens = sentence.tokens ∧
        commands = (sentence.first :: sentence.more).map command ∧
        background = sentence.background := by
  rw [parseStages_ok]
  constructor
  · rintro ⟨loop, check⟩
    obtain ⟨first, more, final, rfl, rfl, single, rfl⟩ :=
      parse_sound [] [] false tokens commands background (by simp [Single, inputs, outputs]) loop
    obtain ⟨hasWord, inputFirst, outputLast⟩ := (checkStages_command first more).mp check
    exact ⟨⟨first, more, background, single, hasWord, inputFirst, outputLast⟩, rfl, rfl, rfl⟩
  · rintro ⟨sentence, rfl, rfl, rfl⟩
    refine ⟨parse_join [] _ _ _ sentence.single sentence.hasWord, ?_⟩
    exact (checkStages_command _ _).mpr
      ⟨sentence.hasWord, sentence.inputFirst, sentence.outputLast⟩

/-! ## The grammar of a line -/

/-- The pipelines `shell_parse_line` may build from a line. -/
def Describes (line : CString) (pipeline : ShellPipeline) : Prop :=
  ∃ tokens, Lexes line.bytes tokens ∧
    (tokens = [] ∧ pipeline = { source := some line.bytes } ∨
      ∃ sentence : Sentence, tokens = sentence.tokens ∧ pipeline = sentence.pipeline line)

theorem Sentence.tokens_ne_nil (sentence : Sentence) : sentence.tokens ≠ [] := by
  have nonempty := stageTokens_ne_nil sentence.first
    (sentence.hasWord sentence.first List.mem_cons_self)
  simp [Sentence.tokens, joinTokens, nonempty]

/-- Every command of a sentence has a name, and a NULL behind its arguments. -/
theorem Sentence.argv (sentence : Sentence) (line : CString) (cmd : ShellCommand)
    (mem : cmd ∈ (sentence.pipeline line).commands) :
    1 ≤ cmd.argc ∧ cmd.argv[cmd.argc]? = some none := by
  obtain ⟨stage, inside, rfl⟩ := List.mem_map.mp mem
  have nonempty := sentence.hasWord stage inside
  refine ⟨List.length_pos_iff.mpr nonempty, ?_⟩
  simp [command, arguments, nonempty]

/-- The three ways through `shell_parse_line`. -/
theorem parse_line_error (line : CString) (before : ShellPipeline) (failure : ParseError)
    (lexed : tokenize line.bytes = .error failure) :
    shellParseLine (some line) (some before) = (.error failure, some zeroPipeline) := by
  simp only [shellParseLine, lexed]

theorem parse_line_blank (line : CString) (before : ShellPipeline)
    (lexed : tokenize line.bytes = .ok []) :
    shellParseLine (some line) (some before) = (.ok (), some { source := some line.bytes }) := by
  simp only [shellParseLine, lexed]

theorem parse_line_tokens (line : CString) (before : ShellPipeline) (token : Token)
    (tokens : List Token) (lexed : tokenize line.bytes = .ok (token :: tokens)) :
    shellParseLine (some line) (some before) =
      match parseStages (token :: tokens) with
      | .error failure => (.error failure, some zeroPipeline)
      | .ok (commands, background) =>
        (.ok (), some { commands, background, source := some line.bytes }) := by
  cases call : parseStages (token :: tokens) with
  | error failure => simp only [shellParseLine, lexed, call]
  | ok result => simp only [shellParseLine, lexed, call]

theorem parse_line_success (line : CString) (before pipeline : ShellPipeline) :
    shellParseLine (some line) (some before) = (.ok (), some pipeline) ↔
      Describes line pipeline := by
  unfold Describes
  simp only [← tokenize_iff_lexes]
  cases lexed : tokenize line.bytes with
  | error failure => simp [parse_line_error line before failure lexed]
  | ok tokens =>
    cases tokens with
    | nil =>
      rw [parse_line_blank line before lexed]
      constructor
      · intro parsed
        cases parsed
        exact ⟨[], rfl, Or.inl ⟨rfl, rfl⟩⟩
      · rintro ⟨_, ⟨⟩, ⟨-, rfl⟩ | ⟨sentence, empty, -⟩⟩
        · rfl
        · exact absurd empty.symm sentence.tokens_ne_nil
    | cons token tokens =>
      rw [parse_line_tokens line before token tokens lexed]
      constructor
      · intro parsed
        cases call : parseStages (token :: tokens) with
        | error failure => simp [call] at parsed
        | ok result =>
          obtain ⟨commands, background⟩ := result
          obtain ⟨sentence, written, rfl, rfl⟩ := (parseStages_iff _ _ _).mp call
          simp only [call, Prod.mk.injEq, Option.some.injEq, true_and] at parsed
          exact ⟨_, rfl, Or.inr ⟨sentence, written, parsed.symm⟩⟩
      · rintro ⟨_, ⟨⟩, ⟨⟨⟩, -⟩ | ⟨sentence, written, rfl⟩⟩
        have call := (parseStages_iff (token :: tokens) _ _).mpr ⟨sentence, written, rfl, rfl⟩
        simp only [call]
        rfl

/-- A line is parsed, or the pipeline is left all zero. -/
theorem parse_line_total (line : CString) (before : ShellPipeline) :
    (∃ pipeline, shellParseLine (some line) (some before) = (.ok (), some pipeline)) ∨
      ∃ failure, shellParseLine (some line) (some before) = (.error failure, some zeroPipeline) := by
  cases lexed : tokenize line.bytes with
  | error failure => exact Or.inr ⟨failure, parse_line_error line before failure lexed⟩
  | ok tokens =>
    cases tokens with
    | nil => exact Or.inl ⟨_, parse_line_blank line before lexed⟩
    | cons token tokens =>
      rw [parse_line_tokens line before token tokens lexed]
      cases parseStages (token :: tokens) with
      | error failure => exact Or.inr ⟨failure, rfl⟩
      | ok result => exact Or.inl ⟨_, rfl⟩

/-- `shell_parse_line` accepts the lines of the grammar and builds what they
describe; every other line leaves the pipeline all zero. -/
theorem shell_parse_line_grammar (line : CString) (before : ShellPipeline) :
    (∀ pipeline, shellParseLine (some line) (some before) = (.ok (), some pipeline) ↔
      Describes line pipeline) ∧
    (∀ pipeline, Describes line pipeline → ∀ cmd ∈ pipeline.commands,
      1 ≤ cmd.argc ∧ cmd.argv[cmd.argc]? = some none) ∧
    ((¬ ∃ pipeline, Describes line pipeline) →
      ∃ failure, shellParseLine (some line) (some before) = (.error failure, some zeroPipeline)) := by
  refine ⟨parse_line_success line before, ?_, ?_⟩
  · rintro pipeline ⟨tokens, -, ⟨-, rfl⟩ | ⟨sentence, -, rfl⟩⟩ cmd mem
    · exact absurd mem List.not_mem_nil
    · exact sentence.argv line cmd mem
  · intro none
    obtain ⟨pipeline, parsed⟩ | failed := parse_line_total line before
    · exact absurd ⟨pipeline, (parse_line_success line before pipeline).mp parsed⟩ none
    · exact failed

end EmbeddedRuntime.Shell.Grammar
