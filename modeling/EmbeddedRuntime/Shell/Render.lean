import EmbeddedRuntime.Shell.Grammar
import Mathlib.Data.List.Forall2

/-!
# Writing a pipeline down and parsing it back

Each string of the script carries the style it is written in.  The lexemes of the
script are joined by single spaces, so the tokenizer finds the ends of words and
operators between them, whatever bytes the strings hold.
-/

set_option autoImplicit false

namespace EmbeddedRuntime.Shell.Render

open EmbeddedRuntime.Shell.Tokens
open EmbeddedRuntime.Shell.Parser
open EmbeddedRuntime.Shell.Grammar

inductive Style where
  | escaped
  | double
  | single
  deriving DecidableEq, Repr

/-- A string without NUL and a style that can write it. -/
structure Quoted where
  bytes : Bytes
  noNul : 0 ∉ bytes
  style : Style
  allowed : style = .single → singleQuote ∉ bytes

/-- One byte in double quotes. -/
def doubleSource (c : UInt8) : Bytes :=
  if c = doubleQuote ∨ c = backslash then [backslash, c] else [c]

def Quoted.source (text : Quoted) : Bytes :=
  match text.style with
  | .escaped =>
    if text.bytes = [] then [singleQuote, singleQuote]
    else text.bytes.flatMap fun c => [backslash, c]
  | .double => doubleQuote :: (text.bytes.flatMap doubleSource ++ [doubleQuote])
  | .single => singleQuote :: (text.bytes ++ [singleQuote])

structure Command where
  args : List Quoted
  nonempty : args ≠ []
  input : Option Quoted
  output : Option (Quoted × Bool)

structure Script where
  first : Command
  more : List Command
  background : Bool
  inputFirst : ∀ cmd ∈ more, cmd.input = none
  outputLast : ∀ cmd ∈ (first :: more).dropLast, cmd.output = none

def outputOperator (append : Bool) : Bytes := if append then [greater, greater] else [greater]

def Command.lexemes (cmd : Command) : List Bytes :=
  cmd.args.map Quoted.source ++
    (cmd.input.toList.flatMap fun path => [[less], path.source]) ++
    cmd.output.toList.flatMap fun (path, append) => [outputOperator append, path.source]

def Script.lexemes (script : Script) : List Bytes :=
  script.first.lexemes ++ (script.more.flatMap fun cmd => [bar] :: cmd.lexemes) ++
    if script.background then [[ampersand]] else []

def space : UInt8 := 32

def Script.bytes (script : Script) : Bytes := List.intercalate [space] script.lexemes

/-- The command the script asks for. -/
def Command.shellCommand (cmd : Command) : ShellCommand where
  argv := cmd.args.map (fun text => some text.bytes) ++ [none]
  argc := cmd.args.length
  inputPath := cmd.input.map Quoted.bytes
  outputPath := cmd.output.map fun (path, _) => path.bytes
  appendOutput := cmd.output.any Prod.snd

/-! ## A quoted string is one word -/

/-- The bytes and the token they are read as, wherever the next byte ends it. -/
inductive Written : Bytes → Token → Prop where
  | operator (source : Bytes) (token : Token) (written : token.operator = some source) :
      Written source token
  | word (pieces : List Piece) (nonempty : pieces ≠ []) :
      Written (pieces.flatMap Piece.source) (.word (pieces.flatMap Piece.text))

def doubleByte (c : UInt8) : DoubleByte :=
  if special : c = doubleQuote ∨ c = backslash then .escaped c else .plain c (not_or.mp special)

theorem doubleByte_source (c : UInt8) : (doubleByte c).source = doubleSource c := by
  unfold doubleByte doubleSource
  split <;> rfl

theorem doubleByte_text (c : UInt8) : (doubleByte c).text = c := by
  unfold doubleByte
  split <;> rfl

theorem Written.quoted (text : Quoted) : Written text.source (.word text.bytes) := by
  obtain ⟨bytes, noNul, style, allowed⟩ := text
  cases style with
  | escaped =>
    by_cases empty : bytes = []
    · subst empty
      exact .word [.single [] List.not_mem_nil] (List.cons_ne_nil _ _)
    · have word := Written.word (bytes.map Piece.escaped) (by simpa using empty)
      simpa [Quoted.source, empty, List.flatMap_map, Piece.source, Piece.text] using word
  | double =>
    have word := Written.word [.double (bytes.map doubleByte)] (List.cons_ne_nil _ _)
    simpa [Quoted.source, List.flatMap_map, Piece.source, Piece.text, doubleByte_source,
      doubleByte_text, Function.comp_def] using word
  | single =>
    have word := Written.word [.single bytes (allowed rfl)] (List.cons_ne_nil _ _)
    simpa [Quoted.source, Piece.source, Piece.text] using word

/-- Lexemes with a space before each of them. -/
def spaced (lexemes : List Bytes) : Bytes := lexemes.flatMap (space :: ·)

theorem spaced_head (lexemes : List Bytes) : (spaced lexemes).head? = none ∨
    (spaced lexemes).head? = some space := by
  cases lexemes with
  | nil => exact Or.inl rfl
  | cons lexeme lexemes => exact Or.inr rfl

/-- A lexeme after blanks, with a space or the end behind it. -/
theorem Written.lexes {source : Bytes} {token : Token} {tokens : List Token}
    (written : Written source token) (gap : Bytes) (spaces : ∀ c ∈ gap, isspace c = true)
    (lexemes : List Bytes) (tail : Lexes (spaced lexemes) tokens) :
    Lexes (gap ++ source ++ spaced lexemes) (token :: tokens) := by
  have head := spaced_head lexemes
  cases written with
  | operator _ _ written =>
    refine .operator gap source _ token tokens spaces written (fun _ same => ?_) tail
    rw [same] at head
    revert head
    decide
  | word pieces nonempty =>
    refine .word gap _ pieces tokens spaces nonempty (fun c mem => ?_) tail
    obtain nothing | blank := head
    · simp [nothing] at mem
    · obtain rfl : space = c := by simpa [blank] using mem
      decide

theorem space_blank : ∀ c ∈ [space], isspace c = true := by
  intro c mem
  obtain rfl := List.mem_singleton.mp mem
  rfl

theorem lexes_spaced {lexemes : List Bytes} {tokens : List Token}
    (written : List.Forall₂ Written lexemes tokens) : Lexes (spaced lexemes) tokens := by
  induction written with
  | nil => exact .blank [] (by simp)
  | @cons source token lexemes tokens head tail ih =>
    exact head.lexes [space] space_blank lexemes ih

theorem intercalate_spaced (source : Bytes) (lexemes : List Bytes) :
    List.intercalate [space] (source :: lexemes) = source ++ spaced lexemes := by
  induction lexemes generalizing source with
  | nil => simp [spaced]
  | cons next lexemes ih =>
    rw [List.intercalate_cons_cons, ih, spaced, spaced, List.flatMap_cons, List.append_assoc]
    rfl

theorem lexes_intercalate {lexemes : List Bytes} {tokens : List Token}
    (written : List.Forall₂ Written lexemes tokens) :
    Lexes (List.intercalate [space] lexemes) tokens := by
  cases written with
  | nil => exact .blank [] (by simp)
  | @cons source token lexemes tokens head tail =>
    rw [intercalate_spaced]
    exact head.lexes [] (by simp) lexemes (lexes_spaced tail)

/-! ## The rendered line has no NUL -/

theorem Quoted.source_noNul (text : Quoted) : 0 ∉ text.source := by
  obtain ⟨bytes, noNul, style, allowed⟩ := text
  have nonzero : (0 : UInt8) ≠ backslash ∧ (0 : UInt8) ≠ doubleQuote ∧ (0 : UInt8) ≠ singleQuote := by
    decide
  cases style with
  | escaped =>
    unfold Quoted.source
    dsimp only
    split
    · decide
    · simp [nonzero.1, noNul]
  | double =>
    have inside : ∀ c ∈ bytes, (0 : UInt8) ∉ doubleSource c := by
      intro c mem zero
      have other : (0 : UInt8) ≠ c := fun same => noNul (same ▸ mem)
      unfold doubleSource at zero
      split at zero <;> simp [nonzero.1, other] at zero
    simpa [Quoted.source, nonzero.2.1] using inside
  | single => simp [Quoted.source, nonzero.2.2, noNul]

theorem Command.lexemes_noNul (cmd : Command) : ∀ lexeme ∈ cmd.lexemes, 0 ∉ lexeme := by
  intro lexeme mem
  simp only [Command.lexemes, List.mem_append, List.mem_map, List.mem_flatMap, Option.mem_toList,
    List.mem_cons, List.not_mem_nil, or_false] at mem
  obtain (⟨text, -, rfl⟩ | ⟨path, -, rfl | rfl⟩) | ⟨⟨path, append⟩, -, rfl | rfl⟩ := mem
  · exact text.source_noNul
  · decide
  · exact path.source_noNul
  · dsimp only
    cases append <;> decide
  · exact path.source_noNul

theorem Script.lexemes_noNul (script : Script) : ∀ lexeme ∈ script.lexemes, 0 ∉ lexeme := by
  intro lexeme mem
  simp only [Script.lexemes, List.mem_append, List.mem_flatMap, List.mem_cons] at mem
  obtain (first | ⟨cmd, -, rfl | later⟩) | last := mem
  · exact script.first.lexemes_noNul lexeme first
  · decide
  · exact cmd.lexemes_noNul lexeme later
  · split at last
    · obtain rfl := List.mem_singleton.mp last
      decide
    · exact absurd last List.not_mem_nil

theorem Script.bytes_noNul (script : Script) : 0 ∉ script.bytes := by
  intro zero
  cases lexemes : script.lexemes with
  | nil => simp [Script.bytes, lexemes] at zero
  | cons lexeme rest =>
    have clean := script.lexemes_noNul
    rw [Script.bytes, lexemes, intercalate_spaced] at zero
    rw [lexemes] at clean
    obtain inFirst | inRest := List.mem_append.mp zero
    · exact clean lexeme List.mem_cons_self inFirst
    · obtain ⟨next, mem, inNext⟩ := List.mem_flatMap.mp inRest
      obtain ⟨⟩ | ⟨_, inNext⟩ := inNext
      exact clean next (List.mem_cons_of_mem _ mem) inNext

/-- The line a script is written as. -/
def render (script : Script) : CString := ⟨script.bytes, script.bytes_noNul⟩

/-! ## The sentence of a script -/

def Command.items (cmd : Command) : Stage :=
  cmd.args.map (fun text => Item.word text.bytes) ++
    cmd.input.toList.map (fun path => Item.input path.bytes) ++
    cmd.output.toList.map fun (path, append) => Item.output path.bytes append

theorem Command.parts (cmd : Command) :
    words cmd.items = cmd.args.map Quoted.bytes ∧
      inputs cmd.items = cmd.input.toList.map Quoted.bytes ∧
      outputs cmd.items = cmd.output.toList.map fun (path, append) => (path.bytes, append) := by
  obtain ⟨args, nonempty, input, output⟩ := cmd
  have onlyWords : words (args.map fun text => .word text.bytes) = args.map Quoted.bytes ∧
      inputs (args.map fun text => .word text.bytes) = [] ∧
      outputs (args.map fun text => .word text.bytes) = [] := by
    refine ⟨?_, ?_, ?_⟩ <;> simp [words, inputs, outputs, Item.word?, Item.input?, Item.output?,
      List.filterMap_map, Function.comp_def]
  unfold Command.items
  rw [words_append, words_append, inputs_append, inputs_append, outputs_append, outputs_append,
    onlyWords.1, onlyWords.2.1, onlyWords.2.2]
  cases input <;> cases output <;>
    simp [words, inputs, outputs, Item.word?, Item.input?, Item.output?]

theorem Command.command_items (cmd : Command) : command cmd.items = cmd.shellCommand := by
  obtain ⟨sameWords, sameInputs, sameOutputs⟩ := cmd.parts
  have nonempty := cmd.nonempty
  unfold command Command.shellCommand
  rw [sameWords, sameInputs, sameOutputs, arguments, if_neg (by simpa using nonempty)]
  cases cmd.input <;> cases cmd.output <;> simp

def Script.sentence (script : Script) : Sentence where
  first := script.first.items
  more := script.more.map Command.items
  background := script.background
  single := by
    rw [← List.map_cons]
    intro stage mem
    obtain ⟨cmd, -, rfl⟩ := List.mem_map.mp mem
    obtain ⟨-, sameInputs, sameOutputs⟩ := cmd.parts
    rw [Single, sameInputs, sameOutputs]
    cases cmd.input <;> cases cmd.output <;> simp
  hasWord := by
    rw [← List.map_cons]
    intro stage mem
    obtain ⟨cmd, -, rfl⟩ := List.mem_map.mp mem
    rw [cmd.parts.1]
    simpa using cmd.nonempty
  inputFirst := by
    intro stage mem
    obtain ⟨cmd, inside, rfl⟩ := List.mem_map.mp mem
    rw [cmd.parts.2.1, script.inputFirst cmd inside]
    rfl
  outputLast := by
    rw [← List.map_cons, ← List.map_dropLast]
    intro stage mem
    obtain ⟨cmd, inside, rfl⟩ := List.mem_map.mp mem
    rw [cmd.parts.2.2, script.outputLast cmd inside]
    rfl

/-- The lexemes of a command, one by one its tokens. -/
theorem Command.written (cmd : Command) :
    List.Forall₂ Written cmd.lexemes (stageTokens cmd.items) := by
  unfold Command.lexemes stageTokens Command.items
  rw [List.flatMap_append, List.flatMap_append]
  refine List.rel_append (List.rel_append ?_ ?_) ?_
  · induction cmd.args with
    | nil => exact .nil
    | cons text args ih => exact .cons (.quoted text) ih
  · cases cmd.input with
    | none => exact .nil
    | some path => exact .cons (.operator _ .input rfl) (.cons (.quoted path) .nil)
  · cases cmd.output with
    | none => exact .nil
    | some output =>
      obtain ⟨path, append⟩ := output
      cases append with
      | false => exact .cons (.operator _ .output rfl) (.cons (.quoted path) .nil)
      | true => exact .cons (.operator _ .append rfl) (.cons (.quoted path) .nil)

theorem Script.written (script : Script) :
    List.Forall₂ Written script.lexemes script.sentence.tokens := by
  change List.Forall₂ Written script.lexemes
    (joinTokens script.first.items (script.more.map Command.items) script.background)
  unfold Script.lexemes joinTokens
  refine List.rel_append (List.rel_append script.first.written ?_) ?_
  · induction script.more with
    | nil => exact .nil
    | cons cmd more ih =>
      rw [List.map_cons, List.flatMap_cons, List.flatMap_cons]
      exact List.rel_append (.cons (.operator _ .pipe rfl) cmd.written) ih
  · cases script.background with
    | false => exact .nil
    | true => exact .cons (.operator _ .background rfl) .nil

/-- A script that is written down is parsed back. -/
theorem shell_parse_line_render (script : Script) (before : ShellPipeline) :
    shellParseLine (some (render script)) (some before) =
      (.ok (), some
        { commands := (script.first :: script.more).map Command.shellCommand
          background := script.background
          source := some (render script).bytes }) := by
  rw [parse_line_success]
  refine ⟨script.sentence.tokens, lexes_intercalate script.written, Or.inr ⟨script.sentence, rfl, ?_⟩⟩
  simp [Sentence.pipeline, Script.sentence, Command.command_items, Function.comp_def]

end EmbeddedRuntime.Shell.Render
