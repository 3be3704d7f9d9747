import EmbeddedRuntime.Shell.Tokens

/-!
# `shell_parse_line` of `shell/parser.c`

The token loop and the checks after it.  Every way to fail frees the pipeline,
which leaves it all zero.
-/

set_option autoImplicit false

namespace EmbeddedRuntime.Shell.Parser

open EmbeddedRuntime.Shell.Tokens

/-- The entries of `argv` are pointers: `none` is NULL. -/
structure ShellCommand where
  argv : List (Option Bytes) := []
  argc : Nat := 0
  inputPath : Option Bytes := none
  outputPath : Option Bytes := none
  appendOutput : Bool := false
  deriving DecidableEq, Repr

structure ShellPipeline where
  commands : List ShellCommand := []
  background : Bool := false
  source : Option Bytes := none
  deriving DecidableEq, Repr

def commandAddArg (cmd : ShellCommand) (arg : Bytes) : ShellCommand :=
  { cmd with
    argv := cmd.argv.take cmd.argc ++ [some arg, none]
    argc := cmd.argc + 1 }

/-- The loop over the tokens.  `commands` are the finished stages, `cmd` the one
being built; `i + 1 == tokens.count` holds when no token is left. -/
def parseTokens (commands : List ShellCommand) (cmd : ShellCommand) (background : Bool) :
    List Token → Except ParseError (List ShellCommand × Bool)
  | [] => .ok (commands ++ [cmd], background)
  | .word text :: rest => parseTokens commands (commandAddArg cmd text) background rest
  | .pipe :: rest =>
    if cmd.argc = 0 then .error .emptyBeforePipe
    else if rest = [] then .error .pipeAtEnd
    else parseTokens (commands ++ [cmd]) {} background rest
  | .background :: rest =>
    if rest ≠ [] then .error .backgroundInside
    else parseTokens commands cmd true rest
  | .input :: .word path :: rest =>
    if cmd.inputPath.isSome then .error .multipleInputs
    else parseTokens commands { cmd with inputPath := some path } background rest
  | .output :: .word path :: rest =>
    if cmd.outputPath.isSome then .error .multipleOutputs
    else parseTokens commands { cmd with outputPath := some path, appendOutput := false }
      background rest
  | .append :: .word path :: rest =>
    if cmd.outputPath.isSome then .error .multipleOutputs
    else parseTokens commands { cmd with outputPath := some path, appendOutput := true }
      background rest
  | .input :: _ | .output :: _ | .append :: _ => .error .redirectionWithoutPath

/-- The loop over the stages from number `i` on. -/
def checkStages (i : Nat) : List ShellCommand → Except ParseError Unit
  | [] => .ok ()
  | cmd :: rest =>
    if cmd.argc = 0 then .error .emptyCommand
    else if i > 0 ∧ cmd.inputPath.isSome then .error .inputNotFirst
    else if rest ≠ [] ∧ cmd.outputPath.isSome then .error .outputNotLast
    else checkStages (i + 1) rest

/-- What `shell_parse_line` makes of the tokens of a nonempty line. -/
def parseStages (tokens : List Token) : Except ParseError (List ShellCommand × Bool) := do
  let (commands, background) ← parseTokens [] {} false tokens
  checkStages 0 commands
  return (commands, background)

/-- What `shell_pipeline_free` leaves behind. -/
def zeroPipeline : ShellPipeline := {}

/-- The returned status and the pipeline the caller passed; `none` is a NULL
argument. -/
def shellParseLine (line : Option CString) (pipeline : Option ShellPipeline) :
    Except ParseError Unit × Option ShellPipeline :=
  match line, pipeline with
  | some line, some _ =>
    match tokenize line.bytes with
    | .error error => (.error error, some zeroPipeline)
    | .ok [] => (.ok (), some { source := some line.bytes })
    | .ok tokens =>
      match parseStages tokens with
      | .error error => (.error error, some zeroPipeline)
      | .ok (commands, background) =>
        (.ok (), some { commands, background, source := some line.bytes })
  | _, pipeline => (.error .invalidArguments, pipeline)

end EmbeddedRuntime.Shell.Parser
