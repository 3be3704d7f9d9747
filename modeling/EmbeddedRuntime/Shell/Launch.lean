import EmbeddedRuntime.Lib.Descriptors
import EmbeddedRuntime.Shell.Parser

/-!
# The processes of a pipeline, `execute_external_pipeline` of `shell/shell.c`

The shell opens all pipes, forks one child a stage and closes the pipes; each
child takes its ends of the pipes and closes them too.  What a system call does
beyond the descriptor tables is given by a `Kernel`.  Process groups and the
terminal are left out, and so are allocations, which succeed.
-/

set_option autoImplicit false

namespace EmbeddedRuntime.Shell.Launch

open EmbeddedRuntime.Lib.Descriptors
open EmbeddedRuntime.Shell.Parser
open EmbeddedRuntime.Shell.Tokens

/-- The flags of `redirect_file`. -/
inductive OpenMode where
  | read
  | truncate
  | append
  deriving DecidableEq, Repr

/-- An open description: one the shell had, an end of a pipe of this pipeline,
or a file that a child has opened. -/
inductive Description where
  | inherited (number : Nat)
  | readEnd (pipe : Nat)
  | writeEnd (pipe : Nat)
  | opened (path : Bytes) (mode : OpenMode)
  deriving DecidableEq, Repr

def Description.isPipe : Description → Bool
  | .readEnd _ | .writeEnd _ => true
  | .inherited _ | .opened _ _ => false

/-- Which calls succeed; pipes, forks and stages are numbered from 0. -/
structure Kernel where
  pipe : Nat → Bool
  fork : Nat → Bool
  setpgid : Nat → Bool
  opens : Nat → Bytes → OpenMode → Bool
  /-- `execvp`, or else `errno == ENOENT`. -/
  exec : Nat → Except Bool Unit

abbrev Fds := Table Description

def stdinFileno : Nat := 0
def stdoutFileno : Nat := 1
def stderrFileno : Nat := 2

/-! ## In the child -/

/-- `redirect_file`. -/
def redirectFile (opens : Bytes → OpenMode → Bool) (table : Fds) (path : Bytes)
    (targetFd : Nat) (mode : OpenMode) : Option Fds :=
  if opens path mode then
    let (fd, table) := install table (.opened path mode)
    (dup2 table fd targetFd).map fun table => close table fd
  else none

/-- A descriptor argument that replaces a standard one. -/
def redirectFd (table : Fds) (fd : Int) (standard : Nat) : Option Fds :=
  if fd ≥ 0 ∧ fd ≠ standard then dup2 table fd.toNat standard else some table

/-- The path of a redirection, if the stage has one. -/
def redirectPath (opens : Bytes → OpenMode → Bool) (table : Fds) (path : Option Bytes)
    (targetFd : Nat) (mode : OpenMode) : Option Fds :=
  match path with
  | some path => redirectFile opens table path targetFd mode
  | none => some table

def outputMode (cmd : ShellCommand) : OpenMode :=
  if cmd.appendOutput then .append else .truncate

/-- The standard input of a stage behind another one. -/
def takeInput (pipes : List (Nat × Nat)) (index : Nat) (table : Fds) : Option Fds :=
  if index > 0 then dup2 table (pipes.getD (index - 1) (0, 0)).1 stdinFileno else some table

/-- The standard output of a stage, `count` being the number of stages. -/
def takeOutput (count : Nat) (pipes : List (Nat × Nat)) (index : Nat) (outFd : Int)
    (table : Fds) : Option Fds :=
  if index + 1 < count then dup2 table (pipes.getD index (0, 0)).2 stdoutFileno
  else redirectFd table outFd stdoutFileno

/-- `setup_command_fds`; `none` when it returns -1. -/
def setupCommandFds (opens : Bytes → OpenMode → Bool) (commands : List ShellCommand)
    (cmd : ShellCommand) (index : Nat) (pipes : List (Nat × Nat)) (outFd errFd : Int)
    (table : Fds) : Option Fds := do
  let table ← takeInput pipes index table
  let table ← takeOutput commands.length pipes index outFd table
  let table ← redirectFd table errFd stderrFileno
  let table ← redirectPath opens table cmd.inputPath stdinFileno .read
  redirectPath opens table cmd.outputPath stdoutFileno (outputMode cmd)

/-- `close_all_pipes`; no entry is negative. -/
def closeAllPipes (table : Fds) (pipes : List (Nat × Nat)) : Fds :=
  (pipes.flatMap fun (readFd, writeFd) => [readFd, writeFd]).foldl close table

/-- A child runs the program of its stage with these descriptors, or exits. -/
inductive Child where
  | execs (table : Fds)
  | exits (code : Nat)
  deriving DecidableEq, Repr

/-- The branch of the child, on the table it has from the fork. -/
def childRun (kernel : Kernel) (commands : List ShellCommand) (cmd : ShellCommand) (index : Nat)
    (pipes : List (Nat × Nat)) (outFd errFd : Int) (table : Fds) : Child :=
  if kernel.setpgid index = false then .exits 126
  else
    match setupCommandFds (kernel.opens index) commands cmd index pipes outFd errFd table with
    | none => .exits 126
    | some table =>
        match kernel.exec index with
        | .ok _ => .execs (closeAllPipes table pipes)
        | .error missing => .exits (if missing then 127 else 126)

/-! ## In the shell -/

/-- The loop over the pipes: the pipes open so far, or the table the shell is
left with when a call fails. -/
def openPipes (kernel : Kernel) (table : Fds) (pipes : List (Nat × Nat)) :
    Nat → Except Fds (Fds × List (Nat × Nat))
  | 0 => .ok (table, pipes)
  | remaining + 1 =>
      if kernel.pipe pipes.length then
        let (readFd, table) := install table (.readEnd pipes.length)
        let (writeFd, table) := install table (.writeEnd pipes.length)
        openPipes kernel table (pipes ++ [(readFd, writeFd)]) remaining
      else .error (closeAllPipes table pipes)

/-- The loop over the stages from number `index` on; the flag tells whether all
were forked. -/
def forkStages (kernel : Kernel) (commands : List ShellCommand) (pipes : List (Nat × Nat))
    (outFd errFd : Int) (table : Fds) (index : Nat) : List ShellCommand → Bool × List Child
  | [] => (true, [])
  | cmd :: rest =>
      if kernel.fork index then
        let (all, children) := forkStages kernel commands pipes outFd errFd table (index + 1) rest
        (all, childRun kernel commands cmd index pipes outFd errFd table :: children)
      else (false, [])

/-- How the shell comes out of starting a pipeline, and its own descriptors. -/
inductive Launched where
  /-- A `pipe` failed; nothing was started. -/
  | noPipe (table : Fds)
  /-- A `fork` failed; the children so far were sent SIGTERM and waited for. -/
  | noFork (table : Fds) (ended : List Child)
  | running (table : Fds) (children : List Child)
  deriving DecidableEq, Repr

def Launched.table : Launched → Fds
  | .noPipe table => table
  | .noFork table _ => table
  | .running table _ => table

def Launched.children : Launched → List Child
  | .noPipe _ => []
  | .noFork _ ended => ended
  | .running _ children => children

/-- `execute_external_pipeline` until it waits for the children. -/
def executeExternalPipeline (kernel : Kernel) (commands : List ShellCommand) (outFd errFd : Int)
    (table : Fds) : Launched :=
  match openPipes kernel table [] (commands.length - 1) with
  | .error table => .noPipe table
  | .ok (table, pipes) =>
      match forkStages kernel commands pipes outFd errFd table 0 commands with
      | (true, children) => .running (closeAllPipes table pipes) children
      | (false, children) => .noFork (closeAllPipes table pipes) children

end EmbeddedRuntime.Shell.Launch
