import EmbeddedRuntime.Shell.Grammar
import EmbeddedRuntime.Shell.Launch

/-!
# The descriptors of a pipeline

Whatever fails, the shell ends with the table it began with.  The program of a
stage has its ends of the neighbouring pipes, its redirections and the shell's
other descriptors, and nothing else; so each end of a pipe is held by one
process, and a reader sees the end of file once its writer is gone.
-/

set_option autoImplicit false

namespace EmbeddedRuntime.Shell.Plumbing

open EmbeddedRuntime.Lib.Descriptors
open EmbeddedRuntime.Shell.Grammar
open EmbeddedRuntime.Shell.Launch
open EmbeddedRuntime.Shell.Parser
open EmbeddedRuntime.Shell.Tokens

/-! ## What each process is to have -/

/-- The standard descriptors are open, and nothing refers to a pipe of the
pipeline before it is started. -/
structure Ready (table : Fds) : Prop where
  standard : ∀ fd < 3, lookup table fd ≠ none
  noPipes : ∀ fd description, lookup table fd = some description → description.isPipe = false

/-- A descriptor argument that leaves the standard one, or is open beside the
standard ones. -/
def Usable (table : Fds) (fd : Int) (standard : Nat) : Prop :=
  fd < 0 ∨ fd = standard ∨ 3 ≤ fd ∧ lookup table fd.toNat ≠ none

/-- What a standard descriptor refers to after `redirectFd`. -/
def redirected (table : Fds) (fd : Int) (standard : Nat) : Option Description :=
  if fd ≥ 0 ∧ fd ≠ standard then lookup table fd.toNat else lookup table standard

/-- The standard input before redirections. -/
def pipedIn (before : Fds) (index : Nat) : Option Description :=
  if index > 0 then some (.readEnd (index - 1)) else lookup before stdinFileno

/-- The standard output before redirections. -/
def pipedOut (commands : List ShellCommand) (before : Fds) (outFd : Int) (index : Nat) :
    Option Description :=
  if index + 1 < commands.length then some (.writeEnd index)
  else redirected before outFd stdoutFileno

/-- What a redirection to a path makes of a standard descriptor. -/
def pathFd (path : Option Bytes) (mode : OpenMode) (otherwise : Option Description) :
    Option Description :=
  match path with
  | some path => some (.opened path mode)
  | none => otherwise

/-- What a number refers to in the program of a stage. -/
def stageFd (commands : List ShellCommand) (cmd : ShellCommand) (index : Nat) (outFd errFd : Int)
    (before : Fds) (fd : Nat) : Option Description :=
  if fd = stdinFileno then pathFd cmd.inputPath .read (pipedIn before index)
  else if fd = stdoutFileno then
    pathFd cmd.outputPath (outputMode cmd) (pipedOut commands before outFd index)
  else if fd = stderrFileno then redirected before errFd stderrFileno
  else lookup before fd

def canOpen (opens : Bytes → OpenMode → Bool) (path : Option Bytes) (mode : OpenMode) : Bool :=
  match path with
  | some path => opens path mode
  | none => true

/-- The code a stage exits with without running its program. -/
def failure (kernel : Kernel) (cmd : ShellCommand) (index : Nat) : Option Nat :=
  if kernel.setpgid index = false then some 126
  else if canOpen (kernel.opens index) cmd.inputPath .read = false ∨
      canOpen (kernel.opens index) cmd.outputPath (outputMode cmd) = false then some 126
  else
    match kernel.exec index with
    | .ok _ => none
    | .error missing => some (if missing then 127 else 126)

/-- A stage has ended as its failure says, or runs with its own descriptors. -/
def IsStage (kernel : Kernel) (commands : List ShellCommand) (cmd : ShellCommand) (index : Nat)
    (outFd errFd : Int) (table : Fds) (child : Child) : Prop :=
  match failure kernel cmd index with
  | some code => child = .exits code
  | none => ∃ own, child = .execs own ∧
      ∀ fd, lookup own fd = stageFd commands cmd index outFd errFd table fd

/-! ## The pipes -/

/-- The shell's table while pipes are open: each end is where `pipes` says, in a
number that was free, and every other number is as it was. -/
structure Piped (before table : Fds) (pipes : List (Nat × Nat)) : Prop where
  readEnd : ∀ index fds, pipes[index]? = some fds → lookup table fds.1 = some (.readEnd index)
  writeEnd : ∀ index fds, pipes[index]? = some fds → lookup table fds.2 = some (.writeEnd index)
  free : ∀ fds ∈ pipes, lookup before fds.1 = none ∧ lookup before fds.2 = none
  others : ∀ fd, (∀ fds ∈ pipes, fd ≠ fds.1 ∧ fd ≠ fds.2) → lookup table fd = lookup before fd

/-- A place in a list with one more entry is an old one or the last. -/
theorem getElem?_concat {entries : List (Nat × Nat)} {last fds : Nat × Nat} {index : Nat}
    (found : (entries ++ [last])[index]? = some fds) :
    entries[index]? = some fds ∨ index = entries.length ∧ fds = last := by
  rcases Nat.lt_or_ge index entries.length with inside | beyond
  · rw [List.getElem?_append_left inside] at found
    exact Or.inl found
  · rw [List.getElem?_append_right beyond, List.getElem?_singleton] at found
    split_ifs at found with here
    exact Or.inr ⟨by omega, (Option.some.inj found).symm⟩

theorem piped_nil (table : Fds) : Piped table table [] :=
  ⟨by simp, by simp, by simp, fun _ _ => rfl⟩

/-- The numbers of the pipes, as `close_all_pipes` goes through them. -/
theorem mem_pipeFds (pipes : List (Nat × Nat)) (fd : Nat) :
    fd ∈ (pipes.flatMap fun (readFd, writeFd) => [readFd, writeFd]) ↔
      ∃ fds ∈ pipes, fd = fds.1 ∨ fd = fds.2 := by
  simp [List.mem_flatMap]

theorem Piped.used {before table : Fds} {pipes : List (Nat × Nat)}
    (piped : Piped before table pipes) {fds : Nat × Nat} (here : fds ∈ pipes) :
    lookup table fds.1 ≠ none ∧ lookup table fds.2 ≠ none := by
  obtain ⟨index, found⟩ := List.mem_iff_getElem?.mp here
  constructor
  · rw [piped.readEnd index fds found]
    exact Option.some_ne_none _
  · rw [piped.writeEnd index fds found]
    exact Option.some_ne_none _

/-- A free number is none of a pipe's, so it was free before. -/
theorem Piped.free_before {before table : Fds} {pipes : List (Nat × Nat)}
    (piped : Piped before table pipes) {fd : Nat} (free : lookup table fd = none) :
    lookup before fd = none := by
  rw [← piped.others fd, free]
  intro fds here
  constructor
  · rintro rfl
    exact (piped.used here).1 free
  · rintro rfl
    exact (piped.used here).2 free

/-- One more pipe. -/
theorem Piped.open {before table first second : Fds} {pipes : List (Nat × Nat)}
    {readFd writeFd : Nat} (piped : Piped before table pipes)
    (openRead : install table (.readEnd pipes.length) = (readFd, first))
    (openWrite : install first (.writeEnd pipes.length) = (writeFd, second)) :
    Piped before second (pipes ++ [(readFd, writeFd)]) := by
  have firstFd := lookup_install table (.readEnd pipes.length)
  have secondFd := lookup_install first (.writeEnd pipes.length)
  have readFree := lookup_lowest table
  have writeFreeFirst := lookup_lowest first
  rw [show lowest table = readFd from congrArg Prod.fst openRead] at readFree
  rw [show lowest first = writeFd from congrArg Prod.fst openWrite] at writeFreeFirst
  rw [openRead] at firstFd
  rw [openWrite] at secondFd
  simp only at firstFd secondFd
  have apart : writeFd ≠ readFd := by
    rintro rfl
    rw [firstFd, if_pos rfl] at writeFreeFirst
    cases writeFreeFirst
  have writeFree : lookup table writeFd = none := by
    rw [firstFd, if_neg apart] at writeFreeFirst
    exact writeFreeFirst
  have kept : ∀ fd, lookup table fd ≠ none → lookup second fd = lookup table fd := by
    intro fd used
    rw [secondFd, if_neg (by rintro rfl; exact used writeFree), firstFd,
      if_neg (by rintro rfl; exact used readFree)]
  have newRead : lookup second readFd = some (.readEnd pipes.length) := by
    rw [secondFd, if_neg apart.symm, firstFd, if_pos rfl]
  have newWrite : lookup second writeFd = some (.writeEnd pipes.length) := by
    rw [secondFd, if_pos rfl]
  refine ⟨fun index fds found => ?_, fun index fds found => ?_, fun fds here => ?_, fun fd off => ?_⟩
  · rcases getElem?_concat found with old | ⟨rfl, rfl⟩
    · rw [kept _ (piped.used (List.mem_of_getElem? old)).1, piped.readEnd index fds old]
    · exact newRead
  · rcases getElem?_concat found with old | ⟨rfl, rfl⟩
    · rw [kept _ (piped.used (List.mem_of_getElem? old)).2, piped.writeEnd index fds old]
    · exact newWrite
  · rcases List.mem_append.mp here with old | new
    · exact piped.free fds old
    · cases List.mem_singleton.mp new
      exact ⟨piped.free_before readFree, piped.free_before writeFree⟩
  · have newFds := off (readFd, writeFd) (by simp)
    rw [secondFd, if_neg newFds.2, firstFd, if_neg newFds.1]
    exact piped.others fd fun fds here => off fds (List.mem_append_left _ here)

/-- Closing the pipes brings back the table from before them. -/
theorem Piped.close {before table : Fds} {pipes : List (Nat × Nat)}
    (piped : Piped before table pipes) (fd : Nat) :
    lookup (closeAllPipes table pipes) fd = lookup before fd := by
  unfold closeAllPipes
  rw [lookup_closeAll]
  split_ifs with inPipes
  · obtain ⟨fds, here, same | same⟩ := (mem_pipeFds pipes fd).mp inPipes
    · rw [same, (piped.free fds here).1]
    · rw [same, (piped.free fds here).2]
  · refine piped.others fd fun fds here => ⟨fun same => inPipes ?_, fun same => inPipes ?_⟩
    · exact (mem_pipeFds pipes fd).mpr ⟨fds, here, Or.inl same⟩
    · exact (mem_pipeFds pipes fd).mpr ⟨fds, here, Or.inr same⟩

/-- The loop over the pipes opens all of them, or leaves none open. -/
theorem openPipes_piped (kernel : Kernel) (before table : Fds) (pipes : List (Nat × Nat))
    (remaining : Nat) (piped : Piped before table pipes) :
    match openPipes kernel table pipes remaining with
    | .error left => ∀ fd, lookup left fd = lookup before fd
    | .ok (left, all) => Piped before left all ∧ all.length = pipes.length + remaining := by
  induction remaining generalizing table pipes with
  | zero => exact ⟨piped, rfl⟩
  | succ remaining ih =>
      unfold openPipes
      split_ifs with succeeds
      · generalize openRead : install table (Description.readEnd pipes.length) = opened
        obtain ⟨readFd, first⟩ := opened
        dsimp only
        generalize openWrite : install first (Description.writeEnd pipes.length) = opened
        obtain ⟨writeFd, second⟩ := opened
        have more := ih second (pipes ++ [(readFd, writeFd)]) (piped.open openRead openWrite)
        dsimp only
        rw [List.length_append, List.length_singleton, Nat.add_assoc, Nat.add_comm 1] at more
        exact more
      · exact fun fd => piped.close fd

/-! ## The descriptors of a child -/

/-- The standard descriptors are in use. -/
def Standard (table : Fds) : Prop := ∀ fd < 3, lookup table fd ≠ none

/-- `table` is `before` with one number referring to something else. -/
def Differs (before table : Fds) (fd : Nat) (description : Option Description) : Prop :=
  ∀ other, lookup table other = if other = fd then description else lookup before other

theorem Differs.standard {before table : Fds} {fd : Nat} {description : Description}
    (differs : Differs before table fd (some description)) (standard : Standard before) :
    Standard table := by
  intro other low
  rw [differs other]
  split_ifs
  · exact Option.some_ne_none _
  · exact standard other low

/-- The file takes the place of a standard descriptor and leaves no other. -/
theorem redirectFile_differs {opens : Bytes → OpenMode → Bool} {table : Fds}
    (standard : Standard table) (path : Bytes) {targetFd : Nat} (low : targetFd < 3)
    (mode : OpenMode) :
    if opens path mode then
      ∃ after, redirectFile opens table path targetFd mode = some after ∧
        Differs table after targetFd (some (.opened path mode))
    else redirectFile opens table path targetFd mode = none := by
  unfold redirectFile
  split_ifs with succeeds
  · have opened := lookup_install table (Description.opened path mode)
    have free := lookup_lowest table
    have apart : targetFd ≠ lowest table := (lowest_ne (standard targetFd low)).symm
    generalize installed : install table (Description.opened path mode) = result at opened
    obtain ⟨fd, first⟩ := result
    rw [show lowest table = fd from congrArg Prod.fst installed] at free apart
    simp only at opened
    have here : lookup first fd = some (.opened path mode) := by rw [opened, if_pos rfl]
    obtain ⟨second, duplicated⟩ := dup2_isSome targetFd (by rw [here]; exact Option.some_ne_none _)
    have moved := dup2_some duplicated
    refine ⟨close second fd, by simp only [duplicated, Option.map_some], fun other => ?_⟩
    rw [lookup_close, moved, here, opened]
    by_cases isTarget : other = targetFd
    · rw [if_neg (by rw [isTarget]; exact apart), if_pos isTarget, if_pos isTarget]
    · by_cases isFile : other = fd
      · rw [if_pos isFile, if_neg isTarget, isFile, free]
      · rw [if_neg isFile, if_neg isTarget, if_neg isFile, if_neg isTarget]
  · rfl

theorem redirectPath_differs {opens : Bytes → OpenMode → Bool} {table : Fds}
    (standard : Standard table) (path : Option Bytes) {targetFd : Nat} (low : targetFd < 3)
    (mode : OpenMode) :
    if canOpen opens path mode then
      ∃ after, redirectPath opens table path targetFd mode = some after ∧
        Differs table after targetFd (pathFd path mode (lookup table targetFd))
    else redirectPath opens table path targetFd mode = none := by
  cases path with
  | none =>
      refine ⟨table, rfl, fun other => ?_⟩
      split_ifs with here
      · rw [here]
        rfl
      · rfl
  | some path => exact redirectFile_differs standard path low mode

/-- A descriptor argument takes the place of a standard one, when the table
still has what the shell had there. -/
theorem redirectFd_differs {before table : Fds} {fd : Int} {standardFd : Nat}
    (usable : Usable before fd standardFd)
    (same : ∀ other, other = standardFd ∨ 3 ≤ other ∧ lookup before other ≠ none →
      lookup table other = lookup before other) :
    ∃ after, redirectFd table fd standardFd = some after ∧
      Differs table after standardFd (redirected before fd standardFd) := by
  unfold redirectFd redirected
  split_ifs with replaces
  · have source : 3 ≤ fd.toNat ∧ lookup before fd.toNat ≠ none := by
      rcases usable with negative | equal | ⟨high, isOpen⟩
      · omega
      · exact absurd equal replaces.2
      · exact ⟨by omega, isOpen⟩
    have found := same fd.toNat (Or.inr source)
    obtain ⟨after, duplicated⟩ :=
      @dup2_isSome _ table fd.toNat standardFd (by rw [found]; exact source.2)
    refine ⟨after, duplicated, fun other => ?_⟩
    rw [dup2_some duplicated, found]
  · refine ⟨table, rfl, fun other => ?_⟩
    split_ifs with here
    · rw [here, same standardFd (Or.inl rfl)]
    · rfl

/-- A number the shell uses is none of a pipe's. -/
theorem Piped.kept {before table : Fds} {pipes : List (Nat × Nat)}
    (piped : Piped before table pipes) {fd : Nat} (used : lookup before fd ≠ none) :
    (∀ fds ∈ pipes, fd ≠ fds.1 ∧ fd ≠ fds.2) ∧ lookup table fd = lookup before fd := by
  have off : ∀ fds ∈ pipes, fd ≠ fds.1 ∧ fd ≠ fds.2 := by
    intro fds here
    refine ⟨?_, ?_⟩
    · rintro rfl
      exact used (piped.free fds here).1
    · rintro rfl
      exact used (piped.free fds here).2
  exact ⟨off, piped.others fd off⟩

section Setup
variable {kernel : Kernel} {commands : List ShellCommand} {outFd errFd : Int} {before table : Fds}
  {pipes : List (Nat × Nat)}

theorem takeInput_differs (ready : Ready before) (piped : Piped before table pipes)
    (enough : pipes.length = commands.length - 1) {index : Nat}
    (inside : index < commands.length) :
    ∃ after, takeInput pipes index table = some after ∧
      Differs table after stdinFileno (pipedIn before index) := by
  unfold takeInput pipedIn
  split_ifs with later
  · have within : index - 1 < pipes.length := by omega
    have found := piped.readEnd (index - 1) pipes[index - 1] (List.getElem?_eq_getElem within)
    rw [List.getD_eq_getElem _ _ within]
    obtain ⟨after, duplicated⟩ :=
      dup2_isSome stdinFileno (by rw [found]; exact Option.some_ne_none _)
    refine ⟨after, duplicated, fun other => ?_⟩
    rw [dup2_some duplicated, found]
  · refine ⟨table, rfl, fun other => ?_⟩
    split_ifs with here
    · rw [here, (piped.kept (ready.standard stdinFileno (by decide))).2]
    · rfl

theorem takeOutput_differs (ready : Ready before) (usable : Usable before outFd stdoutFileno)
    (piped : Piped before table pipes) (enough : pipes.length = commands.length - 1) (index : Nat)
    {first : Fds} {input : Option Description} (differs : Differs table first stdinFileno input) :
    ∃ after, takeOutput commands.length pipes index outFd first = some after ∧
      Differs first after stdoutFileno (pipedOut commands before outFd index) := by
  unfold takeOutput pipedOut
  split_ifs with more
  · have within : index < pipes.length := by omega
    have found := piped.writeEnd index pipes[index] (List.getElem?_eq_getElem within)
    have notInput : pipes[index].2 ≠ stdinFileno := fun same =>
      ((piped.kept (ready.standard stdinFileno (by decide))).1 _ (List.getElem_mem within)).2
        same.symm
    rw [List.getD_eq_getElem _ _ within]
    have here : lookup first pipes[index].2 = some (.writeEnd index) := by
      rw [differs, if_neg notInput, found]
    obtain ⟨after, duplicated⟩ :=
      dup2_isSome stdoutFileno (by rw [here]; exact Option.some_ne_none _)
    refine ⟨after, duplicated, fun other => ?_⟩
    rw [dup2_some duplicated, here]
  · refine redirectFd_differs usable fun other kind => ?_
    have used : lookup before other ≠ none := by
      rcases kind with rfl | ⟨-, isOpen⟩
      · exact ready.standard stdoutFileno (by decide)
      · exact isOpen
    have apart : other ≠ stdinFileno := by
      rcases kind with rfl | ⟨high, -⟩
      · decide
      · exact fun same => by rw [same] at high; exact absurd high (by decide)
    rw [differs, if_neg apart, (piped.kept used).2]

theorem redirected_ne_none {fd : Int} {standardFd : Nat} (low : standardFd < 3)
    (ready : Ready before) (usable : Usable before fd standardFd) :
    redirected before fd standardFd ≠ none := by
  unfold redirected
  split_ifs with replaces
  · rcases usable with negative | equal | ⟨-, isOpen⟩
    · omega
    · exact absurd equal replaces.2
    · exact isOpen
  · exact ready.standard standardFd low

/-- What `setup_command_fds` has done when both redirections can be opened, and
that it fails otherwise. -/
theorem setupCommandFds_stage (opens : Bytes → OpenMode → Bool) (ready : Ready before)
    (usableOut : Usable before outFd stdoutFileno) (usableErr : Usable before errFd stderrFileno)
    (piped : Piped before table pipes) (enough : pipes.length = commands.length - 1) {index : Nat}
    (inside : index < commands.length) (cmd : ShellCommand) :
    if canOpen opens cmd.inputPath .read ∧ canOpen opens cmd.outputPath (outputMode cmd) then
      ∃ after, setupCommandFds opens commands cmd index pipes outFd errFd table = some after ∧
        ∀ fd, lookup after fd =
          if fd = stdinFileno then pathFd cmd.inputPath .read (pipedIn before index)
          else if fd = stdoutFileno then
            pathFd cmd.outputPath (outputMode cmd) (pipedOut commands before outFd index)
          else if fd = stderrFileno then redirected before errFd stderrFileno
          else lookup table fd
    else setupCommandFds opens commands cmd index pipes outFd errFd table = none := by
  obtain ⟨first, firstEq, input⟩ := takeInput_differs ready piped enough inside
  obtain ⟨second, secondEq, output⟩ := takeOutput_differs ready usableOut piped enough index input
  obtain ⟨third, thirdEq, error⟩ := @redirectFd_differs before second errFd stderrFileno usableErr
    fun other kind => by
      have used : lookup before other ≠ none := by
        rcases kind with rfl | ⟨-, isOpen⟩
        · exact ready.standard stderrFileno (by decide)
        · exact isOpen
      have apart : other ≠ stdinFileno ∧ other ≠ stdoutFileno := by
        rcases kind with rfl | ⟨high, -⟩
        · decide
        · exact ⟨fun same => by rw [same] at high; exact absurd high (by decide),
            fun same => by rw [same] at high; exact absurd high (by decide)⟩
      rw [output, if_neg apart.2, input, if_neg apart.1, (piped.kept used).2]
  have unfolded : setupCommandFds opens commands cmd index pipes outFd errFd table =
      (redirectPath opens third cmd.inputPath stdinFileno .read).bind fun fourth =>
        redirectPath opens fourth cmd.outputPath stdoutFileno (outputMode cmd) := by
    unfold setupCommandFds
    simp only [firstEq, secondEq, thirdEq, Option.bind_eq_bind, Option.bind_some]
  have standard : Standard third := by
    intro fd low
    rw [error, output, input]
    have range : fd = stdinFileno ∨ fd = stdoutFileno ∨ fd = stderrFileno := by
      simp only [stdinFileno, stdoutFileno, stderrFileno]
      omega
    rcases range with rfl | rfl | rfl
    · rw [if_neg (by decide), if_neg (by decide), if_pos rfl]
      unfold pipedIn
      split_ifs
      · exact Option.some_ne_none _
      · exact ready.standard stdinFileno low
    · rw [if_neg (by decide), if_pos rfl]
      unfold pipedOut
      split_ifs
      · exact Option.some_ne_none _
      · exact redirected_ne_none low ready usableOut
    · rw [if_pos rfl]
      exact redirected_ne_none low ready usableErr
  have fromFile := @redirectPath_differs opens third standard cmd.inputPath stdinFileno (by decide)
    .read
  rw [unfolded]
  by_cases canRead : canOpen opens cmd.inputPath .read
  · rw [if_pos canRead] at fromFile
    obtain ⟨fourth, fourthEq, redirectedIn⟩ := fromFile
    have standardFourth : Standard fourth := by
      intro fd low
      rw [redirectedIn]
      split_ifs
      · unfold pathFd
        split
        · exact Option.some_ne_none _
        · exact standard stdinFileno (by decide)
      · exact standard fd low
    have toFile := @redirectPath_differs opens fourth standardFourth cmd.outputPath stdoutFileno
      (by decide) (outputMode cmd)
    rw [fourthEq, Option.bind_some]
    by_cases canWrite : canOpen opens cmd.outputPath (outputMode cmd)
    · rw [if_pos canWrite] at toFile
      obtain ⟨fifth, fifthEq, redirectedOut⟩ := toFile
      rw [if_pos ⟨canRead, canWrite⟩]
      refine ⟨fifth, fifthEq, fun fd => ?_⟩
      have inputHere : lookup third stdinFileno = pipedIn before index := by
        rw [error, if_neg (by decide), output, if_neg (by decide), input, if_pos rfl]
      have outputHere : lookup fourth stdoutFileno = pipedOut commands before outFd index := by
        rw [redirectedIn, if_neg (by decide), error, if_neg (by decide), output, if_pos rfl]
      rw [redirectedOut, outputHere, redirectedIn, inputHere, error, output, input]
      by_cases isIn : fd = stdinFileno
      · rw [if_neg (by rw [isIn]; decide), if_pos isIn, if_pos isIn]
      · by_cases isOut : fd = stdoutFileno
        · rw [if_pos isOut, if_neg isIn, if_pos isOut]
        · rw [if_neg isOut, if_neg isIn, if_neg isIn, if_neg isOut]
          split_ifs <;> rfl
    · rw [if_neg canWrite] at toFile
      rw [if_neg fun both => canWrite both.2, toFile]
  · rw [if_neg canRead] at fromFile
    rw [if_neg fun both => canRead both.1, fromFile]
    rfl

end Setup

/-! ## The children -/

theorem lookup_closeAllPipes_congr {first second : Fds} (pipes : List (Nat × Nat)) {fd : Nat}
    (same : lookup first fd = lookup second fd) :
    lookup (closeAllPipes first pipes) fd = lookup (closeAllPipes second pipes) fd := by
  unfold closeAllPipes
  rw [lookup_closeAll, lookup_closeAll, same]

/-- A standard descriptor outlives the pipes. -/
theorem lookup_closeAllPipes_standard {before table own : Fds} {pipes : List (Nat × Nat)}
    (ready : Ready before) (piped : Piped before table pipes) {fd : Nat} (low : fd < 3) :
    lookup (closeAllPipes own pipes) fd = lookup own fd := by
  unfold closeAllPipes
  rw [lookup_closeAll, if_neg]
  intro inPipes
  obtain ⟨fds, here, same⟩ := (mem_pipeFds pipes fd).mp inPipes
  have off := (piped.kept (ready.standard fd low)).1 fds here
  rcases same with rfl | rfl
  · exact off.1 rfl
  · exact off.2 rfl

section Children
variable {kernel : Kernel} {commands : List ShellCommand} {outFd errFd : Int} {before table : Fds}
  {pipes : List (Nat × Nat)}

theorem childRun_isStage (kernel : Kernel) (ready : Ready before)
    (usableOut : Usable before outFd stdoutFileno) (usableErr : Usable before errFd stderrFileno)
    (piped : Piped before table pipes) (enough : pipes.length = commands.length - 1) {index : Nat}
    (inside : index < commands.length) (cmd : ShellCommand) :
    IsStage kernel commands cmd index outFd errFd before
      (childRun kernel commands cmd index pipes outFd errFd table) := by
  have setup := setupCommandFds_stage (kernel.opens index) ready usableOut usableErr piped enough
    inside cmd
  unfold IsStage failure childRun
  by_cases grouped : kernel.setpgid index = false
  · simp only [if_pos grouped]
  · simp only [if_neg grouped]
    by_cases opened : canOpen (kernel.opens index) cmd.inputPath .read ∧
        canOpen (kernel.opens index) cmd.outputPath (outputMode cmd)
    · rw [if_pos opened] at setup
      obtain ⟨own, setupEq, found⟩ := setup
      simp only [opened.1, opened.2, Bool.true_eq_false, or_self, if_false, setupEq]
      cases kernel.exec index with
      | error missing => rfl
      | ok =>
          refine ⟨_, rfl, fun fd => ?_⟩
          rcases Nat.lt_or_ge fd 3 with low | high
          · rw [lookup_closeAllPipes_standard ready piped low, found]
            unfold stageFd
            have standard : fd = stdinFileno ∨ fd = stdoutFileno ∨ fd = stderrFileno := by
              simp only [stdinFileno, stdoutFileno, stderrFileno]
              omega
            rcases standard with rfl | rfl | rfl <;> rfl
          · have notIn : fd ≠ stdinFileno := by unfold stdinFileno; omega
            have notOut : fd ≠ stdoutFileno := by unfold stdoutFileno; omega
            have notErr : fd ≠ stderrFileno := by unfold stderrFileno; omega
            have same : lookup own fd = lookup table fd := by
              rw [found, if_neg notIn, if_neg notOut, if_neg notErr]
            rw [lookup_closeAllPipes_congr pipes same, piped.close, stageFd, if_neg notIn,
              if_neg notOut, if_neg notErr]
    · rw [if_neg opened] at setup
      have failed : canOpen (kernel.opens index) cmd.inputPath .read = false ∨
          canOpen (kernel.opens index) cmd.outputPath (outputMode cmd) = false := by
        rcases Bool.eq_false_or_eq_true (canOpen (kernel.opens index) cmd.inputPath .read) with
          canRead | cannot
        · exact Or.inr (Bool.eq_false_iff.mpr fun canWrite => opened ⟨canRead, canWrite⟩)
        · exact Or.inl cannot
      simp only [if_pos failed, setup]

/-- The children are the stages in order, up to the first `fork` that fails. -/
theorem forkStages_children (stages : List ShellCommand) (index : Nat) :
    ∀ all children,
      forkStages kernel commands pipes outFd errFd table index stages = (all, children) →
      (∀ place child, children[place]? = some child →
        ∃ cmd, stages[place]? = some cmd ∧
          child = childRun kernel commands cmd (index + place) pipes outFd errFd table) ∧
      (all = true → children.length = stages.length) := by
  induction stages generalizing index with
  | nil =>
      rintro all children ⟨⟩
      exact ⟨by simp, fun _ => rfl⟩
  | cons cmd rest ih =>
      intro all children forked
      unfold forkStages at forked
      split_ifs at forked with succeeds
      · generalize more : forkStages kernel commands pipes outFd errFd table (index + 1) rest =
          result at forked
        obtain ⟨allRest, others⟩ := result
        cases forked
        obtain ⟨each, count⟩ := ih (index + 1) all others more
        refine ⟨fun place child found => ?_, fun whole => congrArg (· + 1) (count whole)⟩
        cases place with
        | zero =>
            cases found
            exact ⟨cmd, rfl, rfl⟩
        | succ place =>
            obtain ⟨other, here, same⟩ := each place child found
            exact ⟨other, here, by rw [same, Nat.add_right_comm, Nat.add_assoc]⟩
      · cases forked
        exact ⟨by simp, by rintro ⟨⟩⟩

end Children

/-! ## The pipeline -/

/-- The shell is left with what it had, and every child is its stage. -/
structure Plumbed (kernel : Kernel) (commands : List ShellCommand) (outFd errFd : Int)
    (before : Fds) (launched : Launched) : Prop where
  shell : ∀ fd, lookup launched.table fd = lookup before fd
  stages : ∀ index child, launched.children[index]? = some child →
    ∃ cmd, commands[index]? = some cmd ∧
      IsStage kernel commands cmd index outFd errFd before child
  all : ∀ table children, launched = .running table children → children.length = commands.length

theorem executeExternalPipeline_plumbed (kernel : Kernel) (commands : List ShellCommand)
    {outFd errFd : Int} {before : Fds} (ready : Ready before)
    (usableOut : Usable before outFd stdoutFileno) (usableErr : Usable before errFd stderrFileno) :
    Plumbed kernel commands outFd errFd before
      (executeExternalPipeline kernel commands outFd errFd before) := by
  have opened := openPipes_piped kernel before before [] (commands.length - 1) (piped_nil before)
  unfold executeExternalPipeline
  cases openEq : openPipes kernel before [] (commands.length - 1) with
  | error left =>
      rw [openEq] at opened
      exact ⟨opened, by simp [Launched.children], by rintro table children ⟨⟩⟩
  | ok result =>
      obtain ⟨table, pipes⟩ := result
      rw [openEq] at opened
      obtain ⟨piped, count⟩ := opened
      have enough : pipes.length = commands.length - 1 := by simpa using count
      dsimp only
      cases forked : forkStages kernel commands pipes outFd errFd table 0 commands with
      | mk all children =>
          obtain ⟨each, whole⟩ := forkStages_children commands 0 all children forked
          have stages : ∀ index child, children[index]? = some child →
              ∃ cmd, commands[index]? = some cmd ∧
                IsStage kernel commands cmd index outFd errFd before child := by
            intro index child found
            obtain ⟨cmd, here, same⟩ := each index child found
            rw [Nat.zero_add] at same
            have inside : index < commands.length := (List.getElem?_eq_some_iff.mp here).1
            refine ⟨cmd, here, ?_⟩
            rw [same]
            exact childRun_isStage kernel ready usableOut usableErr piped enough inside cmd
          cases all with
          | true =>
              refine ⟨piped.close, stages, ?_⟩
              rintro _ _ ⟨⟩
              exact whole rfl
          | false => exact ⟨piped.close, stages, by rintro _ _ ⟨⟩⟩

/-! ## The ends of the pipes -/

/-- The child holds a descriptor that refers to it. -/
def holds (description : Description) : Child → Bool
  | .execs own => own.contains (some description)
  | .exits _ => false

/-- The children that hold it and have not ended. -/
def holders (children : List Child) (ended : Nat → Bool) (description : Description) : List Nat :=
  (List.range children.length).filter fun index =>
    !ended index && (children[index]?.any (holds description))

/-- The stage runs its program and has not ended. -/
def Runs (children : List Child) (ended : Nat → Bool) (index : Nat) : Prop :=
  ended index = false ∧ ∃ own, children[index]? = some (.execs own)

theorem holds_execs (description : Description) (own : Fds) :
    holds description (.execs own) = true ↔ ∃ fd, lookup own fd = some description := by
  unfold holds lookup
  rw [List.contains_iff_mem, List.mem_iff_getElem?]
  constructor
  · rintro ⟨fd, found⟩
    exact ⟨fd, by rw [List.getD_eq_getElem?_getD, found, Option.getD_some]⟩
  · rintro ⟨fd, found⟩
    refine ⟨fd, ?_⟩
    rw [List.getD_eq_getElem?_getD] at found
    cases here : own[fd]? with
    | none =>
        rw [here] at found
        cases found
    | some entry =>
        rw [here] at found
        rw [show entry = some description from found]

/-- In a parsed pipeline only the first stage reads from a path and only the
last one writes to one. -/
theorem parsed_redirections {line : CString} {before pipeline : ShellPipeline}
    (parsed : shellParseLine (some line) (some before) = (.ok (), some pipeline)) {index : Nat}
    {cmd : ShellCommand} (here : pipeline.commands[index]? = some cmd) :
    (0 < index → cmd.inputPath = none) ∧
      (index + 1 < pipeline.commands.length → cmd.outputPath = none) := by
  cases lexed : tokenize line.bytes with
  | error failure =>
      rw [parse_line_error line before failure lexed] at parsed
      cases parsed
  | ok tokens =>
      cases tokens with
      | nil =>
          rw [parse_line_blank line before lexed] at parsed
          cases parsed
          cases here
      | cons token tokens =>
          rw [parse_line_tokens line before token tokens lexed] at parsed
          cases call : parseStages (token :: tokens) with
          | error failure =>
              rw [call] at parsed
              cases parsed
          | ok result =>
              obtain ⟨commands, background⟩ := result
              rw [call] at parsed
              cases parsed
              have checked := ((parseStages_ok _ _ _).mp call).2
              cases commands with
              | nil => cases here
              | cons first more =>
                  obtain ⟨-, noInputs, noOutputs⟩ := (checkStages_first first more).mp checked
                  refine ⟨fun later => ?_, fun early => ?_⟩
                  · cases index with
                    | zero => exact absurd later (Nat.lt_irrefl 0)
                    | succ index =>
                        exact Option.isNone_iff_eq_none.mp
                          (Option.isSome_eq_false_iff.mp (noInputs cmd (List.mem_of_getElem? here)))
                  · have early : index + 1 < (first :: more).length := early
                    refine Option.isNone_iff_eq_none.mp
                      (Option.isSome_eq_false_iff.mp (noOutputs cmd ?_))
                    refine List.mem_of_getElem? (i := index) ?_
                    rw [List.getElem?_dropLast, if_pos (by omega)]
                    exact here

theorem redirected_noPipe {before : Fds} (ready : Ready before) {fd : Int} {standardFd : Nat}
    {description : Description} (found : redirected before fd standardFd = some description) :
    description.isPipe = false := by
  unfold redirected at found
  split_ifs at found
  · exact ready.noPipes _ _ found
  · exact ready.noPipes _ _ found

theorem pathFd_pipe (path : Option Bytes) (mode : OpenMode) (otherwise : Option Description)
    {description : Description} (isPipe : description.isPipe = true) :
    pathFd path mode otherwise = some description ↔
      path = none ∧ otherwise = some description := by
  cases path with
  | none => exact ⟨fun found => ⟨rfl, found⟩, fun found => found.2⟩
  | some path =>
      refine ⟨?_, by rintro ⟨⟨⟩, -⟩⟩
      rintro ⟨⟩
      cases isPipe

section Ends
variable {commands : List ShellCommand} {cmd : ShellCommand} {index : Nat} {outFd errFd : Int}
  {before : Fds}

/-- Where the program of a stage finds an end of a pipe. -/
theorem stageFd_pipe (ready : Ready before) (input : 0 < index → cmd.inputPath = none)
    (output : index + 1 < commands.length → cmd.outputPath = none) {fd : Nat}
    {description : Description} (isPipe : description.isPipe = true) :
    stageFd commands cmd index outFd errFd before fd = some description ↔
      fd = stdinFileno ∧ 0 < index ∧ description = .readEnd (index - 1) ∨
        fd = stdoutFileno ∧ index + 1 < commands.length ∧ description = .writeEnd index := by
  have notShell : ∀ other, lookup before other ≠ some description := fun other found => by
    rw [ready.noPipes other description found] at isPipe
    cases isPipe
  have notRedirected : ∀ argument standardFd,
      redirected before argument standardFd ≠ some description := fun argument standardFd found => by
    rw [redirected_noPipe ready found] at isPipe
    cases isPipe
  unfold stageFd
  by_cases isIn : fd = stdinFileno
  · have notOut : fd ≠ stdoutFileno := by rw [isIn]; decide
    rw [if_pos isIn, pathFd_pipe _ _ _ isPipe, pipedIn]
    constructor
    · rintro ⟨-, found⟩
      split_ifs at found with later
      · exact Or.inl ⟨isIn, later, (Option.some.inj found).symm⟩
      · exact absurd found (notShell stdinFileno)
    · rintro (⟨-, later, rfl⟩ | ⟨isOut, -⟩)
      · exact ⟨input later, if_pos later⟩
      · exact absurd isOut notOut
  · rw [if_neg isIn]
    by_cases isOut : fd = stdoutFileno
    · rw [if_pos isOut, pathFd_pipe _ _ _ isPipe, pipedOut]
      constructor
      · rintro ⟨-, found⟩
        split_ifs at found with more
        · exact Or.inr ⟨isOut, more, (Option.some.inj found).symm⟩
        · exact absurd found (notRedirected outFd stdoutFileno)
      · rintro (⟨same, -⟩ | ⟨-, more, rfl⟩)
        · exact absurd same isIn
        · exact ⟨output more, if_pos more⟩
    · rw [if_neg isOut]
      constructor
      · intro found
        split_ifs at found
        · exact absurd found (notRedirected errFd stderrFileno)
        · exact absurd found (notShell fd)
      · rintro (⟨same, -⟩ | ⟨same, -⟩)
        · exact absurd same isIn
        · exact absurd same isOut

end Ends

theorem mem_holders {children : List Child} {ended : Nat → Bool} {description : Description}
    {index : Nat} :
    index ∈ holders children ended description ↔
      ended index = false ∧ ∃ own, children[index]? = some (.execs own) ∧
        ∃ fd, lookup own fd = some description := by
  unfold holders
  rw [List.mem_filter, List.mem_range, Bool.and_eq_true, Bool.not_eq_true', Option.any_eq_true]
  constructor
  · rintro ⟨-, alive, child, here, held⟩
    cases child with
    | execs own => exact ⟨alive, own, here, (holds_execs description own).mp held⟩
    | exits code => cases held
  · rintro ⟨alive, own, here, found⟩
    exact ⟨(List.getElem?_eq_some_iff.mp here).1, alive, .execs own, here,
      (holds_execs description own).mpr found⟩

/-- The pipeline of `a|b`. -/
def twoStages : ShellPipeline :=
  ⟨[⟨[some [0x61], none], 1, none, none, false⟩, ⟨[some [0x62], none], 1, none, none, false⟩],
    false, some [0x61, 0x7c, 0x62]⟩

theorem twoStages_parsed :
    shellParseLine (some ⟨[0x61, 0x7c, 0x62], by decide⟩) (some zeroPipeline) =
      (.ok (), some twoStages) := by
  have lexed : tokenize [0x61, 0x7c, 0x62] = .ok [.word [0x61], .pipe, .word [0x62]] := by
    rw [tokenize_turn _ [0x7c, 0x62] 0x61 rfl]
    show (Token.word [0x61] :: ·) <$> tokenize [0x7c, 0x62] = _
    rw [tokenize_turn _ [0x62] 0x7c rfl]
    show (Token.word [0x61] :: ·) <$> (Token.pipe :: ·) <$> tokenize [0x62] = _
    rw [tokenize_turn _ [] 0x62 rfl]
    show (Token.word [0x61] :: ·) <$> (Token.pipe :: ·) <$> (Token.word [0x62] :: ·) <$>
      tokenize [] = _
    rw [tokenize_blank [] rfl]
    rfl
  simp only [shellParseLine, lexed]
  rfl

def allSucceed : Kernel :=
  ⟨fun _ => true, fun _ => true, fun _ => true, fun _ _ _ => true, fun _ => .ok ()⟩

def terminal : Fds := [some (.inherited 0), some (.inherited 1), some (.inherited 2)]

theorem terminal_ready : Ready terminal := by
  refine ⟨by decide, fun fd description found => ?_⟩
  rcases fd with _ | _ | _ | fd
  all_goals cases found
  all_goals rfl

end EmbeddedRuntime.Shell.Plumbing
