import EmbeddedRuntime.Bmc.Python
import EmbeddedRuntime.Lib.Files
import EmbeddedRuntime.Lib.Machine

/-!
# Publishing a snapshot and reading it

Any number of pipelines run `write_atomic` while the service reads, one request
after another and several at once; a system call is one turn.  A call may fail,
and a process may be killed at any moment.  What a buffered file has been given
reaches the system in order, some of it earlier, the rest with `flush`.

`tempfile` draws its names at random; two pipelines are taken not to draw the
same one, nor that of the snapshot.
-/

set_option autoImplicit false

namespace EmbeddedRuntime.FabYield.Publish

open EmbeddedRuntime.Bmc.Python (Bytes)
open EmbeddedRuntime.Lib.Files EmbeddedRuntime.Lib.Machine

/-- What `json.dump` makes of a snapshot: its pieces, and whether it raises behind them. -/
structure Job where
  pieces : List Bytes
  raises : Bool

def Job.text (job : Job) : Bytes := job.pieces.flatten ++ [10]

def Job.writes (job : Job) : List Bytes :=
  if job.raises then job.pieces else job.pieces ++ [[10]]

inductive Ending where
  | fine
  | raises
  | killed
  deriving DecidableEq, Repr

/-- How a turn ends, and how many bytes the system has taken or given. -/
structure Outcome where
  bytes : Nat
  ending : Ending

/-- Where `write_atomic` stands. -/
inductive Phase where
  | starting
  | writing (inode : Nat) (left : List Bytes) (buffer : Bytes)
  | flushing (inode : Nat) (buffer : Bytes)
  | syncing (inode : Nat)
  | chmodding (inode : Nat)
  /-- The end of the `with` block, which closes the file. -/
  | closing (inode : Nat) (buffer : Bytes) (raised : Bool)
  | replacing
  /-- The `finally` block, at `temp.exists()`. -/
  | leaving (raised : Bool)
  | unlinking (raised : Bool)
  | ended (raised : Bool)
  /-- The `unlink` has failed. -/
  | littered
  | killed
  deriving DecidableEq, Repr

section
variable {Name : Type} [DecidableEq Name]

/-- A turn of `write_atomic`. -/
def writeAtomic (name destination : Name) (job : Job) (o : Outcome) (disk : Disk Name UInt8) :
    Phase → Phase × Disk Name UInt8
  | .starting =>
      match o.ending with
      | .fine =>
          match disk.create name with
          | some (inode, disk) => (.writing inode job.writes [], disk)
          | none => (.ended true, disk)
      | .raises => (.ended true, disk)
      | .killed => (.killed, disk)
  | .writing inode [] buffer =>
      match o.ending with
      | .killed => (.killed, disk)
      | _ => if job.raises then (.closing inode buffer true, disk) else (.flushing inode buffer, disk)
  | .writing inode (piece :: left) buffer =>
      let pending := buffer ++ piece
      let disk := disk.append inode (pending.take o.bytes)
      let buffer := pending.drop o.bytes
      match o.ending with
      | .fine => (.writing inode left buffer, disk)
      | .raises => (.closing inode buffer true, disk)
      | .killed => (.killed, disk)
  | .flushing inode buffer =>
      match o.ending with
      | .fine => (.syncing inode, disk.append inode buffer)
      | .raises => (.closing inode (buffer.drop o.bytes) true, disk.append inode (buffer.take o.bytes))
      | .killed => (.killed, disk.append inode (buffer.take o.bytes))
  | .syncing inode =>
      match o.ending with
      | .fine => (.chmodding inode, disk.sync inode)
      | .raises => (.closing inode [] true, disk)
      | .killed => (.killed, disk)
  | .chmodding inode =>
      match o.ending with
      | .fine => (.closing inode [] false, disk)
      | .raises => (.closing inode [] true, disk)
      | .killed => (.killed, disk)
  | .closing inode buffer raised =>
      match o.ending with
      | .fine => (if raised then .leaving true else .replacing, disk.append inode buffer)
      | .raises => (.leaving true, disk.append inode (buffer.take o.bytes))
      | .killed => (.killed, disk.append inode (buffer.take o.bytes))
  | .replacing =>
      match o.ending with
      | .fine =>
          match disk.rename name destination with
          | some disk => (.leaving false, disk)
          | none => (.leaving true, disk)
      | .raises => (.leaving true, disk)
      | .killed => (.killed, disk)
  | .leaving raised =>
      match o.ending with
      | .killed => (.killed, disk)
      | _ => (if (disk.entries name).isSome then .unlinking raised else .ended raised, disk)
  | .unlinking raised =>
      match o.ending with
      | .fine =>
          match disk.unlink name with
          | some disk => (.ended raised, disk)
          | none => (.ended true, disk)
      | .raises => (.littered, disk)
      | .killed => (.killed, disk)
  | .ended raised => (.ended raised, disk)
  | .littered => (.littered, disk)
  | .killed => (.killed, disk)

/-- Where `SnapshotStore.Read` stands; `finished none` is a file that could not be read. -/
inductive Reading where
  | starting
  | found
  | reading (inode : Nat) (text : Bytes)
  | finished (text : Option Bytes)
  deriving DecidableEq, Repr

/-- A turn of `SnapshotStore.Read`: `File.Exists`, `File.OpenRead`, or a read of the stream. -/
def snapshotRead (destination : Name) (o : Outcome) (disk : Disk Name UInt8) : Reading → Reading
  | .starting => if (disk.entries destination).isSome then .found else .finished none
  | .found =>
      match o.ending, disk.entries destination with
      | .fine, some inode => .reading inode []
      | _, _ => .finished none
  | .reading inode text =>
      match o.ending with
      | .fine =>
          let got := ((disk.content inode).drop text.length).take (o.bytes + 1)
          if got.isEmpty then .finished (some text) else .reading inode (text ++ got)
      | _ => .finished none
  | .finished text => .finished text

/-! ## Pipelines and requests together -/

structure Setup (Writer Name : Type) where
  temp : Writer → Name
  destination : Name
  job : Writer → Job
  distinct : Function.Injective temp
  apart : ∀ w, destination ≠ temp w

variable {Writer Reader : Type} [DecidableEq Writer] [DecidableEq Reader]

structure State (Writer Reader Name : Type) where
  disk : Disk Name UInt8
  writers : Writer → Phase
  readers : Reader → Reading

inductive Action (Writer Reader : Type) where
  | write (w : Writer) (o : Outcome)
  | read (r : Reader) (o : Outcome)

variable (setup : Setup Writer Name)

def step (s : State Writer Reader Name) : Action Writer Reader → State Writer Reader Name
  | .write w o =>
      let next := writeAtomic (setup.temp w) setup.destination (setup.job w) o s.disk (s.writers w)
      { s with disk := next.2, writers := Function.update s.writers w next.1 }
  | .read r o =>
      { s with
        readers := Function.update s.readers r
          (snapshotRead setup.destination o s.disk (s.readers r)) }

def start (disk : Disk Name UInt8) : State Writer Reader Name :=
  ⟨disk, fun _ => .starting, fun _ => .starting⟩

/-- The text that a file of the name of the snapshot holds now. -/
def visible (s : State Writer Reader Name) : Option Bytes := s.disk.lookup setup.destination

/-- A disk between runs: no temporary files of pipelines to come, and a snapshot, if there is
one, that has reached the disk. -/
structure Settled (disk : Disk Name UInt8) : Prop where
  numbered : Numbered disk
  only : disk.earlier = []
  clear : ∀ w, disk.entries (setup.temp w) = none
  synced : ∀ i, disk.entries setup.destination = some i → disk.synced i = true

end

end EmbeddedRuntime.FabYield.Publish
