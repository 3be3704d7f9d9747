import EmbeddedRuntime.Lib.Machine
import EmbeddedRuntime.Shell.Tokens

/-!
# The job table of `shell/jobs.c` and the shell around it

Jobs are kept newest first and keep the pids of all their processes.  `handle`
stands for the address of a job.  Beside the table the system has the children
that were not reaped, each with the job it was started for; the kernel reports
on these and gives their pids to nobody else.
-/

set_option autoImplicit false

namespace EmbeddedRuntime.Shell.Jobs

open EmbeddedRuntime.Lib.Machine
open EmbeddedRuntime.Shell.Tokens

abbrev Pid := Int

inductive JobState where
  | running
  | stopped
  | done
  deriving DecidableEq, Repr

structure Job where
  handle : Nat
  id : Int
  pgid : Pid
  pids : List Pid
  remaining : Nat
  state : JobState
  command : Bytes
  deriving DecidableEq, Repr

/-- `allocated` is the number of jobs made so far. -/
structure JobList where
  head : List Job
  nextId : Int
  allocated : Nat
  deriving DecidableEq, Repr

def jobsInit : JobList := { head := [], nextId := 1, allocated := 0 }

def intMax : Int := 2147483647

/-- `jobs_add`; the increment of `next_id` is undefined at its maximum. -/
def jobsAdd (list : JobList) (pgid : Pid) (pids : List Pid) (command : Bytes)
    (state : JobState) : Option JobList :=
  if list.nextId < intMax then
    some {
      head :=
        { handle := list.allocated, id := list.nextId, pgid, pids, remaining := pids.length,
          state, command } :: list.head
      nextId := list.nextId + 1
      allocated := list.allocated + 1 }
  else none

def jobsFindId (jobs : List Job) (id : Int) : Option Job := jobs.find? fun job => job.id = id

def jobsFindPid (jobs : List Job) (pid : Pid) : Option Job :=
  jobs.find? fun job => decide (pid ∈ job.pids)

/-- What `waitpid` can report. -/
inductive WaitStatus where
  | stopped
  | continued
  | exited (status : UInt8)
  | signaled (signal : UInt8)
  deriving DecidableEq, Repr

/-- The process is gone and was reaped. -/
def WaitStatus.reaped : WaitStatus → Bool
  | .stopped => false
  | .continued => false
  | .exited _ => true
  | .signaled _ => true

def Job.exit (job : Job) : Job :=
  let remaining := if job.remaining > 0 then job.remaining - 1 else job.remaining
  { job with remaining, state := if remaining = 0 then .done else job.state }

def Job.update (job : Job) : WaitStatus → Job
  | .stopped => { job with state := .stopped }
  | .continued => { job with state := .running }
  | .exited _ => job.exit
  | .signaled _ => job.exit

/-- The first job of a kind, changed in place. -/
def updateFirst (wanted : Job → Bool) (change : Job → Job) : List Job → List Job
  | [] => []
  | job :: rest => if wanted job then change job :: rest else job :: updateFirst wanted change rest

/-- `jobs_update_status`: the job that `jobs_find_pid` returns is changed. -/
def jobsUpdateStatus (jobs : List Job) (pid : Pid) (status : WaitStatus) : List Job :=
  updateFirst (fun job => decide (pid ∈ job.pids)) (fun job => job.update status) jobs

/-- `jobs_remove` of the job at an address. -/
def jobsRemove (jobs : List Job) (handle : Nat) : List Job :=
  jobs.eraseP fun job => job.handle = handle

/-- The loop of `jobs_remove_done` over the jobs there were at its start. -/
def jobsRemoveDone (jobs : List Job) : List Job :=
  jobs.foldl (fun list job => if job.state = .done then jobsRemove list job.handle else list) jobs

/-! ## The system -/

/-- A process that was not reaped, and the job it belongs to. -/
structure Child where
  pid : Pid
  owner : Nat
  deriving DecidableEq, Repr

structure System where
  list : JobList
  children : List Child
  deriving DecidableEq, Repr

def start : System := { list := jobsInit, children := [] }

inductive Event where
  /-- A pipeline is started and entered with `jobs_add`. -/
  | launch (pgid : Pid) (pids : List Pid) (command : Bytes)
  /-- `waitpid` returned a process; `jobs_update_status` is called with it. -/
  | report (pid : Pid) (status : WaitStatus)
  /-- `fg` or `bg` of a job; the flag tells whether the calls before the change succeed. -/
  | resume (id : Int) (ok : Bool)
  /-- The end of `wait_foreground_job`. -/
  | removeFinished (handle : Nat)
  | removeDone
  deriving DecidableEq, Repr

def Event.launches : Event → Bool
  | .launch _ _ _ => true
  | .report _ _ => false
  | .resume _ _ => false
  | .removeFinished _ => false
  | .removeDone => false

/-- `job->state = JOB_RUNNING` in `fg` and `bg`. -/
def resume (jobs : List Job) (id : Int) (ok : Bool) : List Job :=
  match jobsFindId jobs id with
  | none => jobs
  | some job =>
      if job.state = .done ∨ ok = false then jobs
      else updateFirst (fun other => decide (other.id = id))
        (fun other => { other with state := .running }) jobs

/-- `if (job->state == JOB_DONE) jobs_remove(…)`. -/
def removeFinished (jobs : List Job) (handle : Nat) : List Job :=
  match jobs.find? fun job => job.handle = handle with
  | none => jobs
  | some job => if job.state = .done then jobsRemove jobs handle else jobs

/-- The processes of a pipeline, started for the job that is entered next. -/
def childrenOf (owner : Nat) (pids : List Pid) : List Child := pids.map fun pid => ⟨pid, owner⟩

def step (system : System) : Event → Option System
  | .launch pgid pids command =>
      (jobsAdd system.list pgid pids command .running).map fun list =>
        { list, children := childrenOf system.list.allocated pids ++ system.children }
  | .report pid status =>
      some {
        list := { system.list with head := jobsUpdateStatus system.list.head pid status }
        children :=
          if status.reaped then system.children.filter fun child => child.pid ≠ pid
          else system.children }
  | .resume id ok =>
      some { system with list := { system.list with head := resume system.list.head id ok } }
  | .removeFinished handle =>
      some { system with
        list := { system.list with head := removeFinished system.list.head handle } }
  | .removeDone =>
      some { system with
        list := { system.list with head := jobsRemoveDone system.list.head } }

/-- A pipeline has processes, each with a pid of its own that no child has; the kernel reports
on children only. -/
def Admissible (system : System) : Event → Prop
  | .launch _ pids _ =>
      pids ≠ [] ∧ pids.Nodup ∧ ∀ pid ∈ pids, ∀ child ∈ system.children, child.pid ≠ pid
  | .report pid _ => ∃ child ∈ system.children, child.pid = pid
  | .resume _ _ => True
  | .removeFinished _ => True
  | .removeDone => True

instance (system : System) : (event : Event) → Decidable (Admissible system event)
  | .launch _ pids _ =>
      inferInstanceAs (Decidable (pids ≠ [] ∧ pids.Nodup ∧
        ∀ pid ∈ pids, ∀ child ∈ system.children, child.pid ≠ pid))
  | .report pid _ => inferInstanceAs (Decidable (∃ child ∈ system.children, child.pid = pid))
  | .resume _ _ => inferInstanceAs (Decidable True)
  | .removeFinished _ => inferInstanceAs (Decidable True)
  | .removeDone => inferInstanceAs (Decidable True)

/-! ## The loops that call these -/

/-- `jobs_reap` with what `waitpid` returns. -/
def reapEvents (reports : List (Pid × WaitStatus)) : List Event :=
  reports.map fun report => .report report.1 report.2

/-- The events of `wait_foreground_job`: it takes reports while the job has processes left and is
not stopped, and then removes the job if it is done. -/
def waitEvents (handle : Nat) (system : System) : List (Pid × WaitStatus) → List Event
  | [] => [.removeFinished handle]
  | (pid, status) :: reports =>
      match system.list.head.find? fun job => job.handle = handle with
      | none => [.removeFinished handle]
      | some job =>
          if job.remaining > 0 ∧ job.state ≠ .stopped then
            .report pid status ::
              match step system (.report pid status) with
              | none => []
              | some next => waitEvents handle next reports
          else [.removeFinished handle]

end EmbeddedRuntime.Shell.Jobs
