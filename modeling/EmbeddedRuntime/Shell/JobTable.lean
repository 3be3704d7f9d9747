import EmbeddedRuntime.Shell.Jobs
import Mathlib.Data.List.Nodup

/-!
# The job table follows the processes

A pid that is in use was given to the newest job that lists it: an older job
may list it only because it had a process with that pid that was reaped before.
So the first job found newest first is the owner of the process, and the counts
of the table are those of the kernel.
-/

set_option autoImplicit false

namespace EmbeddedRuntime.Shell.JobTable

open EmbeddedRuntime.Lib.Machine
open EmbeddedRuntime.Shell.Tokens
open EmbeddedRuntime.Shell.Jobs

/-- The processes of a job that were not reaped. -/
def unreaped (children : List Child) (handle : Nat) : Nat :=
  children.countP fun child => child.owner = handle

structure Table (jobs : List Job) (nextId : Int) (allocated : Nat) (children : List Child) :
    Prop where
  handles : jobs.Pairwise fun newer older => older.handle < newer.handle
  ids : jobs.Pairwise fun newer older => older.id < newer.id
  idBound : ∀ job ∈ jobs, job.id < nextId
  handleBound : ∀ job ∈ jobs, job.handle < allocated
  counted : ∀ job ∈ jobs, job.remaining = unreaped children job.handle
  done : ∀ job ∈ jobs, job.state = .done ↔ job.remaining = 0
  owned : ∀ child ∈ children, ∃ job ∈ jobs, job.handle = child.owner ∧ child.pid ∈ job.pids
  newest : ∀ child ∈ children, ∀ job ∈ jobs, child.pid ∈ job.pids → job.handle ≤ child.owner
  distinct : children.Pairwise fun first second => first.pid ≠ second.pid

/-! ## Finding the owner -/

/-- The newest job that lists a pid is found. -/
theorem jobsFindPid_newest {jobs : List Job}
    (handles : jobs.Pairwise fun newer older => older.handle < newer.handle) {pid : Pid}
    {owner : Job} (here : owner ∈ jobs) (lists : pid ∈ owner.pids)
    (newest : ∀ job ∈ jobs, pid ∈ job.pids → job.handle ≤ owner.handle) :
    jobsFindPid jobs pid = some owner := by
  induction jobs with
  | nil => cases here
  | cons job rest ih =>
      obtain ⟨older, handlesRest⟩ := List.pairwise_cons.mp handles
      unfold jobsFindPid
      by_cases listed : pid ∈ job.pids
      · rw [List.find?_cons_of_pos (by simpa using listed)]
        rcases List.mem_cons.mp here with same | later
        · rw [same]
        · have below := newest job List.mem_cons_self listed
          have above := older owner later
          omega
      · rw [List.find?_cons_of_neg (by simpa using listed)]
        rcases List.mem_cons.mp here with same | later
        · rw [same] at lists
          exact absurd lists listed
        · exact ih handlesRest later fun other there =>
            newest other (List.mem_cons_of_mem _ there)

section Invariant
variable {jobs : List Job} {nextId : Int} {allocated : Nat} {children : List Child}

theorem Table.find_owner (table : Table jobs nextId allocated children) {child : Child}
    (here : child ∈ children) :
    ∃ job ∈ jobs, jobsFindPid jobs child.pid = some job ∧ job.handle = child.owner := by
  obtain ⟨owner, there, same, lists⟩ := table.owned child here
  refine ⟨owner, there, ?_, same⟩
  apply jobsFindPid_newest table.handles there lists
  rw [same]
  exact table.newest child here

/-- A job with a process left is not done. -/
theorem Table.owner_busy (table : Table jobs nextId allocated children) {child : Child}
    (here : child ∈ children) {job : Job} (there : job ∈ jobs) (same : job.handle = child.owner) :
    0 < job.remaining ∧ job.state ≠ .done := by
  have positive : 0 < job.remaining := by
    rw [table.counted job there, unreaped, List.countP_pos_iff]
    exact ⟨child, here, by simp [same]⟩
  exact ⟨positive, fun done => Nat.ne_of_gt positive ((table.done job there).mp done)⟩

/-! ## One job changed in place -/

/-- What a change in place keeps. -/
structure Keeps (change : Job → Job) : Prop where
  handle : ∀ job, (change job).handle = job.handle
  id : ∀ job, (change job).id = job.id
  pids : ∀ job, (change job).pids = job.pids

def key (job : Job) : Nat × Int × List Pid := (job.handle, job.id, job.pids)

theorem map_key_updateFirst (wanted : Job → Bool) {change : Job → Job} (keeps : Keeps change)
    (jobs : List Job) : (updateFirst wanted change jobs).map key = jobs.map key := by
  induction jobs with
  | nil => rfl
  | cons job rest ih =>
      rw [updateFirst]
      split_ifs
      · simp only [List.map_cons, key, keeps.handle, keeps.id, keeps.pids]
      · rw [List.map_cons, ih, List.map_cons]

theorem mem_of_keys {first second : List Job} (keys : first.map key = second.map key) {job : Job}
    (here : job ∈ first) :
    ∃ other ∈ second, other.handle = job.handle ∧ other.id = job.id ∧ other.pids = job.pids := by
  have mapped := List.mem_map_of_mem (f := key) here
  rw [keys] at mapped
  obtain ⟨other, there, same⟩ := List.mem_map.mp mapped
  simp only [key, Prod.mk.injEq] at same
  exact ⟨other, there, same⟩

theorem pairwise_of_keys {first second : List Job} (keys : first.map key = second.map key)
    (order : Nat × Int × List Pid → Nat × Int × List Pid → Prop)
    (ordered : second.Pairwise fun newer older => order (key newer) (key older)) :
    first.Pairwise fun newer older => order (key newer) (key older) := by
  rw [← List.pairwise_map] at ordered ⊢
  rw [keys]
  exact ordered

theorem mem_updateFirst {wanted : Job → Bool} {change : Job → Job}
    (handles : jobs.Pairwise fun newer older => older.handle < newer.handle) {changed : Job}
    (here : changed ∈ updateFirst wanted change jobs) :
    (∃ job, jobs.find? wanted = some job ∧ changed = change job) ∨
      (changed ∈ jobs ∧ ∀ job, jobs.find? wanted = some job → job.handle ≠ changed.handle) := by
  induction jobs with
  | nil => cases here
  | cons job rest ih =>
      obtain ⟨older, handlesRest⟩ := List.pairwise_cons.mp handles
      rw [updateFirst] at here
      split_ifs at here with found
      · rw [List.find?_cons_of_pos found]
        rcases List.mem_cons.mp here with same | later
        · exact Or.inl ⟨job, rfl, same⟩
        · refine Or.inr ⟨List.mem_cons_of_mem _ later, ?_⟩
          intro first same
          rw [← Option.some.inj same]
          exact Nat.ne_of_gt (older changed later)
      · rw [List.find?_cons_of_neg found]
        rcases List.mem_cons.mp here with same | later
        · refine Or.inr ⟨by rw [same]; exact List.mem_cons_self, ?_⟩
          intro first same'
          rw [same]
          exact Nat.ne_of_lt (older first (List.mem_of_find?_eq_some same'))
        · rcases ih handlesRest later with first | ⟨there, others⟩
          · exact Or.inl first
          · exact Or.inr ⟨List.mem_cons_of_mem _ there, others⟩

/-- The table after a change in place, from what holds of the changed job and of the others. -/
theorem Table.updateFirst (table : Table jobs nextId allocated children) {wanted : Job → Bool}
    {change : Job → Job} (keeps : Keeps change) {found : Job}
    (here : jobs.find? wanted = some found) {left : List Child}
    (sub : left.Sublist children)
    (target : (change found).remaining = unreaped left found.handle ∧
      ((change found).state = .done ↔ (change found).remaining = 0))
    (others : ∀ handle, handle ≠ found.handle → unreaped left handle = unreaped children handle) :
    Table (Jobs.updateFirst wanted change jobs) nextId allocated left := by
  have keys := map_key_updateFirst wanted keeps jobs
  have changedOrKept {job : Job} (there : job ∈ Jobs.updateFirst wanted change jobs) :
      job = change found ∨ (job ∈ jobs ∧ job.handle ≠ found.handle) := by
    rcases mem_updateFirst table.handles there with ⟨first, same, changed⟩ | ⟨kept, other⟩
    · rw [here] at same
      rw [Option.some.inj same]
      exact Or.inl changed
    · exact Or.inr ⟨kept, fun same => other found here same.symm⟩
  refine ⟨pairwise_of_keys keys (fun newer older => older.1 < newer.1) table.handles,
    pairwise_of_keys keys (fun newer older => older.2.1 < newer.2.1) table.ids, ?_, ?_, ?_, ?_, ?_,
    ?_, table.distinct.sublist sub⟩
  · intro job there
    obtain ⟨old, before, -, id, -⟩ := mem_of_keys keys there
    rw [← id]
    exact table.idBound old before
  · intro job there
    obtain ⟨old, before, handle, -⟩ := mem_of_keys keys there
    rw [← handle]
    exact table.handleBound old before
  · intro job there
    rcases changedOrKept there with rfl | ⟨before, other⟩
    · rw [keeps.handle]
      exact target.1
    · rw [others _ other]
      exact table.counted job before
  · intro job there
    rcases changedOrKept there with rfl | ⟨before, other⟩
    · exact target.2
    · exact table.done job before
  · intro child there
    obtain ⟨job, before, owner, lists⟩ := table.owned child (sub.subset there)
    obtain ⟨new, after, handle, -, pids⟩ := mem_of_keys keys.symm before
    refine ⟨new, after, handle.trans owner, ?_⟩
    rw [pids]
    exact lists
  · intro child there job after lists
    obtain ⟨old, before, handle, -, pids⟩ := mem_of_keys keys after
    rw [← handle]
    apply table.newest child (sub.subset there) old before
    rw [pids]
    exact lists

theorem keeps_update (status : WaitStatus) : Keeps fun job => job.update status := by
  constructor
  all_goals
    intro job
    cases status <;> rfl

/-! ## Reports -/

/-- The process with a pid, taken from the children. -/
theorem unreaped_filter (distinct : children.Pairwise fun first second => first.pid ≠ second.pid)
    {child : Child} (here : child ∈ children) (handle : Nat) :
    unreaped (children.filter fun other => other.pid ≠ child.pid) handle +
      (if child.owner = handle then 1 else 0) = unreaped children handle := by
  induction children with
  | nil => cases here
  | cons first rest ih =>
      obtain ⟨apart, distinctRest⟩ := List.pairwise_cons.mp distinct
      rcases List.mem_cons.mp here with rfl | later
      · have kept : rest.filter (fun other => other.pid ≠ child.pid) = rest := by
          rw [List.filter_eq_self]
          intro other there
          simpa using (apart other there).symm
        rw [List.filter_cons_of_neg (by simp), kept, unreaped, unreaped, List.countP_cons]
        simp
      · have other := apart child later
        have tail := ih distinctRest later
        rw [List.filter_cons_of_pos (by simpa using other)]
        simp only [unreaped, List.countP_cons] at tail ⊢
        omega

theorem Table.report (table : Table jobs nextId allocated children) {child : Child}
    (here : child ∈ children) (status : WaitStatus) :
    Table (jobsUpdateStatus jobs child.pid status) nextId allocated
      (if status.reaped then children.filter fun other => other.pid ≠ child.pid else children) := by
  obtain ⟨job, there, found, owner⟩ := table.find_owner here
  obtain ⟨positive, busy⟩ := table.owner_busy here there owner
  have exit_ : (job.exit.remaining =
      unreaped (children.filter fun other => other.pid ≠ child.pid) job.handle) ∧
      (job.exit.state = .done ↔ job.exit.remaining = 0) := by
    have count := unreaped_filter table.distinct here job.handle
    rw [if_pos owner.symm, ← table.counted job there] at count
    simp only [Job.exit, if_pos positive]
    refine ⟨by omega, ?_⟩
    split_ifs with last
    · simp [last]
    · simp [last, busy]
  have others (handle : Nat) (other : handle ≠ job.handle) :
      unreaped (children.filter fun other => other.pid ≠ child.pid) handle =
        unreaped children handle := by
    have count := unreaped_filter table.distinct here handle
    rw [if_neg (fun same => other (same.symm.trans owner.symm))] at count
    exact count
  have alive (state : JobState) (live : state ≠ .done) :
      (job.remaining = unreaped children job.handle) ∧
        (state = .done ↔ job.remaining = 0) :=
    ⟨table.counted job there, fun same => absurd same live, fun none => by omega⟩
  cases status with
  | stopped =>
      exact table.updateFirst (keeps_update .stopped) found (List.Sublist.refl _)
        (alive .stopped (by decide)) fun _ _ => rfl
  | continued =>
      exact table.updateFirst (keeps_update .continued) found (List.Sublist.refl _)
        (alive .running (by decide)) fun _ _ => rfl
  | exited status =>
      exact table.updateFirst (keeps_update (.exited status)) found List.filter_sublist exit_ others
  | signaled signal =>
      exact table.updateFirst (keeps_update (.signaled signal)) found List.filter_sublist exit_
        others

theorem Table.resume (table : Table jobs nextId allocated children) (id : Int) (ok : Bool) :
    Table (Jobs.resume jobs id ok) nextId allocated children := by
  unfold Jobs.resume
  cases found : jobsFindId jobs id with
  | none => exact table
  | some job =>
      simp only
      split_ifs with refused
      · exact table
      · have there : job ∈ jobs := List.mem_of_find?_eq_some found
        have busy : job.state ≠ .done := fun done => refused (Or.inl done)
        have keeps : Keeps fun other => { other with state := .running } :=
          ⟨fun _ => rfl, fun _ => rfl, fun _ => rfl⟩
        have target : job.remaining = unreaped children job.handle ∧
            (JobState.running = .done ↔ job.remaining = 0) := by
          refine ⟨table.counted job there, nofun, fun none => ?_⟩
          exact absurd ((table.done job there).mpr none) busy
        exact table.updateFirst keeps found (List.Sublist.refl _) target fun _ _ => rfl

/-! ## Removals -/

theorem Table.eq_of_handle (table : Table jobs nextId allocated children) {first second : Job}
    (here : first ∈ jobs) (there : second ∈ jobs) (same : first.handle = second.handle) :
    first = second := by
  have apart : (jobs.map Job.handle).Nodup := by
    rw [List.Nodup, List.pairwise_map]
    exact table.handles.imp fun below => Nat.ne_of_gt below
  exact List.inj_on_of_nodup_map apart here there same

/-- Jobs that are done may go. -/
theorem Table.sublist (table : Table jobs nextId allocated children) {left : List Job}
    (sub : left.Sublist jobs) (kept : ∀ job ∈ jobs, job.state ≠ .done → job ∈ left) :
    Table left nextId allocated children := by
  refine ⟨table.handles.sublist sub, table.ids.sublist sub, ?_, ?_, ?_, ?_, ?_, ?_,
    table.distinct⟩
  · exact fun job here => table.idBound job (sub.subset here)
  · exact fun job here => table.handleBound job (sub.subset here)
  · exact fun job here => table.counted job (sub.subset here)
  · exact fun job here => table.done job (sub.subset here)
  · intro child here
    obtain ⟨job, there, owner, lists⟩ := table.owned child here
    have busy := (table.owner_busy here there owner).2
    exact ⟨job, kept job there busy, owner, lists⟩
  · exact fun child here job there => table.newest child here job (sub.subset there)

/-- Only the job at the address goes. -/
theorem mem_jobsRemove {list : List Job} {job : Job} (here : job ∈ list) {handle : Nat}
    (other : job.handle ≠ handle) : job ∈ jobsRemove list handle :=
  (List.mem_eraseP_of_neg (by simpa using other)).mpr here

theorem Table.kept_of_remove (table : Table jobs nextId allocated children) {list : List Job}
    (sub : list.Sublist jobs) {finished : Job} (there : finished ∈ jobs)
    (done : finished.state = .done) {job : Job} (here : job ∈ list) (busy : job.state ≠ .done) :
    job ∈ jobsRemove list finished.handle := by
  apply mem_jobsRemove here
  intro same
  apply busy
  rw [table.eq_of_handle (sub.subset here) there same]
  exact done

theorem removeFinished_kept (table : Table jobs nextId allocated children) (handle : Nat) :
    (removeFinished jobs handle).Sublist jobs ∧
      ∀ job ∈ jobs, job.state ≠ .done → job ∈ removeFinished jobs handle := by
  unfold removeFinished
  cases found : jobs.find? fun job => job.handle = handle with
  | none => exact ⟨List.Sublist.refl _, fun _ here _ => here⟩
  | some finished =>
      have there : finished ∈ jobs := List.mem_of_find?_eq_some found
      have same : finished.handle = handle := by
        simpa using List.find?_some found
      simp only
      split_ifs with done
      · refine ⟨List.eraseP_sublist, fun job here busy => ?_⟩
        rw [← same]
        exact table.kept_of_remove (List.Sublist.refl _) there done here busy
      · exact ⟨List.Sublist.refl _, fun _ here _ => here⟩

/-- The walk over `walked`, from what is left of the jobs. -/
theorem removeDone_walk (table : Table jobs nextId allocated children) (walked : List Job)
    (inside : ∀ job ∈ walked, job ∈ jobs) {list : List Job} (sub : list.Sublist jobs)
    (kept : ∀ job ∈ jobs, job.state ≠ .done → job ∈ list) :
    let left := walked.foldl
      (fun list job => if job.state = .done then jobsRemove list job.handle else list) list
    left.Sublist jobs ∧ ∀ job ∈ jobs, job.state ≠ .done → job ∈ left := by
  induction walked generalizing list with
  | nil => exact ⟨sub, kept⟩
  | cons first rest ih =>
      have insideRest (job : Job) (here : job ∈ rest) := inside job (List.mem_cons_of_mem _ here)
      rw [List.foldl_cons]
      split_ifs with done
      · apply ih insideRest (List.eraseP_sublist.trans sub)
        intro job here busy
        exact table.kept_of_remove sub (inside first List.mem_cons_self) done (kept job here busy)
          busy
      · exact ih insideRest sub kept

theorem jobsRemoveDone_kept (table : Table jobs nextId allocated children) :
    (jobsRemoveDone jobs).Sublist jobs ∧
      ∀ job ∈ jobs, job.state ≠ .done → job ∈ jobsRemoveDone jobs :=
  removeDone_walk table jobs (fun _ here => here) (List.Sublist.refl _) fun _ here _ => here

/-! ## A new pipeline -/

theorem unreaped_childrenOf (owner : Nat) (pids : List Pid) (handle : Nat) :
    unreaped (childrenOf owner pids ++ children) handle =
      (if owner = handle then pids.length else 0) + unreaped children handle := by
  rw [unreaped, List.countP_append, childrenOf, List.countP_map]
  split_ifs with same
  · rw [List.countP_eq_length.mpr (by simp [same])]
    rfl
  · rw [List.countP_eq_zero.mpr (by simp [same])]
    rfl

theorem Table.launch (table : Table jobs nextId allocated children) (pgid : Pid)
    {pids : List Pid} (command : Bytes) (some_ : pids ≠ []) (nodup : pids.Nodup)
    (free : ∀ pid ∈ pids, ∀ child ∈ children, child.pid ≠ pid) :
    Table
      ({ handle := allocated, id := nextId, pgid, pids, remaining := pids.length,
         state := .running, command } :: jobs)
      (nextId + 1) (allocated + 1) (childrenOf allocated pids ++ children) := by
  have older : ∀ child ∈ children, child.owner < allocated := by
    intro child here
    obtain ⟨job, there, owner, -⟩ := table.owned child here
    rw [← owner]
    exact table.handleBound job there
  have newborn {child : Child} (here : child ∈ childrenOf allocated pids) :
      child.pid ∈ pids ∧ child.owner = allocated := by
    obtain ⟨pid, there, rfl⟩ := List.mem_map.mp here
    exact ⟨there, rfl⟩
  refine ⟨List.pairwise_cons.mpr ⟨table.handleBound, table.handles⟩,
    List.pairwise_cons.mpr ⟨table.idBound, table.ids⟩, ?_, ?_, ?_, ?_, ?_, ?_, ?_⟩
  · rw [List.forall_mem_cons]
    refine ⟨Int.lt_add_one_iff.mpr (Int.le_refl _), fun job here => ?_⟩
    have bound := table.idBound job here
    omega
  · rw [List.forall_mem_cons]
    refine ⟨Nat.lt_succ_self _, fun job here => ?_⟩
    have bound := table.handleBound job here
    omega
  · rw [List.forall_mem_cons]
    constructor
    · have none_ : unreaped children allocated = 0 := by
        rw [unreaped, List.countP_eq_zero]
        intro child here
        simpa using Nat.ne_of_lt (older child here)
      rw [unreaped_childrenOf, if_pos rfl, none_]
      rfl
    · intro job here
      have bound := table.handleBound job here
      rw [unreaped_childrenOf, if_neg (by omega), Nat.zero_add]
      exact table.counted job here
  · rw [List.forall_mem_cons]
    refine ⟨⟨nofun, fun none_ => ?_⟩, table.done⟩
    exact absurd (List.length_eq_zero_iff.mp none_) some_
  · intro child here
    rcases List.mem_append.mp here with new | old
    · obtain ⟨listed, owner⟩ := newborn new
      exact ⟨_, List.mem_cons_self, owner.symm, listed⟩
    · obtain ⟨job, there, owner, lists⟩ := table.owned child old
      exact ⟨job, List.mem_cons_of_mem _ there, owner, lists⟩
  · intro child here job there lists
    rcases List.mem_append.mp here with new | old
    · rw [(newborn new).2]
      rcases List.mem_cons.mp there with rfl | before
      · exact Nat.le_refl _
      · exact Nat.le_of_lt (table.handleBound job before)
    · rcases List.mem_cons.mp there with rfl | before
      -- a pid that a child still has is not among the new ones
      · exact absurd rfl (free child.pid lists child old)
      · exact table.newest child old job before lists
  · rw [List.pairwise_append]
    refine ⟨?_, table.distinct, fun first here second there same => ?_⟩
    · rw [childrenOf, List.pairwise_map]
      exact nodup
    · exact free first.pid (newborn here).1 second there same.symm

end Invariant

/-! ## Runs -/

def System.Consistent (system : System) : Prop :=
  Table system.list.head system.list.nextId system.list.allocated system.children

theorem start_consistent : System.Consistent start := by
  refine ⟨List.Pairwise.nil, List.Pairwise.nil, nofun, nofun, nofun, nofun, nofun, nofun,
    List.Pairwise.nil⟩

theorem step_consistent {system next : System} {event : Event}
    (consistent : System.Consistent system) (admissible : Admissible system event)
    (taken : step system event = some next) : System.Consistent next := by
  cases event with
  | launch pgid pids command =>
      obtain ⟨some_, nodup, free⟩ := admissible
      obtain ⟨list, added, rfl⟩ := Option.map_eq_some_iff.mp taken
      unfold jobsAdd at added
      split_ifs at added
      obtain rfl := Option.some.inj added
      exact Table.launch consistent pgid command some_ nodup free
  | report pid status =>
      obtain ⟨child, here, rfl⟩ := admissible
      obtain rfl := Option.some.inj taken
      exact Table.report consistent here status
  | resume id ok =>
      obtain rfl := Option.some.inj taken
      exact Table.resume consistent id ok
  | removeFinished handle =>
      obtain rfl := Option.some.inj taken
      obtain ⟨sub, kept⟩ := removeFinished_kept consistent handle
      exact Table.sublist consistent sub kept
  | removeDone =>
      obtain rfl := Option.some.inj taken
      obtain ⟨sub, kept⟩ := jobsRemoveDone_kept consistent
      exact Table.sublist consistent sub kept

theorem run_consistent {schedule : List Event} {system : System}
    (admits : AdmitsPartial step Admissible start schedule)
    (ran : runPartial step start schedule = some system) : System.Consistent system :=
  runPartial_keeps System.Consistent step_consistent schedule start_consistent admits ran

/-- A job that is not done stays, whatever happens next. -/
theorem step_keeps_busy {system next : System} {event : Event}
    (consistent : System.Consistent system) (taken : step system event = some next)
    {job : Job} (here : job ∈ system.list.head) (busy : job.state ≠ .done) :
    ∃ other ∈ next.list.head, other.handle = job.handle := by
  have replaced {wanted : Job → Bool} {change : Job → Job} (keeps : Keeps change) :
      ∃ other ∈ updateFirst wanted change system.list.head, other.handle = job.handle := by
    obtain ⟨other, there, handle, -⟩ :=
      mem_of_keys (map_key_updateFirst wanted keeps system.list.head).symm here
    exact ⟨other, there, handle⟩
  cases event with
  | launch pgid pids command =>
      obtain ⟨list, added, rfl⟩ := Option.map_eq_some_iff.mp taken
      unfold jobsAdd at added
      split_ifs at added
      obtain rfl := Option.some.inj added
      exact ⟨job, List.mem_cons_of_mem _ here, rfl⟩
  | report pid status =>
      obtain rfl := Option.some.inj taken
      exact replaced (keeps_update status)
  | resume id ok =>
      obtain rfl := Option.some.inj taken
      show ∃ other ∈ Jobs.resume system.list.head id ok, other.handle = job.handle
      unfold Jobs.resume
      split
      · exact ⟨job, here, rfl⟩
      · split_ifs
        · exact ⟨job, here, rfl⟩
        · exact replaced ⟨fun _ => rfl, fun _ => rfl, fun _ => rfl⟩
  | removeFinished handle =>
      obtain rfl := Option.some.inj taken
      exact ⟨job, (removeFinished_kept consistent handle).2 job here busy, rfl⟩
  | removeDone =>
      obtain rfl := Option.some.inj taken
      exact ⟨job, (jobsRemoveDone_kept consistent).2 job here busy, rfl⟩

/-- A report changes the job that owns the process, and no other. -/
theorem report_changes_owner {system next : System} {child : Child} {status : WaitStatus}
    (consistent : System.Consistent system) (here : child ∈ system.children)
    (taken : step system (.report child.pid status) = some next) {job : Job}
    (after : job ∈ next.list.head) :
    (job.handle = child.owner ∧
      ∃ owner ∈ system.list.head, owner.handle = child.owner ∧ job = owner.update status) ∨
      (job.handle ≠ child.owner ∧ job ∈ system.list.head) := by
  obtain rfl := Option.some.inj taken
  obtain ⟨owner, there, found, same⟩ := Table.find_owner consistent here
  rcases mem_updateFirst (Table.handles consistent) after with
    ⟨first, found', changed⟩ | ⟨kept, others⟩
  · obtain rfl := Option.some.inj (found.symm.trans found')
    refine Or.inl ⟨?_, owner, there, same, changed⟩
    rw [changed, (keeps_update status).handle, same]
  · exact Or.inr ⟨fun mine => others owner found (same.trans mine.symm), kept⟩

/-- Only the pipelines use up ids, and only their end stops a run. -/
theorem run_exists {system : System} (schedule : List Event)
    (room : system.list.nextId + (schedule.countP Event.launches : Int) ≤ intMax) :
    ∃ final, runPartial step system schedule = some final := by
  induction schedule generalizing system with
  | nil => exact ⟨system, rfl⟩
  | cons event rest ih =>
      rw [List.countP_cons] at room
      have forward {next : System} (taken : step system event = some next)
          (used : next.list.nextId =
            system.list.nextId + ((if event.launches then 1 else 0 : Nat) : Int)) :
          ∃ final, runPartial step system (event :: rest) = some final := by
        obtain ⟨final, ran⟩ := ih (by rw [used]; push_cast at room ⊢; omega)
        exact ⟨final, by rw [runPartial, taken, Option.bind_some, ran]⟩
      cases event with
      | launch pgid pids command =>
          have free : system.list.nextId < intMax := by
            simp only [Event.launches, if_true] at room
            push_cast at room
            omega
          exact forward (by rw [step, jobsAdd, if_pos free, Option.map_some]) rfl
      | report pid status => exact forward rfl (by simp [Event.launches])
      | resume id ok => exact forward rfl (by simp [Event.launches])
      | removeFinished handle => exact forward rfl (by simp [Event.launches])
      | removeDone => exact forward rfl (by simp [Event.launches])

/-- After every run the reports reach the job that owns the process, the counts are the
processes left, a job is done exactly when none is left and it goes no earlier, and the ids
are distinct. -/
theorem job_table_follows_processes (schedule : List Event) (system : System)
    (admits : AdmitsPartial step Admissible start schedule)
    (ran : runPartial step start schedule = some system) :
    (∀ child ∈ system.children, ∃ job,
      jobsFindPid system.list.head child.pid = some job ∧ job.handle = child.owner ∧
        ∀ status next, step system (.report child.pid status) = some next →
          ∀ other ∈ next.list.head,
            (other.handle = child.owner ∧ other = job.update status) ∨
              (other.handle ≠ child.owner ∧ other ∈ system.list.head)) ∧
      (∀ job ∈ system.list.head,
        job.remaining = unreaped system.children job.handle ∧
          (job.state = .done ↔ job.remaining = 0)) ∧
      (∀ event next, Admissible system event → step system event = some next →
        ∀ job ∈ system.list.head, (∀ other ∈ next.list.head, other.handle ≠ job.handle) →
          unreaped system.children job.handle = 0) ∧
      (system.list.head.map Job.id).Nodup := by
  have consistent := run_consistent admits ran
  refine ⟨?_, ?_, ?_, ?_⟩
  · intro child here
    obtain ⟨job, there, found, owner⟩ := Table.find_owner consistent here
    refine ⟨job, found, owner, fun status next taken other after => ?_⟩
    rcases report_changes_owner consistent here taken after with
      ⟨mine, before, listed, same, changed⟩ | kept
    · have unique := Table.eq_of_handle consistent listed there (same.trans owner.symm)
      rw [unique] at changed
      exact Or.inl ⟨mine, changed⟩
    · exact Or.inr kept
  · exact fun job here => ⟨Table.counted consistent job here, Table.done consistent job here⟩
  · intro event next _ taken job here gone
    have done : job.state = .done := by
      by_contra busy
      obtain ⟨other, after, same⟩ := step_keeps_busy consistent taken here busy
      exact gone other after same
    rw [← Table.counted consistent job here]
    exact (Table.done consistent job here).mp done
  · rw [List.Nodup, List.pairwise_map]
    exact (Table.ids consistent).imp fun below => Int.ne_of_gt below

/-- A job keeps the pid of its first process after that was reaped; a second job gets the same
pid and is the one that is found. -/
def recycled : List Event :=
  [.launch 40 [40, 41] [108, 115], .report 40 (.exited 0), .launch 40 [40] [99, 97, 116]]

theorem job_table_follows_processes_recycled :
    ((runPartial step start recycled).bind fun system => jobsFindPid system.list.head 40).map
      Job.handle = some 1 := by
  have admits : AdmitsPartial step Admissible start recycled := by decide
  obtain ⟨system, ran⟩ : ∃ system, runPartial step start recycled = some system := ⟨_, rfl⟩
  obtain ⟨job, found, owner, -⟩ :=
    (job_table_follows_processes recycled system admits ran).1 ⟨40, 1⟩ (by
      obtain rfl := Option.some.inj ran
      decide)
  rw [ran, Option.bind_some, found, Option.map_some, owner]

/-! ## The end of a foreground job -/

theorem removeFinished_not_done {jobs : List Job} {nextId : Int} {allocated : Nat}
    {children : List Child} (table : Table jobs nextId allocated children) {handle : Nat}
    {job : Job} (after : job ∈ removeFinished jobs handle) (same : job.handle = handle) :
    job.state ≠ .done := by
  unfold removeFinished at after
  cases found : jobs.find? fun job => job.handle = handle with
  | none =>
      simp only [found] at after
      have other := List.find?_eq_none.mp found job after
      exact absurd (by simpa using same) other
  | some finished =>
      have there : finished ∈ jobs := List.mem_of_find?_eq_some found
      have mine : finished.handle = handle := by simpa using List.find?_some found
      simp only [found] at after
      split_ifs at after with done
      · obtain ⟨first, before, rest, -, firstMine, parts, left⟩ :=
          List.exists_of_eraseP (p := fun job => decide (job.handle = handle)) there
            (decide_eq_true mine)
        have handles := table.handles
        rw [jobsRemove, left] at after
        rw [parts, List.pairwise_append, List.pairwise_cons] at handles
        have here : first.handle = handle := of_decide_eq_true firstMine
        rcases List.mem_append.mp after with newer | older
        · have below := handles.2.2 job newer first List.mem_cons_self
          omega
        · have below := handles.2.1.1 job older
          omega
      · have unique : job = finished :=
          table.eq_of_handle after there (same.trans mine.symm)
        rw [unique]
        exact done

theorem removeFinished_run {system : System} (consistent : System.Consistent system)
    (handle : Nat) :
    ∃ final, runPartial step system [.removeFinished handle] = some final ∧
      System.Consistent final ∧
      ∀ job ∈ final.list.head, job.handle = handle → job.state ≠ .done :=
  ⟨_, rfl, @step_consistent system _ (.removeFinished handle) consistent trivial rfl,
    fun _ after same => removeFinished_not_done consistent after same⟩

/-- `wait_foreground_job` is such a run, and leaves no finished job behind. -/
theorem waitEvents_run {system : System} (consistent : System.Consistent system) (handle : Nat)
    (reports : List (Pid × WaitStatus))
    (admits : AdmitsPartial step Admissible system (waitEvents handle system reports)) :
    ∃ final, runPartial step system (waitEvents handle system reports) = some final ∧
      System.Consistent final ∧
      ∀ job ∈ final.list.head, job.handle = handle → job.state ≠ .done := by
  induction reports generalizing system with
  | nil => exact removeFinished_run consistent handle
  | cons report rest ih =>
      obtain ⟨pid, status⟩ := report
      obtain ⟨next, taken⟩ : ∃ next, step system (.report pid status) = some next := ⟨_, rfl⟩
      rw [waitEvents] at admits ⊢
      split at admits
      · exact removeFinished_run consistent handle
      · split_ifs at admits ⊢ with waits
        · simp only [taken] at admits ⊢
          obtain ⟨final, ran, kept⟩ :=
            ih (step_consistent consistent admits.1 taken) (admits.2 next taken)
          refine ⟨final, ?_, kept⟩
          rw [runPartial, taken, Option.bind_some, ran]
        · exact removeFinished_run consistent handle

/-- `jobs_reap` never fails. -/
theorem reapEvents_run {system : System} (consistent : System.Consistent system)
    (reports : List (Pid × WaitStatus))
    (admits : AdmitsPartial step Admissible system (reapEvents reports)) :
    ∃ final, runPartial step system (reapEvents reports) = some final ∧
      System.Consistent final := by
  induction reports generalizing system with
  | nil => exact ⟨system, rfl, consistent⟩
  | cons report rest ih =>
      obtain ⟨pid, status⟩ := report
      obtain ⟨next, taken⟩ : ∃ next, step system (.report pid status) = some next := ⟨_, rfl⟩
      obtain ⟨final, ran, kept⟩ :=
        ih (step_consistent consistent admits.1 taken) (admits.2 next taken)
      refine ⟨final, ?_, kept⟩
      show (step system (.report pid status)).bind _ = _
      rw [taken, Option.bind_some]
      exact ran

end EmbeddedRuntime.Shell.JobTable
