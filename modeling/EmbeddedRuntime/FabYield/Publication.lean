import EmbeddedRuntime.FabYield.Publish

/-!
# A snapshot is published as a whole

A pipeline writes where nobody looks, and what the name of the snapshot shows
has been written, flushed and synchronised before.  So a request reads one
publication, whole, and a power failure leaves one.
-/

set_option autoImplicit false

namespace EmbeddedRuntime.FabYield.Publish

open EmbeddedRuntime.Bmc.Python (Bytes)
open EmbeddedRuntime.Lib.Files EmbeddedRuntime.Lib.Machine

section
variable {Name : Type} {name destination : Name} {job : Job} {disk : Disk Name UInt8}

/-! ## One pipeline -/

/-- The text of a job, complete and on the disk, under a name of its own. -/
structure Written (disk : Disk Name UInt8) (name : Name) (job : Job) (i : Nat) : Prop where
  held : Held disk name i
  content : disk.content i = job.text
  synced : disk.synced i = true
  complete : job.raises = false

/-- What a pipeline knows of its file. -/
def Owns (disk : Disk Name UInt8) (name : Name) (job : Job) : Phase → Prop
  | .starting | .ended _ => disk.entries name = none
  | .writing i left buffer =>
      Held disk name i ∧ disk.content i ++ (buffer ++ left.flatten) = job.writes.flatten
  | .flushing i buffer =>
      Held disk name i ∧ disk.content i ++ buffer = job.text ∧ job.raises = false
  | .syncing i => Held disk name i ∧ disk.content i = job.text ∧ job.raises = false
  | .chmodding i => Written disk name job i
  | .closing i buffer raised =>
      Held disk name i ∧ (raised = false → buffer = [] ∧ Written disk name job i)
  | .replacing => ∃ i, Written disk name job i
  | .leaving raised => raised = false → disk.entries name = none
  | .unlinking _ | .littered | .killed => True

/-- The work of others on their files does not matter. -/
theorem Owns.leaves {after : Disk Name UInt8} {other : Name} (ne : name ≠ other)
    (notShown : name ≠ destination) (leaves : Leaves other destination disk after) {phase : Phase}
    (owns : Owns disk name job phase) : Owns after name job phase := by
  have held := fun i => leaves.held name i ne notShown
  have free := leaves.absent name ne notShown
  have written : ∀ i, Written disk name job i → Written after name job i := fun i w =>
    have ⟨here, content, synced⟩ := held i w.held
    ⟨here, content.trans w.content, synced w.synced, w.complete⟩
  cases phase with
  | starting => exact free owns
  | ended raised => exact free owns
  | writing i left buffer =>
    obtain ⟨here, content, -⟩ := held i owns.1
    exact ⟨here, content ▸ owns.2⟩
  | flushing i buffer =>
    obtain ⟨here, content, -⟩ := held i owns.1
    exact ⟨here, content ▸ owns.2⟩
  | syncing i =>
    obtain ⟨here, content, -⟩ := held i owns.1
    exact ⟨here, content ▸ owns.2⟩
  | chmodding i => exact written i owns
  | closing i buffer raised =>
    exact ⟨(held i owns.1).1, fun fine => ⟨(owns.2 fine).1, written i (owns.2 fine).2⟩⟩
  | replacing =>
    obtain ⟨i, w⟩ := owns
    exact ⟨i, written i w⟩
  | leaving raised => exact fun fine => free (owns fine)
  | unlinking raised => trivial
  | littered => trivial
  | killed => trivial

theorem writes_flatten (complete : job.raises = false) : job.writes.flatten = job.text := by
  rw [Job.writes, complete]
  simp [Job.text]

/-- The name of the snapshot shows what it has shown before, or the complete text. -/
def Shows (disk after : Disk Name UInt8) (destination : Name) (job : Job) : Prop :=
  after.entries destination = disk.entries destination ∨
    ∃ i, after.entries destination = some i ∧ after.content i = job.text ∧
      after.synced i = true ∧ job.raises = false

/-- What one turn of a pipeline does to the disk. -/
structure Turn (disk : Disk Name UInt8) (name destination : Name) (job : Job)
    (next : Phase × Disk Name UInt8) : Prop where
  leaves : Leaves name destination disk next.2
  owns : Owns next.2 name job next.1
  shows : Shows disk next.2 destination job

theorem append_held {i : Nat} (held : Held disk name i) (bytes : Bytes) :
    Held (disk.append i bytes) name i :=
  held.same_entries (append_entries bytes) (append_versions bytes)

section
variable (numbered : Numbered disk)
include numbered

theorem turn_idle {phase : Phase} (owns : Owns disk name job phase) :
    Turn disk name destination job (phase, disk) :=
  ⟨Leaves.refl numbered, owns, .inl rfl⟩

theorem turn_append {i : Nat} (ne : destination ≠ name) (held : Held disk name i) (bytes : Bytes)
    {phase : Phase} (owns : Owns (disk.append i bytes) name job phase) :
    Turn disk name destination job (phase, disk.append i bytes) :=
  ⟨append_leaves numbered held ne bytes, owns, .inl (congrFun (append_entries bytes) _)⟩

variable [DecidableEq Name]

theorem turn_starting (ne : destination ≠ name) (o : Outcome) (free : disk.entries name = none) :
    Turn disk name destination job (writeAtomic name destination job o disk .starting) := by
  rw [writeAtomic]
  cases o.ending with
  | fine =>
    dsimp only
    cases made : disk.create name with
    | none => exact turn_idle numbered free
    | some created =>
      obtain ⟨i, created⟩ := created
      obtain ⟨-, rfl, entries, -, content, -⟩ := create_eq_some made
      refine ⟨create_leaves numbered made, ⟨create_held numbered made, ?_⟩, .inl ?_⟩
      · change created.content disk.next ++ _ = _
        rw [content, Function.update_self, List.nil_append, List.nil_append]
      · change created.entries destination = _
        rw [entries, Function.update_of_ne ne]
  | raises => exact turn_idle numbered free
  | killed => exact turn_idle numbered trivial

theorem turn_writing {i : Nat} {left : List Bytes} {buffer : Bytes} (ne : destination ≠ name)
    (o : Outcome) (owns : Owns disk name job (.writing i left buffer)) :
    Turn disk name destination job
      (writeAtomic name destination job o disk (.writing i left buffer)) := by
  obtain ⟨held, content⟩ := owns
  cases left with
  | nil =>
    rw [writeAtomic]
    have dumped : Turn disk name destination job
        (if job.raises then (.closing i buffer true, disk) else (.flushing i buffer, disk)) := by
      split
      · exact turn_idle numbered ⟨held, nofun⟩
      · rename_i complete
        have complete : job.raises = false := by simpa using complete
        rw [writes_flatten complete, List.flatten_nil, List.append_nil] at content
        exact turn_idle numbered ⟨held, content, complete⟩
    cases o.ending with
    | fine => exact dumped
    | raises => exact dumped
    | killed => exact turn_idle numbered trivial
  | cons piece left =>
    rw [writeAtomic]
    have append := append_held held ((buffer ++ piece).take o.bytes)
    cases o.ending with
    | fine =>
      refine turn_append numbered ne held _ ⟨append, ?_⟩
      rw [append_content, ← content, List.append_assoc, ← List.append_assoc (List.take ..),
        List.take_append_drop, List.flatten_cons, List.append_assoc]
    | raises => exact turn_append numbered ne held _ ⟨append, nofun⟩
    | killed => exact turn_append numbered ne held _ trivial

theorem turn_flushing {i : Nat} {buffer : Bytes} (ne : destination ≠ name) (o : Outcome)
    (owns : Owns disk name job (.flushing i buffer)) :
    Turn disk name destination job
      (writeAtomic name destination job o disk (.flushing i buffer)) := by
  obtain ⟨held, content, complete⟩ := owns
  rw [writeAtomic]
  cases o.ending with
  | fine =>
    refine turn_append numbered ne held _ ⟨append_held held buffer, ?_, complete⟩
    rw [append_content, content]
  | raises => exact turn_append numbered ne held _ ⟨append_held held _, nofun⟩
  | killed => exact turn_append numbered ne held _ trivial

theorem turn_syncing {i : Nat} (o : Outcome) (owns : Owns disk name job (.syncing i)) :
    Turn disk name destination job (writeAtomic name destination job o disk (.syncing i)) := by
  obtain ⟨held, content, complete⟩ := owns
  rw [writeAtomic]
  cases o.ending with
  | fine =>
    exact ⟨sync_leaves numbered, ⟨held.same_entries rfl rfl, content, sync_synced, complete⟩,
      .inl rfl⟩
  | raises => exact turn_idle numbered ⟨held, nofun⟩
  | killed => exact turn_idle numbered trivial

theorem turn_closing {i : Nat} {buffer : Bytes} {raised : Bool} (ne : destination ≠ name)
    (o : Outcome) (owns : Owns disk name job (.closing i buffer raised)) :
    Turn disk name destination job
      (writeAtomic name destination job o disk (.closing i buffer raised)) := by
  obtain ⟨held, written⟩ := owns
  rw [writeAtomic]
  cases o.ending with
  | fine =>
    refine turn_append numbered ne held buffer ?_
    cases raised with
    | true => exact nofun
    | false =>
      -- there is nothing left in the buffer
      obtain ⟨rfl, complete⟩ := written rfl
      exact ⟨i, complete⟩
  | raises => exact turn_append numbered ne held _ nofun
  | killed => exact turn_append numbered ne held _ trivial

theorem turn_replacing (ne : destination ≠ name) (o : Outcome)
    (owns : Owns disk name job .replacing) :
    Turn disk name destination job (writeAtomic name destination job o disk .replacing) := by
  obtain ⟨i, written⟩ := owns
  rw [writeAtomic]
  cases o.ending with
  | fine =>
    dsimp only
    cases moved : disk.rename name destination with
    | none => exact turn_idle numbered nofun
    | some renamed =>
      have leaves := rename_leaves numbered moved
      obtain ⟨j, entry, rfl⟩ := rename_eq_some moved
      obtain rfl : i = j := Option.some.inj (written.held.entry.symm.trans entry)
      refine ⟨leaves, fun _ => ?_, .inr ⟨i, Function.update_self .., written.content,
        written.synced, written.complete⟩⟩
      exact (Function.update_of_ne ne.symm ..).trans (Function.update_self ..)
  | raises => exact turn_idle numbered nofun
  | killed => exact turn_idle numbered trivial

theorem turn_leaving {raised : Bool} (o : Outcome) :
    Turn disk name destination job
      (writeAtomic name destination job o disk (.leaving raised)) := by
  rw [writeAtomic]
  have left : Turn disk name destination job
      (if (disk.entries name).isSome then .unlinking raised else .ended raised, disk) := by
    split
    · exact turn_idle numbered trivial
    · rename_i absent
      have free : disk.entries name = none := by simpa using absent
      exact turn_idle numbered free
  cases o.ending with
  | fine => exact left
  | raises => exact left
  | killed => exact turn_idle numbered trivial

theorem turn_unlinking {raised : Bool} (ne : destination ≠ name) (o : Outcome) :
    Turn disk name destination job
      (writeAtomic name destination job o disk (.unlinking raised)) := by
  rw [writeAtomic]
  cases o.ending with
  | fine =>
    dsimp only
    cases removed : disk.unlink name with
    | none => exact turn_idle numbered (Option.map_eq_none_iff.mp removed)
    | some unlinked =>
      have leaves : Leaves name destination disk unlinked := unlink_leaves numbered removed
      obtain ⟨j, -, rfl⟩ := unlink_eq_some removed
      exact ⟨leaves, Function.update_self .., .inl (Function.update_of_ne ne ..)⟩
  | raises => exact turn_idle numbered trivial
  | killed => exact turn_idle numbered trivial

theorem writeAtomic_turn (ne : destination ≠ name) (o : Outcome) {phase : Phase}
    (owns : Owns disk name job phase) :
    Turn disk name destination job (writeAtomic name destination job o disk phase) := by
  cases phase with
  | starting => exact turn_starting numbered ne o owns
  | writing i left buffer => exact turn_writing numbered ne o owns
  | flushing i buffer => exact turn_flushing numbered ne o owns
  | syncing i => exact turn_syncing numbered o owns
  | chmodding i =>
    rw [writeAtomic]
    cases o.ending with
    | fine => exact turn_idle numbered ⟨owns.held, fun _ => ⟨rfl, owns⟩⟩
    | raises => exact turn_idle numbered ⟨owns.held, nofun⟩
    | killed => exact turn_idle numbered trivial
  | closing i buffer raised => exact turn_closing numbered ne o owns
  | replacing => exact turn_replacing numbered ne o owns
  | leaving raised => exact turn_leaving numbered o
  | unlinking raised => exact turn_unlinking numbered ne o
  | ended raised => exact turn_idle numbered owns
  | littered => exact turn_idle numbered trivial
  | killed => exact turn_idle numbered trivial

end

end

/-! ## Pipelines and requests -/

section
variable {Writer Reader Name : Type} (setup : Setup Writer Name)

/-- The text there at first, or all that some pipeline has to publish. -/
def Complete (initial : Disk Name UInt8) (text : Bytes) : Prop :=
  initial.lookup setup.destination = some text ∨
    ∃ w, (setup.job w).raises = false ∧ (setup.job w).text = text

/-- An inode that the name of the snapshot has had. -/
def Shown (disk : Disk Name UInt8) (i : Nat) : Prop :=
  ∃ v ∈ disk.versions, v setup.destination = some i

structure Sound (initial : Disk Name UInt8) (s : State Writer Reader Name) : Prop where
  numbered : Numbered s.disk
  owns : ∀ w, Owns s.disk (setup.temp w) (setup.job w) (s.writers w)
  whole : ∀ i, Shown setup s.disk i →
    s.disk.synced i = true ∧ Complete setup initial (s.disk.content i)
  reading : ∀ r i text, s.readers r = .reading i text →
    Shown setup s.disk i ∧ text <+: s.disk.content i

variable {setup} {initial : Disk Name UInt8} {s : State Writer Reader Name}

theorem Shown.leaves {disk after : Disk Name UInt8} {name : Name} {i : Nat}
    (shown : Shown setup disk i) (leaves : Leaves name setup.destination disk after) :
    Shown setup after i := by
  obtain ⟨v, member, entry⟩ := shown
  exact ⟨v, leaves.versions v member, entry⟩

theorem start_sound (settled : Settled setup initial) :
    Sound setup initial (start initial : State Writer Reader Name) where
  numbered := settled.numbered
  owns := settled.clear
  whole i shown := by
    obtain ⟨v, member, entry⟩ := shown
    change v ∈ initial.entries :: initial.earlier at member
    rw [settled.only, List.mem_singleton] at member
    subst member
    exact ⟨settled.synced i entry, .inl (by rw [Disk.lookup, entry]; rfl)⟩
  reading _ _ _ opened := nomatch opened

/-- What a turn of a request has read is a part of the file it has opened. -/
theorem snapshotRead_reading {disk : Disk Name UInt8} {destination : Name} (o : Outcome)
    {reading : Reading} {i : Nat} {text : Bytes}
    (opened : snapshotRead destination o disk reading = .reading i text) :
    (reading = .found ∧ disk.entries destination = some i ∧ text = []) ∨
      ∃ before, reading = .reading i before ∧
        (before <+: disk.content i → text <+: disk.content i) := by
  cases reading with
  | starting =>
    rw [snapshotRead] at opened
    split at opened <;> cases opened
  | found =>
    rw [snapshotRead] at opened
    split at opened
    · rename_i entry
      cases opened
      exact .inl ⟨rfl, entry, rfl⟩
    · cases opened
  | reading j before =>
    rw [snapshotRead] at opened
    split at opened
    · dsimp only at opened
      split at opened
      · cases opened
      · cases opened
        refine .inr ⟨before, rfl, ?_⟩
        rintro ⟨rest, whole⟩
        rw [← whole, List.drop_left, List.prefix_append_right_inj]
        exact List.take_prefix ..
    · cases opened
  | finished result => cases opened

variable [DecidableEq Name]

theorem write_turn (sound : Sound setup initial s) (w : Writer) (o : Outcome) :
    Turn s.disk (setup.temp w) setup.destination (setup.job w)
      (writeAtomic (setup.temp w) setup.destination (setup.job w) o s.disk (s.writers w)) :=
  writeAtomic_turn sound.numbered (setup.apart w) o (sound.owns w)

variable [DecidableEq Writer] [DecidableEq Reader]

theorem write_sound (sound : Sound setup initial s) (w : Writer) (o : Outcome) :
    Sound setup initial (step setup s (.write w o)) := by
  have turn := write_turn sound w o
  refine ⟨turn.leaves.numbered, fun other => ?_, fun i shown => ?_, fun r i text opened => ?_⟩
  · by_cases same : other = w
    · subst same
      change Owns _ _ _ (Function.update s.writers other _ other)
      rw [Function.update_self]
      exact turn.owns
    · change Owns _ _ _ (Function.update s.writers w _ other)
      rw [Function.update_of_ne same]
      exact (sound.owns other).leaves (fun equal => same (setup.distinct equal))
        (setup.apart other).symm turn.leaves
  · have before : Shown setup s.disk i → _ := fun old =>
      have kept := turn.leaves.kept i old
      have whole := sound.whole i old
      (⟨kept.2 whole.1, kept.1 ▸ whole.2⟩ : _ ∧ Complete setup initial _)
    obtain ⟨v, member, entry⟩ := shown
    rcases turn.leaves.added v member with rfl | old
    · rcases turn.shows with same | ⟨j, here, content, synced, complete⟩
      · exact before ⟨s.disk.entries, entries_mem s.disk, same.symm.trans entry⟩
      · obtain rfl := Option.some.inj (here.symm.trans entry)
        exact ⟨synced, .inr ⟨w, complete, content.symm⟩⟩
    · exact before ⟨v, old, entry⟩
  · obtain ⟨shown, begun⟩ := sound.reading r i text opened
    exact ⟨shown.leaves turn.leaves, (turn.leaves.kept i shown).1 ▸ begun⟩

theorem read_sound (sound : Sound setup initial s) (r : Reader) (o : Outcome) :
    Sound setup initial (step setup s (.read r o)) := by
  refine ⟨sound.numbered, sound.owns, sound.whole, fun other i text opened => ?_⟩
  change Function.update s.readers r _ other = _ at opened
  by_cases same : other = r
  · subst same
    rw [Function.update_self] at opened
    rcases snapshotRead_reading o opened with ⟨-, entry, rfl⟩ | ⟨before, reading, grown⟩
    · exact ⟨⟨s.disk.entries, entries_mem s.disk, entry⟩, List.nil_prefix⟩
    · obtain ⟨shown, begun⟩ := sound.reading other i before reading
      exact ⟨shown, grown begun⟩
  · rw [Function.update_of_ne same] at opened
    exact sound.reading other i text opened

theorem step_sound (sound : Sound setup initial s) (action : Action Writer Reader) :
    Sound setup initial (step setup s action) := by
  cases action with
  | write w o => exact write_sound sound w o
  | read r o => exact read_sound sound r o

theorem run_sound (sound : Sound setup initial s) (schedule : List (Action Writer Reader)) :
    Sound setup initial (run (step setup) s schedule) :=
  run_invariant (Sound setup initial)
    (fun _ action sound _ => step_sound sound action) s schedule sound
    (admits_true (step setup) s schedule)

/-! ## What stays -/

/-- A file that has been shown is not written any more. -/
theorem step_shown (sound : Sound setup initial s) (action : Action Writer Reader) {i : Nat}
    (shown : Shown setup s.disk i) :
    Shown setup (step setup s action).disk i ∧
      (step setup s action).disk.content i = s.disk.content i := by
  cases action with
  | write w o =>
    have turn := write_turn sound w o
    exact ⟨shown.leaves turn.leaves, (turn.leaves.kept i shown).1⟩
  | read r o => exact ⟨shown, rfl⟩

theorem run_shown (sound : Sound setup initial s) (schedule : List (Action Writer Reader))
    {i : Nat} (shown : Shown setup s.disk i) :
    (run (step setup) s schedule).disk.content i = s.disk.content i := by
  induction schedule generalizing s with
  | nil => rfl
  | cons action rest ih =>
    obtain ⟨still, content⟩ := step_shown sound action shown
    exact (ih (step_sound sound action) still).trans content

theorem step_visible (sound : Sound setup initial s) (action : Action Writer Reader)
    (there : visible setup s ≠ none) : visible setup (step setup s action) ≠ none := by
  have entry : s.disk.entries setup.destination ≠ none := by
    simpa [visible, Disk.lookup] using there
  suffices (step setup s action).disk.entries setup.destination ≠ none by
    simpa [visible, Disk.lookup] using this
  cases action with
  | write w o =>
    rcases (write_turn sound w o).shows with same | ⟨i, here, -⟩
    · exact same ▸ entry
    · exact fun absent => nomatch here.symm.trans absent
  | read r o => exact entry

theorem run_visible (sound : Sound setup initial s) (schedule : List (Action Writer Reader))
    (there : visible setup s ≠ none) : visible setup (run (step setup) s schedule) ≠ none := by
  induction schedule generalizing s with
  | nil => exact there
  | cons action rest ih => exact ih (step_sound sound action) (step_visible sound action there)

end

end EmbeddedRuntime.FabYield.Publish
