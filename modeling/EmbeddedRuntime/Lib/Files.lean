import Mathlib.Data.List.Basic
import Mathlib.Logic.Function.Basic

/-!
# Files on a disk that may lose power

A directory maps names to inodes, an inode holds bytes.  A handle is an inode:
it outlives the name it was opened by.  What has been synchronised survives a
power failure; the directory then is any of those it has been so far, since
changes to it reach the disk late but in order.

`Held disk name i` says that the only name the inode ever had is this one, so
that whoever created it can still write unseen.
-/

set_option autoImplicit false

namespace EmbeddedRuntime.Lib.Files

universe u v
variable {Name : Type u} {Byte : Type v}

abbrev Directory (Name : Type u) := Name → Option Nat

structure Disk (Name : Type u) (Byte : Type v) where
  entries : Directory Name
  earlier : List (Directory Name)
  content : Nat → List Byte
  synced : Nat → Bool
  next : Nat

namespace Disk

variable (disk : Disk Name Byte)

/-- The directories so far, the present one first. -/
def versions : List (Directory Name) := disk.entries :: disk.earlier

def relink (entries : Directory Name) : Disk Name Byte :=
  { disk with entries, earlier := disk.entries :: disk.earlier }

def append (i : Nat) (bytes : List Byte) : Disk Name Byte :=
  if bytes.isEmpty then disk
  else
    { disk with
      content := Function.update disk.content i (disk.content i ++ bytes)
      synced := Function.update disk.synced i false }

/-- `fsync`. -/
def sync (i : Nat) : Disk Name Byte :=
  { disk with synced := Function.update disk.synced i true }

/-- What the file of this name holds. -/
def lookup (name : Name) : Option (List Byte) := (disk.entries name).map disk.content

end Disk

/-- What a power failure may leave of a disk. -/
structure Recovers (disk after : Disk Name Byte) : Prop where
  entries : after.entries ∈ disk.versions
  content : ∀ i, disk.synced i = true → after.content i = disk.content i

/-! ## The directory and the inodes apart -/

section
variable {disk : Disk Name Byte} {name : Name} {i : Nat}

@[simp] theorem relink_content (entries : Directory Name) :
    (disk.relink entries).content = disk.content := rfl

@[simp] theorem relink_entries (entries : Directory Name) :
    (disk.relink entries).entries = entries := rfl

theorem entries_mem (disk : Disk Name Byte) : disk.entries ∈ disk.versions := List.mem_cons_self

theorem append_directory (bytes : List Byte) :
    (disk.append i bytes).entries = disk.entries ∧ (disk.append i bytes).earlier = disk.earlier ∧
      (disk.append i bytes).next = disk.next := by
  unfold Disk.append
  split <;> exact ⟨rfl, rfl, rfl⟩

@[simp] theorem append_entries (bytes : List Byte) :
    (disk.append i bytes).entries = disk.entries := (append_directory bytes).1

@[simp] theorem append_next (bytes : List Byte) :
    (disk.append i bytes).next = disk.next := (append_directory bytes).2.2

@[simp] theorem append_versions (bytes : List Byte) :
    (disk.append i bytes).versions = disk.versions := by
  rw [Disk.versions, append_entries, (append_directory bytes).2.1]
  rfl

theorem append_content (bytes : List Byte) :
    (disk.append i bytes).content i = disk.content i ++ bytes := by
  unfold Disk.append
  split
  · rename_i empty
    rw [List.isEmpty_iff.mp empty, List.append_nil]
  · exact Function.update_self ..

theorem append_other {other : Nat} (bytes : List Byte) (ne : other ≠ i) :
    (disk.append i bytes).content other = disk.content other ∧
      (disk.append i bytes).synced other = disk.synced other := by
  unfold Disk.append
  split
  · exact ⟨rfl, rfl⟩
  · exact ⟨Function.update_of_ne ne .., Function.update_of_ne ne ..⟩

@[simp] theorem sync_synced : (disk.sync i).synced i = true := Function.update_self ..

theorem sync_keeps {other : Nat} (synced : disk.synced other = true) :
    (disk.sync i).synced other = true := by
  by_cases same : other = i
  · rw [same, sync_synced]
  · exact (Function.update_of_ne same ..).trans synced

end

/-! ## Inodes in use -/

/-- Numbers from `next` on have not been given to any file. -/
def Numbered (disk : Disk Name Byte) : Prop :=
  ∀ v ∈ disk.versions, ∀ name i, v name = some i → i < disk.next

/-- A file that has never had another name. -/
structure Held (disk : Disk Name Byte) (name : Name) (i : Nat) : Prop where
  entry : disk.entries name = some i
  only : ∀ v ∈ disk.versions, ∀ other, v other = some i → other = name

section
variable {disk : Disk Name Byte} {name : Name} {i : Nat}

theorem Held.lt (numbered : Numbered disk) (held : Held disk name i) : i < disk.next :=
  numbered _ (entries_mem disk) _ _ held.entry

/-- Nobody else has ever seen the file. -/
theorem Held.unseen {other : Name} {j : Nat} (held : Held disk name i) (ne : other ≠ name)
    {v : Directory Name} (member : v ∈ disk.versions) (entry : v other = some j) : j ≠ i := by
  rintro rfl
  exact ne (held.only v member other entry)

theorem Held.same_entries {after : Disk Name Byte} (held : Held disk name i)
    (entries : after.entries = disk.entries) (versions : after.versions = disk.versions) :
    Held after name i :=
  ⟨entries ▸ held.entry, versions ▸ held.only⟩

/-- A change of the directory that neither touches the name nor gives the inode another. -/
theorem Held.relinked {after : Disk Name Byte} (held : Held disk name i) {v : Directory Name}
    (entries : after.entries = v) (versions : after.versions = v :: disk.versions)
    (kept : v name = disk.entries name)
    (others : ∀ other, v other = some i → other = name) : Held after name i := by
  refine ⟨by rw [entries, kept, held.entry], ?_⟩
  rw [versions, List.forall_mem_cons]
  exact ⟨others, held.only⟩

theorem Numbered.relinked {after : Disk Name Byte} (numbered : Numbered disk)
    {v : Directory Name} (versions : after.versions = v :: disk.versions)
    (room : disk.next ≤ after.next)
    (bound : ∀ name i, v name = some i → i < after.next) : Numbered after := by
  unfold Numbered
  rw [versions, List.forall_mem_cons]
  exact ⟨bound, fun v member name i entry => Nat.lt_of_lt_of_le (numbered v member name i entry) room⟩

theorem Numbered.same_entries {after : Disk Name Byte} (numbered : Numbered disk)
    (versions : after.versions = disk.versions) (next : after.next = disk.next) :
    Numbered after := by
  unfold Numbered
  rw [versions, next]
  exact numbered

end

/-! ## Changes of the directory -/

section
variable [DecidableEq Name] (disk : Disk Name Byte)

namespace Disk

/-- `open` with `O_CREAT | O_EXCL`. -/
def create (name : Name) : Option (Nat × Disk Name Byte) :=
  match disk.entries name with
  | some _ => none
  | none =>
      some (disk.next,
        { disk.relink (Function.update disk.entries name (some disk.next)) with
          content := Function.update disk.content disk.next []
          synced := Function.update disk.synced disk.next false
          next := disk.next + 1 })

def rename (old new : Name) : Option (Disk Name Byte) :=
  (disk.entries old).map fun i =>
    disk.relink (Function.update (Function.update disk.entries old none) new (some i))

def unlink (name : Name) : Option (Disk Name Byte) :=
  (disk.entries name).map fun _ => disk.relink (Function.update disk.entries name none)

end Disk

variable {disk} {name : Name} {i : Nat}

theorem create_eq_some {created : Disk Name Byte}
    (made : disk.create name = some (i, created)) :
    disk.entries name = none ∧ i = disk.next ∧
      created.entries = Function.update disk.entries name (some disk.next) ∧
      created.versions = Function.update disk.entries name (some disk.next) :: disk.versions ∧
      created.content = Function.update disk.content disk.next [] ∧
      created.synced = Function.update disk.synced disk.next false ∧
      created.next = disk.next + 1 := by
  unfold Disk.create at made
  split at made
  · cases made
  · rename_i free
    cases made
    exact ⟨free, rfl, rfl, rfl, rfl, rfl, rfl⟩

theorem rename_eq_some {new : Name} {renamed : Disk Name Byte}
    (moved : disk.rename name new = some renamed) :
    ∃ i, disk.entries name = some i ∧
      renamed = disk.relink
        (Function.update (Function.update disk.entries name none) new (some i)) := by
  obtain ⟨i, here, rfl⟩ := Option.map_eq_some_iff.mp moved
  exact ⟨i, here, rfl⟩

theorem unlink_eq_some {unlinked : Disk Name Byte} (removed : disk.unlink name = some unlinked) :
    ∃ i, disk.entries name = some i ∧
      unlinked = disk.relink (Function.update disk.entries name none) := by
  obtain ⟨i, here, rfl⟩ := Option.map_eq_some_iff.mp removed
  exact ⟨i, here, rfl⟩

theorem Held.created {other : Name} {j : Nat} {created : Disk Name Byte}
    (numbered : Numbered disk) (held : Held disk name i)
    (made : disk.create other = some (j, created)) : Held created name i := by
  obtain ⟨free, -, entries, versions, -⟩ := create_eq_some made
  have ne : name ≠ other := by
    rintro rfl
    exact absurd (free.symm.trans held.entry) (by simp)
  refine held.relinked entries versions (Function.update_of_ne ne ..) fun third entry => ?_
  by_cases fresh : third = other
  · rw [fresh, Function.update_self, Option.some.injEq] at entry
    exact absurd (held.lt numbered) (by omega)
  · rw [Function.update_of_ne fresh] at entry
    exact held.only _ (entries_mem disk) third entry

theorem create_held {created : Disk Name Byte} (numbered : Numbered disk)
    (made : disk.create name = some (i, created)) : Held created name i := by
  obtain ⟨-, rfl, entries, versions, -⟩ := create_eq_some made
  refine ⟨by rw [entries, Function.update_self], ?_⟩
  rw [versions, List.forall_mem_cons]
  constructor
  · intro other entry
    by_contra ne
    rw [Function.update_of_ne ne] at entry
    exact absurd (numbered _ (entries_mem disk) _ _ entry) (by omega)
  · intro v member other entry
    exact absurd (numbered v member _ _ entry) (by omega)

theorem Held.renamed {old new : Name} {renamed : Disk Name Byte} (held : Held disk name i)
    (moved : disk.rename old new = some renamed) (notOld : name ≠ old) (notNew : name ≠ new) :
    Held renamed name i := by
  obtain ⟨j, entry, rfl⟩ := rename_eq_some moved
  refine held.relinked rfl rfl
    ((Function.update_of_ne notNew ..).trans (Function.update_of_ne notOld ..))
    fun other found => ?_
  rw [relink_entries] at found
  by_cases isNew : other = new
  · rw [isNew, Function.update_self] at found
    exact absurd (held.only _ (entries_mem disk) old (entry.trans found)) notOld.symm
  · rw [Function.update_of_ne isNew] at found
    by_cases isOld : other = old
    · rw [isOld, Function.update_self] at found
      cases found
    · rw [Function.update_of_ne isOld] at found
      exact held.only _ (entries_mem disk) other found

theorem Held.unlinked {other : Name} {unlinked : Disk Name Byte} (held : Held disk name i)
    (removed : disk.unlink other = some unlinked) (ne : name ≠ other) : Held unlinked name i := by
  obtain ⟨j, -, rfl⟩ := unlink_eq_some removed
  refine held.relinked rfl rfl (Function.update_of_ne ne ..) fun third entry => ?_
  rw [relink_entries] at entry
  by_cases same : third = other
  · rw [same, Function.update_self] at entry
    cases entry
  · rw [Function.update_of_ne same] at entry
    exact held.only _ (entries_mem disk) third entry

theorem Numbered.created {created : Disk Name Byte} (numbered : Numbered disk)
    (made : disk.create name = some (i, created)) : Numbered created := by
  obtain ⟨-, -, -, versions, -, -, next⟩ := create_eq_some made
  refine numbered.relinked versions (by omega) fun other j entry => ?_
  rw [next]
  by_cases same : other = name
  · rw [same, Function.update_self, Option.some.injEq] at entry
    omega
  · rw [Function.update_of_ne same] at entry
    exact Nat.lt_succ_of_lt (numbered _ (entries_mem disk) _ _ entry)

theorem Numbered.renamed {new : Name} {renamed : Disk Name Byte} (numbered : Numbered disk)
    (moved : disk.rename name new = some renamed) : Numbered renamed := by
  obtain ⟨j, here, rfl⟩ := rename_eq_some moved
  refine numbered.relinked rfl (Nat.le_refl _) fun other k entry => ?_
  rw [relink_entries] at entry
  by_cases isNew : other = new
  · rw [isNew, Function.update_self, Option.some.injEq] at entry
    exact entry ▸ numbered _ (entries_mem disk) _ _ here
  · rw [Function.update_of_ne isNew] at entry
    by_cases isOld : other = name
    · rw [isOld, Function.update_self] at entry
      cases entry
    · rw [Function.update_of_ne isOld] at entry
      exact numbered _ (entries_mem disk) _ _ entry

theorem Numbered.unlinked {unlinked : Disk Name Byte} (numbered : Numbered disk)
    (removed : disk.unlink name = some unlinked) : Numbered unlinked := by
  obtain ⟨j, -, rfl⟩ := unlink_eq_some removed
  refine numbered.relinked rfl (Nat.le_refl _) fun other k entry => ?_
  rw [relink_entries] at entry
  by_cases same : other = name
  · rw [same, Function.update_self] at entry
    cases entry
  · rw [Function.update_of_ne same] at entry
    exact numbered _ (entries_mem disk) _ _ entry

end

/-! ## Work behind a name -/

/-- What work on the file of one name leaves alone: the files and the free names of others, and
all that the public name has ever shown. -/
structure Leaves (name shown : Name) (disk after : Disk Name Byte) : Prop where
  numbered : Numbered after
  held : ∀ other i, other ≠ name → other ≠ shown → Held disk other i →
    Held after other i ∧ after.content i = disk.content i ∧
      (disk.synced i = true → after.synced i = true)
  absent : ∀ other, other ≠ name → other ≠ shown → disk.entries other = none →
    after.entries other = none
  versions : ∀ v ∈ disk.versions, v ∈ after.versions
  added : ∀ v ∈ after.versions, v = after.entries ∨ v ∈ disk.versions
  kept : ∀ i, (∃ v ∈ disk.versions, v shown = some i) →
    after.content i = disk.content i ∧ (disk.synced i = true → after.synced i = true)

section
variable {disk after : Disk Name Byte} {name shown : Name} {i : Nat}

theorem Leaves.refl (numbered : Numbered disk) : Leaves name shown disk disk :=
  ⟨numbered, fun _ _ _ _ held => ⟨held, rfl, id⟩, fun _ _ _ => id, fun _ => id,
    fun _ => .inr, fun _ _ => ⟨rfl, id⟩⟩

/-- The directory is what changes. -/
theorem Leaves.relinked {v : Directory Name} (entries : after.entries = v)
    (versions : after.versions = v :: disk.versions) (content : after.content = disk.content)
    (synced : after.synced = disk.synced) (numbered : Numbered after)
    (held : ∀ other i, other ≠ name → other ≠ shown → Held disk other i → Held after other i)
    (others : ∀ other, other ≠ name → other ≠ shown → v other = disk.entries other) :
    Leaves name shown disk after := by
  refine ⟨numbered, ?_, ?_, ?_, ?_, ?_⟩
  · intro other i notName notShown here
    rw [content, synced]
    exact ⟨held other i notName notShown here, rfl, id⟩
  · intro other notName notShown free
    rw [entries, others other notName notShown, free]
  · intro v' member
    rw [versions]
    exact List.mem_cons_of_mem _ member
  · rw [versions, entries]
    exact fun _ => List.mem_cons.mp
  · intro i _
    rw [content, synced]
    exact ⟨rfl, id⟩

theorem append_leaves (numbered : Numbered disk) (held : Held disk name i) (ne : shown ≠ name)
    (bytes : List Byte) : Leaves name shown disk (disk.append i bytes) := by
  refine ⟨numbered.same_entries (append_versions bytes) (append_next bytes), ?_, ?_, ?_, ?_, ?_⟩
  · intro other j notName _ here
    have apart := held.unseen notName (entries_mem disk) here.entry
    rw [(append_other bytes apart).1, (append_other bytes apart).2]
    exact ⟨here.same_entries (append_entries bytes) (append_versions bytes), rfl, id⟩
  · intro other _ _ free
    rw [append_entries, free]
  · intro v member
    rwa [append_versions]
  · rw [append_versions]
    exact fun _ => .inr
  · rintro j ⟨v, member, entry⟩
    have apart := held.unseen ne member entry
    rw [(append_other bytes apart).1, (append_other bytes apart).2]
    exact ⟨rfl, id⟩

theorem sync_leaves (numbered : Numbered disk) : Leaves name shown disk (disk.sync i) :=
  ⟨numbered.same_entries rfl rfl, fun _ _ _ _ held => ⟨held.same_entries rfl rfl, rfl, sync_keeps⟩,
    fun _ _ _ => id, fun _ => id, fun _ => .inr, fun _ _ => ⟨rfl, sync_keeps⟩⟩

variable [DecidableEq Name]

theorem create_leaves (numbered : Numbered disk) (made : disk.create name = some (i, after)) :
    Leaves name shown disk after := by
  obtain ⟨-, rfl, entries, versions, content, synced, -⟩ := create_eq_some made
  have old : ∀ j, j < disk.next → after.content j = disk.content j ∧
      (disk.synced j = true → after.synced j = true) := by
    intro j lt
    rw [content, synced, Function.update_of_ne (Nat.ne_of_lt lt),
      Function.update_of_ne (Nat.ne_of_lt lt)]
    exact ⟨rfl, id⟩
  refine ⟨numbered.created made, ?_, ?_, ?_, ?_, ?_⟩
  · intro other j _ _ here
    exact ⟨here.created numbered made, old j (here.lt numbered)⟩
  · intro other notName _ free
    rw [entries, Function.update_of_ne notName, free]
  · intro v member
    rw [versions]
    exact List.mem_cons_of_mem _ member
  · rw [versions, entries]
    exact fun _ => List.mem_cons.mp
  · rintro j ⟨v, member, entry⟩
    exact old j (numbered v member _ _ entry)

theorem rename_leaves (numbered : Numbered disk) (moved : disk.rename name shown = some after) :
    Leaves name shown disk after := by
  obtain ⟨j, -, same⟩ := rename_eq_some moved
  have kept : ∀ other i, other ≠ name → other ≠ shown → Held disk other i → Held after other i :=
    fun other i notName notShown here => here.renamed moved notName notShown
  have numbered := numbered.renamed moved
  subst same
  refine Leaves.relinked rfl rfl rfl rfl numbered kept fun other notName notShown => ?_
  exact (Function.update_of_ne notShown ..).trans (Function.update_of_ne notName ..)

theorem unlink_leaves (numbered : Numbered disk) (removed : disk.unlink name = some after) :
    Leaves name shown disk after := by
  obtain ⟨j, -, same⟩ := unlink_eq_some removed
  have kept : ∀ other i, other ≠ name → other ≠ shown → Held disk other i → Held after other i :=
    fun other i notName _ here => here.unlinked removed notName
  have numbered := numbered.unlinked removed
  subst same
  exact Leaves.relinked rfl rfl rfl rfl numbered kept
    fun other notName _ => Function.update_of_ne notName ..

end

end EmbeddedRuntime.Lib.Files
