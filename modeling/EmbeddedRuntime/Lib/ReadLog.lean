import Mathlib.Data.List.Basic

/-!
# Computations that log what they read

A value together with the list of entries read to compute it.  Sequencing appends
the logs, so a property of every entry is proved for each part on its own.
-/

set_option autoImplicit false

namespace EmbeddedRuntime.Lib.ReadLog

structure Logged (Entry α : Type) where
  value : α
  log : List Entry

section

variable {Entry α β : Type}

instance : Monad (Logged Entry) where
  pure value := ⟨value, []⟩
  bind first next := ⟨(next first.value).value, first.log ++ (next first.value).log⟩

/-- Read one entry. -/
def note (entry : Entry) (value : α) : Logged Entry α := ⟨value, [entry]⟩

@[simp] theorem note_value (entry : Entry) (value : α) : (note entry value).value = value := rfl

@[simp] theorem note_log (entry : Entry) (value : α) : (note entry value).log = [entry] := rfl

@[simp] theorem pure_log (value : α) : (pure value : Logged Entry α).log = [] := rfl

@[simp] theorem bind_value (first : Logged Entry α) (next : α → Logged Entry β) :
    (first >>= next).value = (next first.value).value := rfl

@[simp] theorem bind_log (first : Logged Entry α) (next : α → Logged Entry β) :
    (first >>= next).log = first.log ++ (next first.value).log := rfl

/-- A loop over the indices, one result each. -/
def each (indices : List α) (body : α → Logged Entry β) : Logged Entry (List β) :=
  ⟨indices.map fun index => (body index).value, indices.flatMap fun index => (body index).log⟩

theorem mem_each_log (indices : List α) (body : α → Logged Entry β) (entry : Entry) :
    entry ∈ (each indices body).log ↔ ∃ index ∈ indices, entry ∈ (body index).log :=
  List.mem_flatMap

/-- A loop that returns at the first result. -/
def firstSome (body : α → Logged Entry (Option β)) : List α → Logged Entry (Option β)
  | [] => pure none
  | index :: rest => do
    match ← body index with
    | some result => pure (some result)
    | none => firstSome body rest

theorem firstSome_value (indices : List α) (body : α → Logged Entry (Option β)) :
    (firstSome body indices).value = indices.findSome? fun index => (body index).value := by
  induction indices with
  | nil => rfl
  | cons index rest ih =>
    rw [firstSome, bind_value, List.findSome?_cons]
    cases (body index).value with
    | none => exact ih
    | some result => rfl

theorem mem_firstSome_log (indices : List α) (body : α → Logged Entry (Option β)) (entry : Entry)
    (mem : entry ∈ (firstSome body indices).log) : ∃ index ∈ indices, entry ∈ (body index).log := by
  induction indices with
  | nil => cases mem
  | cons index rest ih =>
    rw [firstSome, bind_log, List.mem_append] at mem
    obtain here | later := mem
    · exact ⟨index, List.mem_cons_self, here⟩
    · cases result : (body index).value with
      | some result' =>
        rw [result] at later
        cases later
      | none =>
        rw [result] at later
        obtain ⟨other, inside, logged⟩ := ih later
        exact ⟨other, List.mem_cons_of_mem _ inside, logged⟩

end

end EmbeddedRuntime.Lib.ReadLog
