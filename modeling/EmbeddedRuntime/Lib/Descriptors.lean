import Mathlib.Data.List.GetD
import Mathlib.Tactic.Common

/-!
# File descriptors

A process has a table of descriptors; each number is free or refers to an open
description.  A call that opens something takes the lowest free number, `dup2`
makes a number refer to what another refers to, and `fork` copies the table.
Two tables that look up alike are the same to every program.
-/

set_option autoImplicit false

namespace EmbeddedRuntime.Lib.Descriptors

universe u

abbrev Table (Description : Type u) := List (Option Description)

variable {Description : Type u}

/-- What a number refers to. -/
def lookup (table : Table Description) (fd : Nat) : Option Description := table.getD fd none

/-- A number made to refer to something, or to nothing. -/
def assign (table : Table Description) (fd : Nat) (entry : Option Description) :
    Table Description :=
  (table ++ List.replicate (fd + 1 - table.length) none).set fd entry

/-- The lowest free number. -/
def lowest (table : Table Description) : Nat := table.findIdx (·.isNone)

/-- A call that opens something. -/
def install (table : Table Description) (description : Description) :
    Nat × Table Description :=
  (lowest table, assign table (lowest table) (some description))

def close (table : Table Description) (fd : Nat) : Table Description := assign table fd none

/-- `dup2`; `none` when the first number refers to nothing. -/
def dup2 (table : Table Description) (source target : Nat) : Option (Table Description) :=
  match lookup table source with
  | none => none
  | some description =>
      if source = target then some table else some (assign table target (some description))

/-! ## Looking up -/

theorem lookup_assign (table : Table Description) (fd : Nat) (entry : Option Description)
    (other : Nat) : lookup (assign table fd entry) other = if other = fd then entry else
      lookup table other := by
  have room : fd < (table ++ List.replicate (fd + 1 - table.length) none).length := by
    rw [List.length_append, List.length_replicate]
    omega
  unfold lookup assign
  rw [List.getD_eq_getElem?_getD, List.getElem?_set]
  by_cases same : fd = other
  · rw [if_pos same, if_pos (same ▸ room), if_pos same.symm, Option.getD_some]
  · rw [if_neg same, if_neg fun equal => same equal.symm, List.getElem?_append]
    split_ifs with inside
    · rw [List.getD_eq_getElem?_getD]
    · rw [List.getD_eq_getElem?_getD, List.getElem?_eq_none (Nat.le_of_not_lt inside),
        List.getElem?_replicate]
      split_ifs <;> rfl

theorem lookup_lowest (table : Table Description) : lookup table (lowest table) = none := by
  unfold lookup lowest
  by_cases inside : table.findIdx (·.isNone) < table.length
  · rw [List.getD_eq_getElem _ _ inside]
    exact Option.isNone_iff_eq_none.mp (List.findIdx_getElem (w := inside))
  · exact List.getD_eq_default _ _ (Nat.le_of_not_lt inside)

/-- The numbers in use stay clear of the next one. -/
theorem lowest_ne {table : Table Description} {fd : Nat} (used : lookup table fd ≠ none) :
    lowest table ≠ fd := by
  rintro rfl
  exact used (lookup_lowest table)

theorem lookup_install (table : Table Description) (description : Description) (fd : Nat) :
    lookup (install table description).2 fd =
      if fd = (install table description).1 then some description else lookup table fd :=
  lookup_assign table _ _ fd

theorem lookup_close (table : Table Description) (fd other : Nat) :
    lookup (close table fd) other = if other = fd then none else lookup table other :=
  lookup_assign table fd none other

theorem dup2_some {table after : Table Description} {source target : Nat}
    (done : dup2 table source target = some after) (fd : Nat) :
    lookup after fd = if fd = target then lookup table source else lookup table fd := by
  unfold dup2 at done
  cases found : lookup table source with
  | none =>
      rw [found] at done
      cases done
  | some description =>
      rw [found] at done
      dsimp only at done
      split_ifs at done with same
      · cases done
        split_ifs with here
        · rw [here, ← same, found]
        · rfl
      · cases done
        exact lookup_assign table target _ fd

theorem dup2_isSome {table : Table Description} {source : Nat} (target : Nat)
    (used : lookup table source ≠ none) : ∃ after, dup2 table source target = some after := by
  unfold dup2
  cases found : lookup table source with
  | none => exact absurd found used
  | some description =>
      dsimp only
      split_ifs
      · exact ⟨_, rfl⟩
      · exact ⟨_, rfl⟩

/-- A list of numbers closed one after the other. -/
theorem lookup_closeAll (table : Table Description) (fds : List Nat) (fd : Nat) :
    lookup (fds.foldl close table) fd = if fd ∈ fds then none else lookup table fd := by
  induction fds generalizing table with
  | nil => simp
  | cons first rest ih =>
      rw [List.foldl_cons, ih, lookup_close]
      by_cases later : fd ∈ rest
      · rw [if_pos later, if_pos (List.mem_cons_of_mem _ later)]
      · by_cases here : fd = first
        · rw [if_neg later, if_pos here, if_pos (by rw [here]; exact List.mem_cons_self)]
        · rw [if_neg later, if_neg here, if_neg (by simp [here, later])]

end EmbeddedRuntime.Lib.Descriptors
