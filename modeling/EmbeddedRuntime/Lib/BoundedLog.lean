import Mathlib.Data.List.Basic

/-!
# The end of a log

Entries of a log are numbered from one and keep their numbers.  A store that has
room for `limit` entries holds the newest ones, its window, and the number of
the oldest of them.
-/

set_option autoImplicit false

namespace EmbeddedRuntime.Lib.BoundedLog

universe u
variable {Entry : Type u}

/-- Entry number `number` of a log. -/
def entry (log : List Entry) (number : Nat) : Option Entry :=
  if number = 0 then none else log[number - 1]?

section Window
variable (limit : Nat)

/-- The newest entries. -/
def window (log : List Entry) : List Entry := log.drop (log.length - limit)

/-- The number of the oldest entry of the window. -/
def oldest (log : List Entry) : Nat := log.length - limit + 1

variable {limit} {log : List Entry}

@[simp] theorem length_window : (window limit log).length = min log.length limit := by
  rw [window, List.length_drop]
  omega

/-- An entry is added while there is room. -/
theorem window_append_room (room : log.length < limit) (new : Entry) :
    window limit (log ++ [new]) = window limit log ++ [new] := by
  have all : (log ++ [new]).length - limit = 0 := by
    rw [List.length_append, List.length_singleton]
    omega
  have before : log.length - limit = 0 := by omega
  rw [window, window, all, before, List.drop_zero, List.drop_zero]

/-- In a full window a new entry takes the place of the oldest. -/
theorem window_append_full (full : limit ≤ log.length) (positive : 0 < limit) (new : Entry) :
    window limit (log ++ [new]) = (window limit log).tail ++ [new] := by
  have next : (log ++ [new]).length - limit = log.length - limit + 1 := by
    rw [List.length_append, List.length_singleton]
    omega
  rw [window, window, next, List.tail_drop, List.drop_append_of_le_length (by omega)]

theorem oldest_append_room (room : log.length < limit) (new : Entry) :
    oldest limit (log ++ [new]) = oldest limit log := by
  rw [oldest, oldest, List.length_append, List.length_singleton]
  omega

theorem oldest_append_full (full : limit ≤ log.length) (new : Entry) :
    oldest limit (log ++ [new]) = oldest limit log + 1 := by
  rw [oldest, oldest, List.length_append, List.length_singleton]
  omega

/-- A number is the place in the window counted from the oldest. -/
theorem window_getElem? (index : Nat) :
    (window limit log)[index]? = entry log (oldest limit log + index) := by
  rw [window, List.getElem?_drop, entry, oldest, if_neg (by omega)]
  congr 1
  omega

/-- The last entries of the window are the last of the log. -/
theorem drop_window {count : Nat} (inside : count ≤ (window limit log).length) :
    (window limit log).drop ((window limit log).length - count) =
      log.drop (log.length - count) := by
  rw [length_window] at inside ⊢
  rw [window, List.drop_drop]
  congr 1
  omega

/-- What a store finds at a number: nothing outside of its window. -/
theorem window_lookup (number : Nat) :
    (if number < oldest limit log then none
      else (window limit log)[number - oldest limit log]?) =
      if 1 ≤ number ∧ log.length < number + limit then entry log number else none := by
  by_cases early : number < oldest limit log
  · have dropped : ¬ (1 ≤ number ∧ log.length < number + limit) := by
      unfold oldest at early
      omega
    rw [if_pos early, if_neg dropped]
  · have kept : 1 ≤ number ∧ log.length < number + limit := by
      unfold oldest at early
      omega
    rw [if_neg early, window_getElem?, Nat.add_sub_of_le (Nat.not_lt.mp early), if_pos kept]

end Window

end EmbeddedRuntime.Lib.BoundedLog
