import Mathlib.Data.List.Basic

/-!
# Pages of a list

Windows of one size, side by side.
-/

set_option autoImplicit false

namespace EmbeddedRuntime.Lib.Paging

variable {A : Type}

def window (start size : Nat) (items : List A) : List A := (items.drop start).take size

theorem window_eq_nil {start size : Nat} (positive : 0 < size) (items : List A) :
    window start size items = [] ↔ items.length ≤ start := by
  rw [window, List.take_eq_nil_iff, List.drop_eq_nil_iff]
  exact or_iff_right (Nat.ne_of_gt positive)

/-- The first pages are the first items. -/
theorem pages_take (size count : Nat) (items : List A) :
    ((List.range count).flatMap fun i => window (i * size) size items) =
      items.take (count * size) := by
  induction count with
  | zero => simp
  | succ count ih =>
    rw [List.range_succ, List.flatMap_append, ih, List.flatMap_singleton, Nat.succ_mul,
      List.take_add]
    rfl

/-- The number of pages that are not empty. -/
def pageCount (size : Nat) (items : List A) : Nat := (items.length + size - 1) / size

theorem lt_pageCount {size : Nat} (positive : 0 < size) (items : List A) (i : Nat) :
    i < pageCount size items ↔ i * size < items.length := by
  have step := Nat.succ_mul i size
  rw [pageCount, ← Nat.succ_le_iff, Nat.le_div_iff_mul_le positive, step]
  omega

theorem pages_cover {size : Nat} (positive : 0 < size) (items : List A) :
    ((List.range (pageCount size items)).flatMap fun i => window (i * size) size items) = items := by
  have covered : items.length ≤ pageCount size items * size :=
    Nat.not_lt.mp fun short => Nat.lt_irrefl _ ((lt_pageCount positive items _).mpr short)
  rw [pages_take, List.take_of_length_le covered]

end EmbeddedRuntime.Lib.Paging
