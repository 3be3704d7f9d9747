import Mathlib.Algebra.Group.Nat.Defs
import Mathlib.Data.Nat.Basic

/-!
# 64-bit unsigned arithmetic on naturals

Machine words are naturals below `2^64`; sums and differences wrap.
-/

set_option autoImplicit false

namespace EmbeddedRuntime.Lib.Word64

def add64 (left right : Nat) : Nat := (left + right) % 2 ^ 64

def sub64 (left right : Nat) : Nat := (left + 2 ^ 64 - right) % 2 ^ 64

theorem add64_of_lt {left right : Nat} (small : left + right < 2 ^ 64) :
    add64 left right = left + right :=
  Nat.mod_eq_of_lt small

theorem sub64_of_le {left right : Nat} (ordered : right ≤ left) (small : left < 2 ^ 64) :
    sub64 left right = left - right := by
  unfold sub64
  omega

end EmbeddedRuntime.Lib.Word64
