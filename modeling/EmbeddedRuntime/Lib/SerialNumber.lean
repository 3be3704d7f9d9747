import Mathlib.Data.List.Chain
import Mathlib.Algebra.Order.Group.Int
import Mathlib.Tactic.Common

/-!
# Serial numbers

A 32-bit word follows another when it is ahead of it, modulo `2 ^ 32`, by less
than half the space.  A chain of such words lifts to an increasing chain of
integers, and the lift decides what the words alone cannot: a word returns only
after the chain has passed half the space.
-/

set_option autoImplicit false

namespace EmbeddedRuntime.Lib.SerialNumber

def Follows (last next : UInt32) : Prop := next - last ≠ 0 ∧ next - last < 0x80000000

/-- Integers that stand for the words of a list, increasing by less than half
the space. -/
structure Lifting (lifted : List Int) (words : List UInt32) : Prop where
  congruent : List.Forall₂ (fun u word => u % 4294967296 = (UInt32.toNat word : Int)) lifted words
  chain : lifted.IsChain fun u next => u < next ∧ next - u < 2147483648

/-- The distance between two words, read off their integers. -/
theorem toNat_sub_lifted {last next : UInt32} {u v : Int}
    (lastEq : u % 4294967296 = (last.toNat : Int)) (nextEq : v % 4294967296 = (next.toNat : Int)) :
    ((next - last).toNat : Int) = (v - u) % 4294967296 := by
  have distance := UInt32.toNat_sub next last
  have lastLt := last.toNat_lt
  omega

theorem follows_iff_lifted {last next : UInt32} {u v : Int}
    (lastEq : u % 4294967296 = (last.toNat : Int)) (nextEq : v % 4294967296 = (next.toNat : Int)) :
    Follows last next ↔ 0 < (v - u) % 4294967296 ∧ (v - u) % 4294967296 < 2147483648 := by
  have distance := toNat_sub_lifted lastEq nextEq
  have half : (0x80000000 : UInt32).toNat = 2147483648 := rfl
  have nonzero : next - last ≠ 0 ↔ (next - last).toNat ≠ 0 :=
    not_congr UInt32.toNat_inj.symm
  rw [Follows, nonzero, UInt32.lt_iff_toNat_lt, half]
  omega

theorem lifting_exists (words : List UInt32) (chain : words.IsChain Follows) :
    ∃ lifted, Lifting lifted words := by
  have from_base : ∀ (rest : List UInt32) (first : UInt32) (base : Int),
      base % 4294967296 = (first.toNat : Int) → (first :: rest).IsChain Follows →
      ∃ lifted, Lifting (base :: lifted) (first :: rest) := by
    intro rest
    induction rest with
    | nil =>
        intro first base same _
        exact ⟨[], .cons same .nil, .singleton _⟩
    | cons next rest ih =>
        intro first base same links
        obtain ⟨follows, later⟩ := List.isChain_cons_cons.mp links
        have firstLt := first.toNat_lt
        have nextLt := next.toNat_lt
        have step := UInt32.toNat_sub next first
        have nextEq : (base + ((next - first).toNat : Int)) % 4294967296 = (next.toNat : Int) := by
          omega
        obtain ⟨lifted, lifting⟩ := ih next _ nextEq later
        have bounds := (follows_iff_lifted same nextEq).mp follows
        refine ⟨_ :: lifted, .cons same lifting.congruent, ?_⟩
        apply List.isChain_cons_cons.mpr
        refine ⟨?_, lifting.chain⟩
        have small := (next - first).toNat_lt
        omega
  cases words with
  | nil => exact ⟨[], .nil, .nil⟩
  | cons first rest =>
      have lt := first.toNat_lt
      obtain ⟨lifted, lifting⟩ := from_base rest first first.toNat (by omega) chain
      exact ⟨_, lifting⟩

section Lifted
variable {lifted : List Int} {words : List UInt32} (lifting : Lifting lifted words)
include lifting

theorem Lifting.word {i : Nat} {u : Int} {word : UInt32} (here : lifted[i]? = some u)
    (wordHere : words[i]? = some word) : u % 4294967296 = (word.toNat : Int) := by
  obtain ⟨inside, rfl⟩ := List.getElem?_eq_some_iff.mp here
  obtain ⟨wordInside, rfl⟩ := List.getElem?_eq_some_iff.mp wordHere
  exact List.Forall₂.get lifting.congruent inside wordInside

theorem Lifting.last {u : Int} {word : UInt32} (here : lifted.getLast? = some u)
    (wordHere : words.getLast? = some word) : u % 4294967296 = (word.toNat : Int) := by
  rw [List.getLast?_eq_getElem?] at here wordHere
  rw [lifting.congruent.length_eq] at here
  exact lifting.word here wordHere

/-- A word that is at most half the space behind the last one does not follow
it. -/
theorem Lifting.behind {i : Nat} {u lastU : Int} {word last : UInt32}
    (here : lifted[i]? = some u) (wordHere : words[i]? = some word)
    (lastHere : lifted.getLast? = some lastU) (lastWord : words.getLast? = some last)
    (near : lastU - u ≤ 2147483648) : ¬ Follows last word := by
  have congruent := lifting.word here wordHere
  have lastCongruent := lifting.last lastHere lastWord
  have ordered : u ≤ lastU := by
    obtain ⟨inside, rfl⟩ := List.getElem?_eq_some_iff.mp here
    rw [List.getLast?_eq_getElem?] at lastHere
    obtain ⟨lastInside, rfl⟩ := List.getElem?_eq_some_iff.mp lastHere
    have increasing := (lifting.chain.imp fun _ _ link => link.1).pairwise
    rcases Nat.lt_or_ge i (lifted.length - 1) with before | final
    · exact Int.le_of_lt (List.pairwise_iff_getElem.mp increasing i _ inside lastInside before)
    · have same : i = lifted.length - 1 := by omega
      subst same
      exact Int.le_refl _
  rw [follows_iff_lifted lastCongruent congruent]
  omega

/-- A word that occurs twice has been left behind by more than half the space
before its second occurrence. -/
theorem Lifting.repeated {i j : Nat} {u previous : Int} {word : UInt32} (before : i ≤ j)
    (here : words[i]? = some word) (again : words[j + 1]? = some word)
    (lower : lifted[i]? = some u) (upper : lifted[j]? = some previous) :
    2147483648 < previous - u := by
  have length := lifting.congruent.length_eq
  obtain ⟨wordInside, -⟩ := List.getElem?_eq_some_iff.mp again
  have congruent := lifting.word lower here
  have againCongruent := lifting.word (List.getElem?_eq_getElem (by omega)) again
  obtain ⟨inside, rfl⟩ := List.getElem?_eq_some_iff.mp lower
  obtain ⟨previousInside, rfl⟩ := List.getElem?_eq_some_iff.mp upper
  have increasing := (lifting.chain.imp fun _ _ link => link.1).pairwise
  have above := List.pairwise_iff_getElem.mp increasing i (j + 1) inside (by omega) (by omega)
  have link := List.isChain_iff_getElem.mp lifting.chain j (by omega)
  omega

end Lifted

end EmbeddedRuntime.Lib.SerialNumber
