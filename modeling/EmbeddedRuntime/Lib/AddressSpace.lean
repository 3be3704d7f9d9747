import Mathlib.Data.List.Basic

/-!
# Address spaces

A memory gives each address a cell or nothing.  Ranges of addresses are placed,
changed and removed; everything outside the range is left alone.

`Tracks before mem ranges` says that `mem` is `before` with these ranges placed on
free addresses, each of them on its own.  Placing, changing inside and removing
keep it, and removing every tracked range gives `before` back.
-/

set_option autoImplicit false

namespace EmbeddedRuntime.Lib.AddressSpace

structure Range where
  addr : Nat
  length : Nat
  deriving DecidableEq, Repr

namespace Range

def Contains (range : Range) (a : Nat) : Prop :=
  range.addr ≤ a ∧ a < range.addr + range.length

instance (range : Range) (a : Nat) : Decidable (range.Contains a) :=
  inferInstanceAs (Decidable (_ ∧ _))

theorem forall_contains (range : Range) (P : Nat → Prop) :
    (∀ a, range.Contains a → P a) ↔ ∀ i, i < range.length → P (range.addr + i) := by
  constructor
  · intro every i below
    exact every _ ⟨by omega, by omega⟩
  · intro every a inside
    obtain ⟨above, below⟩ := inside
    have shifted := every (a - range.addr) (by omega)
    rwa [Nat.add_sub_cancel' above] at shifted

/-- A property of every address of the range is decided address by address. -/
def decidableForall (range : Range) (P : Nat → Prop) (decide : ∀ a, Decidable (P a)) :
    Decidable (∀ a, range.Contains a → P a) :=
  @decidable_of_iff _ (∀ i, i < range.length → P (range.addr + i))
    (range.forall_contains P).symm
    (@Nat.decidableBallLT range.length (fun i _ => P (range.addr + i))
      (fun i _ => decide (range.addr + i)))

def Disjoint (left right : Range) : Prop := ∀ a, left.Contains a → ¬ right.Contains a

end Range

abbrev Memory (Cell : Type) := Nat → Option Cell

namespace Memory

variable {Cell : Type}

/-- No address of the range has a cell. -/
def Free (mem : Memory Cell) (range : Range) : Prop := ∀ a, range.Contains a → mem a = none

instance (mem : Memory Cell) (range : Range) : Decidable (mem.Free range) :=
  range.decidableForall (fun a => mem a = none) fun a => Option.decidableEqNone (mem a)

def place (mem : Memory Cell) (range : Range) (cells : Nat → Cell) : Memory Cell :=
  fun a => if range.Contains a then some (cells a) else mem a

def change (mem : Memory Cell) (range : Range) (edit : Cell → Cell) : Memory Cell :=
  fun a => if range.Contains a then (mem a).map edit else mem a

def remove (mem : Memory Cell) (range : Range) : Memory Cell :=
  fun a => if range.Contains a then none else mem a

/-- The last range first. -/
def removeAll (mem : Memory Cell) (ranges : List Range) : Memory Cell :=
  ranges.foldr (fun range mem => mem.remove range) mem

theorem place_inside (mem : Memory Cell) (range : Range) (cells : Nat → Cell) (a : Nat)
    (inside : range.Contains a) : mem.place range cells a = some (cells a) :=
  if_pos inside

theorem place_outside (mem : Memory Cell) (range : Range) (cells : Nat → Cell) (a : Nat)
    (outside : ¬ range.Contains a) : mem.place range cells a = mem a :=
  if_neg outside

theorem change_inside (mem : Memory Cell) (range : Range) (edit : Cell → Cell) (a : Nat)
    (inside : range.Contains a) : mem.change range edit a = (mem a).map edit :=
  if_pos inside

theorem change_outside (mem : Memory Cell) (range : Range) (edit : Cell → Cell) (a : Nat)
    (outside : ¬ range.Contains a) : mem.change range edit a = mem a :=
  if_neg outside

theorem removeAll_apply (mem : Memory Cell) (ranges : List Range) (a : Nat) :
    (mem.removeAll ranges) a = if ∃ range ∈ ranges, range.Contains a then none else mem a := by
  induction ranges with
  | nil => simp [removeAll]
  | cons range ranges ih =>
    change (if range.Contains a then none else mem.removeAll ranges a) = _
    rw [ih]
    by_cases inside : range.Contains a
    · simp [inside]
    · simp [inside]

/-- A cell that exists is not touched by a placement on free addresses. -/
theorem place_of_some (mem : Memory Cell) (range : Range) (cells : Nat → Cell) (a : Nat)
    (cell : Cell) (free : mem.Free range) (present : mem a = some cell) :
    mem.place range cells a = some cell := by
  by_cases inside : range.Contains a
  · rw [free a inside] at present
    cases present
  · rw [place_outside mem range cells a inside, present]

theorem remove_place (mem : Memory Cell) (range : Range) (cells : Nat → Cell)
    (free : mem.Free range) : (mem.place range cells).remove range = mem := by
  funext a
  by_cases inside : range.Contains a
  · rw [remove, if_pos inside, free a inside]
  · rw [remove, if_neg inside, place_outside mem range cells a inside]

end Memory

variable {Cell : Type}

structure Tracks (before mem : Memory Cell) (ranges : List Range) : Prop where
  fresh : ∀ range ∈ ranges, before.Free range
  filled : ∀ range ∈ ranges, ∀ a, range.Contains a → mem a ≠ none
  outside : ∀ a, (∀ range ∈ ranges, ¬ range.Contains a) → mem a = before a
  disjoint : ranges.Pairwise Range.Disjoint

namespace Tracks

theorem start (mem : Memory Cell) : Tracks mem mem [] where
  fresh := nofun
  filled := nofun
  outside _ _ := rfl
  disjoint := .nil

/-- A free range meets no tracked range. -/
theorem free_disjoint {before mem : Memory Cell} {ranges : List Range}
    (tracks : Tracks before mem ranges) {range : Range} (free : mem.Free range) :
    ∀ tracked ∈ ranges, tracked.Disjoint range := by
  intro tracked mem' a inside inRange
  exact tracks.filled tracked mem' a inside (free a inRange)

theorem place {before mem : Memory Cell} {ranges : List Range}
    (tracks : Tracks before mem ranges) (range : Range) (cells : Nat → Cell)
    (free : mem.Free range) : Tracks before (mem.place range cells) (ranges ++ [range]) where
  fresh := by
    intro tracked mem' a inside
    obtain old | new := List.mem_append.mp mem'
    · exact tracks.fresh tracked old a inside
    · obtain rfl := List.mem_singleton.mp new
      rw [← tracks.outside a fun other here there =>
        tracks.free_disjoint free other here a there inside]
      exact free a inside
  filled := by
    intro tracked mem' a inside
    by_cases inRange : range.Contains a
    · rw [Memory.place_inside mem range cells a inRange]
      exact Option.some_ne_none _
    · rw [Memory.place_outside mem range cells a inRange]
      obtain old | new := List.mem_append.mp mem'
      · exact tracks.filled tracked old a inside
      · exact absurd (List.mem_singleton.mp new ▸ inside) inRange
  outside := by
    intro a apart
    rw [Memory.place_outside mem range cells a (apart range (by simp))]
    exact tracks.outside a fun other here => apart other (List.mem_append_left _ here)
  disjoint := by
    rw [List.pairwise_append]
    refine ⟨tracks.disjoint, List.pairwise_singleton _ _, fun tracked here other there => ?_⟩
    obtain rfl := List.mem_singleton.mp there
    exact tracks.free_disjoint free tracked here

/-- A change inside one tracked range. -/
theorem change {before mem : Memory Cell} {ranges : List Range}
    (tracks : Tracks before mem ranges) (range part : Range) (edit : Cell → Cell)
    (tracked : range ∈ ranges) (within : ∀ a, part.Contains a → range.Contains a) :
    Tracks before (mem.change part edit) ranges where
  fresh := tracks.fresh
  filled := by
    intro other here a inside
    have present := tracks.filled other here a inside
    by_cases inPart : part.Contains a
    · rw [Memory.change_inside mem part edit a inPart]
      exact fun gone => present (Option.map_eq_none_iff.mp gone)
    · rwa [Memory.change_outside mem part edit a inPart]
  outside := by
    intro a apart
    rw [Memory.change_outside mem part edit a fun inPart => apart range tracked (within a inPart)]
    exact tracks.outside a apart
  disjoint := tracks.disjoint

theorem removeAll {before mem : Memory Cell} {ranges : List Range}
    (tracks : Tracks before mem ranges) : mem.removeAll ranges = before := by
  funext a
  rw [Memory.removeAll_apply]
  split
  case isTrue inside =>
    obtain ⟨range, here, inside⟩ := inside
    exact (tracks.fresh range here a inside).symm
  case isFalse apart =>
    exact tracks.outside a fun range here inside => apart ⟨range, here, inside⟩

end Tracks

end EmbeddedRuntime.Lib.AddressSpace
