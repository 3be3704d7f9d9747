import Mathlib.Data.List.Basic
import Mathlib.Algebra.GroupWithZero.Nat
import Mathlib.Algebra.Order.Group.Nat
import Mathlib.Algebra.BigOperators.Group.List.Basic

/-!
# Tilings of an address range by intervals

A list of half-open intervals `[start, stop)` is `Apart` when each one ends
before every later one begins, and `Covers` an address that lies in one of
them.  A part that tiles a range without a gap (`Spans`) may be exchanged for
any other part that tiles the same range: splitting one interval in two,
merging two that touch, and changing an interval's label are all of this form.
-/

set_option autoImplicit false

namespace EmbeddedRuntime.Lib.Tiling

universe u v
variable {Tile : Type u}

structure Shape (Tile : Type u) where
  start : Tile → Nat
  stop : Tile → Nat

variable (shape : Shape Tile)

def Apart (tiles : List Tile) : Prop :=
  tiles.Pairwise fun left right => shape.stop left ≤ shape.start right

def Covers (tiles : List Tile) (address : Nat) : Prop :=
  ∃ tile ∈ tiles, shape.start tile ≤ address ∧ address < shape.stop tile

/-- The tiles follow each other from `low` to `high` without gap or overlap. -/
def Spans : List Tile → Nat → Nat → Prop
  | [], low, high => low = high
  | tile :: rest, low, high =>
      shape.start tile = low ∧ shape.start tile ≤ shape.stop tile ∧
        Spans rest (shape.stop tile) high

def extent (tiles : List Tile) : Nat :=
  (tiles.map fun tile => shape.stop tile - shape.start tile).sum

variable {shape}

theorem Spans.le {tiles : List Tile} {low high : Nat} (spans : Spans shape tiles low high) :
    low ≤ high := by
  induction tiles generalizing low with
  | nil => exact Nat.le_of_eq spans
  | cons tile rest ih =>
      have later := ih spans.2.2
      have begins := spans.1
      have forward := spans.2.1
      omega

theorem Spans.bounds {tiles : List Tile} {low high : Nat} (spans : Spans shape tiles low high)
    (tile : Tile) (member : tile ∈ tiles) :
    low ≤ shape.start tile ∧ shape.stop tile ≤ high := by
  induction tiles generalizing low with
  | nil => simp at member
  | cons head rest ih =>
      have begins := spans.1
      have forward := spans.2.1
      have later := spans.2.2.le
      rcases List.mem_cons.mp member with rfl | member
      · omega
      · have inside := ih spans.2.2 member
        omega

/-- The last tile of a part ends where the range does. -/
theorem Spans.last_stop {tile : Tile} {rest : List Tile} {low high : Nat}
    (spans : Spans shape (tile :: rest) low high) :
    ∃ final ∈ tile :: rest, shape.stop final = high := by
  induction rest generalizing tile low with
  | nil => exact ⟨tile, by simp, spans.2.2⟩
  | cons next rest ih =>
      obtain ⟨final, inside, ends⟩ := ih spans.2.2
      exact ⟨final, List.mem_cons_of_mem _ inside, ends⟩

theorem Spans.apart {tiles : List Tile} {low high : Nat} (spans : Spans shape tiles low high) :
    Apart shape tiles := by
  induction tiles generalizing low with
  | nil => exact List.Pairwise.nil
  | cons tile rest ih =>
      exact List.pairwise_cons.mpr
        ⟨fun other member => (spans.2.2.bounds other member).1, ih spans.2.2⟩

theorem Spans.covers_iff {tiles : List Tile} {low high : Nat} (spans : Spans shape tiles low high)
    (address : Nat) : Covers shape tiles address ↔ low ≤ address ∧ address < high := by
  induction tiles generalizing low with
  | nil =>
      have empty : low = high := spans
      simp only [Covers, List.not_mem_nil, false_and, exists_false, false_iff]
      omega
  | cons tile rest ih =>
      have begins := spans.1
      have forward := spans.2.1
      have later := spans.2.2.le
      have split : Covers shape (tile :: rest) address ↔
          (shape.start tile ≤ address ∧ address < shape.stop tile) ∨
            Covers shape rest address := by
        simp [Covers]
      rw [split, ih spans.2.2]
      omega

theorem Spans.extent_add {tiles : List Tile} {low high : Nat} (spans : Spans shape tiles low high) :
    low + extent shape tiles = high := by
  induction tiles generalizing low with
  | nil => exact spans
  | cons tile rest ih =>
      have later := ih spans.2.2
      have begins := spans.1
      have forward := spans.2.1
      simp only [extent, List.map_cons, List.sum_cons] at later ⊢
      omega

section Exchange
variable {left middle middle' right : List Tile} {low high : Nat}

theorem covers_append (first second : List Tile) (address : Nat) :
    Covers shape (first ++ second) address ↔
      Covers shape first address ∨ Covers shape second address := by
  simp [Covers, or_and_right, exists_or]

/-- Exchange of two parts that tile the same non-empty range. -/
theorem Apart.exchange (nonempty : middle ≠ []) (spans : Spans shape middle low high)
    (spans' : Spans shape middle' low high) (apart : Apart shape (left ++ middle ++ right)) :
    Apart shape (left ++ middle' ++ right) := by
  rw [Apart, List.pairwise_append, List.pairwise_append] at apart ⊢
  obtain ⟨⟨leftApart, -, leftMiddle⟩, rightApart, across⟩ := apart
  have hull : (∀ tile ∈ left, shape.stop tile ≤ low) ∧ ∀ tile ∈ right, high ≤ shape.start tile := by
    obtain ⟨first, rest, rfl⟩ := List.exists_cons_of_ne_nil nonempty
    constructor
    · intro tile member
      rw [← spans.1]
      exact leftMiddle tile member first (by simp)
    · intro tile member
      obtain ⟨final, inside, ends⟩ := spans.last_stop
      rw [← ends]
      exact across final (List.mem_append_right _ inside) tile member
  refine ⟨⟨leftApart, spans'.apart, ?_⟩, rightApart, ?_⟩
  · intro tile member other inside
    exact (hull.1 tile member).trans (spans'.bounds other inside).1
  · intro tile member other inside
    rcases List.mem_append.mp member with member | member
    · exact across tile (List.mem_append_left _ member) other inside
    · exact (spans'.bounds tile member).2.trans (hull.2 other inside)

theorem covers_exchange (spans : Spans shape middle low high)
    (spans' : Spans shape middle' low high) (address : Nat) :
    Covers shape (left ++ middle' ++ right) address ↔
      Covers shape (left ++ middle ++ right) address := by
  simp only [covers_append, spans.covers_iff, spans'.covers_iff]

theorem extent_append (first second : List Tile) :
    extent shape (first ++ second) = extent shape first + extent shape second := by
  simp [extent]

theorem extent_exchange (spans : Spans shape middle low high)
    (spans' : Spans shape middle' low high) :
    extent shape (left ++ middle' ++ right) = extent shape (left ++ middle ++ right) := by
  have before := spans.extent_add
  have after := spans'.extent_add
  simp only [extent_append]
  omega

end Exchange

section Insert
variable {left right : List Tile} {tile : Tile}

theorem Apart.insert (apart : Apart shape (left ++ right))
    (before : ∀ other ∈ left, shape.stop other ≤ shape.start tile)
    (after : ∀ other ∈ right, shape.stop tile ≤ shape.start other) :
    Apart shape (left ++ tile :: right) := by
  obtain ⟨leftApart, rightApart, across⟩ := List.pairwise_append.mp apart
  refine List.pairwise_append.mpr ⟨leftApart, List.pairwise_cons.mpr ⟨after, rightApart⟩, ?_⟩
  intro other member later inside
  rcases List.mem_cons.mp inside with rfl | inside
  · exact before other member
  · exact across other member later inside

theorem covers_insert (address : Nat) :
    Covers shape (left ++ tile :: right) address ↔
      (shape.start tile ≤ address ∧ address < shape.stop tile) ∨
        Covers shape (left ++ right) address := by
  simp only [Covers, List.mem_append, List.mem_cons]
  constructor
  · rintro ⟨other, member | rfl | member, within⟩
    · exact Or.inr ⟨other, Or.inl member, within⟩
    · exact Or.inl within
    · exact Or.inr ⟨other, Or.inr member, within⟩
  · rintro (within | ⟨other, member | member, within⟩)
    · exact ⟨tile, Or.inr (Or.inl rfl), within⟩
    · exact ⟨other, Or.inl member, within⟩
    · exact ⟨other, Or.inr (Or.inr member), within⟩

theorem extent_insert :
    extent shape (left ++ tile :: right) =
      shape.stop tile - shape.start tile + extent shape (left ++ right) := by
  simp only [extent, List.map_append, List.map_cons, List.sum_append, List.sum_cons]
  omega

end Insert

/-- Of two tiles kept apart one ends before the other begins. -/
theorem Apart.sides {tiles : List Tile} (apart : Apart shape tiles) {first second : Tile}
    (member : first ∈ tiles) (member' : second ∈ tiles) :
    first = second ∨ shape.stop first ≤ shape.start second ∨
      shape.stop second ≤ shape.start first := by
  induction tiles with
  | nil => simp at member
  | cons tile rest ih =>
      obtain ⟨ahead, restApart⟩ := List.pairwise_cons.mp apart
      rcases List.mem_cons.mp member with rfl | later
      · rcases List.mem_cons.mp member' with rfl | later'
        · exact Or.inl rfl
        · exact Or.inr (Or.inl (ahead second later'))
      · rcases List.mem_cons.mp member' with rfl | later'
        · exact Or.inr (Or.inr (ahead first later))
        · exact ih restApart later later'

/-- Tiles kept apart below a bound have a total extent within it. -/
theorem Apart.extent_le {tiles : List Tile} (apart : Apart shape tiles) (low high : Nat)
    (forward : ∀ tile ∈ tiles, shape.start tile ≤ shape.stop tile)
    (inside : ∀ tile ∈ tiles, low ≤ shape.start tile ∧ shape.stop tile ≤ high)
    (room : low ≤ high) : low + extent shape tiles ≤ high := by
  induction tiles generalizing low with
  | nil => simpa [extent] using room
  | cons tile rest ih =>
      obtain ⟨ahead, restApart⟩ := List.pairwise_cons.mp apart
      have here := inside tile (by simp)
      have goes := forward tile (by simp)
      have later := ih restApart (shape.stop tile)
        (fun other member => forward other (by simp [member]))
        (fun other member => ⟨ahead other member, (inside other (by simp [member])).2⟩) here.2
      simp only [extent, List.map_cons, List.sum_cons] at later ⊢
      omega

/-! ## Tilings without a joint -/

variable (shape) in
/-- No two tiles meet or touch. -/
def Detached (tiles : List Tile) : Prop :=
  ∀ first ∈ tiles, ∀ second ∈ tiles, first = second ∨
    shape.stop first < shape.start second ∨ shape.stop second < shape.start first

theorem detached_of_pairwise {tiles : List Tile}
    (apart : tiles.Pairwise fun first second =>
      shape.stop first < shape.start second ∨ shape.stop second < shape.start first) :
    Detached shape tiles := by
  apply List.Pairwise.forall_of_forall_of_flip
  · intro tile _
    exact Or.inl rfl
  · exact apart.imp Or.inr
  · exact apart.imp fun sides => Or.inr sides.symm

/-- A range that detached tiles cover without a gap lies in one of them. -/
theorem Detached.covers_one {tiles : List Tile} (detached : Detached shape tiles) {low high : Nat}
    (nonempty : low < high)
    (covered : ∀ address, low ≤ address → address < high → Covers shape tiles address) :
    ∃ tile ∈ tiles, shape.start tile ≤ low ∧ high ≤ shape.stop tile := by
  obtain ⟨tile, member, below, above⟩ := covered low (Nat.le_refl _) nonempty
  refine ⟨tile, member, below, ?_⟩
  by_contra beyond
  obtain ⟨other, member', below', above'⟩ :=
    covered (shape.stop tile) (by omega) (by omega)
  rcases detached tile member other member' with rfl | before | after
  · omega
  · omega
  · omega

/-- Detached tiles that cover the same addresses as others are among them: the addresses alone
determine the intervals. -/
theorem Detached.exists_same {Other : Type v} {shape' : Shape Other} {tiles : List Tile}
    {others : List Other} (detached : Detached shape tiles) (detached' : Detached shape' others)
    (nonempty : ∀ tile ∈ tiles, shape.start tile < shape.stop tile)
    (same : ∀ address, Covers shape tiles address ↔ Covers shape' others address)
    {tile : Tile} (member : tile ∈ tiles) :
    ∃ other ∈ others, shape'.start other = shape.start tile ∧
      shape'.stop other = shape.stop tile := by
  have wide := nonempty tile member
  obtain ⟨other, inside, starts, stops⟩ := detached'.covers_one wide fun address low high =>
    (same address).mp ⟨tile, member, low, high⟩
  have wide' : shape'.start other < shape'.stop other := by omega
  obtain ⟨back, member', starts', stops'⟩ := detached.covers_one wide' fun address low high =>
    (same address).mpr ⟨other, inside, low, high⟩
  -- `back` contains `other`, which contains `tile`
  rcases detached tile member back member' with rfl | before | after
  · exact ⟨other, inside, by omega, by omega⟩
  · omega
  · omega

end EmbeddedRuntime.Lib.Tiling
