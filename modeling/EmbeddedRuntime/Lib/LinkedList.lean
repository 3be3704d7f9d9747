import Mathlib.Data.List.Nodup
import Mathlib.Logic.Function.Basic

/-!
# Doubly linked lists in a memory

A memory maps addresses to cells.  A `Layout` says where a node lives and what
its cell holds once its two links are known.  `Chain mem before nodes after` is
the doubly linked segment that stores `nodes` in order: the first node points
back to `before`, the last one forward to `after`.  A segment is its pieces
linked together (`chain_append`), depends only on the cells of its own nodes
(`Chain.congr`), and is hung behind another node by its first cell alone
(`Chain.rebase`).
-/

set_option autoImplicit false

namespace EmbeddedRuntime.Lib.LinkedList

universe u v w
variable {Addr : Type u} {Node : Type v} {Cell : Type w}

structure Layout (Addr : Type u) (Node : Type v) (Cell : Type w) where
  addr : Node → Addr
  cell : Node → Addr → Addr → Cell

/-- Address of the first node, or what follows the empty list. -/
def Layout.first (layout : Layout Addr Node Cell) (after : Addr) : List Node → Addr
  | [] => after
  | node :: _ => layout.addr node

/-- Address of the last node, or what precedes the empty list. -/
def Layout.last (layout : Layout Addr Node Cell) (before : Addr) : List Node → Addr
  | [] => before
  | node :: rest => layout.last (layout.addr node) rest

def Chain (layout : Layout Addr Node Cell) (mem : Addr → Cell) :
    Addr → List Node → Addr → Prop
  | _, [], _ => True
  | before, node :: rest, after =>
      mem (layout.addr node) = layout.cell node before (layout.first after rest) ∧
        Chain layout mem (layout.addr node) rest after

variable {layout : Layout Addr Node Cell}

@[simp] theorem Layout.first_nil (after : Addr) : layout.first after [] = after := rfl

@[simp] theorem Layout.first_cons (after : Addr) (node : Node) (rest : List Node) :
    layout.first after (node :: rest) = layout.addr node := rfl

@[simp] theorem Layout.last_nil (before : Addr) : layout.last before [] = before := rfl

theorem Layout.first_append (after : Addr) (left right : List Node) :
    layout.first after (left ++ right) = layout.first (layout.first after right) left := by
  cases left <;> rfl

@[simp] theorem Layout.last_append_singleton (before : Addr) (rest : List Node) (node : Node) :
    layout.last before (rest ++ [node]) = layout.addr node := by
  induction rest generalizing before with
  | nil => rfl
  | cons head rest ih => exact ih (layout.addr head)

theorem chain_append (mem : Addr → Cell) (before after : Addr) (left right : List Node) :
    Chain layout mem before (left ++ right) after ↔
      Chain layout mem before left (layout.first after right) ∧
        Chain layout mem (layout.last before left) right after := by
  induction left generalizing before with
  | nil => simp [Chain]
  | cons node rest ih =>
      rw [List.cons_append, Chain, Chain, ih, Layout.first_append, Layout.last, and_assoc]

theorem Chain.congr {mem mem' : Addr → Cell} {before after : Addr} {nodes : List Node}
    (agree : ∀ node ∈ nodes, mem' (layout.addr node) = mem (layout.addr node))
    (chain : Chain layout mem before nodes after) : Chain layout mem' before nodes after := by
  induction nodes generalizing before with
  | nil => trivial
  | cons node rest ih =>
      obtain ⟨here, later⟩ := chain
      refine ⟨?_, ih (fun other member => agree other (by simp [member])) later⟩
      rw [agree node (by simp), here]

/-- The cell of a node in the middle of a segment. -/
theorem Chain.cell {mem : Addr → Cell} {before after : Addr} {left right : List Node}
    {node : Node} (chain : Chain layout mem before (left ++ node :: right) after) :
    mem (layout.addr node) =
      layout.cell node (layout.last before left) (layout.first after right) :=
  ((chain_append ..).mp chain).2.1

/-- A segment hung behind another node: only the first cell, which names what
is before, may change. -/
theorem Chain.rebase {mem mem' : Addr → Cell} {before before' after : Addr} {nodes : List Node}
    (agree : ∀ node ∈ nodes.tail, mem' (layout.addr node) = mem (layout.addr node))
    (front : ∀ node ∈ nodes.head?,
      mem' (layout.addr node) = layout.cell node before' (layout.first after nodes.tail))
    (chain : Chain layout mem before nodes after) : Chain layout mem' before' nodes after := by
  cases nodes with
  | nil => trivial
  | cons node rest => exact ⟨front node rfl, chain.2.congr agree⟩

/-- Where an address and a cell determine the node and its successor, and no node lives at the
end mark, a memory holds one segment from an address. -/
theorem Chain.unique {mem : Addr → Cell} {after : Addr}
    (determined : ∀ node other before before' next next', layout.addr node = layout.addr other →
      layout.cell node before next = layout.cell other before' next' → node = other ∧ next = next')
    (ends : ∀ node, layout.addr node ≠ after) {before before' : Addr} {nodes others : List Node}
    (same : layout.first after nodes = layout.first after others)
    (chain : Chain layout mem before nodes after) (chain' : Chain layout mem before' others after) :
    nodes = others := by
  induction nodes generalizing before before' others with
  | nil =>
      cases others with
      | nil => rfl
      | cons other rest => exact absurd same.symm (ends other)
  | cons node rest ih =>
      cases others with
      | nil => exact absurd same (ends node)
      | cons other rest' =>
          have here : mem (layout.addr node) = _ := chain.1
          have here' : mem (layout.addr other) = _ := chain'.1
          have sameAddr : layout.addr node = layout.addr other := same
          rw [sameAddr, here'] at here
          obtain ⟨rfl, sameNext⟩ := determined _ _ _ _ _ _ sameAddr here.symm
          rw [ih sameNext chain.2 chain'.2]

end EmbeddedRuntime.Lib.LinkedList
