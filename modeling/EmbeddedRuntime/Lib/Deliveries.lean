import Mathlib.Data.List.Basic

/-!
# Reading from a descriptor

What the system hands to the `read` calls of a program is a list of deliveries:
some cells, an interruption, or an error.  A call takes what the first delivery
has, up to the length it asks for; at the end of the list it returns nothing.
Every way to cut the contents of a file or a stream into short reads is such a
list.

`fill` is the loop that asks again until its buffer is full.
-/

set_option autoImplicit false

namespace EmbeddedRuntime.Lib.Deliveries

universe u
variable {Cell : Type u}

inductive Delivery (Cell : Type u) where
  | data (cells : List Cell)
  | interrupted
  | failed
  deriving DecidableEq, Repr

/-- One call: its result, no cells at the end, and the deliveries left. -/
def read (len : Nat) : List (Delivery Cell) → Delivery Cell × List (Delivery Cell)
  | [] => (.data [], [])
  | .interrupted :: rest => (.interrupted, rest)
  | .failed :: rest => (.failed, rest)
  | .data cells :: rest =>
      if cells.length ≤ len then (.data cells, rest)
      else (.data (cells.take len), .data (cells.drop len) :: rest)

/-- All cells that are delivered. -/
def contents : List (Delivery Cell) → List Cell
  | [] => []
  | .data cells :: rest => cells ++ contents rest
  | .interrupted :: rest => contents rest
  | .failed :: rest => contents rest

/-- A bound on the calls that do not return an end. -/
def weight : List (Delivery Cell) → Nat
  | [] => 0
  | .data cells :: rest => cells.length + 1 + weight rest
  | .interrupted :: rest => 1 + weight rest
  | .failed :: rest => 1 + weight rest

/-- No call returns early with nothing: an empty result is the end. -/
def Proper (source : List (Delivery Cell)) : Prop := .data [] ∉ source

/-- No call fails and an empty result is the end. -/
structure Steady (source : List (Delivery Cell)) : Prop where
  proper : Proper source
  noFailure : .failed ∉ source

instance [DecidableEq Cell] (source : List (Delivery Cell)) : Decidable (Proper source) :=
  inferInstanceAs (Decidable (¬ _))

/-! ## One call -/

/-- What one call with a result can do. -/
theorem read_data {source rest : List (Delivery Cell)} {len : Nat} {cells : List Cell}
    (result : read len source = (.data cells, rest)) :
    (source = [] ∧ cells = [] ∧ rest = []) ∨
      (source = .data cells :: rest ∧ cells.length ≤ len) ∨
      (∃ whole later, source = .data whole :: later ∧ len < whole.length ∧
        cells = whole.take len ∧ rest = .data (whole.drop len) :: later) := by
  cases source with
  | nil =>
      simp only [read, Prod.mk.injEq, Delivery.data.injEq] at result
      exact Or.inl ⟨rfl, result.1.symm, result.2.symm⟩
  | cons first later =>
      cases first with
      | data whole =>
          by_cases fits : whole.length ≤ len
          · simp only [read, if_pos fits, Prod.mk.injEq, Delivery.data.injEq] at result
            obtain ⟨rfl, rfl⟩ := result
            exact Or.inr (Or.inl ⟨rfl, fits⟩)
          · simp only [read, if_neg fits, Prod.mk.injEq, Delivery.data.injEq] at result
            exact Or.inr (Or.inr ⟨whole, later, rfl, Nat.lt_of_not_le fits, result.1.symm,
              result.2.symm⟩)
      | interrupted => simp [read] at result
      | failed => simp [read] at result

/-- A result without data is an entry of its own. -/
theorem read_no_data {source rest : List (Delivery Cell)} {len : Nat} {answer : Delivery Cell}
    (result : read len source = (answer, rest)) (noData : ∀ cells, answer ≠ .data cells) :
    source = answer :: rest := by
  cases source with
  | nil => exact absurd (congrArg Prod.fst result).symm (noData [])
  | cons first later =>
      cases first with
      | data cells =>
          simp only [read] at result
          split at result
          · exact absurd (congrArg Prod.fst result).symm (noData _)
          · exact absurd (congrArg Prod.fst result).symm (noData _)
      | interrupted =>
          cases result
          rfl
      | failed =>
          cases result
          rfl

theorem read_interrupted {source rest : List (Delivery Cell)} {len : Nat}
    (result : read len source = (.interrupted, rest)) : source = .interrupted :: rest :=
  read_no_data result fun _ same => by cases same

theorem read_failed {source rest : List (Delivery Cell)} {len : Nat}
    (result : read len source = (.failed, rest)) : source = .failed :: rest :=
  read_no_data result fun _ same => by cases same

theorem weight_read_interrupted {source rest : List (Delivery Cell)} {len : Nat}
    (result : read len source = (.interrupted, rest)) : weight rest < weight source := by
  rw [read_interrupted result, weight]
  omega

theorem weight_read_data {source rest : List (Delivery Cell)} {len : Nat} {cells : List Cell}
    (result : read len source = (.data cells, rest)) (some : cells ≠ []) :
    weight rest < weight source := by
  rcases read_data result with ⟨-, none, -⟩ | ⟨rfl, -⟩ | ⟨whole, later, rfl, long, rfl, rfl⟩
  · exact absurd none some
  · rw [weight]
    omega
  · have positive : 0 < len := by
      cases len with
      | zero => exact absurd (List.take_zero ..) some
      | succ len => exact Nat.succ_pos len
    simp only [weight, List.length_drop]
    omega

/-- A call takes its cells from the front of the contents. -/
theorem contents_read {source rest : List (Delivery Cell)} {len : Nat} {cells : List Cell}
    (result : read len source = (.data cells, rest)) :
    contents source = cells ++ contents rest := by
  rcases read_data result with ⟨rfl, rfl, rfl⟩ | ⟨rfl, -⟩ | ⟨whole, later, rfl, long, rfl, rfl⟩
  · rfl
  · rfl
  · rw [contents, contents, ← List.append_assoc, List.take_append_drop]

theorem length_read {source rest : List (Delivery Cell)} {len : Nat} {cells : List Cell}
    (result : read len source = (.data cells, rest)) : cells.length ≤ len := by
  rcases read_data result with ⟨rfl, rfl, rfl⟩ | ⟨rfl, fits⟩ | ⟨whole, later, rfl, long, rfl, rfl⟩
  · exact Nat.zero_le _
  · exact fits
  · exact List.length_take_le ..

theorem Proper.tail {first : Delivery Cell} {source : List (Delivery Cell)}
    (proper : Proper (first :: source)) : Proper source :=
  fun here => proper (List.mem_cons_of_mem _ here)

theorem Proper.read {source rest : List (Delivery Cell)} {len : Nat} {cells : List Cell}
    (proper : Proper source) (result : read len source = (.data cells, rest)) : Proper rest := by
  rcases read_data result with ⟨rfl, rfl, rfl⟩ | ⟨rfl, -⟩ | ⟨whole, later, rfl, long, rfl, rfl⟩
  · exact proper
  · exact proper.tail
  · intro here
    rcases List.mem_cons.mp here with first | more
    · have none := Delivery.data.inj first
      have some : (whole.drop len).length ≠ 0 := by
        rw [List.length_drop]
        omega
      exact some (by rw [← none]; rfl)
    · exact proper.tail more

/-- A proper source returns nothing only at its end. -/
theorem Proper.atEnd {source rest : List (Delivery Cell)} {len : Nat} (proper : Proper source)
    (positive : 0 < len) (result : Deliveries.read len source = (.data [], rest)) :
    contents source = [] ∧ rest = [] := by
  rcases read_data result with ⟨rfl, -, rfl⟩ | ⟨rfl, -⟩ | ⟨whole, later, rfl, long, none, rfl⟩
  · exact ⟨rfl, rfl⟩
  · exact absurd List.mem_cons_self proper
  · have lengths := congrArg List.length none
    rw [List.length_take, List.length_nil] at lengths
    omega

theorem Steady.tail {first : Delivery Cell} {source : List (Delivery Cell)}
    (steady : Steady (first :: source)) : Steady source :=
  ⟨steady.proper.tail, fun here => steady.noFailure (List.mem_cons_of_mem _ here)⟩

theorem Steady.read {source rest : List (Delivery Cell)} {len : Nat} {cells : List Cell}
    (steady : Steady source) (result : Deliveries.read len source = (.data cells, rest)) :
    Steady rest := by
  refine ⟨steady.proper.read result, ?_⟩
  rcases read_data result with ⟨rfl, rfl, rfl⟩ | ⟨rfl, -⟩ | ⟨whole, later, rfl, long, rfl, rfl⟩
  · exact steady.noFailure
  · exact steady.tail.noFailure
  · intro here
    rcases List.mem_cons.mp here with first | more
    · cases first
    · exact steady.tail.noFailure more

/-! ## Filling a buffer -/

/-- How the loop ends, with the cells stored so far and the deliveries left. -/
inductive Filled (Cell : Type u) where
  | full (cells : List Cell) (rest : List (Delivery Cell))
  | ended (cells : List Cell) (rest : List (Delivery Cell))
  | failed (cells : List Cell) (rest : List (Delivery Cell))
  deriving DecidableEq, Repr

/-- The loop with some cells stored already. -/
def fillLoop (len : Nat) (got : List Cell) (source : List (Delivery Cell)) : Filled Cell :=
  if len ≤ got.length then .full got source
  else
    match result : read (len - got.length) source with
    | (.interrupted, rest) => fillLoop len got rest
    | (.failed, rest) => .failed got rest
    | (.data cells, rest) =>
        if some : cells = [] then .ended got rest else fillLoop len (got ++ cells) rest
termination_by weight source
decreasing_by
  · exact weight_read_interrupted result
  · exact weight_read_data result some

def fill (len : Nat) (source : List (Delivery Cell)) : Filled Cell := fillLoop len [] source

theorem weight_fillLoop {len : Nat} {got cells : List Cell} {source rest : List (Delivery Cell)}
    (filled : fillLoop len got source = .full cells rest) :
    weight rest ≤ weight source ∧ (got.length < len → weight rest < weight source) := by
  fun_induction fillLoop len got source with
  | case1 got source enough =>
      simp only [Filled.full.injEq] at filled
      rw [filled.2]
      exact ⟨Nat.le_refl _, fun short => absurd enough (Nat.not_le.mpr short)⟩
  | case2 got source short later result ih =>
      have less := weight_read_interrupted result
      have bound := (ih filled).1
      exact ⟨by omega, fun _ => by omega⟩
  | case3 => cases filled
  | case4 => cases filled
  | case5 got source short cells later result some ih =>
      have less := weight_read_data result some
      have bound := (ih filled).1
      exact ⟨by omega, fun _ => by omega⟩

theorem fillLoop_steady (len : Nat) (got : List Cell) (source : List (Delivery Cell))
    (steady : Steady source) (within : got.length ≤ len) :
    ∃ rest, Steady rest ∧
      contents rest = (got ++ contents source).drop len ∧
      fillLoop len got source =
        if len ≤ (got ++ contents source).length then
          .full ((got ++ contents source).take len) rest
        else .ended (got ++ contents source) rest := by
  fun_induction fillLoop len got source with
  | case1 got source enough =>
      have exact_ : got.length = len := Nat.le_antisymm within enough
      refine ⟨source, steady, ?_, ?_⟩
      · rw [← exact_, List.drop_left]
      · rw [if_pos (by rw [List.length_append]; omega), ← exact_, List.take_left]
  | case2 got source short rest result ih =>
      have here := read_interrupted result
      subst here
      exact ih steady.tail within
  | case3 got source short rest result =>
      have here := read_failed result
      exact absurd (here ▸ List.mem_cons_self) steady.noFailure
  | case4 got source short rest result =>
      obtain ⟨none, last⟩ := steady.proper.atEnd (by omega) result
      refine ⟨rest, steady.read result, ?_, ?_⟩
      · rw [none, List.append_nil, last, List.drop_eq_nil_of_le (by omega)]
        rfl
      · rw [none, List.append_nil, if_neg short]
  | case5 got source short cells rest result some ih =>
      have more := length_read result
      have bytes := contents_read result
      obtain ⟨left, steadyLeft, contentsLeft, equal⟩ := ih (steady.read result) (by
        rw [List.length_append]
        omega)
      rw [List.append_assoc, ← bytes] at contentsLeft equal
      exact ⟨left, steadyLeft, contentsLeft, equal⟩

/-- A full buffer holds the front of the contents. -/
theorem fillLoop_full {len : Nat} {got cells : List Cell} {source rest : List (Delivery Cell)}
    (within : got.length ≤ len) (filled : fillLoop len got source = .full cells rest) :
    cells.length = len ∧ got ++ contents source = cells ++ contents rest := by
  fun_induction fillLoop len got source with
  | case1 got source enough =>
      simp only [Filled.full.injEq] at filled
      obtain ⟨rfl, rfl⟩ := filled
      exact ⟨Nat.le_antisymm within enough, rfl⟩
  | case2 got source short later result ih =>
      rw [read_interrupted result, contents]
      exact ih within filled
  | case3 got source short later result => simp at filled
  | case4 got source short later result => simp at filled
  | case5 got source short more later result nonempty ih =>
      have fits := length_read result
      have longer : (got ++ more).length ≤ len := by
        rw [List.length_append]
        omega
      rw [contents_read result, ← List.append_assoc]
      exact ih longer filled

/-- Without failures the loop takes the first cells of the contents, or finds that there are
too few. -/
theorem fill_steady (len : Nat) (source : List (Delivery Cell)) (steady : Steady source) :
    ∃ rest, Steady rest ∧ contents rest = (contents source).drop len ∧
      fill len source =
        if len ≤ (contents source).length then .full ((contents source).take len) rest
        else .ended (contents source) rest :=
  fillLoop_steady len [] source steady (Nat.zero_le _)

end EmbeddedRuntime.Lib.Deliveries
