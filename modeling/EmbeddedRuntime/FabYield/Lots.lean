import EmbeddedRuntime.Lib.Paging
import Mathlib.Algebra.Group.Nat.Defs
import Mathlib.Algebra.Order.Ring.Int
import Mathlib.Data.List.Sort

/-!
# The pages of `/api/lots`

The numbers of page and size are 32 bits wide, and so is their product, which
the service does not check.
-/

set_option autoImplicit false

namespace EmbeddedRuntime.FabYield.Lots

open EmbeddedRuntime.Lib.Paging

structure LotMetric (F : Type) where
  id : String
  wafers : Int32
  diesTested : Int64
  diesPassed : Int64
  diesFailed : Int64
  yieldPct : F
  avgCycleSeconds : F
  avgTemperatureC : F
  toolId : String
  processStep : String
  deriving DecidableEq

/-- Of the other parts of a snapshot the service checks two numbers.  The length of an array is an
`int`. -/
structure Snapshot (F : Type) where
  schemaVersion : Int32
  diesTested : Int64
  lots : List (LotMetric F)
  lots_fit : lots.length < 2 ^ 31

/-- What the endpoint uses of .NET; `F` is `double`. -/
structure Runtime (F : Type) where
  ofInt : Int → F
  lt : F → F → Bool
  le : F → F → Bool
  compareDouble : F → F → Ordering
  /-- The comparison of strings in the current culture. -/
  compareString : String → String → Ordering
  equalsIgnoreCase : String → String → Bool
  isNullOrWhiteSpace : String → Bool

variable {F : Type} (rt : Runtime F)

/-- `SnapshotStore.Read`; `none` is a file that is missing or cannot be deserialized. -/
def read (stored : Option (Snapshot F)) : Option (Snapshot F) :=
  match stored with
  | none => none
  | some snapshot =>
    if snapshot.schemaVersion ≠ 1 ∨ snapshot.diesTested < 1 then none else some snapshot

structure Query (F : Type) where
  tool : Option String
  minYield : Option F
  page : Option Int32
  pageSize : Option Int32

def Query.current (q : Query F) : Int32 := q.page.getD 1

def Query.size (q : Query F) : Int32 := q.pageSize.getD 20

def invalid (q : Query F) : Bool :=
  decide (q.current < 1) || (decide (q.size < 1) || decide (100 < q.size)) ||
    match q.minYield with
    | some minYield => rt.lt minYield (rt.ofInt 0) || rt.lt (rt.ofInt 100) minYield
    | none => false

/-! ## LINQ -/

section
variable {A : Type}

def skip (count : Int32) (items : List A) : List A :=
  if count ≤ 0 then items else items.drop count.toInt.toNat

def take (count : Int32) (items : List A) : List A :=
  if count ≤ 0 then [] else items.take count.toInt.toNat

/-- A filter that is there only with its argument. -/
def whereSome {B : Type} (argument : Option B) (keep : B → A → Bool) (items : List A) : List A :=
  match argument with
  | some value => items.filter (keep value)
  | none => items

end

/-- `OrderBy(YieldPct).ThenBy(Id)`, which is stable. -/
def orderLots (items : List (LotMetric F)) : List (LotMetric F) :=
  items.insertionSort fun first second =>
    (rt.compareDouble first.yieldPct second.yieldPct).then
      (rt.compareString first.id second.id) ≠ .gt

def givenTool (q : Query F) : Option String := q.tool.filter fun tool => !rt.isNullOrWhiteSpace tool

/-- The lots that match the filters. -/
def matching (data : Snapshot F) (q : Query F) : List (LotMetric F) :=
  whereSome q.minYield (fun minYield x => rt.le minYield x.yieldPct)
    (whereSome (givenTool rt q) (fun tool x => rt.equalsIgnoreCase x.toolId tool) data.lots)

structure LotsPage (F : Type) where
  total : Nat
  page : Int32
  pageSize : Int32
  items : List (LotMetric F)

inductive Response (F : Type) where
  | badRequest (error : String)
  | problem (title detail : String) (statusCode : Nat)
  | ok (body : LotsPage F)

/-- `(current - 1) * size`. -/
def Query.skipped (q : Query F) : Int32 := (q.current - 1) * q.size

def lots (stored : Option (Snapshot F)) (q : Query F) : Response F :=
  if invalid rt q then
    .badRequest "invalid pagination or yield filter"
  else
    match read stored with
    | none => .problem "Analytics unavailable" "Run the data pipeline first." 503
    | some data =>
      let filtered := orderLots rt (matching rt data q)
      .ok { total := filtered.length, page := q.current, pageSize := q.size,
            items := take q.size (skip q.skipped filtered) }

/-! ## LINQ as windows -/

theorem skip_eq_drop {A : Type} (count : Int32) (items : List A) :
    skip count items = items.drop count.toInt.toNat := by
  unfold skip
  split
  · rename_i low
    have low : count.toInt ≤ 0 := Int32.le_iff_toInt_le.mp low
    rw [Int.toNat_of_nonpos low, List.drop_zero]
  · rfl

theorem take_eq_take {A : Type} (count : Int32) (items : List A) :
    take count items = items.take count.toInt.toNat := by
  unfold take
  split
  · rename_i low
    have low : count.toInt ≤ 0 := Int32.le_iff_toInt_le.mp low
    rw [Int.toNat_of_nonpos low, List.take_zero]
  · rfl

theorem orderLots_perm (items : List (LotMetric F)) : (orderLots rt items).Perm items :=
  List.perm_insertionSort _ items

theorem whereSome_sublist {A B : Type} (argument : Option B) (keep : B → A → Bool)
    (items : List A) : (whereSome argument keep items).Sublist items := by
  cases argument with
  | none => exact List.Sublist.refl items
  | some value => exact List.filter_sublist

theorem matching_length (data : Snapshot F) (q : Query F) :
    (matching rt data q).length < 2 ^ 31 :=
  lt_of_le_of_lt ((whereSome_sublist _ _ _).trans (whereSome_sublist _ _ _)).length_le data.lots_fit

/-! ## The product -/

/-- Where a page starts, over all integers. -/
def Query.offset (q : Query F) : Int := (q.current.toInt - 1) * q.size.toInt

structure Bounded (q : Query F) : Prop where
  current : 1 ≤ q.current.toInt
  size_pos : 1 ≤ q.size.toInt
  size_le : q.size.toInt ≤ 100

theorem invalid_eq_false {q : Query F} (accepted : invalid rt q = false) : Bounded q := by
  simp only [invalid, Bool.or_eq_false_iff, decide_eq_false_iff_not] at accepted
  obtain ⟨⟨current, small, large⟩, -⟩ := accepted
  rw [Int32.not_lt, Int32.le_iff_toInt_le] at current small large
  exact ⟨current, small, large⟩

theorem skipped_toInt (q : Query F) (bounded : Bounded q) :
    q.skipped.toInt = q.offset.bmod (2 ^ 32) := by
  have one : (q.current - 1).toInt = q.current.toInt - 1 := by
    have high := q.current.toInt_lt
    have low := bounded.current
    rw [Int32.toInt_sub]
    exact Int.bmod_eq_of_le (by simp; omega) (by simp; omega)
  rw [Query.skipped, Int32.toInt_mul, one]
  rfl

theorem offset_nonneg (q : Query F) (bounded : Bounded q) : 0 ≤ q.offset :=
  Int.mul_nonneg (by have := bounded.current; omega) (by have := bounded.size_pos; omega)

theorem skipped_exact (q : Query F) (bounded : Bounded q) (fits : q.offset < 2 ^ 31) :
    q.skipped.toInt = q.offset := by
  have low := offset_nonneg q bounded
  rw [skipped_toInt q bounded]
  exact Int.bmod_eq_of_le (by omega) (by omega)

/-! ## Pages -/

/-- The elements of a page, by their positions in the filtered and sorted lots. -/
def expectedItems (data : Snapshot F) (q : Query F) : List (LotMetric F) :=
  window q.offset.toNat q.size.toInt.toNat (orderLots rt (matching rt data q))

theorem lots_ok {stored : Option (Snapshot F)} {data : Snapshot F} (ready : read stored = some data)
    {q : Query F} (accepted : invalid rt q = false) :
    lots rt stored q = .ok
      { total := (orderLots rt (matching rt data q)).length, page := q.current, pageSize := q.size,
        items := window q.skipped.toInt.toNat q.size.toInt.toNat
          (orderLots rt (matching rt data q)) } := by
  simp only [lots, accepted, ready, take_eq_take, skip_eq_drop, window, Bool.false_eq_true, if_false]

theorem items_exact_iff (data : Snapshot F) (q : Query F) (bounded : Bounded q) :
    window q.skipped.toInt.toNat q.size.toInt.toNat (orderLots rt (matching rt data q)) =
        expectedItems rt data q ↔
      q.offset < 2 ^ 31 ∨ (matching rt data q).length ≤ q.skipped.toInt.toNat := by
  have length := (orderLots_perm rt (matching rt data q)).length_eq
  have positive : 0 < q.size.toInt.toNat := by
    have := bounded.size_pos
    omega
  by_cases fits : q.offset < 2 ^ 31
  · rw [skipped_exact q bounded fits]
    exact iff_of_true rfl (.inl fits)
  · -- such a page lies behind every array
    have past : expectedItems rt data q = [] := by
      have short := matching_length rt data q
      rw [expectedItems, window_eq_nil positive]
      omega
    rw [past, window_eq_nil positive, length]
    exact (or_iff_right fits).symm

/-- The same request for page `i + 1`. -/
def Query.atPage (q : Query F) (i : Nat) : Query F := { q with page := some (Int32.ofNat (i + 1)) }

def Response.items (response : Response F) : List (LotMetric F) :=
  match response with
  | .ok body => body.items
  | _ => []

section
variable {rt} {data : Snapshot F} {q : Query F} {i : Nat}

theorem atPage_current (small : i + 1 < 2 ^ 31) : (q.atPage i).current.toInt = i + 1 := by
  rw [Query.current, Query.atPage, Option.getD_some, Int32.toInt_ofNat_of_lt small]
  rfl

theorem atPage_accepted (accepted : invalid rt q = false) (small : i + 1 < 2 ^ 31) :
    invalid rt (q.atPage i) = false := by
  have current : ¬(q.atPage i).current < 1 := by
    rw [Int32.not_lt, Int32.le_iff_toInt_le, atPage_current small]
    exact Int.le_add_of_nonneg_left (Int.natCast_nonneg i)
  simp only [invalid, Bool.or_eq_false_iff] at accepted ⊢
  exact ⟨⟨decide_eq_false current, accepted.1.2⟩, accepted.2⟩

theorem atPage_offset (small : i + 1 < 2 ^ 31) : (q.atPage i).offset = i * q.size.toInt := by
  rw [Query.offset, atPage_current small, Int.add_sub_cancel]
  rfl

end

/-- The pages with elements, one after another, are all matching lots. -/
theorem pages_partition {stored : Option (Snapshot F)} {data : Snapshot F}
    (ready : read stored = some data) {q : Query F} (accepted : invalid rt q = false) :
    ((List.range (pageCount q.size.toInt.toNat (orderLots rt (matching rt data q)))).flatMap
        fun i => (lots rt stored (q.atPage i)).items) = orderLots rt (matching rt data q) := by
  have bounded := invalid_eq_false rt accepted
  have length := (orderLots_perm rt (matching rt data q)).length_eq
  have short := matching_length rt data q
  have positive : 0 < q.size.toInt.toNat := by
    have := bounded.size_pos
    omega
  refine Eq.trans (List.flatMap_congr fun i member => ?_) (pages_cover positive _)
  have inside := (lt_pageCount positive _ i).mp (List.mem_range.mp member)
  have before : i ≤ i * q.size.toInt.toNat := Nat.le_mul_of_pos_right i positive
  have small : i + 1 < 2 ^ 31 := by omega
  have offset : (q.atPage i).offset = (i * q.size.toInt.toNat : Nat) := by
    rw [atPage_offset small, Int.natCast_mul, Int.toNat_of_nonneg]
    have := bounded.size_pos
    omega
  have exact := skipped_exact (q.atPage i)
    (invalid_eq_false rt (atPage_accepted accepted small)) (by omega)
  rw [lots_ok rt ready (atPage_accepted accepted small)]
  change window (q.atPage i).skipped.toInt.toNat q.size.toInt.toNat _ = _
  rw [exact, offset, Int.toNat_natCast]
  rfl

theorem lot_pages_exact_iff (stored : Option (Snapshot F)) (data : Snapshot F)
    (ready : read stored = some data) (q : Query F) (accepted : invalid rt q = false) :
    (∃ body, lots rt stored q = .ok body ∧ body.total = (matching rt data q).length ∧
      (body.items = expectedItems rt data q ↔
        q.offset < 2 ^ 31 ∨ (matching rt data q).length ≤ q.skipped.toInt.toNat)) ∧
      (orderLots rt (matching rt data q)).Perm (matching rt data q) ∧
      ((List.range (pageCount q.size.toInt.toNat (orderLots rt (matching rt data q)))).flatMap
        fun i => (lots rt stored (q.atPage i)).items) = orderLots rt (matching rt data q) := by
  have ordered := orderLots_perm rt (matching rt data q)
  refine ⟨⟨_, lots_ok rt ready accepted, ordered.length_eq, ?_⟩, ordered, ?_⟩
  · exact items_exact_iff rt data q (invalid_eq_false rt accepted)
  · exact pages_partition rt ready accepted

/-! ## A snapshot of one lot -/

/-- Yields as whole numbers of percent, strings by their code points. -/
def labRuntime : Runtime Int where
  ofInt := id
  lt := fun first second => decide (first < second)
  le := fun first second => decide (first ≤ second)
  compareDouble := compare
  compareString := compare
  equalsIgnoreCase := fun first second => decide (first = second)
  isNullOrWhiteSpace := fun text => text.isEmpty

def labLot : LotMetric Int := ⟨"L-1", 1, 100, 80, 20, 80, 20, 26, "ETCH-02", "etch"⟩

def labSnapshot : Snapshot Int := ⟨1, 100, [labLot], by decide⟩

def labQuery (page : Int32) : Query Int := ⟨none, none, some page, some 100⟩

theorem lot_pages_exact_iff_first :
    ∃ body, lots labRuntime (some labSnapshot) (labQuery 1) = .ok body ∧
      body.items = expectedItems labRuntime labSnapshot (labQuery 1) := by
  obtain ⟨⟨body, answered, -, exact⟩, -⟩ := lot_pages_exact_iff labRuntime (some labSnapshot)
    labSnapshot rfl (labQuery 1) (by decide)
  exact ⟨body, answered, exact.mpr (.inl (by decide))⟩

/-- A page far behind the only lot shows it again. -/
theorem page_past_end_not_empty :
    invalid labRuntime (labQuery 21474838) = false ∧
      (lots labRuntime (some labSnapshot) (labQuery 21474838)).items = [labLot] ∧
      expectedItems labRuntime labSnapshot (labQuery 21474838) = [] := by
  decide

end EmbeddedRuntime.FabYield.Lots
