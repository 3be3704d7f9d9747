import Mathlib.Algebra.BigOperators.Group.List.Basic
import Mathlib.Data.List.AList
import Mathlib.Data.List.Induction
import Mathlib.Data.List.Sort

/-!
# Grouping by key

The items of a list are added, one after another, to the bucket of their key;
a key that is new starts with an empty bucket.
-/

set_option autoImplicit false

namespace EmbeddedRuntime.Lib.Grouping

abbrev Table (Key Bucket : Type) := AList fun _ : Key => Bucket

section
variable {Item Key Bucket : Type} [DecidableEq Key]
variable (key : Item → Key) (empty : Bucket) (add : Bucket → Item → Bucket)

def enter (table : Table Key Bucket) (item : Item) : Table Key Bucket :=
  table.insert (key item) (add ((table.lookup (key item)).getD empty) item)

def group (items : List Item) : Table Key Bucket := items.foldl (enter key empty add) ∅

/-- The items of one key, in order. -/
def having (k : Key) (items : List Item) : List Item := items.filter fun item => key item = k

@[simp] theorem group_nil : group key empty add [] = ∅ := rfl

theorem group_snoc (items : List Item) (item : Item) :
    group key empty add (items ++ [item]) = enter key empty add (group key empty add items) item := by
  simp only [group, List.foldl_append, List.foldl_cons, List.foldl_nil]

theorem mem_having (k : Key) (items : List Item) (item : Item) :
    item ∈ having key k items ↔ item ∈ items ∧ key item = k := by
  simp only [having, List.mem_filter, decide_eq_true_eq]

theorem having_snoc (k : Key) (items : List Item) (item : Item) :
    having key k (items ++ [item]) =
      if key item = k then having key k items ++ [item] else having key k items := by
  by_cases same : key item = k
  · simp [having, List.filter_append, same]
  · simp [having, List.filter_append, same]

/-! ## What a bucket holds -/

theorem having_nil_of_missing (items : List Item) (k : Key) (missing : k ∉ items.map key) :
    having key k items = [] := by
  refine List.filter_eq_nil_iff.mpr fun item member same => missing ?_
  rw [← of_decide_eq_true same]
  exact List.mem_map_of_mem member

theorem lookup_group (items : List Item) (k : Key) :
    (group key empty add items).lookup k =
      if k ∈ items.map key then some ((having key k items).foldl add empty) else none := by
  induction items using List.reverseRecOn with
  | nil => simp
  | append_singleton items item ih =>
    rw [group_snoc, enter, having_snoc]
    by_cases same : k = key item
    · subst same
      rw [AList.lookup_insert, ih]
      by_cases known : key item ∈ items.map key
      · simp [known]
      · simp [known, having_nil_of_missing key items _ known]
    · rw [AList.lookup_insert_ne same, ih]
      simp [same, Ne.symm same]

theorem mem_group (items : List Item) (k : Key) :
    k ∈ group key empty add items ↔ k ∈ items.map key := by
  rw [← AList.lookup_isSome, lookup_group]
  by_cases known : k ∈ items.map key <;> simp [known]

/-- A bucket of the table holds the items of its key, and there is one. -/
theorem entry_group (items : List Item) (entry : Sigma fun _ : Key => Bucket)
    (member : entry ∈ (group key empty add items).entries) :
    having key entry.1 items ≠ [] ∧ entry.2 = (having key entry.1 items).foldl add empty := by
  have found := List.mem_dlookup (group key empty add items).nodupKeys member
  change (group key empty add items).lookup entry.1 = some entry.2 at found
  rw [lookup_group] at found
  by_cases known : entry.1 ∈ items.map key
  · obtain ⟨item, inside, same⟩ := List.mem_map.mp known
    refine ⟨List.ne_nil_of_mem ((mem_having key _ items item).mpr ⟨inside, same⟩), ?_⟩
    simpa [known] using found.symm
  · simp [known] at found

/-! ## Sums over the buckets -/

variable {M : Type} [AddCommMonoid M]

def total (value : Bucket → M) (table : Table Key Bucket) : M :=
  (table.entries.map fun entry => value entry.2).sum

theorem total_insert_erase (value : Bucket → M) (table : Table Key Bucket) (k : Key) (b : Bucket) :
    total value (table.insert k b) = value b + total value (table.erase k) := by
  rw [total, AList.entries_insert, List.map_cons, List.sum_cons]
  rfl

theorem total_erase_missing (value : Bucket → M) (table : Table Key Bucket) (k : Key)
    (missing : k ∉ table) : total value (table.erase k) = total value table := by
  have unchanged : (table.erase k).entries = table.entries :=
    List.kerase_of_notMem_keys missing
  rw [total, total, unchanged]

theorem total_erase_found (value : Bucket → M) (table : Table Key Bucket) (k : Key) (b : Bucket)
    (found : table.lookup k = some b) :
    value b + total value (table.erase k) = total value table := by
  have inside : k ∈ table := AList.lookup_isSome.mp (by rw [found]; rfl)
  have present : k ∈ table.entries.keys := AList.mem_keys.mp inside
  obtain ⟨held, before, after, -, shape, rest⟩ := List.exists_of_kerase present
  have same : held = b := by
    have member : (⟨k, held⟩ : Sigma fun _ : Key => Bucket) ∈ table.entries := by
      rw [shape]
      simp
    exact Option.some.inj ((List.mem_dlookup table.nodupKeys member).symm.trans found)
  subst same
  have erased : (table.erase k).entries = before ++ after := rest
  simp only [total, erased, shape, List.map_append, List.map_cons, List.sum_append, List.sum_cons]
  exact add_left_comm (value held) _ _

theorem total_enter (value : Bucket → M) (weight : Item → M) (value_empty : value empty = 0)
    (value_add : ∀ b item, value (add b item) = value b + weight item)
    (table : Table Key Bucket) (item : Item) :
    total value (enter key empty add table item) = total value table + weight item := by
  rw [enter, total_insert_erase, value_add]
  cases found : table.lookup (key item) with
  | none =>
    rw [total_erase_missing value table _ (AList.lookup_eq_none.mp found), Option.getD_none,
      value_empty, zero_add, add_comm]
  | some b =>
    rw [← total_erase_found value table _ b found, Option.getD_some, add_right_comm]

/-- The buckets together hold what the items amount to. -/
theorem total_group (value : Bucket → M) (weight : Item → M) (value_empty : value empty = 0)
    (value_add : ∀ b item, value (add b item) = value b + weight item) (items : List Item) :
    total value (group key empty add items) = (items.map weight).sum := by
  induction items using List.reverseRecOn with
  | nil => simp [total]
  | append_singleton items item ih =>
    rw [group_snoc, total_enter key empty add value weight value_empty value_add, ih]
    simp

/-- One bucket holds what its items amount to. -/
theorem value_foldl (value : Bucket → M) (weight : Item → M) (value_empty : value empty = 0)
    (value_add : ∀ b item, value (add b item) = value b + weight item) (items : List Item) :
    value (items.foldl add empty) = (items.map weight).sum := by
  induction items using List.reverseRecOn with
  | nil => simp [value_empty]
  | append_singleton items item ih => simp [value_add, ih]

end

/-! ## The buckets in the order of their keys -/

section
variable {Key Bucket : Type} [LinearOrder Key]

def byKey (table : Table Key Bucket) : List (Sigma fun _ : Key => Bucket) :=
  table.entries.insertionSort fun first second => first.1 ≤ second.1

theorem mem_byKey (table : Table Key Bucket) (entry : Sigma fun _ : Key => Bucket) :
    entry ∈ byKey table ↔ entry ∈ table.entries := List.mem_insertionSort _

theorem byKey_ascending (table : Table Key Bucket) :
    ((byKey table).map Sigma.fst).Pairwise (· < ·) := by
  have perm : ((byKey table).map Sigma.fst).Perm table.keys :=
    (List.perm_insertionSort _ table.entries).map Sigma.fst
  have distinct : ((byKey table).map Sigma.fst).Nodup := perm.nodup_iff.mpr table.keys_nodup
  have weak : ((byKey table).map Sigma.fst).Pairwise (· ≤ ·) := by
    rw [List.pairwise_map]
    have : Std.Total fun first second : Sigma fun _ : Key => Bucket => first.1 ≤ second.1 :=
      ⟨fun first second => le_total first.1 second.1⟩
    have : IsTrans (Sigma fun _ : Key => Bucket) fun first second => first.1 ≤ second.1 :=
      ⟨fun _ _ _ => le_trans⟩
    exact List.pairwise_insertionSort _ table.entries
  exact (weak.and distinct).imp fun both => lt_of_le_of_ne both.1 both.2

theorem sum_byKey {M : Type} [AddCommMonoid M] (value : Bucket → M) (table : Table Key Bucket) :
    ((byKey table).map fun entry => value entry.2).sum = total value table :=
  ((List.perm_insertionSort _ table.entries).map fun entry => value entry.2).sum_eq

theorem key_mem_byKey (table : Table Key Bucket) (k : Key) :
    k ∈ (byKey table).map Sigma.fst ↔ k ∈ table := by
  rw [byKey, ((List.perm_insertionSort _ table.entries).map Sigma.fst).mem_iff]
  exact AList.mem_keys.symm

end

end EmbeddedRuntime.Lib.Grouping
