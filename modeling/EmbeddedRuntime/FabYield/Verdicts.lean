import EmbeddedRuntime.FabYield.Transform
import EmbeddedRuntime.Lib.Fallible

/-!
# Which rows are accepted

A row is accepted if it is valid and no valid row before it has its event.  The
loop comes to the same verdicts from the set of events it has seen, and its
state is the accepted and the rejected rows, summed up.
-/

set_option autoImplicit false

namespace EmbeddedRuntime.FabYield.Transform

open EmbeddedRuntime.Bmc.Python (Bytes Kind Raised valueError)
open EmbeddedRuntime.Lib.Fallible EmbeddedRuntime.Lib.Grouping

variable {F : Type} (lib : Library F)

def HasEvent (event : String) (row : Row) : Prop := ∃ r, validate lib row = .ok r ∧ r.event = event

instance (event : String) (row : Row) : Decidable (HasEvent lib event row) :=
  match eq : validate lib row with
  | .ok r => decidable_of_iff (r.event = event) (by simp [HasEvent, eq])
  | .error _ => isFalse (by simp [HasEvent, eq])

/-- What becomes of a row, by the rows before it. -/
def verdict (earlier : List Row) (row : Row) : Except Raised (Record F) :=
  match validate lib row with
  | .error error => .error error
  | .ok r =>
    if ∃ before ∈ earlier, HasEvent lib r.event before then valueError "duplicate event_id"
    else .ok r

/-- The verdict on each row, with the number of its row in the file. -/
def verdicts (rows : List Row) : List (Except Raised (Record F) × Nat) :=
  rows.zipIdx.map fun numbered => (verdict lib (rows.take numbered.2) numbered.1, numbered.2 + 2)

def acceptedOf (judged : Except Raised (Record F) × Nat) : Option (Record F) :=
  match judged.1 with
  | .ok r => some r
  | .error _ => none

def rejectedOf (judged : Except Raised (Record F) × Nat) : Option InvalidRow :=
  match judged.1 with
  | .ok _ => none
  | .error error => some ⟨judged.2, error.text⟩

/-- The first valid row of each event, in the order of the file. -/
def firstValid (rows : List Row) : List (Record F) := (verdicts lib rows).filterMap acceptedOf

/-- All other rows, in the order of the file. -/
def rejectedRows (rows : List Row) : List InvalidRow := (verdicts lib rows).filterMap rejectedOf

theorem verdicts_snoc (rows : List Row) (row : Row) :
    verdicts lib (rows ++ [row]) = verdicts lib rows ++ [(verdict lib rows row, rows.length + 2)] := by
  rw [verdicts, List.zipIdx_append, List.map_append]
  have same : ∀ numbered ∈ rows.zipIdx,
      (verdict lib ((rows ++ [row]).take numbered.2) numbered.1, numbered.2 + 2) =
        (verdict lib (rows.take numbered.2) numbered.1, numbered.2 + 2) := by
    intro numbered member
    have bound : numbered.2 < rows.length := by
      have := List.snd_lt_add_of_mem_zipIdx member
      omega
    rw [List.take_append_of_le_length bound.le]
  rw [List.map_congr_left same]
  simp [verdicts]

theorem verdict_ok (earlier : List Row) (row : Row) (r : Record F) :
    verdict lib earlier row = .ok r ↔
      validate lib row = .ok r ∧ ¬∃ before ∈ earlier, HasEvent lib r.event before := by
  unfold verdict
  cases validate lib row with
  | error error => simp
  | ok found =>
    by_cases repeated : ∃ before ∈ earlier, HasEvent lib found.event before
    · simp only [if_pos repeated, valueError, reduceCtorEq, Except.ok.injEq, false_iff, not_and,
        not_not]
      rintro rfl
      exact repeated
    · simp only [if_neg repeated, Except.ok.injEq]
      exact ⟨fun same => ⟨same, same ▸ repeated⟩, And.left⟩

section
variable {lib}
variable {rows : List Row} {row : Row}

theorem firstValid_accept {r : Record F} (judged : verdict lib rows row = .ok r) :
    firstValid lib (rows ++ [row]) = firstValid lib rows ++ [r] := by
  rw [firstValid, verdicts_snoc, judged, List.filterMap_append]
  rfl

theorem rejectedRows_accept {r : Record F} (judged : verdict lib rows row = .ok r) :
    rejectedRows lib (rows ++ [row]) = rejectedRows lib rows := by
  rw [rejectedRows, verdicts_snoc, judged, List.filterMap_append]
  exact List.append_nil _

theorem firstValid_reject {error : Raised} (judged : verdict lib rows row = .error error) :
    firstValid lib (rows ++ [row]) = firstValid lib rows := by
  rw [firstValid, verdicts_snoc, judged, List.filterMap_append]
  exact List.append_nil _

theorem rejectedRows_reject {error : Raised} (judged : verdict lib rows row = .error error) :
    rejectedRows lib (rows ++ [row]) =
      rejectedRows lib rows ++ [InvalidRow.mk (rows.length + 2) error.text] := by
  rw [rejectedRows, verdicts_snoc, judged, List.filterMap_append]
  rfl

/-- A duplicate's event has been seen; any other rejected row has none. -/
theorem rejected_event {error : Raised} (judged : verdict lib rows row = .error error)
    (event : String) (has : HasEvent lib event row) :
    ∃ earlier ∈ rows, HasEvent lib event earlier := by
  obtain ⟨r, valid, rfl⟩ := has
  by_contra fresh
  rw [(verdict_ok lib rows row r).mpr ⟨valid, fresh⟩] at judged
  cases judged

end

/-- Each event of a valid row is accepted. -/
theorem event_accepted (rows : List Row) (row : Row) (member : row ∈ rows) (event : String)
    (has : HasEvent lib event row) : ∃ r ∈ firstValid lib rows, r.event = event := by
  induction rows using List.reverseRecOn generalizing row with
  | nil => cases member
  | append_singleton rows last ih =>
    have earlier : ∀ row ∈ rows, HasEvent lib event row →
        ∃ r ∈ firstValid lib (rows ++ [last]), r.event = event := by
      intro row member has
      obtain ⟨r, kept, same⟩ := ih row member has
      cases judged : verdict lib rows last with
      | ok found => exact ⟨r, firstValid_accept judged ▸ List.mem_append_left _ kept, same⟩
      | error error => exact ⟨r, firstValid_reject judged ▸ kept, same⟩
    rcases List.mem_append.mp member with old | new
    · exact earlier row old has
    · obtain rfl := List.mem_singleton.mp new
      cases judged : verdict lib rows row with
      | ok found =>
        obtain ⟨r, valid, same⟩ := has
        have accepted := ((verdict_ok lib rows row found).mp judged).1
        obtain rfl : found = r := Except.ok.inj (accepted.symm.trans valid)
        exact ⟨found, firstValid_accept judged ▸ by simp, same⟩
      | error error =>
        obtain ⟨before, inside, has⟩ := rejected_event judged event has
        exact earlier before inside has

theorem mem_firstValid (rows : List Row) (r : Record F) :
    r ∈ firstValid lib rows ↔
      ∃ i row, rows[i]? = some row ∧ validate lib row = .ok r ∧
        ¬∃ before ∈ rows.take i, HasEvent lib r.event before := by
  have judged : r ∈ firstValid lib rows ↔
      ∃ i row, rows[i]? = some row ∧ verdict lib (rows.take i) row = .ok r := by
    simp only [firstValid, verdicts, List.filterMap_map, List.mem_filterMap, Prod.exists,
      List.mem_zipIdx_iff_getElem?, Function.comp_apply, acceptedOf]
    constructor
    · rintro ⟨row, i, found, accepted⟩
      split at accepted
      · rename_i kept eq
        exact ⟨i, row, found, eq.trans (congrArg Except.ok (Option.some.inj accepted))⟩
      · cases accepted
    · rintro ⟨i, row, found, accepted⟩
      exact ⟨row, i, found, by rw [accepted]⟩
  simp only [judged, verdict_ok]

theorem accepted_valid (rows : List Row) (r : Record F) (member : r ∈ firstValid lib rows) :
    ∃ row ∈ rows, validate lib row = .ok r := by
  obtain ⟨i, row, found, valid, -⟩ := (mem_firstValid lib rows r).mp member
  exact ⟨row, List.mem_of_getElem? found, valid⟩

/-- No event is accepted twice. -/
theorem events_distinct (rows : List Row) : ((firstValid lib rows).map Record.event).Nodup := by
  induction rows using List.reverseRecOn with
  | nil => exact List.nodup_nil
  | append_singleton rows last ih =>
    cases judged : verdict lib rows last with
    | error error => exact firstValid_reject judged ▸ ih
    | ok found =>
      rw [firstValid_accept judged, List.map_append, List.nodup_append]
      refine ⟨ih, by simp, ?_⟩
      intro event old other new same
      obtain rfl : other = found.event := by simpa using new
      obtain ⟨r, member, rfl⟩ := List.mem_map.mp old
      obtain ⟨row, inside, valid⟩ := accepted_valid lib rows r member
      exact ((verdict_ok lib rows last found).mp judged).2 ⟨row, inside, r, valid, same⟩

theorem accepted_and_rejected (rows : List Row) :
    (firstValid lib rows).length + (rejectedRows lib rows).length = rows.length := by
  have split : ∀ judged : List (Except Raised (Record F) × Nat),
      (judged.filterMap acceptedOf).length + (judged.filterMap rejectedOf).length =
        judged.length := by
    intro judged
    induction judged with
    | nil => rfl
    | cons first rest ih =>
      obtain ⟨verdict, line⟩ := first
      cases verdict with
      | ok r =>
        simp only [List.filterMap_cons, acceptedOf, rejectedOf, List.length_cons]
        omega
      | error error =>
        simp only [List.filterMap_cons, acceptedOf, rejectedOf, List.length_cons]
        omega
  rw [firstValid, rejectedRows, split, verdicts, List.length_map, List.length_zipIdx]

/-! ## The state of the loop -/

/-- The totals and the tables of these records. -/
structure Sums (records : List (Record F)) (s : State F) : Prop where
  accepted : s.accepted = records.length
  tested : s.tested = (records.map Record.tested).sum
  passed : s.passed = (records.map Record.passed).sum
  lots : s.lots = group Record.lot (bucket lib) (addLotRecord lib) records
  tools : s.tools = group Record.tool (bucket lib) (addRecord lib) records
  days : s.days = group Record.date (bucket lib) (addRecord lib) records

structure Summed (maxInvalid : Int) (rows : List Row) (s : State F) : Prop
    extends Sums lib (firstValid lib rows) s where
  seen : ∀ event, event ∈ s.seen ↔ ∃ row ∈ rows, HasEvent lib event row
  invalid : s.invalid = (rejectedRows lib rows).take maxInvalid.toNat

theorem start_summed (maxInvalid : Int) : Summed lib maxInvalid [] start where
  accepted := rfl
  tested := rfl
  passed := rfl
  lots := rfl
  tools := rfl
  days := rfl
  seen event := by simp [start]
  invalid := by simp [start, rejectedRows, verdicts]

theorem tryRow_eq_verdict {seen : List String} {rows : List Row} (row : Row)
    (known : ∀ event, event ∈ seen ↔ ∃ row ∈ rows, HasEvent lib event row) :
    tryRow lib seen row = verdict lib rows row := by
  unfold tryRow verdict
  cases validate lib row with
  | error error => rfl
  | ok r => exact if_congr (known r.event) rfl rfl

theorem seen_step {seen : List String} {rows : List Row} {row : Row}
    (known : ∀ event, event ∈ seen ↔ ∃ row ∈ rows, HasEvent lib event row) (event : String) :
    (∃ earlier ∈ rows ++ [row], HasEvent lib event earlier) ↔
      event ∈ seen ∨ HasEvent lib event row := by
  rw [known]
  constructor
  · rintro ⟨earlier, member, has⟩
    rcases List.mem_append.mp member with old | new
    · exact .inl ⟨earlier, old, has⟩
    · exact .inr (List.mem_singleton.mp new ▸ has)
  · rintro (⟨earlier, member, has⟩ | has)
    · exact ⟨earlier, List.mem_append_left _ member, has⟩
    · exact ⟨row, by simp, has⟩

theorem accept_sums {records : List (Record F)} {s : State F} (sums : Sums lib records s)
    (r : Record F) : Sums lib (records ++ [r]) (accept lib s r) where
  accepted := by simp [accept, sums.accepted]
  tested := by simp [accept, sums.tested]
  passed := by simp [accept, sums.passed]
  lots := by
    rw [group_snoc, ← sums.lots]
    rfl
  tools := by
    rw [group_snoc, ← sums.tools]
    rfl
  days := by
    rw [group_snoc, ← sums.days]
    rfl

theorem accept_summed {maxInvalid : Int} {rows : List Row} {s : State F} {row : Row} {r : Record F}
    (summed : Summed lib maxInvalid rows s) (fresh : verdict lib rows row = .ok r) :
    Summed lib maxInvalid (rows ++ [row]) (accept lib s r) := by
  have valid := ((verdict_ok lib rows row r).mp fresh).1
  refine ⟨?_, fun event => ?_, ?_⟩
  · rw [firstValid_accept fresh]
    exact accept_sums lib summed.toSums r
  · rw [seen_step lib summed.seen]
    simp [accept, HasEvent, valid, or_comm, eq_comm]
  · rw [rejectedRows_accept fresh]
    exact summed.invalid

/-- A rejected row is listed or not, and changes nothing else. -/
theorem reject_eq (maxInvalid : Int) (s : State F) (line : Nat) (error : Raised) :
    ∃ invalid, reject maxInvalid s line error = { s with invalid } := by
  unfold reject
  split
  · exact ⟨_, rfl⟩
  · exact ⟨s.invalid, rfl⟩

theorem reject_invalid (maxInvalid : Int) (s : State F) (line : Nat) (error : Raised)
    (rejected : List InvalidRow) (invalid : s.invalid = rejected.take maxInvalid.toNat) :
    (reject maxInvalid s line error).invalid =
      (rejected ++ [InvalidRow.mk line error.text]).take maxInvalid.toNat := by
  unfold reject
  by_cases room : (s.invalid.length : Int) < maxInvalid
  · have shorter : rejected.length < maxInvalid.toNat := by
      rw [invalid, List.length_take] at room
      omega
    rw [if_pos room, invalid, List.take_of_length_le shorter.le, List.take_of_length_le]
    rw [List.length_append, List.length_singleton]
    omega
  · have full : maxInvalid.toNat ≤ rejected.length := by
      rw [invalid, List.length_take] at room
      omega
    rw [if_neg room, invalid, List.take_append_of_le_length full]

theorem reject_summed {maxInvalid : Int} {rows : List Row} {s : State F} {row : Row}
    {error : Raised} (summed : Summed lib maxInvalid rows s)
    (refused : verdict lib rows row = .error error) :
    Summed lib maxInvalid (rows ++ [row]) (reject maxInvalid s (rows.length + 2) error) := by
  have listed := reject_invalid maxInvalid s (rows.length + 2) error _ summed.invalid
  obtain ⟨invalid, same⟩ := reject_eq maxInvalid s (rows.length + 2) error
  rw [same] at listed ⊢
  refine ⟨?_, fun event => ?_, ?_⟩
  · rw [firstValid_reject refused]
    exact { summed.toSums with }
  · rw [seen_step lib summed.seen]
    refine ⟨.inl, ?_⟩
    rintro (old | has)
    · exact old
    · exact (summed.seen event).mpr (rejected_event refused event has)
  · rw [rejectedRows_reject refused]
    exact listed

theorem step_summed {maxInvalid : Int} {rows : List Row} {s next : State F} {row : Row}
    (summed : Summed lib maxInvalid rows s)
    (ran : step lib maxInvalid s (row, rows.length + 2) = .ok next) :
    Summed lib maxInvalid (rows ++ [row]) next := by
  simp only [step, tryRow_eq_verdict lib row summed.seen] at ran
  cases judged : verdict lib rows row with
  | ok r =>
    simp only [judged, Except.ok.injEq] at ran
    exact ran ▸ accept_summed lib summed judged
  | error error =>
    simp only [judged] at ran
    split at ran
    · exact Except.ok.inj ran ▸ reject_summed lib summed judged
    · cases ran

theorem readRows_snoc (maxInvalid : Int) (rows : List Row) (row : Row) :
    readRows lib maxInvalid (rows ++ [row]) =
      readRows lib maxInvalid rows >>= fun s => step lib maxInvalid s (row, rows.length + 2) := by
  rw [readRows, List.zipIdx_append, Nat.add_comm]
  exact foldlM_snoc _ _ _ _

theorem readRows_summed (maxInvalid : Int) (rows : List Row) (s : State F)
    (ran : readRows lib maxInvalid rows = .ok s) : Summed lib maxInvalid rows s := by
  induction rows using List.reverseRecOn generalizing s with
  | nil =>
    obtain rfl : start = s := Except.ok.inj ran
    exact start_summed lib maxInvalid
  | append_singleton rows row ih =>
    rw [readRows_snoc] at ran
    obtain ⟨before, earlier, last⟩ := bind_eq_ok.mp ran
    exact step_summed lib (ih before earlier) last

end EmbeddedRuntime.FabYield.Transform
