import Mathlib.Data.Nat.Find
import Mathlib.Data.List.Basic

/-!
# Marks that stand for any number of events

A producer marks the cause of each event in a register after the event has
happened; a consumer fetches the register and clears it in one step.  All
events of one cause share one mark, and the consumer may come between an event
and its mark.

The log lists the events, the marks and the fetched registers in their order.
A truthful log returns each cause that was marked since the last fetch and no
other, so every mark is fetched once or still stands.
-/

set_option autoImplicit false

namespace EmbeddedRuntime.Lib.Notifications

universe u v

inductive Entry (Cause : Type u) (Register : Type v) where
  | occurred (cause : Cause)
  | raised (cause : Cause)
  | taken (register : Register)
  deriving DecidableEq, Repr

variable {Cause : Type u} {Register : Type v}

/-- No register is fetched at the places from `first` on and before `last`. -/
def Untaken (log : List (Entry Cause Register)) (first last : Nat) : Prop :=
  ∀ k, first ≤ k → k < last → ∀ register, log[k]? ≠ some (.taken register)

/-- The cause was marked before the place `last` and the register was not fetched since. -/
def Pending (log : List (Entry Cause Register)) (last : Nat) (cause : Cause) : Prop :=
  ∃ j, j < last ∧ log[j]? = some (.raised cause) ∧ Untaken log (j + 1) last

/-- The register is fetched at `k`, for the first time after `j`. -/
structure FirstTaken (log : List (Entry Cause Register)) (j k : Nat) : Prop where
  after : j < k
  taken : ∃ register, log[k]? = some (.taken register)
  first : Untaken log (j + 1) k

/-- Neither an event of this cause nor its mark at the places from `first` on and before `last`. -/
def Quiet (log : List (Entry Cause Register)) (cause : Cause) (first last : Nat) : Prop :=
  ∀ k, first ≤ k → k < last →
    log[k]? ≠ some (.occurred cause) ∧ log[k]? ≠ some (.raised cause)

/-- The mark at `j` is that of the event at `i`. -/
structure MarkOf (log : List (Entry Cause Register)) (cause : Cause) (i j : Nat) : Prop where
  before : i < j
  occurred : log[i]? = some (.occurred cause)
  raised : log[j]? = some (.raised cause)
  alone : Quiet log cause (i + 1) j

/-! ## A longer log -/

section Append
variable {log : List (Entry Cause Register)} {entry : Entry Cause Register} {cause : Cause}

theorem getElem?_old {k : Nat} (old : k < log.length) : (log ++ [entry])[k]? = log[k]? :=
  List.getElem?_append_left old

theorem getElem?_new : (log ++ [entry])[log.length]? = some entry :=
  List.getElem?_concat_length

/-- A place of a longer log is an old one or the new one. -/
theorem getElem?_append_cases {k : Nat} {found : Entry Cause Register}
    (here : (log ++ [entry])[k]? = some found) :
    (k < log.length ∧ log[k]? = some found) ∨ (k = log.length ∧ entry = found) := by
  obtain ⟨inside, -⟩ := List.getElem?_eq_some_iff.mp here
  rw [List.length_append, List.length_singleton] at inside
  by_cases old : k < log.length
  · rw [getElem?_old old] at here
    exact Or.inl ⟨old, here⟩
  · obtain rfl : k = log.length := by omega
    rw [getElem?_new] at here
    exact Or.inr ⟨rfl, Option.some.inj here⟩

theorem Untaken.append {first last : Nat} (untaken : Untaken log first last)
    (old : last ≤ log.length) : Untaken (log ++ [entry]) first last := by
  intro k low high
  rw [getElem?_old (by omega)]
  exact untaken k low high

theorem untaken_append_iff {first last : Nat} (old : last ≤ log.length) :
    Untaken (log ++ [entry]) first last ↔ Untaken log first last := by
  refine ⟨fun untaken k low high => ?_, fun untaken => untaken.append old⟩
  have same := untaken k low high
  rwa [getElem?_old (by omega)] at same

/-- Nothing is fetched by an entry that is not a fetch. -/
theorem untaken_append_last {first : Nat} (other : ∀ register, entry ≠ .taken register) :
    Untaken (log ++ [entry]) first (log.length + 1) ↔ Untaken log first log.length := by
  constructor
  · intro untaken
    exact (untaken_append_iff (Nat.le_refl _)).mp
      fun k low high => untaken k low (by omega)
  · intro untaken k low high register here
    rcases getElem?_append_cases here with ⟨old, same⟩ | ⟨-, same⟩
    · exact untaken k low old register same
    · exact other register same

theorem pending_append_iff {last : Nat} (old : last ≤ log.length) :
    Pending (log ++ [entry]) last cause ↔ Pending log last cause := by
  unfold Pending
  refine exists_congr fun j => ?_
  constructor
  · rintro ⟨before, raised, untaken⟩
    rw [getElem?_old (by omega)] at raised
    exact ⟨before, raised, (untaken_append_iff old).mp untaken⟩
  · rintro ⟨before, raised, untaken⟩
    rw [getElem?_old (by omega)]
    exact ⟨before, raised, untaken.append old⟩

/-- A fetch leaves no mark behind. -/
theorem not_pending_taken (register : Register) :
    ¬ Pending (log ++ [.taken register]) (log.length + 1) cause := by
  rintro ⟨j, before, raised, untaken⟩
  have notLast : j ≠ log.length := by
    rintro rfl
    rw [getElem?_new] at raised
    cases raised
  exact untaken log.length (by omega) (by omega) register getElem?_new

theorem pending_raised_iff (other : Cause) :
    Pending (log ++ [.raised other]) (log.length + 1) cause ↔
      cause = other ∨ Pending log log.length cause := by
  constructor
  · rintro ⟨j, before, raised, untaken⟩
    rcases getElem?_append_cases raised with ⟨old, same⟩ | ⟨-, same⟩
    · exact Or.inr ⟨j, old, same, (untaken_append_last (by simp)).mp untaken⟩
    · cases same
      exact Or.inl rfl
  · rintro (rfl | ⟨j, before, raised, untaken⟩)
    · exact ⟨log.length, Nat.lt_succ_self _, getElem?_new, fun k low high => by omega⟩
    · refine ⟨j, by omega, ?_, (untaken_append_last (by simp)).mpr untaken⟩
      rw [getElem?_old before]
      exact raised

theorem pending_occurred_iff (other : Cause) :
    Pending (log ++ [.occurred other]) (log.length + 1) cause ↔
      Pending log log.length cause := by
  constructor
  · rintro ⟨j, before, raised, untaken⟩
    rcases getElem?_append_cases raised with ⟨old, same⟩ | ⟨-, same⟩
    · exact ⟨j, old, same, (untaken_append_last (by simp)).mp untaken⟩
    · cases same
  · rintro ⟨j, before, raised, untaken⟩
    refine ⟨j, by omega, ?_, (untaken_append_last (by simp)).mpr untaken⟩
    rw [getElem?_old before]
    exact raised

theorem Quiet.append_old {first last : Nat} (quiet : Quiet log cause first last)
    (old : last ≤ log.length) : Quiet (log ++ [entry]) cause first last := by
  intro k low high
  rw [getElem?_old (by omega)]
  exact quiet k low high

theorem Quiet.append {first : Nat} (quiet : Quiet log cause first log.length)
    (notOccurred : entry ≠ .occurred cause) (notRaised : entry ≠ .raised cause) :
    Quiet (log ++ [entry]) cause first (log.length + 1) := by
  intro k low high
  constructor
  · intro here
    rcases getElem?_append_cases here with ⟨old, same⟩ | ⟨-, same⟩
    · exact (quiet k low old).1 same
    · exact notOccurred same
  · intro here
    rcases getElem?_append_cases here with ⟨old, same⟩ | ⟨-, same⟩
    · exact (quiet k low old).2 same
    · exact notRaised same

theorem MarkOf.append {i j : Nat} (mark : MarkOf log cause i j) :
    MarkOf (log ++ [entry]) cause i j := by
  obtain ⟨before, occurred, raised, alone⟩ := mark
  have inside := (List.getElem?_eq_some_iff.mp raised).1
  refine ⟨before, ?_, ?_, alone.append_old (by omega)⟩
  · rw [getElem?_old (by omega)]
    exact occurred
  · rw [getElem?_old inside]
    exact raised

end Append

/-! ## What is fetched -/

section Truthful
variable (has : Register → Cause → Prop)

/-- Every fetched register, and the one that stands, has the causes that are pending there. -/
structure Truthful (log : List (Entry Cause Register)) (register : Register) : Prop where
  taken : ∀ k returned, log[k]? = some (.taken returned) →
    ∀ cause, has returned cause ↔ Pending log k cause
  current : ∀ cause, has register cause ↔ Pending log log.length cause

variable {has} {log : List (Entry Cause Register)} {register register' : Register}

theorem truthful_nil (clear : ∀ cause, ¬ has register cause) : Truthful has [] register where
  taken := fun k returned here => by simp at here
  current := fun cause =>
    iff_of_false (clear cause) fun ⟨_, before, _⟩ => absurd before (Nat.not_lt_zero _)

/-- The places of the log before the last entry stay truthful. -/
theorem Truthful.append_taken (truthful : Truthful has log register)
    {entry : Entry Cause Register}
    (last : ∀ returned, entry = .taken returned →
      ∀ cause, has returned cause ↔ Pending log log.length cause)
    (k : Nat) (returned : Register) (here : (log ++ [entry])[k]? = some (.taken returned))
    (cause : Cause) : has returned cause ↔ Pending (log ++ [entry]) k cause := by
  rcases getElem?_append_cases here with ⟨old, same⟩ | ⟨rfl, same⟩
  · rw [pending_append_iff (by omega)]
    exact truthful.taken k returned same cause
  · rw [pending_append_iff (Nat.le_refl _)]
    exact last returned same cause

theorem Truthful.occurred (truthful : Truthful has log register) (cause : Cause)
    (same : ∀ cause, has register' cause ↔ has register cause) :
    Truthful has (log ++ [.occurred cause]) register' where
  taken := truthful.append_taken (by simp)
  current := fun other => by
    rw [List.length_append, List.length_singleton, pending_occurred_iff, same]
    exact truthful.current other

theorem Truthful.raised (truthful : Truthful has log register) (cause : Cause)
    (marked : ∀ other, has register' other ↔ other = cause ∨ has register other) :
    Truthful has (log ++ [.raised cause]) register' where
  taken := truthful.append_taken (by simp)
  current := fun other => by
    rw [List.length_append, List.length_singleton, pending_raised_iff, marked,
      truthful.current other]

theorem Truthful.fetch (truthful : Truthful has log register)
    (clear : ∀ cause, ¬ has register' cause) :
    Truthful has (log ++ [.taken register]) register' where
  taken := truthful.append_taken fun returned same => by
    obtain rfl := Entry.taken.inj same
    exact truthful.current
  current := fun cause => by
    rw [List.length_append, List.length_singleton]
    exact iff_of_false (clear cause) (not_pending_taken register)

theorem Truthful.silent (truthful : Truthful has log register)
    (same : ∀ cause, has register' cause ↔ has register cause) : Truthful has log register' where
  taken := truthful.taken
  current := fun cause => (same cause).trans (truthful.current cause)

theorem firstTaken_unique {j k k' : Nat} (first : FirstTaken log j k)
    (first' : FirstTaken log j k') : k = k' := by
  obtain ⟨after, ⟨register, here⟩, untaken⟩ := first
  obtain ⟨after', ⟨register', here'⟩, untaken'⟩ := first'
  rcases Nat.lt_trichotomy k k' with less | same | more
  · exact absurd here (untaken' k after less register)
  · exact same
  · exact absurd here' (untaken k' after' more register')

/-- The first fetch after a place, if there is one. -/
theorem untaken_or_firstTaken (log : List (Entry Cause Register)) (j : Nat) :
    Untaken log (j + 1) log.length ∨ ∃ k, FirstTaken log j k := by
  classical
  by_cases fetched : ∃ k, j < k ∧ ∃ register, log[k]? = some (.taken register)
  · refine Or.inr ⟨Nat.find fetched, (Nat.find_spec fetched).1, (Nat.find_spec fetched).2, ?_⟩
    intro k low high register here
    exact Nat.find_min fetched high ⟨low, register, here⟩
  · refine Or.inl fun k low _ register here => fetched ⟨k, low, register, here⟩

/-- Every mark still stands or is fetched, exactly once: by the first fetch after it. -/
theorem Truthful.notified (truthful : Truthful has log register) {j : Nat} {cause : Cause}
    (raised : log[j]? = some (.raised cause)) :
    (Untaken log (j + 1) log.length ∧ has register cause) ∨
      ∃! k, FirstTaken log j k ∧
        ∃ returned, log[k]? = some (.taken returned) ∧ has returned cause := by
  rcases untaken_or_firstTaken log j with untaken | ⟨k, first⟩
  · have inside := (List.getElem?_eq_some_iff.mp raised).1
    exact Or.inl ⟨untaken, (truthful.current cause).mpr ⟨j, inside, raised, untaken⟩⟩
  · obtain ⟨returned, here⟩ := first.taken
    have fetched : has returned cause :=
      (truthful.taken k returned here cause).mpr ⟨j, first.after, raised, first.first⟩
    refine Or.inr ⟨k, ⟨first, returned, here, fetched⟩, ?_⟩
    rintro k' ⟨first', -⟩
    exact firstTaken_unique first' first

end Truthful

/-! ## Events and their marks -/

/-- Every event has its mark, or it is the last one of a cause whose mark is due; every mark is
that of an event. -/
structure Marked (log : List (Entry Cause Register)) (due : Cause → Prop) : Prop where
  event : ∀ i cause, log[i]? = some (.occurred cause) →
    (∃ j, MarkOf log cause i j) ∨ (due cause ∧ Quiet log cause (i + 1) log.length)
  mark : ∀ j cause, log[j]? = some (.raised cause) → ∃ i, MarkOf log cause i j
  due : ∀ cause, due cause →
    ∃ i, log[i]? = some (.occurred cause) ∧ Quiet log cause (i + 1) log.length

section Marked
variable {log : List (Entry Cause Register)} {due due' : Cause → Prop}

theorem marked_nil (none : ∀ cause, ¬ due cause) :
    Marked ([] : List (Entry Cause Register)) due where
  event := fun i cause here => by simp at here
  mark := fun j cause here => by simp at here
  due := fun cause now => absurd now (none cause)

theorem Marked.silent (marked : Marked log due) (same : ∀ cause, due' cause ↔ due cause) :
    Marked log due' where
  event := fun i cause here =>
    (marked.event i cause here).imp id fun ⟨now, quiet⟩ => ⟨(same cause).mpr now, quiet⟩
  mark := marked.mark
  due := fun cause now => marked.due cause ((same cause).mp now)

/-- A fetch concerns no event. -/
theorem Marked.fetch (marked : Marked log due) (register : Register)
    (same : ∀ cause, due' cause ↔ due cause) : Marked (log ++ [.taken register]) due' where
  event := by
    intro i cause here
    rcases getElem?_append_cases here with ⟨-, old⟩ | ⟨-, new⟩
    · rcases marked.event i cause old with ⟨j, mark⟩ | ⟨now, quiet⟩
      · exact Or.inl ⟨j, mark.append⟩
      · refine Or.inr ⟨(same cause).mpr now, ?_⟩
        rw [List.length_append, List.length_singleton]
        exact quiet.append (by simp) (by simp)
    · cases new
  mark := by
    intro j cause here
    rcases getElem?_append_cases here with ⟨-, old⟩ | ⟨-, new⟩
    · obtain ⟨i, mark⟩ := marked.mark j cause old
      exact ⟨i, mark.append⟩
    · cases new
  due := by
    intro cause now
    obtain ⟨i, here, quiet⟩ := marked.due cause ((same cause).mp now)
    refine ⟨i, ?_, ?_⟩
    · rw [getElem?_old (List.getElem?_eq_some_iff.mp here).1]
      exact here
    · rw [List.length_append, List.length_singleton]
      exact quiet.append (by simp) (by simp)

/-- An event; the mark of the one before was not due. -/
theorem Marked.occurred (marked : Marked log due) {cause : Cause} (free : ¬ due cause)
    (next : ∀ other, due' other ↔ other = cause ∨ due other) :
    Marked (log ++ [.occurred cause]) due' where
  event := by
    intro i other here
    rw [List.length_append, List.length_singleton]
    rcases getElem?_append_cases here with ⟨-, old⟩ | ⟨rfl, new⟩
    · rcases marked.event i other old with ⟨j, mark⟩ | ⟨now, quiet⟩
      · exact Or.inl ⟨j, mark.append⟩
      · have differ : (Entry.occurred cause : Entry Cause Register) ≠ .occurred other := by
          rintro ⟨⟩
          exact free now
        exact Or.inr ⟨(next other).mpr (Or.inr now), quiet.append differ (by simp)⟩
    · cases new
      exact Or.inr ⟨(next cause).mpr (Or.inl rfl), fun k low high => by omega⟩
  mark := by
    intro j other here
    rcases getElem?_append_cases here with ⟨-, old⟩ | ⟨-, new⟩
    · obtain ⟨i, mark⟩ := marked.mark j other old
      exact ⟨i, mark.append⟩
    · cases new
  due := by
    intro other now
    rw [List.length_append, List.length_singleton]
    by_cases new : other = cause
    · subst new
      exact ⟨log.length, getElem?_new, fun k low high => by omega⟩
    · obtain ⟨i, here, quiet⟩ := marked.due other (((next other).mp now).resolve_left new)
      refine ⟨i, ?_, ?_⟩
      · rw [getElem?_old (List.getElem?_eq_some_iff.mp here).1]
        exact here
      · refine quiet.append ?_ (by simp)
        rintro ⟨⟩
        exact new rfl

/-- The mark that is due: it is that of the last event of its cause. -/
theorem Marked.raised (marked : Marked log due) {cause : Cause} (now : due cause)
    (next : ∀ other, due' other ↔ other ≠ cause ∧ due other) :
    Marked (log ++ [.raised cause]) due' where
  event := by
    intro i other here
    rw [List.length_append, List.length_singleton]
    rcases getElem?_append_cases here with ⟨inside, old⟩ | ⟨-, new⟩
    · rcases marked.event i other old with ⟨j, mark⟩ | ⟨isDue, quiet⟩
      · exact Or.inl ⟨j, mark.append⟩
      · by_cases this : other = cause
        · subst this
          refine Or.inl ⟨log.length, inside, here, getElem?_new, ?_⟩
          exact quiet.append_old (Nat.le_refl _)
        · have differ : (Entry.raised cause : Entry Cause Register) ≠ .raised other := by
            rintro ⟨⟩
            exact this rfl
          exact Or.inr ⟨(next other).mpr ⟨this, isDue⟩, quiet.append (by simp) differ⟩
    · cases new
  mark := by
    intro j other here
    rcases getElem?_append_cases here with ⟨-, old⟩ | ⟨rfl, new⟩
    · obtain ⟨i, mark⟩ := marked.mark j other old
      exact ⟨i, mark.append⟩
    · cases new
      obtain ⟨i, event, quiet⟩ := marked.due cause now
      have inside := (List.getElem?_eq_some_iff.mp event).1
      refine ⟨i, inside, ?_, getElem?_new, quiet.append_old (Nat.le_refl _)⟩
      rw [getElem?_old inside]
      exact event
  due := by
    intro other isDue
    obtain ⟨this, before⟩ := (next other).mp isDue
    obtain ⟨i, here, quiet⟩ := marked.due other before
    refine ⟨i, ?_, ?_⟩
    · rw [getElem?_old (List.getElem?_eq_some_iff.mp here).1]
      exact here
    · rw [List.length_append, List.length_singleton]
      refine quiet.append (by simp) ?_
      rintro ⟨⟩
      exact this rfl

end Marked

end EmbeddedRuntime.Lib.Notifications
