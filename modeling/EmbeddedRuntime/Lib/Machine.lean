import Mathlib.Data.List.Induction
import Mathlib.Order.Lattice

/-!
# Runs of a machine under a schedule

A machine is a step function; a run is the fold of the step over a schedule of
actions.  Every interleaving of several threads is one schedule whose actions
name the thread that moves.  `Admits` restricts the schedules to those in which
each action is admissible in the state it is taken from.

A partial machine may have no successor (a walk that does not terminate); its
runs are shown to exist together with the invariant they keep.
-/

set_option autoImplicit false

namespace EmbeddedRuntime.Lib.Machine

universe u v
variable {State : Type u} {Action : Type v}

section Total
variable (step : State → Action → State) (admitted : State → Action → Prop)

/-- The state after a schedule. -/
def run (state : State) (schedule : List Action) : State :=
  schedule.foldl step state

/-- Every action of the schedule is admissible where it is taken. -/
def Admits : State → List Action → Prop
  | _, [] => True
  | state, action :: rest => admitted state action ∧ Admits (step state action) rest

instance decidableAdmits [∀ state action, Decidable (admitted state action)] :
    (state : State) → (schedule : List Action) → Decidable (Admits step admitted state schedule)
  | _, [] => .isTrue trivial
  | state, action :: rest =>
      haveI := decidableAdmits (step state action) rest
      inferInstanceAs (Decidable (admitted state action ∧ Admits step admitted _ rest))

@[simp] theorem run_nil (state : State) : run step state [] = state := rfl

@[simp] theorem run_cons (state : State) (action : Action) (rest : List Action) :
    run step state (action :: rest) = run step (step state action) rest := rfl

theorem run_append (state : State) (first second : List Action) :
    run step state (first ++ second) = run step (run step state first) second :=
  List.foldl_append ..

theorem admits_append (state : State) (first second : List Action) :
    Admits step admitted state (first ++ second) ↔
      Admits step admitted state first ∧
        Admits step admitted (run step state first) second := by
  induction first generalizing state with
  | nil => simp [Admits]
  | cons action rest ih => simp [Admits, ih, and_assoc]

/-- Admissible schedules, action by action. -/
theorem admits_iff_splits (state : State) (schedule : List Action) :
    Admits step admitted state schedule ↔
      ∀ before action rest, schedule = before ++ action :: rest →
        admitted (run step state before) action := by
  constructor
  · rintro admits before action rest rfl
    exact ((admits_append step admitted state before (action :: rest)).mp admits).2.1
  · intro splits
    induction schedule generalizing state with
    | nil => trivial
    | cons action rest ih =>
        refine ⟨splits [] action rest rfl, ih (step state action) ?_⟩
        rintro before later after rfl
        exact splits (action :: before) later after rfl

/-- Admissibility that does not look at the state. -/
theorem admits_of_forall (allowed : Action → Prop) (state : State) (schedule : List Action)
    (all : ∀ action ∈ schedule, allowed action) :
    Admits step (fun _ action => allowed action) state schedule := by
  induction schedule generalizing state with
  | nil => trivial
  | cons action rest ih =>
      exact ⟨all action List.mem_cons_self,
        ih _ fun other here => all other (List.mem_cons_of_mem _ here)⟩

theorem admits_true (state : State) (schedule : List Action) :
    Admits step (fun _ _ => True) state schedule :=
  admits_of_forall step (fun _ => True) state schedule fun _ _ => trivial

variable {step admitted}

/-- An invariant kept by one admissible step is kept by a run. -/
theorem run_invariant (invariant : State → Prop)
    (preserved : ∀ state action, invariant state → admitted state action →
      invariant (step state action))
    (state : State) (schedule : List Action) (start : invariant state)
    (admits : Admits step admitted state schedule) :
    invariant (run step state schedule) := by
  induction schedule generalizing state with
  | nil => exact start
  | cons action rest ih =>
      exact ih (step state action) (preserved state action start admits.1) admits.2

/-- A mark raised at every step to the level just reached is the highest level
of the run: no earlier level exceeds it, and one of them attains it. -/
theorem run_watermark (invariant : State → Prop) (level mark : State → Nat)
    (preserved : ∀ state action, invariant state → admitted state action →
      invariant (step state action))
    (raised : ∀ state action, invariant state → admitted state action →
      mark (step state action) = max (mark state) (level (step state action)))
    (state : State) (schedule : List Action) (start : invariant state)
    (initial : mark state = level state) (admits : Admits step admitted state schedule) :
    (∀ n, level (run step state (schedule.take n)) ≤ mark (run step state schedule)) ∧
      ∃ n, n ≤ schedule.length ∧
        level (run step state (schedule.take n)) = mark (run step state schedule) := by
  induction schedule using List.reverseRecOn with
  | nil => exact ⟨fun n => by simp [initial], 0, by simp, by simp [initial]⟩
  | append_singleton rest action ih =>
      obtain ⟨admitsRest, ok, -⟩ := (admits_append step admitted state rest [action]).mp admits
      obtain ⟨bound, n, inside, attained⟩ := ih admitsRest
      have kept := run_invariant invariant preserved state rest start admitsRest
      have last := raised _ action kept ok
      rw [run_append, run_cons, run_nil, last]
      constructor
      · intro m
        by_cases short : m ≤ rest.length
        · rw [List.take_append_of_le_length short]
          exact (bound m).trans (le_max_left ..)
        · rw [List.take_of_length_le (by simp; omega), run_append]
          exact le_max_right ..
      · rcases le_total (level (step (run step state rest) action))
          (mark (run step state rest)) with old | new
        · refine ⟨n, by simp; omega, ?_⟩
          rw [List.take_append_of_le_length inside, attained, max_eq_left old]
        · refine ⟨rest.length + 1, by simp, ?_⟩
          rw [List.take_of_length_le (by simp), run_append, max_eq_right new]
          rfl

end Total

section Partial
variable (step : State → Action → Option State) (admitted : State → Action → Prop)

/-- The run of a partial machine: `none` once a step has no successor. -/
def runPartial (state : State) : List Action → Option State
  | [] => some state
  | action :: rest => (step state action).bind fun next => runPartial next rest

/-- As `Admits`; an action after a step without successor is unconstrained. -/
def AdmitsPartial : State → List Action → Prop
  | _, [] => True
  | state, action :: rest =>
      admitted state action ∧ ∀ next, step state action = some next → AdmitsPartial next rest

instance decidableAdmitsPartial [∀ state action, Decidable (admitted state action)] :
    (state : State) → (schedule : List Action) →
      Decidable (AdmitsPartial step admitted state schedule)
  | _, [] => .isTrue trivial
  | state, action :: rest =>
      match taken : step state action with
      | none =>
          decidable_of_iff (admitted state action)
            ⟨fun ok => ⟨ok, fun _ same => nomatch taken.symm.trans same⟩, And.left⟩
      | some next =>
          haveI := decidableAdmitsPartial next rest
          decidable_of_iff (admitted state action ∧ AdmitsPartial step admitted next rest)
            ⟨fun ok => ⟨ok.1, fun _ same => Option.some.inj (taken.symm.trans same) ▸ ok.2⟩,
              fun ok => ⟨ok.1, ok.2 next taken⟩⟩

variable {step admitted}

/-- When every admissible step from the invariant has a successor that keeps
it, every admissible run exists and ends in the invariant. -/
theorem runPartial_invariant (invariant : State → Prop)
    (progress : ∀ state action, invariant state → admitted state action →
      ∃ next, step state action = some next ∧ invariant next)
    (state : State) (schedule : List Action) (start : invariant state)
    (admits : AdmitsPartial step admitted state schedule) :
    ∃ final, runPartial step state schedule = some final ∧ invariant final := by
  induction schedule generalizing state with
  | nil => exact ⟨state, rfl, start⟩
  | cons action rest ih =>
      obtain ⟨next, stepEq, kept⟩ := progress state action start admits.1
      obtain ⟨final, runEq, holds⟩ := ih next kept (admits.2 next stepEq)
      exact ⟨final, by simp [runPartial, stepEq, runEq], holds⟩

/-- An invariant kept by the steps that have a successor holds at the end of every admissible
run that has one. -/
theorem runPartial_keeps (invariant : State → Prop)
    (kept : ∀ {state action next}, invariant state → admitted state action →
      step state action = some next → invariant next)
    {state final : State} (schedule : List Action) (start : invariant state)
    (admits : AdmitsPartial step admitted state schedule)
    (ran : runPartial step state schedule = some final) : invariant final := by
  induction schedule generalizing state with
  | nil =>
      obtain rfl := Option.some.inj ran
      exact start
  | cons action rest ih =>
      obtain ⟨next, stepEq, ranRest⟩ := Option.bind_eq_some_iff.mp ran
      exact ih (kept start admits.1 stepEq) (admits.2 next stepEq) ranRest

theorem runPartial_append (state : State) (first second : List Action) :
    runPartial step state (first ++ second) =
      (runPartial step state first).bind fun next => runPartial step next second := by
  induction first generalizing state with
  | nil => rfl
  | cons action rest ih =>
      simp only [List.cons_append, runPartial]
      cases step state action with
      | none => rfl
      | some next => exact ih next

/-- Admissible schedules, action by action. -/
theorem admitsPartial_iff_splits (state : State) (schedule : List Action) :
    AdmitsPartial step admitted state schedule ↔
      ∀ before action rest, schedule = before ++ action :: rest →
        ∀ reached, runPartial step state before = some reached → admitted reached action := by
  constructor
  · rintro admits before action rest rfl
    induction before generalizing state with
    | nil =>
        intro reached here
        obtain rfl := Option.some.inj here
        exact admits.1
    | cons first earlier ih =>
        intro reached ran
        obtain ⟨next, stepEq, ranRest⟩ := Option.bind_eq_some_iff.mp ran
        exact ih next (admits.2 next stepEq) reached ranRest
  · intro splits
    induction schedule generalizing state with
    | nil => trivial
    | cons action rest ih =>
        refine ⟨splits [] action rest rfl state rfl, fun next stepEq => ih next ?_⟩
        rintro before later after rfl reached ran
        refine splits (action :: before) later after rfl reached ?_
        rw [runPartial, stepEq, Option.bind_some, ran]

theorem admitsPartial_true (state : State) (schedule : List Action) :
    AdmitsPartial step (fun _ _ => True) state schedule :=
  (admitsPartial_iff_splits state schedule).mpr fun _ _ _ _ _ _ => trivial

/-- The first part of an admissible schedule. -/
theorem AdmitsPartial.before {state : State} {first second : List Action}
    (admits : AdmitsPartial step admitted state (first ++ second)) :
    AdmitsPartial step admitted state first := by
  rw [admitsPartial_iff_splits] at admits ⊢
  rintro before action rest rfl
  exact admits before action (rest ++ second) (by simp)

/-- An invariant that bounds the work left: every action keeps it, and an action that counts
leaves less work. -/
structure Bounds (step : State → Action → Option State) (counts : Action → Bool)
    (invariant : Nat → State → Prop) : Prop where
  kept : ∀ {work state action next}, invariant work state → step state action = some next →
    ∃ less, less + (if counts action then 1 else 0) ≤ work ∧ invariant less next

variable {counts : Action → Bool} {invariant : Nat → State → Prop}

/-- A run keeps such an invariant and takes no more counted actions than there is work. -/
theorem Bounds.run (bounds : Bounds step counts invariant) {work : Nat} {state final : State}
    (schedule : List Action) (start : invariant work state)
    (ran : runPartial step state schedule = some final) :
    ∃ less, less + schedule.countP counts ≤ work ∧ invariant less final := by
  induction schedule generalizing state work with
  | nil =>
      obtain rfl := Option.some.inj ran
      exact ⟨work, Nat.le_refl _, start⟩
  | cons action rest ih =>
      simp only [runPartial] at ran
      cases stepEq : step state action with
      | none =>
          rw [stepEq] at ran
          cases ran
      | some next =>
          rw [stepEq] at ran
          obtain ⟨less, bound, kept⟩ := bounds.kept start stepEq
          obtain ⟨left, count, holds⟩ := ih kept ran
          rw [List.countP_cons]
          exact ⟨left, by omega, holds⟩

/-- Every state with the invariant can be run until no counted action is possible. -/
theorem Bounds.exists_stuck (bounds : Bounds step counts invariant) {work : Nat} {state : State}
    (start : invariant work state) :
    ∃ schedule final, runPartial step state schedule = some final ∧
      ∀ action, counts action = true → step final action = none := by
  induction work using Nat.strong_induction_on generalizing state with
  | _ work ih =>
      by_cases stuck : ∀ action, counts action = true → step state action = none
      · exact ⟨[], state, rfl, stuck⟩
      · simp only [not_forall] at stuck
        obtain ⟨action, counted, moved⟩ := stuck
        obtain ⟨next, stepEq⟩ := Option.ne_none_iff_exists'.mp moved
        obtain ⟨less, bound, kept⟩ := bounds.kept start stepEq
        rw [if_pos counted] at bound
        obtain ⟨rest, final, ran, last⟩ := ih less (by omega) kept
        exact ⟨action :: rest, final, by rw [runPartial, stepEq, Option.bind_some, ran], last⟩

end Partial

end EmbeddedRuntime.Lib.Machine
