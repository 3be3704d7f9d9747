import Mathlib.Data.List.Forall2
import Mathlib.Data.List.Induction

/-!
# Loops that can fail

A computation in `Except` that ends well has gone well at each of its steps.
-/

set_option autoImplicit false

namespace EmbeddedRuntime.Lib.Fallible

variable {E A B S : Type}

theorem bind_eq_ok {x : Except E A} {f : A → Except E B} {b : B} :
    (x >>= f) = .ok b ↔ ∃ a, x = .ok a ∧ f a = .ok b := by
  cases x with
  | error e => simp [bind, Except.bind]
  | ok a => simp [bind, Except.bind]

theorem bind_error {x : Except E A} {f : A → Except E B} {e : E} (failed : x >>= f = .error e) :
    x = .error e ∨ ∃ a, x = .ok a ∧ f a = .error e := by
  cases x with
  | error first =>
    cases failed
    exact .inl rfl
  | ok a => exact .inr ⟨a, rfl, failed⟩

theorem mapM_ok (f : A → Except E B) (xs : List A) (ys : List B) (ran : xs.mapM f = .ok ys) :
    List.Forall₂ (fun x y => f x = .ok y) xs ys := by
  induction xs generalizing ys with
  | nil =>
    obtain rfl : [] = ys := Except.ok.inj ran
    exact .nil
  | cons x xs ih =>
    rw [List.mapM_cons] at ran
    obtain ⟨y, first, ran⟩ := bind_eq_ok.mp ran
    obtain ⟨rest, tail, ran⟩ := bind_eq_ok.mp ran
    obtain rfl : y :: rest = ys := Except.ok.inj ran
    exact .cons first (ih rest tail)

/-- Where a result comes from. -/
theorem mapM_ok_mem (f : A → Except E B) (xs : List A) (ys : List B) (ran : xs.mapM f = .ok ys)
    {y : B} (member : y ∈ ys) : ∃ x ∈ xs, f x = .ok y := by
  have pairs := mapM_ok f xs ys ran
  clear ran
  induction pairs with
  | nil => cases member
  | @cons x z xs ys first _ ih =>
    rcases List.mem_cons.mp member with rfl | member
    · exact ⟨x, List.mem_cons_self, first⟩
    · obtain ⟨source, inside, here⟩ := ih member
      exact ⟨source, List.mem_cons_of_mem _ inside, here⟩

/-- Each result carries over what `f` keeps of its argument. -/
theorem map_of_mapM_ok {C : Type} (f : A → Except E B) (g : B → C) (h : A → C)
    (keeps : ∀ x y, f x = .ok y → g y = h x) (xs : List A) (ys : List B)
    (ran : xs.mapM f = .ok ys) : ys.map g = xs.map h := by
  have pairs := mapM_ok f xs ys ran
  clear ran
  induction pairs with
  | nil => rfl
  | cons first _ ih => rw [List.map_cons, List.map_cons, keeps _ _ first, ih]

/-- The same for results that may be missing. -/
theorem map_of_mapM_some {C : Type} (f : A → Option B) (g : B → C) (h : A → C)
    (keeps : ∀ x y, f x = some y → g y = h x) (xs : List A) (ys : List B)
    (ran : xs.mapM f = some ys) : ys.map g = xs.map h := by
  induction xs generalizing ys with
  | nil =>
    obtain rfl : [] = ys := Option.some.inj ran
    rfl
  | cons x xs ih =>
    rw [List.mapM_cons] at ran
    obtain ⟨y, first, ran⟩ := Option.bind_eq_some_iff.mp ran
    obtain ⟨rest, tail, ran⟩ := Option.bind_eq_some_iff.mp ran
    obtain rfl : y :: rest = ys := Option.some.inj ran
    rw [List.map_cons, List.map_cons, keeps x y first, ih rest tail]

theorem mapM_total (f : A → Except E B) (xs : List A) (works : ∀ x ∈ xs, ∃ y, f x = .ok y) :
    ∃ ys, xs.mapM f = .ok ys := by
  induction xs with
  | nil => exact ⟨[], rfl⟩
  | cons x xs ih =>
    obtain ⟨y, first⟩ := works x List.mem_cons_self
    obtain ⟨ys, tail⟩ := ih fun x member => works x (List.mem_cons_of_mem _ member)
    refine ⟨y :: ys, ?_⟩
    rw [List.mapM_cons, first, tail]
    rfl

theorem foldlM_snoc (step : S → A → Except E S) (s : S) (xs : List A) (x : A) :
    (xs ++ [x]).foldlM step s = xs.foldlM step s >>= fun s => step s x := by
  rw [List.foldlM_append]
  refine congrArg _ (funext fun s => ?_)
  rw [List.foldlM_cons]
  exact bind_pure (step s x)

theorem foldlM_total (step : S → A → Except E S) (xs : List A) (s : S)
    (works : ∀ s, ∀ x ∈ xs, ∃ next, step s x = .ok next) : ∃ last, xs.foldlM step s = .ok last := by
  induction xs generalizing s with
  | nil => exact ⟨s, rfl⟩
  | cons x xs ih =>
    obtain ⟨next, first⟩ := works s x List.mem_cons_self
    obtain ⟨last, rest⟩ := ih next fun s x member => works s x (List.mem_cons_of_mem _ member)
    refine ⟨last, ?_⟩
    rw [List.foldlM_cons, first]
    exact rest

end EmbeddedRuntime.Lib.Fallible
