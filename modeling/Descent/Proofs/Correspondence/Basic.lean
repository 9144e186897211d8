import Descent.Matcher.Choice
import Descent.Matcher.Repetition
import Descent.Matcher.Lookahead
import Descent.Matcher.Chaining

/-!
Comparing computations. A correspondence relates computations over one kind of state to families of
computations over another one, and respects how computations are put together. Nothing is asked of
the second side where the first one runs out of fuel.
-/

namespace Descent

inductive Agree {α β : Type} (A : α → β → Prop) : Except Fault α → Except Fault β → Prop
  | ok {a : α} {b : β} (related : A a b) : Agree A (.ok a) (.ok b)
  | error (e : Fault) : Agree A (.error e) (.error e)

theorem Agree.mono {α β : Type} {A B : α → β → Prop} {x : Except Fault α} {y : Except Fault β}
    (agree : Agree A x y) (weaker : ∀ a b, A a b → B a b) : Agree B x y := by
  cases agree with
  | ok related => exact .ok (weaker _ _ related)
  | error e => exact .error e

theorem Agree.bind {α β γ δ : Type} {A : α → β → Prop} {B : γ → δ → Prop} {x : Except Fault α}
    {y : Except Fault β} {f : α → Except Fault γ} {g : β → Except Fault δ} (first : Agree A x y)
    (next : ∀ a b, A a b → Agree B (f a) (g b)) : Agree B (x >>= f) (y >>= g) := by
  cases first with
  | ok related => exact next _ _ related
  | error e => exact .error e

@[simp] theorem agree_eq_iff {α : Type} {x y : Except Fault α} : Agree Eq x y ↔ x = y := by
  constructor
  · intro agree
    cases agree with
    | ok related => rw [related]
    | error e => rfl
  · intro same
    subst same
    cases x with
    | ok a => exact .ok rfl
    | error e => exact .error e

/-- A way to compare computations over `σ` with families of computations over `τ`. -/
structure Correspondence (ι σ τ : Type) where
  Rel : {α β : Type} → (α → β → Prop) → Action σ α → (ι → Action τ β) → Prop
  pure {α β : Type} {A : α → β → Prop} {a : α} {b : β} :
    A a b → Rel A (Pure.pure a) fun _ => Pure.pure b
  bind {α β α' β' : Type} {A : α → β → Prop} {B : α' → β' → Prop} {m : Action σ α}
    {n : ι → Action τ β} {f : α → Action σ α'} {g : ι → β → Action τ β'} :
    Rel A m n → (∀ a b, A a b → Rel B (f a) fun i => g i b) → Rel B (m >>= f) fun i => n i >>= g i
  raise {α β : Type} {A : α → β → Prop} (e : Fault) :
    Rel A (Action.raise e) fun _ => Action.raise e
  exhausted {α β : Type} {A : α → β → Prop} (n : ι → Action τ β) : Rel A Action.exhausted n

namespace Correspondence

variable {ι σ τ α β : Type} (K : Correspondence ι σ τ)

theorem ofExcept {A : α → β → Prop} {x : Except Fault α} {y : Except Fault β}
    (agree : Agree A x y) :
    K.Rel A (Action.ofExcept x) fun _ => Action.ofExcept y := by
  cases agree with
  | ok related => exact K.pure related
  | error e => exact K.raise e

end Correspondence

namespace Action

@[simp] theorem run_ofExcept {σ α : Type} (x : Except Fault α) (s : σ) :
    (ofExcept x).run s = some (x, s) := by
  cases x <;> rfl

theorem run_bind_eq_some {σ α β : Type} {m : Action σ α} {f : α → Action σ β} {s t : σ}
    {x : Except Fault β} :
    (m >>= f).run s = some (x, t) ↔
      (∃ e, m.run s = some (.error e, t) ∧ x = .error e) ∨
        ∃ a u, m.run s = some (.ok a, u) ∧ (f a).run u = some (x, t) := by
  rw [run_bind]
  rcases m.run s with _ | ⟨e | a, u⟩
  · simp
  · constructor
    · intro equal
      cases equal
      exact .inl ⟨e, rfl, rfl⟩
    · rintro (⟨e, equal, rfl⟩ | ⟨a, v, equal, _⟩)
      · cases equal
        rfl
      · cases equal
  · constructor
    · intro continued
      exact .inr ⟨a, u, rfl, continued⟩
    · rintro (⟨e, equal, _⟩ | ⟨b, v, equal, continued⟩)
      · cases equal
      · cases equal
        exact continued

/-- What comes next has to be the same only for the answers that there are. -/
theorem run_bind_congr {σ α β : Type} {m : Action σ α} {f g : α → Action σ β} {s : σ}
    (same : ∀ a t, m.run s = some (.ok a, t) → (f a).run t = (g a).run t) :
    (m >>= f).run s = (m >>= g).run s := by
  rw [run_bind, run_bind]
  rcases ran : m.run s with _ | ⟨e | a, t⟩
  · rfl
  · rfl
  · exact same a t ran

theorem run_bind_unchanged {σ α : Type} {m : Action σ α} {f : α → Action σ α} {s t : σ}
    {x : Except Fault α} (ran : m.run s = some (x, t)) (unchanged : ∀ a, x = .ok a → f a = pure a) :
    (m >>= f).run s = some (x, t) := by
  rw [run_bind, ran]
  cases x with
  | error e => rfl
  | ok a =>
      dsimp only
      rw [unchanged a rfl, run_pure]

end Action

namespace Correspondence

/-- Computations without a state: where the first one ends, the second one ends with a result that
agrees. -/
def refinement : Correspondence Unit Unit Unit where
  Rel A m n := ∀ x, m.run () = some (x, ()) → ∃ y, (n ()).run () = some (y, ()) ∧ Agree A x y
  pure related x run := by
    cases run
    exact ⟨_, rfl, .ok related⟩
  bind first next x run := by
    rcases Action.run_bind_eq_some.mp run with ⟨e, failed, rfl⟩ | ⟨a, ⟨⟩, answered, continued⟩
    · obtain ⟨y, other, agree⟩ := first _ failed
      cases agree
      exact ⟨_, Action.run_bind_eq_some.mpr (.inl ⟨e, other, rfl⟩), .error e⟩
    · obtain ⟨y, other, agree⟩ := first _ answered
      cases agree with
      | ok related =>
          obtain ⟨z, otherContinued, result⟩ := next _ _ related x continued
          exact ⟨z, Action.run_bind_eq_some.mpr (.inr ⟨_, (), other, otherContinued⟩), result⟩
  raise e x run := by
    cases run
    exact ⟨_, rfl, .error e⟩
  exhausted n x run := by cases run

end Correspondence

end Descent
