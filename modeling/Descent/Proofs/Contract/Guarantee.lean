import Descent.Proofs.Correspondence.Basic

/-!
Promises about how computations end. A guarantee says what is promised of a computation's result,
and respects how computations are put together. There are two: that a computation that ends delivers
a result with a property, and that a result, if there is one, has it.
-/

namespace Descent

namespace Action

variable {α β : Type} {P : α → Prop} {Q : β → Prop}

/-- If the computation ends, then with a result that has a property. -/
def Delivers (m : Action Unit α) (P : α → Prop) : Prop :=
  ∀ x, m.run () = some (x, ()) → ∃ a, x = .ok a ∧ P a

namespace Delivers

theorem pure {a : α} (holds : P a) : Delivers (Pure.pure a) P := by
  intro x run
  cases run
  exact ⟨a, rfl, holds⟩

theorem exhausted : Delivers (Action.exhausted : Action Unit α) P := by
  intro x run
  cases run

theorem bind {m : Action Unit α} {f : α → Action Unit β} (first : m.Delivers P)
    (next : ∀ a, P a → (f a).Delivers Q) : (m >>= f).Delivers Q := by
  intro x run
  rcases Action.run_bind_eq_some.mp run with ⟨e, failed, rfl⟩ | ⟨a, ⟨⟩, answered, continued⟩
  · obtain ⟨a, equal, _⟩ := first _ failed
    cases equal
  · obtain ⟨b, equal, holds⟩ := first _ answered
    cases equal
    exact next a holds x continued

theorem of_run {m : Action Unit α} {a : α} (run : m.run () = some (.ok a, ())) (holds : P a) :
    m.Delivers P := by
  intro x again
  cases run.symm.trans again
  exact ⟨a, rfl, holds⟩

theorem mono {P' : α → Prop} {m : Action Unit α} (delivers : m.Delivers P)
    (weaker : ∀ a, P a → P' a) :
    m.Delivers P' := by
  intro x run
  obtain ⟨a, equal, holds⟩ := delivers x run
  exact ⟨a, equal, weaker a holds⟩

theorem self {m : Action Unit α} (delivers : m.Delivers P) :
    m.Delivers fun a => P a ∧ m.run () = some (.ok a, ()) := by
  intro x run
  obtain ⟨a, rfl, holds⟩ := delivers x run
  exact ⟨a, rfl, holds, run⟩

theorem ofExcept {x : Except Fault α} (holds : ∃ a, x = .ok a ∧ P a) :
    (Action.ofExcept x).Delivers P := by
  obtain ⟨a, rfl, holds⟩ := holds
  exact .pure holds

end Delivers

end Action

theorem Failure.ofLabels_ok {labels : List Text} (nonempty : labels ≠ []) (pos : Int) :
    ∃ f, Failure.ofLabels labels pos = .ok f ∧ f.expected ≠ [] ∧ f.pos = pos := by
  cases labels with
  | nil => exact absurd rfl nonempty
  | cons label labels => exact ⟨_, rfl, List.cons_ne_nil _ _, rfl⟩

/-- A promise about the results of computations. Nothing is promised where the fuel runs out. -/
structure Guarantee where
  Holds : {α : Type} → Action Unit α → (α → Prop) → Prop
  pure {α : Type} {P : α → Prop} {a : α} : P a → Holds (Pure.pure a) P
  bind {α β : Type} {P : α → Prop} {Q : β → Prop} {m : Action Unit α} {f : α → Action Unit β} :
    Holds m P → (∀ a, P a → Holds (f a) Q) → Holds (m >>= f) Q
  exhausted {α : Type} {P : α → Prop} : Holds Action.exhausted P
  /-- What is promised is promised of the result that the computation has. -/
  self {α : Type} {P : α → Prop} {m : Action Unit α} :
    Holds m P → Holds m fun a => P a ∧ m.run () = some (.ok a, ())

namespace Guarantee

/-- Computations do not fault. -/
def faultless : Guarantee where
  Holds := Action.Delivers
  pure := .pure
  bind := .bind
  exhausted := .exhausted
  self := .self

/-- Computations may fault. -/
def faulting : Guarantee where
  Holds m P := ∀ a, m.run () = some (.ok a, ()) → P a
  pure holds a run := by
    cases run
    exact holds
  bind first next b run := by
    rcases Action.run_bind_eq_some.mp run with ⟨e, _, equal⟩ | ⟨a, ⟨⟩, answered, continued⟩
    · cases equal
    · exact next a (first a answered) b continued
  exhausted a run := by cases run
  self holds a run := ⟨holds a run, run⟩

/-- A result that may be missing has a property, if faults are allowed. -/
theorem faulting_ofExcept {α : Type} {P : α → Prop} {x : Except Fault α}
    (holds : ∀ a, x = .ok a → P a) :
    faulting.Holds (Action.ofExcept x) P := by
  intro a run
  rw [Action.run_ofExcept] at run
  cases run
  exact holds a rfl

variable (G : Guarantee) {α : Type} {P Q : α → Prop}

theorem mono {m : Action Unit α} (holds : G.Holds m P) (weaker : ∀ a, P a → Q a) : G.Holds m Q := by
  have continued := G.bind holds fun a here => G.pure (weaker a here)
  rwa [bind_pure] at continued

theorem of_ok {x : Except Fault α} (holds : ∃ a, x = .ok a ∧ P a) :
    G.Holds (Action.ofExcept x) P := by
  obtain ⟨a, rfl, here⟩ := holds
  exact G.pure here

end Guarantee

end Descent
