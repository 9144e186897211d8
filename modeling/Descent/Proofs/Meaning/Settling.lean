import Descent.Proofs.Meaning.Basic
import Descent.Proofs.Parser.Settling

/-!
Meanings while names are still being given. Main statement: what a parser comes to without a fault
stays as it is when more names are given.
-/

namespace Descent

/-- Computations without a state: where the first one comes to a result, the second one comes to a
related one. -/
def Correspondence.settlement : Correspondence Unit Unit Unit where
  Rel A m n := ∀ a, m.run () = some (.ok a, ()) → ∃ b, (n ()).run () = some (.ok b, ()) ∧ A a b
  pure related a run := by
    cases run
    exact ⟨_, rfl, related⟩
  bind first next c run := by
    rcases Action.run_bind_eq_some.mp run with ⟨e, -, raised⟩ | ⟨a, ⟨⟩, answered, continued⟩
    · cases raised
    · obtain ⟨b, other, related⟩ := first a answered
      obtain ⟨d, otherContinued, result⟩ := next a b related c continued
      exact ⟨d, Action.run_bind_eq_some.mpr (.inr ⟨b, (), other, otherContinued⟩), result⟩
  raise e a run := by cases run
  exhausted n a run := by cases run

section

variable {before names : Names} {src : Text}

open Correspondence

theorem enter_settles (given : ∀ name a, before name = some a → names name = some a)
    {enter enter' : Parser → Matcher Unit}
    (alike : ∀ p, Matcher.Corresponds settlement (.identity src) (enter p) fun _ => enter' p)
    (g : Grammar) :
    Matcher.Corresponds settlement (.identity src)
      (Matcher.thenRun do return enter (← g.planned before))
      fun _ => Matcher.thenRun do return enter' (← g.planned names) := by
  intro i j place
  simp only [Matcher.thenRun, bind_assoc, pure_bind]
  cases planned : g.planned before with
  | error e =>
      intro r failed
      cases failed
  | ok p =>
      rw [(g.planned_settles given p planned).1]
      exact alike p i j place

theorem Parser.meaning_settles (given : ∀ name a, before name = some a → names name = some a)
    (fuel : Nat) (p : Parser) :
    Matcher.Corresponds settlement (.identity src) (p.meaning before fuel)
      fun _ => p.meaning names fuel :=
  Parser.meanings_correspond (.everything names)
    (fun alike _ _ => enter_settles given (fun p => alike p p.all_true) _)
    (fun _ => Matcher.regex_corresponds_identity _)
    (fun _ => Matcher.custom_corresponds_identity _) (Nat.le_refl fuel) p.all_true

theorem Parser.Means.settles {p : Parser} {pos : Int} {r : Outcome}
    (given : ∀ name a, before name = some a → names name = some a)
    (means : p.Means before src pos (.ok r)) : p.Means names src pos (.ok r) := by
  obtain ⟨fuel, ended⟩ := means
  obtain ⟨r', other, related⟩ := Parser.meaning_settles given fuel p pos pos rfl r ended
  obtain rfl := Alignment.outcomes_identity related
  exact ⟨fuel, other⟩

end

end Descent
