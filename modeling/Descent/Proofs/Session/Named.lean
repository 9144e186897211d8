import Descent.Proofs.Parser.Fuel
import Descent.Proofs.Session.Runs

/-!
Runs of what a name stands for. Main statement: a run is answered with what the parser comes to from
the store as it is, and with nothing else.
-/

namespace Descent

variable {s : Store} {name : Text} {p : Parser} {src : Text} {pos : Int}

theorem Grammar.parser_ref (named : s.named? name = some (.parser p)) :
    (Grammar.ref name).parser.run s = some (.ok p, s) := by
  simp only [parser, build, bind_assoc, Action.run_bind, Action.run_state, named]
  rfl

theorem Request.perform_run_ref (named : s.named? name = some (.parser p)) (fuel : Nat) :
    ((run (.ref name) src pos).perform fuel).run s =
      ((p.run fuel src pos).run s).map fun (x, t) => (x.map Answer.outcome, t) := by
  rw [perform, Action.run_bind, Grammar.parser_ref named]
  exact Action.run_map Answer.outcome (p.run fuel src pos) s

theorem Store.answers_ref_iff (named : s.named? name = some (.parser p)) {x : Except Fault Answer} :
    s.Answers (.run (.ref name) src pos) x ↔
      ∃ y t, p.Ends src pos s y t ∧ x = y.map Answer.outcome := by
  constructor
  · rintro ⟨fuel, t, performed⟩
    rw [Request.perform_run_ref named, Option.map_eq_some_iff] at performed
    obtain ⟨⟨y, u⟩, ran, ended⟩ := performed
    exact ⟨y, u, ⟨fuel, ran⟩, (Prod.mk.inj ended).1.symm⟩
  · rintro ⟨y, t, ⟨fuel, ran⟩, rfl⟩
    refine ⟨fuel, t, ?_⟩
    rw [Request.perform_run_ref named, ran]
    rfl

namespace Store.Consistent

variable {scope : Scope} {names : Names} {owners : Owners}

theorem ends_iff (consistent : s.Consistent scope names src owners) (known : scope.outcomes)
    (placed : p.All (Parser.Placed scope owners)) {y : Except Fault Outcome} :
    (∃ t, p.Ends src pos s y t) ↔ p.Means names src pos y := by
  constructor
  · rintro ⟨t, fuel, ran⟩
    obtain ⟨_, z, k, _, _, agree, settled⟩ :=
      Parser.run_reflects known placed pos pos rfl owners s (List.prefix_refl _) consistent y t ran
    obtain rfl := Alignment.agree_identity_iff.mp agree
    exact ⟨k + fuel, settled k (Nat.le_refl k)⟩
  · rintro ⟨fuel, means⟩
    obtain ⟨_, z, t, ran, _, _, agree⟩ :=
      Parser.run_realizes known placed pos pos rfl y means owners s (List.prefix_refl _) consistent
    obtain rfl := Alignment.agree_identity_iff.mp agree
    exact ⟨t, fuel, ran⟩

theorem answers_ref_iff (consistent : s.Consistent scope names src owners) (known : scope.outcomes)
    (placed : p.All (Parser.Placed scope owners)) (named : s.named? name = some (.parser p))
    {x : Except Fault Answer} :
    s.Answers (.run (.ref name) src pos) x ↔
      ∃ y, p.Means names src pos y ∧ x = y.map Answer.outcome := by
  simp only [Store.answers_ref_iff named, ← consistent.ends_iff known placed, exists_and_right]

end Store.Consistent

end Descent
