import Descent.Proofs.Parser.Fuel

/-!
Parsers with as much fuel as they take. Main statement: what is put together from such parsers and
comes to an end, comes to it with some amount of fuel for all of them.
-/

namespace Descent

/-- Whatever the first computation comes to, the second one comes to with every amount of fuel from
some amount on. -/
def Correspondence.limit (σ : Type) : Correspondence Nat σ σ where
  Rel A m n := ∀ s x t, m.run s = some (x, t) → ∃ y k, Agree A x y ∧ ∀ i, k ≤ i →
    (n i).run s = some (y, t)
  pure related s x t run := by
    cases run
    exact ⟨_, 0, .ok related, fun _ _ => rfl⟩
  bind first next s x t run := by
    rcases Action.run_bind_eq_some.mp run with ⟨e, failed, rfl⟩ | ⟨a, u, answered, continued⟩
    · obtain ⟨y, k, agree, settled⟩ := first s _ t failed
      cases agree
      exact ⟨_, k, .error e,
        fun i enough => Action.run_bind_eq_some.mpr (.inl ⟨e, settled i enough, rfl⟩)⟩
    · obtain ⟨y, k, agree, settled⟩ := first s _ u answered
      cases agree with
      | ok related =>
          obtain ⟨z, l, agree, further⟩ := next _ _ related u x t continued
          exact ⟨z, k + l, agree, fun i enough => Action.run_bind_eq_some.mpr
            (.inr ⟨_, u, settled i (by omega), further i (by omega)⟩)⟩
  raise e s x t run := by
    cases run
    exact ⟨_, 0, .error e, fun _ _ => rfl⟩
  exhausted n s x t run := by cases run

namespace Parser

open Classical in
/-- Runs a parser with as much fuel as it takes. It does not end where no amount is enough. -/
noncomputable def unbounded (p : Parser) : Matcher Store := fun src pos => fun s =>
  if ended : ∃ result : Except Fault Outcome × Store, p.Ends src pos s result.1 result.2 then
    some ended.choose
  else none

variable {p : Parser} {src : Text} {pos : Int} {s t : Store} {x : Except Fault Outcome}

theorem unbounded_run_eq_some :
    (p.unbounded src pos).run s = some (x, t) ↔ p.Ends src pos s x t := by
  unfold unbounded Action.run
  dsimp only
  split
  next ended =>
    have chosen := ended.choose_spec
    constructor
    · intro same
      rw [Option.some.inj same] at chosen
      exact chosen
    · intro ends
      obtain ⟨first, second⟩ := chosen.unique ends
      exact congrArg some (Prod.ext first second)
  next endless =>
    constructor
    · intro same
      cases same
    · intro ends
      exact absurd ⟨(x, t), ends⟩ endless

/-- Some fuel is enough for each run, and more of it does not harm. -/
theorem unbounded_corresponds (p : Parser) (fuel : Nat) :
    Matcher.Corresponds (.limit Store) (.identity src) p.unbounded fun i => p.run (fuel + i) := by
  rintro i _ rfl s x t ran
  obtain ⟨k, ended⟩ := unbounded_run_eq_some.mp ran
  exact ⟨x, k, Alignment.agree_identity_iff.mpr rfl, fun i enough => run_mono (by omega) ended⟩

end Parser

end Descent
