import Descent.Matcher.Basic

/-!
Ordered choice.
-/

namespace Descent.Matcher

variable {σ : Type}

/-- Runs the alternatives in order from one position until one of them matches. `labels` holds what
was expected so far. -/
def alternatives (src : Text) (pos : Int) : List (Matcher σ) → List Text → Action σ Outcome
  | [], labels => do return .failure (← Failure.ofLabels labels pos)
  | p :: ps, labels => do
    match ← p src pos with
    | .success r => return .success r
    | .failure f => alternatives src pos ps (labels ++ f.expected)

/-- The first of the matchers that matches. If none does, all that they expected is expected at the
start. -/
def alt (ps : List (Matcher σ)) : Matcher σ := fun src pos =>
  alternatives src pos ps []

def optional (p : Matcher σ) : Matcher σ :=
  alt [p, succeed .none]

end Descent.Matcher
