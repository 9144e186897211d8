import Descent.Matcher.Basic

/-!
Matchers that depend on what was matched before.
-/

namespace Descent.Matcher

variable {σ : Type}

/-- Goes on from an outcome: each function makes the next matcher from the value before it. -/
def continueWith (src : Text) : List (Value → Action σ (Matcher σ)) → Outcome → Action σ Outcome
  | [], r => return r
  | _ :: _, .failure f => return .failure f
  | fn :: fns, .success r => do
    let next ← fn r.value
    continueWith src fns (← next src r.pos)

/-- Matches, then matches what the functions make of the values, one after the other. The first
failure is the answer as it stands. -/
def andThen (p : Matcher σ) (fns : List (Value → Action σ (Matcher σ))) :
    Matcher σ := fun src pos => do
  continueWith src fns (← p src pos)

end Descent.Matcher
