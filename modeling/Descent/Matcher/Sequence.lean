import Descent.Matcher.Basic
import Descent.Value.Transform

/-!
Matchers one after the other, and functions on what they match.
-/

namespace Descent.Matcher

variable {σ : Type}

/-- Runs the stages in order, each from where the one before it stopped. `values` holds what has
matched so far, newest first. -/
def stages (src : Text) : List (Matcher σ) → List Value → Int → Action σ Outcome
  | [], values, pos => return .matched (.tuple values.reverse) pos
  | p :: ps, values, pos => do
    match ← p src pos with
    | .success r => stages src ps (r.value :: values) r.pos
    | .failure f => return .failure f

/-- All of the matchers in sequence. The value is the tuple of their values, and the first failure
is the answer as it stands. -/
def seq (ps : List (Matcher σ)) : Matcher σ := fun src pos =>
  stages src ps [] pos

/-- Applies a function to the value. A value that does not pass `validate` is a failure at the
start, and the function is not applied to it. -/
def map (p : Matcher σ) (fn : Value → Action σ Value) (validate : Option (Value → Action σ Bool)) :
    Matcher σ := fun src pos => do
  match ← p src pos with
  | .failure f => return .failure f
  | .success r =>
    let valid ← match validate with
      | some test => test r.value
      | none => pure true
    if valid then return .success (r.withValue (← fn r.value))
    else return .failed (Text.ofString "validated value") pos

def pick (index : Int) (p : Matcher σ) : Matcher σ :=
  map p (fun v => (v.item index : Except Fault Value)) none

def between (left right p : Matcher σ) : Matcher σ :=
  pick 1 (seq [left, p, right])

def after (lead p : Matcher σ) : Matcher σ :=
  pick 1 (seq [lead, p])

def token (p : Matcher σ) : Matcher σ :=
  pick 0 (seq [p, whitespaces])

end Descent.Matcher
