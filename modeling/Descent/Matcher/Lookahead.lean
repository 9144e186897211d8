import Descent.Matcher.Basic

/-!
Looking ahead.
-/

namespace Descent.Matcher

variable {σ : Type}

/-- What is expected where a value should not have matched. -/
def unwanted (value : Value) : Except Fault Text := do
  return Text.ofString "not " ++ Text.inQuotes (← value.display)

/-- Succeeds without a value where the matcher fails, and fails where it matches. -/
def not (p : Matcher σ) : Matcher σ := fun src pos => do
  match ← p src pos with
  | .success r => return .failed (← unwanted r.value) pos
  | .failure _ => return .matched .none pos

def except (exclusion p : Matcher σ) : Matcher σ := fun src pos => do
  match ← exclusion src pos with
  | .success r => return .failed (← unwanted r.value) pos
  | .failure _ => p src pos

def peek (p : Matcher σ) : Matcher σ := fun src pos => do
  match ← p src pos with
  | .success r => return .success (r.withPos pos)
  | .failure f => return .failure f

def eof (p : Matcher σ) : Matcher σ := fun src pos => do
  match ← p src pos with
  | .success r =>
    if r.pos = src.length then return .success r
    else return .failed (Text.ofString "end of input") r.pos
  | .failure f => return .failure f

end Descent.Matcher
