import Descent.Matcher.Sequence

/-!
Repetition. Each round costs one unit of fuel. A match that ends where it began ends the repetition
and is not counted, so a repetition over a text ends by itself.
-/

namespace Descent.Matcher

variable {σ : Type}

/-- Matches over and over from `pos`. `values` holds what has matched so far, newest first. -/
def repeatFrom (p : Matcher σ) (src : Text) : Nat → List Value → Int → Action σ Outcome
  | 0, _, _ => .exhausted
  | fuel + 1, values, pos => do
    match ← p src pos with
    | .failure _ => return .matched (.list values.reverse) pos
    | .success r =>
      if r.pos = pos then return .matched (.list values.reverse) pos
      else repeatFrom p src fuel (r.value :: values) r.pos

def many (fuel : Nat) (p : Matcher σ) : Matcher σ := fun src pos =>
  repeatFrom p src fuel [] pos

def chain (fuel : Nat) (first rest : Matcher σ) : Matcher σ := fun src pos => do
  match ← first src pos with
  | .failure f => return .failure f
  | .success r => repeatFrom rest src fuel [r.value] r.pos

/-- Matches at least once. The first match counts even if it ends where it began. -/
def many1 (fuel : Nat) (p : Matcher σ) : Matcher σ :=
  chain fuel p p

/-- Matches at least once, with a separator before every further match. A separator that nothing
follows is not matched. -/
def sepBy (fuel : Nat) (separator item : Matcher σ) : Matcher σ :=
  chain fuel item (after separator item)

def upToFrom (stop p : Matcher σ) (src : Text) : Nat → List Value → Int → Action σ Outcome
  | 0, _, _ => .exhausted
  | fuel + 1, values, pos => do
    match ← stop src pos with
    | .success _ => return .matched (.list values.reverse) pos
    | .failure _ =>
      match ← p src pos with
      | .failure f => return .failure f
      | .success r =>
        if r.pos = pos then return .matched (.list values.reverse) pos
        else upToFrom stop p src fuel (r.value :: values) r.pos

/-- Matches until `stop` would match, which is left in place. A failure before that is the
answer. -/
def upTo (fuel : Nat) (stop p : Matcher σ) : Matcher σ := fun src pos =>
  upToFrom stop p src fuel [] pos

end Descent.Matcher
