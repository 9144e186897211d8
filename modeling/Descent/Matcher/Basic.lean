import Descent.Action
import Descent.Outcome
import Descent.Regex.Basic
import Descent.Text.Position

/-!
Matchers, and those that look at the text themselves. A matcher is run on a text from a position;
what else it reads and changes is up to the state it runs over.
-/

namespace Descent

/-- Answers for a text and a position whether something matches there. -/
abbrev Matcher (σ : Type) := Text → Int → Action σ Outcome

namespace Matcher

variable {σ : Type}

def satisfy (label : Text) (test : CodePoint → Action σ Bool) : Matcher σ := fun src pos => do
  match ← src.lookAt pos with
  | some c => if ← test c then return .matched (.text [c]) (pos + 1) else return .failed label pos
  | none => return .failed label pos

def char (c : CodePoint) : Matcher σ :=
  satisfy (Text.inQuotes [c]) fun d => pure (d == c)

/-- A given text. The empty text matches everywhere up to the end. -/
def string (s : Text) : Matcher σ := fun src pos =>
  if src.standsAt s pos then return .matched (.text s) (pos + s.length)
  else return .failed (Text.inQuotes s) pos

/-- The text that a regular expression matches. It starts within the text, whatever the position. -/
def regex (r : Regex) : Matcher σ := fun src pos =>
  let start := min pos.toNat src.length
  match r.endOf? src start with
  | some stop => return .matched (.text (src.slice start stop)) stop
  | none => return .failed (Text.ofString "/" ++ r.source ++ Text.ofString "/") pos

/-- Where the blanks that start at `pos` end, looking at `left` code points at most. -/
def blanksEnd (src : Text) : Nat → Int → Except Fault Int
  | 0, pos => .ok pos
  | left + 1, pos => do
    match ← src.lookAt pos with
    | some c => if c.isBlank then blanksEnd src left (pos + 1) else .ok pos
    | none => .ok pos

/-- All blanks from the position on. There may be none. -/
def whitespaces : Matcher σ := fun src pos => do
  let stop ← blanksEnd src (src.length - pos).toNat pos
  return .matched (.text (src.slice pos stop)) stop

def succeed (value : Value) : Matcher σ := fun _ pos =>
  return .matched value pos

def fail (message : Text) : Matcher σ := fun _ pos =>
  return .failed message pos

def custom (verdict : Text → Int → Except Fault Verdict) : Matcher σ := fun src pos => do
  let v ← verdict src pos
  v.outcome

end Matcher

end Descent
