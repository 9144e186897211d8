import Descent.Value.Basic

/-!
What a parser answers: a match with its value, or a failure with what would have let it match.
-/

namespace Descent

def unique : List Text → List Text
  | [] => []
  | t :: ts => t :: (unique ts).filter (· ≠ t)

structure Success where
  value : Value
  pos : Int

structure Failure where
  expected : List Text
  pos : Int
  deriving DecidableEq

inductive Outcome where
  | success (result : Success)
  | failure (reason : Failure)

namespace Success

def withValue (s : Success) (value : Value) : Success :=
  { s with value }

def withPos (s : Success) (pos : Int) : Success :=
  { s with pos }

def isEqual (s t : Success) : Bool :=
  s.value.isEqual t.value && s.pos == t.pos

def describe (s : Success) : Except Fault Text := do
  return Text.ofString "<Success " ++ Numeral.decimal s.pos ++ Text.ofString " \x7b" ++
    (← s.value.describe) ++ Text.ofString "\x7d>"

end Success

namespace Failure

def single (label : Text) (pos : Int) : Failure :=
  ⟨[label], pos⟩

/-- A failure that expects any of several things. Expecting nothing is a fault. -/
def ofLabels (labels : List Text) (pos : Int) : Except Fault Failure :=
  match unique labels with
  | [] => .error .expectationRequired
  | expected => .ok ⟨expected, pos⟩

/-- A failure expects at least one thing, and nothing twice. -/
structure WellFormed (f : Failure) : Prop where
  nonempty : f.expected ≠ []
  nodup : f.expected.Nodup

def describe (f : Failure) : Text :=
  let labels := match f.expected with
    | [label] => label
    | labels => Text.ofString "one of " ++ Text.joinWith (Text.ofString ", ") labels
  Text.ofString "expected " ++ labels ++ Text.ofString " at position " ++ Numeral.decimal f.pos

def inspect (f : Failure) : Text :=
  Text.ofString "<Failure " ++ Numeral.decimal f.pos ++ Text.ofString " [" ++
    Text.joinWith (Text.ofString ", ") (f.expected.map Text.quoted) ++ Text.ofString "]>"

end Failure

namespace Outcome

def matched (value : Value) (pos : Int) : Outcome :=
  .success ⟨value, pos⟩

def failed (label : Text) (pos : Int) : Outcome :=
  .failure (.single label pos)

/-- Equality of outcomes. A match never equals a failure. -/
def isEqual : Outcome → Outcome → Bool
  | .success r, .success s => r.isEqual s
  | .failure f, .failure g => f == g
  | _, _ => false

end Outcome

/-- What a parser function written by hand states. The failure is built from it, so that it keeps
the rules of failures. -/
inductive Verdict where
  | success (value : Value) (pos : Int)
  | failure (labels : List Text) (pos : Int)

def Verdict.outcome : Verdict → Except Fault Outcome
  | .success value pos => .ok (.matched value pos)
  | .failure labels pos => do return .failure (← Failure.ofLabels labels pos)

end Descent
