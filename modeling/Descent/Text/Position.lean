import Descent.Text.Basic
import Descent.Fault

/-!
Positions in a text. A position is any integer: one below zero counts from the end, and one past
the end is allowed wherever nothing is read there.
-/

namespace Descent.Text

/-- The code point at an index, which counts from the end when it is negative. -/
def at? (t : Text) (index : Int) : Option CodePoint :=
  if 0 ≤ index then t[index.toNat]?
  else if 0 ≤ index + t.length then t[(index + t.length).toNat]?
  else none

/-- The code point that a parser sees at `pos`: none from the end on, and a fault before the
first one. -/
def lookAt (t : Text) (pos : Int) : Except Fault (Option CodePoint) :=
  if pos < t.length then
    match t.at? pos with
    | some c => .ok (some c)
    | none => .error .outOfRange
  else .ok none

/-- A position as the bound of a slice: the length is added to a negative one, and the result is
kept within the text. -/
def bound (t : Text) (pos : Int) : Nat :=
  if pos < 0 then (pos + t.length).toNat else min pos.toNat t.length

def slice (t : Text) (start stop : Int) : Text :=
  (t.take (t.bound stop)).drop (t.bound start)

/-- Whether `part` stands in the text at `pos`. Past the end nothing does, not even the empty
text. -/
def standsAt (t : Text) (part : Text) (pos : Int) : Bool :=
  decide (pos ≤ t.length) && part.isPrefixOf (t.drop (t.bound pos))

end Descent.Text
