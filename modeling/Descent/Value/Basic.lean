import Descent.Number.Shortest
import Descent.Text.Quoted

/-!
The values that parsers produce.
-/

namespace Descent

inductive Value where
  | none
  | bool (b : Bool)
  | text (t : Text)
  | int (z : Int)
  | float (x : Binary64)
  | list (vs : List Value)
  | tuple (vs : List Value)

namespace Value

/-- Floating point numbers are written positionally from `0.0001` up to sixteen digits before the
point, and keep a point where no exponent is written. Exponents have two digits or more. -/
def floatLayout : DecimalLayout :=
  ⟨-4, 16, 2, Text.ofString ".0"⟩

/-- Writes the members of a sequence between brackets. A tuple of one member keeps its comma. -/
def bracketed (isTuple : Bool) : List Text → Text
  | [t] => if isTuple then Text.ofString "(" ++ t ++ Text.ofString ",)"
    else Text.ofString "[" ++ t ++ Text.ofString "]"
  | ts =>
    Text.ofString (if isTuple then "(" else "[") ++ Text.joinWith (Text.ofString ", ") ts ++
      Text.ofString (if isTuple then ")" else "]")

mutual

/-- The text that tells a value from all others of its kind: texts are quoted. -/
def describe : Value → Except Fault Text
  | .none => .ok (Text.ofString "None")
  | .bool b => .ok (Text.ofString (if b then "True" else "False"))
  | .text t => .ok t.quoted
  | .int z => Numeral.write z
  | .float x => .ok (x.write floatLayout)
  | .list vs => do return bracketed false (← describeAll vs)
  | .tuple vs => do return bracketed true (← describeAll vs)

def describeAll : List Value → Except Fault (List Text)
  | [] => .ok []
  | v :: vs => do
    let t ← describe v
    return t :: (← describeAll vs)

end

mutual

/-- The text of a value for messages: texts as they stand, and the members of lists and tuples with
commas between them. -/
def display : Value → Except Fault Text
  | .text t => .ok t
  | .list vs | .tuple vs => do return Text.joinWith (Text.ofString ",") (← displayAll vs)
  | .none => describe .none
  | .bool b => describe (.bool b)
  | .int z => describe (.int z)
  | .float x => describe (.float x)

def displayAll : List Value → Except Fault (List Text)
  | [] => .ok []
  | v :: vs => do
    let t ← display v
    return t :: (← displayAll vs)

end

/-- What a value counts as in arithmetic. A truth value counts as one or zero. -/
def quantity? : Value → Option Quantity
  | .bool b => some (.ofInt (if b then 1 else 0))
  | .int z => some (.ofInt z)
  | .float x => some x.quantity
  | .none | .text _ | .list _ | .tuple _ => Option.none

mutual

/-- Equality of values. Numbers of any kinds are equal if they stand for the same quantity, and a
list never equals a tuple. -/
def isEqual : Value → Value → Bool
  | .none, .none => true
  | .text s, .text t => s == t
  | .list vs, .list ws => areEqual vs ws
  | .tuple vs, .tuple ws => areEqual vs ws
  | v, w =>
    match v.quantity?, w.quantity? with
    | some a, some b => a.isEqual b
    | _, _ => false

def areEqual : List Value → List Value → Bool
  | [], [] => true
  | v :: vs, w :: ws => isEqual v w && areEqual vs ws
  | _, _ => false

end

/-- Whether a value holds something: zeros, empty sequences, falsehood and no value do not. -/
def isTruthy : Value → Bool
  | .none => false
  | .bool b => b
  | .text t => !t.isEmpty
  | .int z => z != 0
  | .float x => !x.isZero
  | .list vs | .tuple vs => !vs.isEmpty

end Value

end Descent
