import Descent.Value.Basic
import Descent.Text.Position

/-!
Functions and tests on values, for use in grammars. Each takes certain kinds of values only and
faults on the others.
-/

namespace Descent.Value

def asText : Value → Except Fault Text
  | .text t => .ok t
  | _ => .error .illTyped

def members : Value → Except Fault (List Value)
  | .list vs | .tuple vs => .ok vs
  | .text t => .ok (t.map fun c => .text [c])
  | _ => .error .illTyped

def memberAt (vs : List Value) (index : Int) : Except Fault Value :=
  let offset := if index < 0 then index + vs.length else index
  if 0 ≤ offset then
    match vs[offset.toNat]? with
    | some v => .ok v
    | .none => .error .outOfRange
  else .error .outOfRange

def item (index : Int) : Value → Except Fault Value
  | .list vs | .tuple vs => memberAt vs index
  | .text t =>
    match t.at? index with
    | some c => .ok (.text [c])
    | .none => .error .outOfRange
  | _ => .error .illTyped

def size : Value → Except Fault Nat
  | .text t => .ok t.length
  | .list vs | .tuple vs => .ok vs.length
  | _ => .error .illTyped

def asInt : Value → Except Fault Int
  | .int z => .ok z
  | .bool b => .ok (if b then 1 else 0)
  | .text t => Numeral.read t
  | _ => .error .illTyped

def asFloat : Value → Except Fault Binary64
  | .float x => .ok x
  | .text t => Binary64.read t
  | _ => .error .illTyped

/-- Concatenates texts. With `skipMissing`, members that are no value at all are left out. -/
def concatenate (skipMissing : Bool) : List Value → Except Fault Text
  | [] => .ok []
  | .text t :: vs => do return t ++ (← concatenate skipMissing vs)
  | .none :: vs => if skipMissing then concatenate skipMissing vs else .error .illTyped
  | _ :: _ => .error .illTyped

def join (v : Value) : Except Fault Text := do
  concatenate false (← v.members)

/-- Concatenates the matched texts of a sequence, leaving out what was optional and missing. -/
def joinPresent (v : Value) : Except Fault Text := do
  concatenate true (← v.members)

def upperCase (v : Value) : Except Fault Text := do
  return (← v.asText).map CodePoint.toUpper

/-- One step of arithmetic: a plus adds, a minus subtracts, and any other operator multiplies. -/
def operate (operator : Value) (left right : Int) : Int :=
  match operator with
  | .text t => if t = Text.ofString "+" then left + right
    else if t = Text.ofString "-" then left - right
    else left * right
  | _ => left * right

def foldSteps (result : Int) : List Value → Except Fault Int
  | [] => .ok result
  | .tuple [operator, .int z] :: vs => foldSteps (operate operator result z) vs
  | _ :: _ => .error .illTyped

/-- Evaluates a whole number followed by pairs of an operator and a whole number. -/
def foldOperators : Value → Except Fault Int
  | .tuple [.int z, .list steps] => foldSteps z steps
  | .tuple [.int z, .tuple steps] => foldSteps z steps
  | _ => .error .illTyped

def isOneOf (set : Text) : Value → Bool
  | .text [c] => set.contains c
  | _ => false

def isEven (v : Value) : Except Fault Bool := do
  return (← v.asInt) % 2 == 0

def isBelow (bound : Int) (v : Value) : Except Fault Bool :=
  match v.quantity? with
  | some q => .ok (q.isLess (.ofInt bound))
  | .none => .error .illTyped

def hasItems (v : Value) : Except Fault Bool := do
  return (← v.size) != 0

end Descent.Value
