/-!
Exact magnitudes. Numbers of different kinds are compared as what they stand for, with no rounding.
-/

namespace Descent

/-- A number on the line with two ends, or the result of an undefined operation. -/
inductive Quantity where
  | undefined
  | infinite (negative : Bool)
  /-- `mantissa · 2 ^ exponent`. -/
  | finite (mantissa : Int) (exponent : Int)

namespace Quantity

def ofInt (z : Int) : Quantity :=
  .finite z 0

/-- The order of two finite numbers, brought to the smaller exponent. -/
def compareFinite (m : Int) (e : Int) (n : Int) (f : Int) : Ordering :=
  let least := min e f
  compare (m * Nat.pow 2 (e - least).toNat) (n * Nat.pow 2 (f - least).toNat)

/-- The order of two quantities. What is undefined has no order, not even to itself. -/
def compare? : Quantity → Quantity → Option Ordering
  | .undefined, _ | _, .undefined => none
  | .infinite a, .infinite b => some (if a = b then .eq else if a then .lt else .gt)
  | .infinite a, .finite _ _ => some (if a then .lt else .gt)
  | .finite _ _, .infinite b => some (if b then .gt else .lt)
  | .finite m e, .finite n f => some (compareFinite m e n f)

def isEqual (a b : Quantity) : Bool :=
  a.compare? b == some .eq

def isLess (a b : Quantity) : Bool :=
  a.compare? b == some .lt

end Quantity

end Descent
