import Descent.Text.Basic
import Descent.Fault

/-!
Numerals: whole numbers written in a base. Reading and writing decimal numerals is refused beyond a
fixed number of digits.
-/

namespace Descent.Numeral

/-- The number that a text of digits denotes. What is no digit counts as zero. -/
def value (base : Nat) (digits : Text) : Nat :=
  digits.foldl (fun n c => base * n + c.digitValue?.getD 0) 0

/-- The digits of a number, the most significant first, in lower case. -/
def digits (base n : Nat) : Text :=
  (Nat.toDigits base n).map CodePoint.ofChar

def padded (base width n : Nat) : Text :=
  let shown := digits base n
  List.replicate (width - shown.length) (CodePoint.ofChar '0') ++ shown

/-- Splits off a sign. The first part tells whether it is a minus. -/
def splitSign : Text → Bool × Text
  | [] => (false, [])
  | c :: rest =>
      if c = '-' then (true, rest) else if c = '+' then (false, rest) else (false, c :: rest)

def signed (negative : Bool) (n : Nat) : Int :=
  if negative then -(n : Int) else n

/-- The most digits that a decimal numeral may have. Leading zeros count, a sign does not. -/
def digitLimit : Nat := 4300

def decimal (z : Int) : Text :=
  if z < 0 then CodePoint.ofChar '-' :: digits 10 z.natAbs else digits 10 z.natAbs

def write (z : Int) : Except Fault Text :=
  if (digits 10 z.natAbs).length ≤ digitLimit then .ok (decimal z) else .error .badNumber

def read (t : Text) : Except Fault Int :=
  let (negative, ds) := splitSign t
  if !ds.isEmpty && ds.all CodePoint.isDigit && decide (ds.length ≤ digitLimit) then
    .ok (signed negative (value 10 ds))
  else .error .badNumber

end Descent.Numeral
