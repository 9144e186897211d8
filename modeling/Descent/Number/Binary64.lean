import Descent.Number.Numeral
import Descent.Number.Quantity
import Descent.Text.Blank

/-!
Binary floating point numbers of 64 bits, by their bits. A number keeps its bits exactly, those of
an undefined result included. Decimal texts are read with one correct rounding.
-/

namespace Descent

/-- A floating point number, given by sign, exponent and fraction in 64 bits. -/
structure Binary64 where
  bits : UInt64
  deriving DecidableEq

namespace Binary64

def signWeight : Nat :=
  0x8000000000000000

/-- The weight of the last bit of the exponent. The 52 bits below it are the fraction. -/
def exponentWeight : Nat :=
  0x10000000000000

def isNegative (x : Binary64) : Bool :=
  decide (signWeight ≤ x.bits.toNat)

def unsignedBits (x : Binary64) : Nat :=
  x.bits.toNat % signWeight

def exponentBits (x : Binary64) : Nat :=
  x.unsignedBits / exponentWeight

def fractionBits (x : Binary64) : Nat :=
  x.unsignedBits % exponentWeight

/-- The mantissa of a finite number, with the leading bit that the fraction leaves out. -/
def mantissa (x : Binary64) : Nat :=
  if x.exponentBits = 0 then x.fractionBits else x.fractionBits + exponentWeight

/-- The power of two that the mantissa of a finite number is multiplied by. -/
def exponent (x : Binary64) : Int :=
  max (x.exponentBits : Int) 1 - 1075

def isFinite (x : Binary64) : Bool :=
  decide (x.exponentBits < 2047)

def quantity (x : Binary64) : Quantity :=
  if x.isFinite then .finite (Numeral.signed x.isNegative x.mantissa) x.exponent
  else if x.fractionBits = 0 then .infinite x.isNegative
  else .undefined

def isZero (x : Binary64) : Bool :=
  decide (x.unsignedBits = 0)

def ofUnsignedBits (negative : Bool) (bits : Nat) : Binary64 :=
  ⟨.ofNat (if negative then bits + signWeight else bits)⟩

/-- The bits of infinity, which are the first beyond those of the finite numbers. -/
def infinityBits : Nat :=
  2047 * exponentWeight

def undefinedBits : Nat :=
  infinityBits + exponentWeight / 2

/-- The whole number nearest to a quotient. A half goes to the even neighbour. -/
def nearest (num den : Nat) : Nat :=
  let floor := num / den
  let twice := 2 * (num % den)
  if twice < den then floor
  else if twice = den then floor + floor % 2
  else floor + 1

/-- The quotient `num / den` measured in units of `2 ^ unit`, as numerator and denominator. -/
def inUnits (num den : Nat) (unit : Int) : Nat × Nat :=
  if 0 ≤ unit then (num, den * Nat.pow 2 unit.toNat) else (num * Nat.pow 2 (-unit).toNat, den)

/-- The bits of the number nearest to `num / den`, or those of infinity if it is too large. The unit
is the power of two that leaves 53 bits, and never below the smallest one there is. -/
def bitsOfRatio (num den : Nat) : Nat :=
  let guess := max ((num.log2 : Int) - den.log2 - 53) (-1074)
  let trial := inUnits num den guess
  let unit := if trial.1 / trial.2 < 2 * exponentWeight then guess else guess + 1
  let scaled := inUnits num den unit
  min ((unit + 1074).toNat * exponentWeight + nearest scaled.1 scaled.2) infinityBits

/-- The bits of the number nearest to `n · 10 ^ exponent`. The range is checked before any power
is computed. -/
def bitsOfDecimal (n : Nat) (exponent : Int) : Nat :=
  let magnitude := exponent + (Numeral.digits 10 n).length
  if n = 0 then 0
  else if 310 < magnitude then infinityBits
  else if magnitude < -330 then 0
  else if 0 ≤ exponent then bitsOfRatio (n * Nat.pow 10 exponent.toNat) 1
  else bitsOfRatio n (Nat.pow 10 (-exponent).toNat)

/-- Reads an exponent, which may be missing: `e` or `E`, a sign that may be missing, and digits. -/
def readExponent? : Text → Option Int
  | [] => some 0
  | c :: rest =>
    if c = 'e' || c = 'E' then
      let (negative, ds) := Numeral.splitSign rest
      if !ds.isEmpty && ds.all CodePoint.isDigit then some
        (Numeral.signed negative (Numeral.value 10 ds))
      else none
    else none

def splitFraction : Text → Text × Text
  | [] => ([], [])
  | c :: rest =>
    if c = '.' then (rest.takeWhile CodePoint.isDigit, rest.dropWhile CodePoint.isDigit)
    else ([], c :: rest)

/-- Reads digits with a point and an exponent that may be missing, as a whole number and the power
of ten it is multiplied by. -/
def readDecimal? (t : Text) : Option (Nat × Int) :=
  let whole := t.takeWhile CodePoint.isDigit
  let (fraction, rest) := splitFraction (t.dropWhile CodePoint.isDigit)
  if whole.isEmpty && fraction.isEmpty then none
  else (readExponent? rest).map fun e => (Numeral.value 10 (whole ++ fraction), e - fraction.length)

/-- Reads a number without its sign, as bits. Infinity and undefined results have names, in
either case of letters. -/
def readUnsigned? (t : Text) : Option Nat :=
  let name := t.map CodePoint.toLower
  if name = Text.ofString "inf" || name = Text.ofString "infinity" then some infinityBits
  else if name = Text.ofString "nan" then some undefinedBits
  else (readDecimal? t).map fun (n, e) => bitsOfDecimal n e

/-- Whether every underscore stands between two digits. `digitBefore` tells whether a digit comes
right before the text. -/
def underscoresJoinDigits (digitBefore : Bool) : Text → Bool
  | [] => true
  | c :: rest =>
    if c = '_' then
      digitBefore && (match rest with | d :: _ => d.isDigit | [] => false) &&
        underscoresJoinDigits false rest
    else underscoresJoinDigits c.isDigit rest

def trimBlanks (t : Text) : Text :=
  ((t.dropWhile CodePoint.isBlank).reverse.dropWhile CodePoint.isBlank).reverse

/-- Reads a number from its whole text. Blanks around it are dropped, and digits may be grouped by
underscores. -/
def read (t : Text) : Except Fault Binary64 :=
  let trimmed := trimBlanks t
  let (negative, rest) := Numeral.splitSign (trimmed.filter (· ≠ '_'))
  match underscoresJoinDigits false trimmed, readUnsigned? rest with
  | true, some bits => .ok (ofUnsignedBits negative bits)
  | _, _ => .error .badNumber

end Binary64

end Descent
