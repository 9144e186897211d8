import Descent.Number.Binary64

/-!
The shortest decimal text of a floating point number: the fewest digits that read back as the same
number, and of those the nearest.
-/

namespace Descent

structure DecimalLayout where
  /-- The least exponent of ten that is written with a point instead of an exponent. -/
  leastPositional : Int
  firstExponential : Int
  exponentWidth : Nat
  /-- What follows the digits of a whole number that is written without an exponent. -/
  wholeEnding : Text

namespace Binary64

/-- A positive number and the ends of the interval of numbers that read back as it, in units of
`2 ^ unit`. -/
structure Interval where
  low : Nat
  value : Nat
  high : Nat
  /-- Whether the ends read back as the number too. -/
  closed : Bool
  unit : Int

/-- The interval around a finite number that is not zero. Just above a power of two the numbers lie
twice as dense below as above. -/
def interval (x : Binary64) : Interval :=
  let m := x.mantissa
  let gap := if m = exponentWeight ∧ 1 < x.exponentBits then 1 else 2
  ⟨4 * m - gap, 4 * m, 4 * m + 2, m % 2 == 0, x.exponent - 2⟩

namespace Interval

def covers (i : Interval) (place : Int) (count : Nat) : Bool :=
  let point := count * Nat.pow 10 place.toNat * Nat.pow 2 (-i.unit).toNat
  let scale := Nat.pow 10 (-place).toNat * Nat.pow 2 i.unit.toNat
  let low := i.low * scale
  let high := i.high * scale
  if i.closed then decide (low ≤ point) && decide (point ≤ high)
  else decide (low < point) && decide (point < high)

def inPlaces (i : Interval) (place : Int) : Nat × Nat :=
  (i.value * Nat.pow 2 i.unit.toNat * Nat.pow 10 (-place).toNat,
    Nat.pow 2 (-i.unit).toNat * Nat.pow 10 place.toNat)

/-- The multiple of `10 ^ place` in the interval that is nearest to the value, if there is one. Only
the two neighbours of the value need a test. -/
def nearestIn? (i : Interval) (place : Int) : Option Nat :=
  let (num, den) := i.inPlaces place
  let below := num / den
  match i.covers place below, i.covers place (below + 1) with
  | true, true => some (nearest num den)
  | true, false => some below
  | false, true => some (below + 1)
  | false, false => none

def search (i : Interval) : Nat → Int → Nat × Int
  | 0, place => (0, place)
  | fuel + 1, place =>
    match i.nearestIn? place with
    | some count => (count, place)
    | none => search i fuel (place - 1)

def topPlace (i : Interval) : Int :=
  let bits := (i.value.log2 : Int) + 1 + i.unit
  if 0 ≤ bits then bits * 31 / 100 + 1 else bits * 30 / 100 + 1

end Interval

/-- The digits of a finite number that is not zero, as a whole number, and the place of the last. -/
def shortest (x : Binary64) : Nat × Int :=
  let i := x.interval
  i.search 40 i.topPlace

/-- Drops the zeros at the end of the digits of a number, and tells how many they are. -/
def dropFinalZeros (ds : Text) : Text × Nat :=
  let kept := (ds.reverse.dropWhile fun c => c.val == 0x30).reverse
  (kept, ds.length - kept.length)

def layOut (layout : DecimalLayout) (ds : Text) (point : Int) : Text :=
  let zeros (n : Int) : Text := List.replicate n.toNat (CodePoint.ofChar '0')
  if layout.leastPositional ≤ point - 1 ∧ point - 1 < layout.firstExponential then
    if point ≤ 0 then Text.ofString "0." ++ zeros (-point) ++ ds
    else if ds.length ≤ point then ds ++ zeros (point - ds.length) ++ layout.wholeEnding
    else ds.take point.toNat ++ Text.ofString "." ++ ds.drop point.toNat
  else
    let lead := ds.take 1
    let rest := ds.drop 1
    let power := point - 1
    (if rest.isEmpty then lead else lead ++ Text.ofString "." ++ rest) ++
      Text.ofString (if power < 0 then "e-" else "e+") ++
      Numeral.padded 10 layout.exponentWidth power.natAbs

def writeUnsigned (layout : DecimalLayout) (x : Binary64) : Text :=
  if x.isFinite then
    if x.isZero then Text.ofString "0" ++ layout.wholeEnding
    else
      let (count, place) := x.shortest
      let (ds, zeros) := dropFinalZeros (Numeral.digits 10 count)
      layOut layout ds (ds.length + zeros + place)
  else if x.fractionBits = 0 then Text.ofString "inf"
  else Text.ofString "nan"

/-- The text of a number. An undefined result shows no sign. -/
def write (layout : DecimalLayout) (x : Binary64) : Text :=
  let shown := x.writeUnsigned layout
  if x.isNegative && (x.isFinite || x.fractionBits == 0) then Text.ofString "-" ++ shown else shown

end Binary64

end Descent
