/-!
Code points and texts. A text is a list of code points, and a lone surrogate is a code point like
any other.
-/

namespace Descent

/-- A Unicode code point, surrogates included. -/
structure CodePoint where
  val : Nat
  isLt : val < 0x110000
  deriving DecidableEq

namespace CodePoint

def ofNat? (n : Nat) : Option CodePoint :=
  if h : n < 0x110000 then some ⟨n, h⟩ else none

def ofChar (c : Char) : CodePoint :=
  ⟨c.toNat, by
    have valid := c.valid
    simp only [Char.toNat]
    rcases valid with low | high
    · simp only [UInt32.toNat] at *
      omega
    · exact high.2⟩

instance : Coe Char CodePoint := ⟨ofChar⟩

def isWithin (c : CodePoint) (low high : Nat) : Bool :=
  decide (low ≤ c.val) && decide (c.val ≤ high)

def isSurrogate (c : CodePoint) : Bool :=
  c.isWithin 0xD800 0xDFFF

def isUpperLetter (c : CodePoint) : Bool :=
  c.isWithin 0x41 0x5A

def isLowerLetter (c : CodePoint) : Bool :=
  c.isWithin 0x61 0x7A

def isLetter (c : CodePoint) : Bool :=
  c.isUpperLetter || c.isLowerLetter

def isDigit (c : CodePoint) : Bool :=
  c.isWithin 0x30 0x39

def isHexDigit (c : CodePoint) : Bool :=
  c.isDigit || c.isWithin 0x41 0x46 || c.isWithin 0x61 0x66

/-- The value of a digit, with letters for the digits from ten on, and nothing for other code
points. -/
def digitValue? (c : CodePoint) : Option Nat :=
  if c.isDigit then some (c.val - 0x30)
  else if c.isUpperLetter then some (c.val - 0x41 + 10)
  else if c.isLowerLetter then some (c.val - 0x61 + 10)
  else none

/-- Only the letters of ASCII have another case. -/
def toUpper (c : CodePoint) : CodePoint :=
  if c.isLowerLetter then (ofNat? (c.val - 0x20)).getD c else c

def toLower (c : CodePoint) : CodePoint :=
  if c.isUpperLetter then (ofNat? (c.val + 0x20)).getD c else c

def asciiWhere (test : CodePoint → Bool) : List CodePoint :=
  ((List.range 128).filterMap ofNat?).filter test

end CodePoint

abbrev Text := List CodePoint

namespace Text

def ofString (s : String) : Text :=
  s.toList.map CodePoint.ofChar

instance : Coe String Text := ⟨ofString⟩

/-- A text written `count` times in a row. A count below zero counts as zero. -/
def repeated (t : Text) (count : Int) : Text :=
  (List.replicate count.toNat t).flatten

def joinWith (separator : Text) : List Text → Text
  | [] => []
  | [t] => t
  | t :: ts => t ++ separator ++ joinWith separator ts

def inQuotes (t : Text) : Text :=
  ofString "'" ++ t ++ ofString "'"

end Text

end Descent
