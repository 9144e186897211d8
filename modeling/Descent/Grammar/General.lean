import Descent.Grammar.Basic

/-!
Grammars for numbers, names and quoted strings.
-/

namespace Descent.Grammar

def mapText (g : Grammar) (fn : Value → Except Fault Text) : Grammar :=
  .map g (.silent fun v => do return .text (← fn v)) none

def joined (g : Grammar) : Grammar :=
  mapText g Value.joinPresent

def digits : Grammar :=
  joined (.many1 digit)

def sign : Grammar :=
  optional (codePoint CodePoint.isSign (Text.ofString "sign"))

def readInteger (v : Value) : Except Fault Value := do
  return .int (← Numeral.read (← v.joinPresent))

def readFloat (v : Value) : Except Fault Value := do
  return .float (← Binary64.read (← v.joinPresent))

def integer : Grammar :=
  .named (Text.ofString "integer") (.map (.seq [sign, digits]) (.silent readInteger) none)

def exponent : Grammar :=
  joined (.seq [.alt [.string (Text.ofString "e"), .string (Text.ofString "E")], sign, digits])

def fraction : Grammar :=
  joined (.seq [.string (Text.ofString "."), digits])

def unsignedFloat : Grammar :=
  .alt [
    joined (.seq [digits, fraction, optional exponent]),
    joined (.seq [digits, exponent]),
    joined (.seq [fraction, optional exponent])]

/-- A decimal number with an optional sign, and with a fraction, an exponent or both. -/
def float : Grammar :=
  .named (Text.ofString "float") (.map (.seq [sign, unsignedFloat]) (.silent readFloat) none)

def joinHeadAndRest (v : Value) : Except Fault Text := do
  return (← (← v.item 0).asText) ++ (← (← v.item 1).joinPresent)

def identifier : Grammar :=
  .named (Text.ofString "identifier") (mapText (.seq [
    .alt [letter, .string (Text.ofString "_")],
    .many (.alt [letter, digit, .string (Text.ofString "_")])]) joinHeadAndRest)

def readCodePoint (v : Value) : Except Fault Text := do
  let ds ← v.joinPresent
  match CodePoint.ofNat? (Numeral.value 16 ds) with
  | some c => if ds.isEmpty || !ds.all CodePoint.isHexDigit then .error .badNumber else .ok [c]
  | none => .error .badNumber

/-- `u` and four hexadecimal digits, for the code point of that number. -/
def unicodeEscape : Grammar :=
  let hexDigit := codePoint CodePoint.isHexDigit (Text.ofString "hexadecimal digit")
  mapText (after (.string (Text.ofString "u")) (.seq [hexDigit, hexDigit, hexDigit, hexDigit]))
    readCodePoint

abbrev Escapes := List (Text × Text)

/-- The text that an escape stands for. What is no escape stands for itself. -/
def Escapes.replace (escapes : Escapes) (v : Value) : Except Fault Text := do
  let t ← v.asText
  return (escapes.lookup t).getD t

def generalEscapes : Escapes := [
  (Text.ofString "b", Text.ofString "\x08"),
  (Text.ofString "f", Text.ofString "\x0c"),
  (Text.ofString "n", Text.ofString "\n"),
  (Text.ofString "r", Text.ofString "\r"),
  (Text.ofString "t", Text.ofString "\t")]

/-- One code point other than `u`, which is replaced if it is an escape. -/
def escapedChar (escapes : Escapes) : Grammar :=
  mapText (.except (.string (Text.ofString "u")) anyChar) escapes.replace

def escapeSequence (escape : Text) (escapes : Escapes) : Grammar :=
  after (.string escape) (.alt [unicodeEscape, escapedChar escapes])

def plainChar (quote escape : Text) : Grammar :=
  .except (.alt [.string quote, .string escape]) anyChar

/-- A string between quotes. The value is its content with the escapes replaced. -/
def quotedString (quote escape : Text) (escapes : Escapes) : Grammar :=
  joined (.between (.string quote) (.string quote)
    (.many (.alt [escapeSequence escape escapes, plainChar quote escape])))

end Descent.Grammar
