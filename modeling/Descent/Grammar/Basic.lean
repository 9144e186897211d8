import Descent.Regex.Pattern
import Descent.Outcome
import Descent.Value.Transform

/-!
Grammars: descriptions of parsers that have yet to be built. A grammar may refer to named parsers,
and the parts of it that depend on matched values, or are lazy, are built while the parser runs.
-/

namespace Descent

/-- A function that a grammar calls on matched values. Calling it may be recorded as an event,
before anything that it does. -/
structure Callback (α : Type) where
  event : Option Text
  call : Value → Except Fault α

def Callback.silent {α : Type} (call : Value → Except Fault α) : Callback α :=
  ⟨none, call⟩

inductive Grammar where
  /-- A value where a grammar is expected. A text stands for the parser that matches it; no other
  value is a parser. -/
  | value (v : Value)
  | ref (name : Text)
  | noting (event : Text) (g : Grammar)
  | faulty (e : Fault)
  | char (t : Text)
  | string (t : Text)
  | regex (flags : Regex.Flags) (pattern : Text)
  | satisfy (test : Callback Bool) (label : Text)
  | whitespaces
  | succeed (v : Value)
  | fail (message : Text)
  | custom (verdict : Text → Int → Except Fault Verdict)
  | seq (gs : List Grammar)
  | alt (gs : List Grammar)
  /-- One parser, built once and matched so many times in sequence. A count that could not be read
  is a fault, but only after the parser is built. -/
  | copies (g : Grammar) (count : Except Fault Int)
  | map (g : Grammar) (fn : Callback Value) (validate : Option (Callback Bool))
  | many (g : Grammar)
  | many1 (g : Grammar)
  | between (left right g : Grammar)
  | upTo (stop g : Grammar)
  | not (g : Grammar)
  | except (exclusion g : Grammar)
  | peek (g : Grammar)
  | eof (g : Grammar)
  | sepBy (separator item : Grammar)
  | andThen (g : Grammar) (fns : List (Value → Grammar))
  | memoize (g : Grammar)
  | lazy (g : Grammar)
  | named (label : Text) (g : Grammar)
  /-- Records an event with the position whenever it is run. -/
  | probe (event : Text) (g : Grammar)

namespace Grammar

def pick (index : Int) (g : Grammar) : Grammar :=
  .map g (.silent (Value.item index)) none

def after (lead g : Grammar) : Grammar :=
  pick 1 (.seq [lead, g])

def token (g : Grammar) : Grammar :=
  pick 0 (.seq [g, .whitespaces])

def optional (g : Grammar) : Grammar :=
  .alt [g, .succeed .none]

def codePoint (test : CodePoint → Bool) (label : Text) : Grammar :=
  .satisfy (.silent fun
    | .text [c] => .ok (test c)
    | _ => .error .illTyped) label

def anyChar : Grammar :=
  codePoint (fun _ => true) (Text.ofString "any character")

def whitespace : Grammar :=
  codePoint CodePoint.isPlainBlank (Text.ofString "whitespace")

def letter : Grammar :=
  codePoint CodePoint.isLetter (Text.ofString "letter")

def digit : Grammar :=
  codePoint CodePoint.isDigit (Text.ofString "digit")

end Grammar

end Descent
