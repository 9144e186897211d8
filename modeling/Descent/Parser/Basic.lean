import Descent.Grammar.Basic

/-!
Built parsers. A parser that remembers something has a cell of its own, and one that writes messages
was told so when it was built.
-/

namespace Descent

inductive Parser where
  | char (c : CodePoint)
  | string (t : Text)
  | regex (r : Regex)
  | satisfy (test : Callback Bool) (label : Text)
  | whitespaces
  | succeed (v : Value)
  | fail (message : Text)
  | custom (verdict : Text → Int → Except Fault Verdict)
  | seq (ps : List Parser)
  | alt (ps : List Parser)
  | map (p : Parser) (fn : Callback Value) (validate : Option (Callback Bool))
  | many (p : Parser)
  | many1 (p : Parser)
  | upTo (stop p : Parser)
  | not (p : Parser)
  | except (exclusion p : Parser)
  | peek (p : Parser)
  | eof (p : Parser)
  | sepBy (separator item : Parser)
  | andThen (p : Parser) (fns : List (Value → Grammar))
  | memoize (cell : Nat) (trace : Bool) (p : Parser)
  /-- Keeps in a cell what it has built from its grammar. -/
  | lazy (cell : Nat) (g : Grammar)
  | named (label : Text) (trace : Bool) (p : Parser)
  | probe (event : Text) (p : Parser)

namespace Parser

/-- The name of a parser, if it has one. A parser with a memory is named as the parser inside. -/
def name? : Parser → Option Text
  | .char c => some (Text.inQuotes [c])
  | .string t => some (Text.inQuotes t)
  | .regex r => some (Text.ofString "/" ++ r.source ++ Text.ofString "/")
  | .satisfy _ label => some label
  | .whitespaces => some (Text.ofString "whitespaces")
  | .named label _ _ => some label
  | .memoize _ _ p => p.name?
  | _ => none

def describeName : Option Text → Text
  | some name => Text.ofString "<Parser " ++ name ++ Text.ofString ">"
  | none => Text.ofString "<Parser>"

end Parser

/-- What building a grammar gives: a parser, or a value that is none. -/
inductive Argument where
  | parser (p : Parser)
  | other (v : Value)

def Argument.toParser : Argument → Except Fault Parser
  | .parser p => .ok p
  | .other v => do .error (.notAParser (← v.describe))

/-- The parsers that are needed where several arguments stand. The first that is none decides. -/
def Argument.toParsers : List Argument → Except Fault (List Parser)
  | [] => .ok []
  | a :: as => do
    let p ← a.toParser
    return p :: (← toParsers as)

end Descent
