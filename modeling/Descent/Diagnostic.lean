import Descent.Outcome
import Descent.Text.Line

/-!
Error reports. A report carries the position of an error and notes that show a position by line,
column and the text around it.
-/

namespace Descent

/-- A part of a line, and how many spaces go before the caret below it. -/
structure Snippet where
  text : Text
  indent : Nat
  deriving DecidableEq

/-- A position in a source text, by line and column. The line has a snippet if the column lies on
its text. -/
structure Note where
  pos : Int
  line : Nat
  column : Int
  snippet? : Option Snippet
  deriving DecidableEq

namespace Snippet

/-- The part of a line around a column, at most forty code points. Up to column twenty it is the
start of the line; beyond, it begins twenty before the column. -/
def around (line : Text) (column : Int) : Snippet :=
  if column ≤ 20 then ⟨line.take 40, (column - 1).toNat⟩
  else ⟨line.slice (column - 20) (column + 20), 20⟩

def render (s : Snippet) : Text :=
  s.text ++ Text.ofString "\n" ++ List.replicate s.indent (CodePoint.ofChar ' ') ++
    Text.ofString "^"

end Snippet

namespace Note

def snippetAt? (src : Text) (line : Nat) (column : Int) : Option Snippet := do
  let text ← src.lines[line - 1]?
  if column ≤ text.length then some (Snippet.around text column) else none

/-- The note for a position. A position past the end is taken as the end. -/
def ofPosition (src : Text) (pos : Int) : Note :=
  let pos := min pos src.length
  let line := src.lineNumber pos
  let column := src.column pos
  ⟨pos, line, column, snippetAt? src line column⟩

def render (n : Note) : Text :=
  let head := Text.ofString "At position " ++ Numeral.decimal n.pos ++ Text.ofString " (line " ++
    Numeral.decimal n.line ++ Text.ofString ", column " ++ Numeral.decimal n.column ++
      Text.ofString ")"
  match n.snippet? with
  | some s => head ++ Text.ofString "\n" ++ s.render
  | none => head

end Note

structure ParseError where
  source : Text
  pos : Int
  message : Text
  expected : List Text
  notes : List Note

namespace ParseError

def appendNote (e : ParseError) (pos : Int) : ParseError :=
  { e with notes := e.notes ++ [Note.ofPosition e.source pos] }

def create (source : Text) (pos : Int) (message : Text) (expected : List Text) : ParseError :=
  appendNote ⟨source, pos, message, expected, []⟩ pos

end ParseError

def Failure.report (f : Failure) (source : Text) : ParseError :=
  .create source f.pos f.describe f.expected

end Descent
