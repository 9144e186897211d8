import Descent.Text.Position

/-!
Lines of a text. Two counts live here and need not agree: lines are numbered by line feeds alone,
while the text of a line ends at any line break.
-/

namespace Descent.Text

/-- The code points that end a line. A carriage return and the line feed after it are one break. -/
def endsLine (c : CodePoint) : Bool :=
  c.isWithin 0x0A 0x0D || c.isWithin 0x1C 0x1E || c.val == 0x85 || c.isWithin 0x2028 0x2029

/-- The lines of a text without their breaks. `line` is the current line so far, newest code point
first. No empty line follows a final break. -/
def linesFrom (line : Text) : Text → List Text
  | [] => if line.isEmpty then [] else [line.reverse]
  | [c] => if endsLine c then [line.reverse] else [(c :: line).reverse]
  | c :: d :: rest =>
    if endsLine c then
      if c.val == 0x0D && d.val == 0x0A then line.reverse :: linesFrom [] rest
      else line.reverse :: linesFrom [] (d :: rest)
    else linesFrom (c :: line) (d :: rest)

def lines (t : Text) : List Text :=
  linesFrom [] t

def isLineFeed (c : CodePoint) : Bool :=
  c.val == 0x0A

def lineNumber (t : Text) (pos : Int) : Nat :=
  (t.slice 0 pos).countP isLineFeed + 1

def lastLineFeed (t : Text) (pos : Int) : Int :=
  let before := t.slice 0 pos
  (before.length : Int) - 1 - (before.reverse.takeWhile fun c => !isLineFeed c).length

def column (t : Text) (pos : Int) : Int :=
  pos - t.lastLineFeed pos

end Descent.Text
