import Descent.Text.Unicode
import Descent.Number.Numeral

/-!
Quoted texts, in which every code point that does not show is written as an escape.
-/

namespace Descent

namespace Text

/-- One code point between quotes. The quote, the backslash and three controls have short escapes;
what does not show is written by its number. -/
def escape (quote c : CodePoint) : Text :=
  if c == quote || c == '\\' then ['\\', c]
  else if c == '\n' then ofString "\\n"
  else if c == '\r' then ofString "\\r"
  else if c == '\t' then ofString "\\t"
  else if c.isPrintable then [c]
  else if c.val < 0x100 then ofString "\\x" ++ Numeral.padded 16 2 c.val
  else if c.val < 0x10000 then ofString "\\u" ++ Numeral.padded 16 4 c.val
  else ofString "\\U" ++ Numeral.padded 16 8 c.val

/-- Single quotes, or double quotes if that leaves fewer to escape. -/
def quoteFor (t : Text) : CodePoint :=
  if t.contains '\'' && !t.contains '"' then '"' else '\''

def quoted (t : Text) : Text :=
  t.quoteFor :: t.flatMap (escape t.quoteFor) ++ [t.quoteFor]

end Text

end Descent
