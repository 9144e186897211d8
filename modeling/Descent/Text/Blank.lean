import Descent.Text.Basic

/-!
White space.
-/

namespace Descent.CodePoint

/-- The white space of the Unicode standard, together with the four information separators. -/
def isBlank (c : CodePoint) : Bool :=
  c.isWithin 0x0009 0x000D || c.isWithin 0x001C 0x0020 || c.val == 0x0085 || c.val == 0x00A0 ||
  c.val == 0x1680 || c.isWithin 0x2000 0x200A || c.isWithin 0x2028 0x2029 || c.val == 0x202F ||
  c.val == 0x205F || c.val == 0x3000

/-- The four blanks that separate words in source text: space, tab, line feed, carriage return. -/
def isPlainBlank (c : CodePoint) : Bool :=
  c.val == 0x20 || c.val == 0x09 || c.val == 0x0A || c.val == 0x0D

def isSign (c : CodePoint) : Bool :=
  c == '+' || c == '-'

end Descent.CodePoint
