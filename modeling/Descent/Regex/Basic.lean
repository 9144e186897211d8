import Descent.Text.Unicode

/-!
Regular expressions, and how one matches. Matching backtracks: of two alternatives the left one goes
first, and a greedy repetition tries to go on before it tries to stop. A match runs on a cursor and
hands every way of matching to a continuation, which accepts or refuses it.
-/

namespace Descent.Regex

inductive Category where
  | digit
  | word
  | blank
  deriving DecidableEq

/-- Membership in a category, of all code points or of those of ASCII alone. -/
def Category.contains (ascii : Bool) : Category → CodePoint → Bool
  | .digit, c => if ascii then c.isDigit else c.isDecimal
  | .word, c => (if ascii then c.isLetter || c.isDigit else c.isAlphanumeric) || c == '_'
  | .blank, c => if ascii then c.isWithin 0x09 0x0D || c == ' ' else c.isBlank

/-- How letters are compared: as they are, or regardless of case, for the letters of ASCII or for
all. -/
inductive Casing where
  | exact
  | ascii
  | unicode
  deriving DecidableEq

def Casing.variants : Casing → CodePoint → List CodePoint
  | .exact, c => [c]
  | .ascii, c => [c.toLower, c.toUpper]
  | .unicode, c => c.variants

def Casing.lowerCase : Casing → CodePoint → CodePoint
  | .exact, c => c
  | .ascii, c => c.toLower
  | .unicode, c => c.lowerCase

inductive Member where
  | one (c : CodePoint)
  | range (low high : CodePoint)
  | category (kind : Category) (ascii negated : Bool)
  deriving DecidableEq

/-- A letter is in a range if it is in as one of its variants. A category has all of them or
none. -/
def Member.contains (casing : Casing) : Member → CodePoint → Bool
  | .one d, c => (casing.variants c).contains d
  | .range low high, c => (casing.variants c).any (·.isWithin low.val high.val)
  | .category kind ascii negated, c => kind.contains ascii c != negated

/-- A set of code points, given by its members or by what it leaves out. -/
structure CodeSet where
  negated : Bool
  members : List Member
  deriving DecidableEq

def CodeSet.contains (casing : Casing) (s : CodeSet) (c : CodePoint) : Bool :=
  s.members.any (·.contains casing c) != s.negated

/-- Places that an expression can demand without consuming anything. -/
inductive Anchor where
  | textStart
  | textEnd
  /-- The end of the text, or right before a line feed that ends it. -/
  | lastLineEnd
  | lineStart
  | lineEnd
  | wordEdge (ascii : Bool)
  | notWordEdge (ascii : Bool)
  deriving DecidableEq

inductive Node where
  | empty
  /-- Any code point; a line feed only if `lineFeeds` is set. -/
  | any (lineFeeds : Bool)
  | set (casing : Casing) (s : CodeSet)
  | anchor (a : Anchor)
  | seq (first second : Node)
  | alt (left right : Node)
  /-- At least `least` times, and at most `most` times if there is a bound. -/
  | repetition (body : Node) (least : Nat) (most : Option Nat) (greedy : Bool)
  | group (index : Nat) (body : Node)
  | reference (casing : Casing) (index : Nat)
  | ahead (negated : Bool) (body : Node)
  | behind (negated : Bool) (width : Nat) (body : Node)
  /-- The first way to match the body, and no other one. -/
  | atomic (body : Node)
  /-- The first expression if the group has matched, the second one otherwise. -/
  | conditional (index : Nat) (yes no : Node)

/-- A place in a text: the code points before it, nearest first, those after it, and what the groups
have matched, latest first. -/
structure Cursor where
  before : Text
  pos : Nat
  after : Text
  groups : List (Nat × Text)

namespace Cursor

def ofText (t : Text) (offset : Nat) : Cursor :=
  ⟨(t.take offset).reverse, offset, t.drop offset, []⟩

def step? (c : Cursor) (test : CodePoint → Bool) : Option Cursor :=
  match c.after with
  | [] => none
  | d :: rest => if test d then some ⟨d :: c.before, c.pos + 1, rest, c.groups⟩ else none

def back? (c : Cursor) : Nat → Option Cursor
  | 0 => some c
  | n + 1 =>
    match c.before with
    | [] => none
    | d :: rest => back? ⟨rest, c.pos - 1, d :: c.after, c.groups⟩ n

def past? (c : Cursor) (casing : Casing) : Text → Option Cursor
  | [] => some c
  | d :: ds =>
    match c.step? fun x => casing.lowerCase x == casing.lowerCase d with
    | some c => c.past? casing ds
    | none => none

def capture (start : Cursor) (index : Nat) (c : Cursor) : Cursor :=
  { c with groups := (index, start.after.take (c.pos - start.pos)) :: c.groups }

def isWordBefore (c : Cursor) (ascii : Bool) : Bool :=
  match c.before with
  | [] => false
  | d :: _ => Category.word.contains ascii d

def isWordAfter (c : Cursor) (ascii : Bool) : Bool :=
  match c.after with
  | [] => false
  | d :: _ => Category.word.contains ascii d

/-- Whether an anchor holds at a cursor. In the empty text there is neither an edge of a word nor a
place that is none. -/
def holds (c : Cursor) : Anchor → Bool
  | .textStart => c.before.isEmpty
  | .textEnd => c.after.isEmpty
  | .lastLineEnd =>
    match c.after with
    | [] => true
    | [d] => d.val == 0x0A
    | _ => false
  | .lineStart =>
    match c.before with
    | [] => true
    | d :: _ => d.val == 0x0A
  | .lineEnd =>
    match c.after with
    | [] => true
    | d :: _ => d.val == 0x0A
  | .wordEdge ascii => c.isWordBefore ascii != c.isWordAfter ascii
  | .notWordEdge ascii =>
    !(c.before.isEmpty && c.after.isEmpty) && c.isWordBefore ascii == c.isWordAfter ascii

end Cursor

/-- What is to be matched behind a place. -/
abbrev Continuation := Cursor → Option Cursor

def times (body : Continuation → Continuation) : Nat → Continuation → Continuation
  | 0, k => k
  | n + 1, k => body (times body n k)

/-- Matches a body as often as it likes, at most `most` times. A round that began where the last one
began matches nothing new, so the repetition stops there. -/
def loop (body : Continuation → Continuation) (greedy : Bool) (k : Continuation) :
    Nat → Option Nat → Option Nat → Continuation
  | 0, _, _, c => k c
  | fuel + 1, most, last, c =>
    if most = some 0 ∨ last = some c.pos then k c
    else
      let again (_ : Unit) := body (loop body greedy k fuel (most.map (· - 1)) (some c.pos)) c
      if greedy then (again ()).orElse fun _ => k c else (k c).orElse again

/-- The ways in which an expression matches at a cursor, tried in order until the continuation
accepts one. -/
def Node.run : Node → Continuation → Continuation
  | .empty, k, c => k c
  | .any lineFeeds, k, c => (c.step? fun d => lineFeeds || d.val != 0x0A).bind k
  | .set casing s, k, c => (c.step? (s.contains casing)).bind k
  | .anchor a, k, c => if c.holds a then k c else none
  | .seq first second, k, c => first.run (second.run k) c
  | .alt left right, k, c => (left.run k c).orElse fun _ => right.run k c
  | .repetition body least most greedy, k, c =>
    times body.run least
      (fun d => loop body.run greedy k (d.after.length + 2) (most.map (· - least)) none d) c
  | .group index body, k, c => body.run (fun d => k (c.capture index d)) c
  | .reference casing index, k, c =>
    match c.groups.lookup index with
    | some t => (c.past? casing t).bind k
    | none => none
  | .ahead negated body, k, c =>
    match body.run some c with
    | some d => if negated then none else k { c with groups := d.groups }
    | none => if negated then k c else none
  | .behind negated width body, k, c =>
    match (c.back? width).bind (body.run some) with
    | some d => if negated then none else k { c with groups := d.groups }
    | none => if negated then k c else none
  | .atomic body, k, c => (body.run some c).bind k
  | .conditional index yes no, k, c =>
    if (c.groups.lookup index).isSome then yes.run k c else no.run k c

/-- The least and the most code points that an expression can match. There may be no most. -/
structure Width where
  least : Nat
  most : Option Nat
  deriving DecidableEq

namespace Width

def exactly (n : Nat) : Width :=
  ⟨n, some n⟩

def add (v w : Width) : Width :=
  ⟨v.least + w.least, do return (← v.most) + (← w.most)⟩

def either (v w : Width) : Width :=
  ⟨min v.least w.least, do return max (← v.most) (← w.most)⟩

def times (w : Width) (least : Nat) (most : Option Nat) : Width where
  least := w.least * least
  most :=
    match w.most, most with
    | some 0, _ | _, some 0 => some 0
    | some m, some n => some (m * n)
    | _, _ => none

end Width

/-- The width of an expression, from the widths of the groups that it refers to. -/
def Node.width (groups : List (Nat × Width)) : Node → Width
  | .empty | .anchor _ | .ahead _ _ | .behind _ _ _ => .exactly 0
  | .any _ | .set _ _ => .exactly 1
  | .seq first second => (first.width groups).add (second.width groups)
  | .alt left right => (left.width groups).either (right.width groups)
  | .repetition body least most _ => (body.width groups).times least most
  | .group _ body | .atomic body => body.width groups
  | .reference _ index => (groups.lookup index).getD (.exactly 0)
  | .conditional _ yes no => (yes.width groups).either (no.width groups)

end Descent.Regex

namespace Descent

structure Regex where
  source : Text
  node : Regex.Node

def Regex.endOf? (r : Regex) (t : Text) (offset : Nat) : Option Nat :=
  (r.node.run some (.ofText t offset)).map (·.pos)

end Descent
