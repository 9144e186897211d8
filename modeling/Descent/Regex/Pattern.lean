import Descent.Regex.Basic
import Descent.Number.Numeral

/-!
Reading regular expressions from their text. A malformed pattern is refused, whatever is wrong with
it, and so are code points that are given by their names.
-/

namespace Descent.Regex

structure Flags where
  /-- Letters match in either case. -/
  ignoreCase : Bool
  /-- The anchors for the ends of the text also match at line feeds. -/
  multiline : Bool
  /-- The point also matches a line feed. -/
  dotAll : Bool
  deriving DecidableEq

/-- The flags that hold in a part of a pattern. -/
structure Mode extends Flags where
  /-- Blanks and comments may stand between expressions. -/
  verbose : Bool
  /-- Categories and letters are those of ASCII. -/
  ascii : Bool

namespace Mode

def casing (mode : Mode) : Casing :=
  if mode.ignoreCase then if mode.ascii then .ascii else .unicode else .exact

def turn (mode : Mode) (on : Bool) (flag : CodePoint) : Option Mode :=
  if flag == 'i' then some { mode with ignoreCase := on }
  else if flag == 'm' then some { mode with multiline := on }
  else if flag == 's' then some { mode with dotAll := on }
  else if flag == 'x' then some { mode with verbose := on }
  else if flag == 'a' && on then some { mode with ascii := true }
  else if flag == 'u' && on then some { mode with ascii := false }
  else none

def turnAll (mode : Mode) (on : Bool) (flags : Text) : Option Mode :=
  flags.foldlM (·.turn on ·) mode

end Mode

/-- A code point of a pattern, or one behind a backslash. -/
structure Token where
  escaped : Bool
  c : CodePoint
  deriving DecidableEq

def Token.length (t : Token) : Nat :=
  if t.escaped then 2 else 1

/-- What is left to read, the number of groups opened so far, those that are closed with their
widths, and the names of groups. Within an expression that looks back, also how many groups there
were before it. What conditions ask for has to be a group in the end. -/
structure Reading where
  rest : Text
  opened : Nat
  closed : List (Nat × Width)
  names : List (Text × Nat)
  behind : Option Nat
  asked : List Nat

/-- Reads from a pattern, or refuses it. -/
abbrev Reader := StateT Reading Option

namespace Reader

def peek? : Reader (Option Token) :=
  fun s =>
    match s.rest with
    | [] => some (none, s)
    | c :: rest =>
      if c == '\\' then
        match rest with
        | [] => none
        | d :: _ => some (some ⟨true, d⟩, s)
      else some (some ⟨false, c⟩, s)

def skip (count : Nat) : Reader Unit :=
  modify fun s => { s with rest := s.rest.drop count }

def take? : Reader (Option Token) := do
  match ← peek? with
  | some t =>
    skip t.length
    return some t
  | none => return none

def take : Reader Token := do
  return ← (← take?)

def accept (c : CodePoint) : Reader Bool := do
  if (← peek?) == some ⟨false, c⟩ then
    skip 1
    return true
  else return false

def expect (c : CodePoint) : Reader Unit := do
  guard (← accept c)

def takeWhile (test : CodePoint → Bool) (most : Nat) : Reader Text :=
  modifyGet fun s =>
    let found := (s.rest.take most).takeWhile test
    (found, { s with rest := s.rest.drop found.length })

def takeAll (test : CodePoint → Bool) : Reader Text := do
  takeWhile test (← get).rest.length

/-- All up to a code point, which is read too. -/
def takeUntil (last : CodePoint) : Nat → Reader Text
  | 0 => failure
  | fuel + 1 => do
    let t ← take
    if t == ⟨false, last⟩ then return []
    let rest ← takeUntil last fuel
    return if t.escaped then '\\' :: t.c :: rest else t.c :: rest

def openGroup (name : Option Text) : Reader Nat := do
  let s ← get
  let index := s.opened + 1
  match name with
  | none => set { s with opened := index }
  | some name =>
    guard (s.names.lookup name).isNone
    set { s with opened := index, names := (name, index) :: s.names }
  return index

def closeGroup (index : Nat) (body : Node) : Reader Unit :=
  modify fun s => { s with closed := (index, body.width s.closed) :: s.closed }

/-- A group that is referred to from within an expression that looks back has to be closed before
that. -/
def checkBehind (index : Nat) : Reader Unit := do
  let s ← get
  match s.behind with
  | some before => guard ((s.closed.lookup index).isSome && index ≤ before)
  | none => return ()

end Reader

def controlOf? (c : CodePoint) : Option CodePoint :=
  if c == 'a' then some '\x07'
  else if c == 'f' then some '\x0c'
  else if c == 'n' then some '\n'
  else if c == 'r' then some '\r'
  else if c == 't' then some '\t'
  else if c == 'v' then some '\x0b'
  else none

def categoryOf? (ascii : Bool) (c : CodePoint) : Option Member :=
  if c == 'd' then some (.category .digit ascii false)
  else if c == 'D' then some (.category .digit ascii true)
  else if c == 'w' then some (.category .word ascii false)
  else if c == 'W' then some (.category .word ascii true)
  else if c == 's' then some (.category .blank ascii false)
  else if c == 'S' then some (.category .blank ascii true)
  else none

def anchorOf? (ascii : Bool) (c : CodePoint) : Option Anchor :=
  if c == 'A' then some .textStart
  else if c == 'Z' then some .textEnd
  else if c == 'b' then some (.wordEdge ascii)
  else if c == 'B' then some (.notWordEdge ascii)
  else none

/-- Any other escaped code point stands for itself, unless it is a letter or digit of ASCII. -/
def literalOf? (c : CodePoint) : Option CodePoint :=
  (controlOf? c).or (if c.isLetter || c.isDigit then none else some c)

def isDigitOf (base : Nat) (c : CodePoint) : Bool :=
  c.digitValue?.any (· < base)

def readHexadecimal (count : Nat) : Reader CodePoint := do
  let ds ← Reader.takeWhile (isDigitOf 16) count
  guard (ds.length = count)
  CodePoint.ofNat? (Numeral.value 16 ds)

def readOctal (ds : Text) : Reader CodePoint := do
  let n := Numeral.value 8 ds
  guard (n ≤ 0o377)
  CodePoint.ofNat? n

/-- What an escape stands for that is no digit, no category and no anchor. -/
def readEscaped (c : CodePoint) : Reader CodePoint := do
  if c == 'x' then readHexadecimal 2
  else if c == 'u' then readHexadecimal 4
  else if c == 'U' then readHexadecimal 8
  else literalOf? c

/-- A member of a set, read from its first token. Behind a backslash, `b` is a backspace. -/
def readMember (ascii : Bool) (t : Token) : Reader Member := do
  if !t.escaped then return .one t.c
  if t.c == 'b' then return .one '\x08'
  match categoryOf? ascii t.c with
  | some m => return m
  | none =>
    if isDigitOf 8 t.c then
      return .one (← readOctal (t.c :: (← Reader.takeWhile (isDigitOf 8) 2)))
    else return .one (← readEscaped t.c)

/-- The members of a set up to its closing bracket. A bracket that comes first is a member, and so
is a hyphen that comes last. -/
def readMembers (ascii : Bool) : Nat → List Member → Reader (List Member)
  | 0, _ => failure
  | fuel + 1, members => do
    let t ← Reader.take
    if t == ⟨false, ']'⟩ && !members.isEmpty then return members
    let first ← readMember ascii t
    if !(← Reader.accept '-') then return ← readMembers ascii fuel (members ++ [first])
    let u ← Reader.take
    if u == ⟨false, ']'⟩ then return members ++ [first, .one '-']
    match first, ← readMember ascii u with
    | .one low, .one high =>
      guard (low.val ≤ high.val)
      readMembers ascii fuel (members ++ [.range low high])
    | _, _ => failure

def Node.one (casing : Casing) (c : CodePoint) : Node :=
  .set casing ⟨false, [.one c]⟩

def readReference (casing : Casing) (index : Nat) : Reader Node := do
  guard ((← get).closed.lookup index).isSome
  Reader.checkBehind index
  return .reference casing index

/-- What digits behind a backslash stand for outside of sets. Three octal digits, or a zero and what
octal digits follow it, give a code point; one or two other digits refer to a group. -/
def readNumber (casing : Casing) (c : CodePoint) : Reader Node := do
  if c == '0' then
    return .one casing (← readOctal (c :: (← Reader.takeWhile (isDigitOf 8) 2)))
  let second ← Reader.takeWhile CodePoint.isDigit 1
  let third ← if second.isEmpty || !(c :: second).all (isDigitOf 8) then pure []
    else Reader.takeWhile (isDigitOf 8) 1
  if third.isEmpty then readReference casing (Numeral.value 10 (c :: second))
  else return .one casing (← readOctal (c :: second ++ third))

def readEscape (mode : Mode) (c : CodePoint) : Reader Node := do
  match categoryOf? mode.ascii c with
  | some m => return .set mode.casing ⟨false, [m]⟩
  | none =>
    if c.isDigit then readNumber mode.casing c else return .one mode.casing (← readEscaped c)

/-- The bounds of a repetition between braces. Anything else between braces stands for itself, and
nothing is taken. -/
def readBounds? : Reader (Option (Nat × Option Nat)) := do
  let start ← get
  let least ← Reader.takeAll CodePoint.isDigit
  let most ← if ← Reader.accept ',' then Reader.takeAll CodePoint.isDigit else pure least
  if start.rest.head? == some (CodePoint.ofChar '\x7d') || !(← Reader.accept '\x7d') then
    set start
    return none
  let bound := if most.isEmpty then none else some (Numeral.value 10 most)
  let low := Numeral.value 10 least
  guard (bound.all (low ≤ ·))
  return some (low, bound)

def readRepetition? (t : Token) : Reader (Option (Nat × Option Nat)) := do
  if t == ⟨false, '*'⟩ then return some (0, none)
  if t == ⟨false, '+'⟩ then return some (1, none)
  if t == ⟨false, '?'⟩ then return some (0, some 1)
  if t == ⟨false, '\x7b'⟩ then readBounds? else return none

/-- A part of a sequence. Anchors and repetitions may not be repeated. -/
structure Item where
  node : Node
  repeatable : Bool

/-- An item with the repetition that follows it: greedy, lazy, or without a way back. -/
def readRepeated (item : Item) (least : Nat) (most : Option Nat) : Reader Item := do
  guard item.repeatable
  if ← Reader.accept '?' then return ⟨.repetition item.node least most false, false⟩
  let repetition := Node.repetition item.node least most true
  return ⟨if ← Reader.accept '+' then .atomic repetition else repetition, false⟩

/-- Items in a row, of which the last one is given first. -/
def Node.ofItems (items : List Item) : Node :=
  items.foldl (fun rest item => .seq item.node rest) .empty

def skipLine : Nat → Reader Unit
  | 0 => return ()
  | fuel + 1 => do
    match ← Reader.take? with
    | some t => if t == ⟨false, '\n'⟩ then return () else skipLine fuel
    | none => return ()

def Token.isBlank (t : Token) : Bool :=
  !t.escaped && (t.c.isWithin 0x09 0x0D || t.c == ' ')

def isName : Text → Bool
  | [] => false
  | c :: cs => c.isIdentifierStart && cs.all CodePoint.isIdentifierPart

def readName (last : CodePoint) : Reader Text := do
  let name ← Reader.takeUntil last ((← get).rest.length + 1)
  guard (isName name)
  return name

def readCondition : Reader Nat := do
  let asked ← Reader.takeUntil ')' ((← get).rest.length + 1)
  let index ← if isName asked then (← get).names.lookup asked
    else if asked.all CodePoint.isDigit then pure (Numeral.value 10 asked)
    else failure
  guard (0 < index)
  Reader.checkBehind index
  modify fun s => { s with asked := index :: s.asked }
  return index

/-- Flags that hold within a group: those that are turned on, and behind a hyphen those that are
turned off. -/
def readFlags (mode : Mode) : Reader Mode := do
  let on ← Reader.takeAll CodePoint.isLetter
  let turned ← mode.turnAll true on
  guard !(on.contains 'a' && on.contains 'u')
  if !on.isEmpty && (← Reader.accept ':') then return turned
  Reader.expect '-'
  let off ← Reader.takeAll CodePoint.isLetter
  guard !(off.isEmpty || off.any on.contains)
  Reader.expect ':'
  turned.turnAll false off

/-- Flags that hold for the whole pattern. They come first, but for what stands for nothing. -/
def readGlobalFlags : Nat → Text → Mode → Reader Mode
  | 0, _, mode => return mode
  | fuel + 1, on, mode => do
    let start ← get
    match ← Reader.take? with
    | none => return mode
    | some t =>
      if mode.verbose && t.isBlank then readGlobalFlags fuel on mode
      else if mode.verbose && t == ⟨false, '#'⟩ then
        skipLine fuel
        readGlobalFlags fuel on mode
      else if t == ⟨false, '('⟩ && (← Reader.accept '?') then
        if ← Reader.accept '#' then
          let _ ← Reader.takeUntil ')' fuel
          readGlobalFlags fuel on mode
        else
          let more ← Reader.takeAll CodePoint.isLetter
          if more.isEmpty || !(← Reader.accept ')') then
            set start
            return mode
          guard !((on ++ more).contains 'a' && (on ++ more).contains 'u')
          readGlobalFlags fuel (on ++ more) (← mode.turnAll true more)
      else
        set start
        return mode

def readItem (mode : Mode) (t : Token) : Reader Item := do
  let place (a : Anchor) : Item := ⟨.anchor a, false⟩
  if t.escaped then
    match anchorOf? mode.ascii t.c with
    | some a => return place a
    | none => return ⟨← readEscape mode t.c, true⟩
  else if t.c == '.' then return ⟨.any mode.dotAll, true⟩
  else if t.c == '^' then return place (if mode.multiline then .lineStart else .textStart)
  else if t.c == '$' then return place (if mode.multiline then .lineEnd else .lastLineEnd)
  else if t.c == '[' then
    let negated ← Reader.accept '^'
    let members ← readMembers mode.ascii ((← get).rest.length + 1) []
    return ⟨.set mode.casing ⟨negated, members⟩, true⟩
  else return ⟨.one mode.casing t.c, true⟩

def readEnclosed (body : Reader Node) : Reader Node := do
  let node ← body
  Reader.expect ')'
  return node

def readCapture (name : Option Text) (body : Reader Node) : Reader Node := do
  let index ← Reader.openGroup name
  let node ← readEnclosed body
  Reader.closeGroup index node
  return .group index node

/-- An expression that looks back, which has to be of one width. -/
def readBehind (body : Reader Node) : Reader Node := do
  let negated ← Reader.accept '!'
  if !negated then Reader.expect '='
  let outer := (← get).behind
  modify fun s => { s with behind := s.behind.or (some s.opened) }
  let node ← readEnclosed body
  modify fun s => { s with behind := outer }
  let width := node.width (← get).closed
  guard (width.most = some width.least)
  return .behind negated width.least node

def readConditional (sequence : Reader Node) : Reader Node := do
  let index ← readCondition
  let yes ← sequence
  let no ← if ← Reader.accept '|' then sequence else pure .empty
  Reader.expect ')'
  return .conditional index yes no

/-- What stands between parentheses. A comment stands for nothing. -/
def readGroup (mode : Mode) (sequence : Reader Node) (body : Mode → Reader Node) :
    Reader (Option Node) := do
  if !(← Reader.accept '?') then return some (← readCapture none (body mode))
  if ← Reader.accept 'P' then
    if ← Reader.accept '<' then return some (← readCapture (some (← readName '>')) (body mode))
    Reader.expect '='
    let name ← readName ')'
    return some (← readReference mode.casing (← (← get).names.lookup name))
  if ← Reader.accept ':' then return some (← readEnclosed (body mode))
  if ← Reader.accept '#' then
    let _ ← Reader.takeUntil ')' ((← get).rest.length + 1)
    return none
  if ← Reader.accept '=' then return some (.ahead false (← readEnclosed (body mode)))
  if ← Reader.accept '!' then return some (.ahead true (← readEnclosed (body mode)))
  if ← Reader.accept '<' then return some (← readBehind (body mode))
  if ← Reader.accept '(' then return some (← readConditional sequence)
  if ← Reader.accept '>' then return some (.atomic (← readEnclosed (body mode)))
  return some (← readEnclosed (body (← readFlags mode)))

mutual

def readAlternatives (mode : Mode) : Nat → Reader Node
  | 0 => failure
  | fuel + 1 => do
    let left ← readSequence mode fuel []
    if ← Reader.accept '|' then return .alt left (← readAlternatives mode fuel) else return left

/-- A sequence, of which some items have been read, the last one first. -/
def readSequence (mode : Mode) : Nat → List Item → Reader Node
  | 0, _ => failure
  | fuel + 1, items => do
    match ← Reader.peek? with
    | none => return .ofItems items
    | some t =>
      if t == ⟨false, '|'⟩ || t == ⟨false, ')'⟩ then return .ofItems items
      Reader.skip t.length
      if mode.verbose && t.isBlank then readSequence mode fuel items
      else if mode.verbose && t == ⟨false, '#'⟩ then
        skipLine (← get).rest.length
        readSequence mode fuel items
      else if t == ⟨false, '('⟩ then
        match ← readGroup mode (readSequence mode fuel []) fun mode =>
          readAlternatives mode fuel with
        | some node => readSequence mode fuel (⟨node, true⟩ :: items)
        | none => readSequence mode fuel items
      else
        match ← readRepetition? t, items with
        | some _, [] => failure
        | some bounds, item :: items =>
          readSequence mode fuel ((← readRepeated item bounds.1 bounds.2) :: items)
        | none, items => readSequence mode fuel ((← readItem mode t) :: items)

end

def Node.read? (flags : Flags) (pattern : Text) : Option Node := do
  let fuel := 4 * pattern.length + 8
  let reader : Reader Node := do
    let mode ← readGlobalFlags fuel [] { flags with verbose := false, ascii := false }
    readAlternatives mode fuel
  let (node, s) ← reader.run ⟨pattern, 0, [], [], none, []⟩
  guard (s.rest.isEmpty && s.asked.all (· ≤ s.opened))
  return node

end Descent.Regex

namespace Descent

def Regex.read (flags : Regex.Flags) (pattern : Text) : Except Fault Regex :=
  match Regex.Node.read? flags pattern with
  | some node => .ok ⟨pattern, node⟩
  | none => .error .badPattern

end Descent
