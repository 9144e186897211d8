import Descent.Store

/-!
Building parsers from grammars. The parts of a grammar are arguments: whoever asks for a parser has
built all of them, in the order in which the grammar names them, before any of them is required to
be a parser. So it is with the stop of `upTo` and with what `except` leaves out; they are required
to be parsers before the other part is.
-/

namespace Descent.Grammar

mutual

def build : Grammar → Action Store Argument
  | .value v =>
    match v with
    | .text t => return .parser (.string t)
    | v => return .other v
  | .ref name => do
    match (← Action.state).named? name with
    | some a => return a
    | none => Action.raise (.unknownName name)
  | .noting event g => do
    Action.modify (Store.record event)
    build g
  | .faulty e => Action.raise e
  | .char t =>
    match t with
    | [c] => return .parser (.char c)
    | _ => Action.raise .oneCharacterRequired
  | .string t => return .parser (.string t)
  | .regex flags pattern => do return .parser (.regex (← Regex.read flags pattern))
  | .satisfy test label => return .parser (.satisfy test label)
  | .whitespaces => return .parser .whitespaces
  | .succeed v => return .parser (.succeed v)
  | .fail message => return .parser (.fail message)
  | .custom verdict => return .parser (.custom verdict)
  | .seq gs => do
    let arguments ← buildAll gs
    if arguments.isEmpty then Action.raise .parserRequired
    return .parser (.seq (← Argument.toParsers arguments))
  | .alt gs => do
    let arguments ← buildAll gs
    if arguments.isEmpty then Action.raise .parserRequired
    return .parser (.alt (← Argument.toParsers arguments))
  | .copies g count => do
    let a ← build g
    let n ← count
    if n ≤ 0 then Action.raise .parserRequired
    return .parser (.seq (List.replicate n.toNat (← a.toParser)))
  | .map g fn validate => do
    let a ← build g
    return .parser (.map (← a.toParser) fn validate)
  | .many g => do
    let a ← build g
    return .parser (.many (← a.toParser))
  | .many1 g => do
    let a ← build g
    return .parser (.many1 (← a.toParser))
  | .between left right g => do
    let l ← build left
    let r ← build right
    let a ← build g
    let first ← l.toParser
    let middle ← a.toParser
    let last ← r.toParser
    return .parser (.map (.seq [first, middle, last]) (.silent (Value.item 1)) none)
  | .upTo stop g => do
    let s ← build stop
    let a ← build g
    return .parser (.upTo (← s.toParser) (← a.toParser))
  | .not g => do
    let a ← build g
    return .parser (.not (← a.toParser))
  | .except exclusion g => do
    let x ← build exclusion
    let a ← build g
    return .parser (.except (← x.toParser) (← a.toParser))
  | .peek g => do
    let a ← build g
    return .parser (.peek (← a.toParser))
  | .eof g => do
    let a ← build g
    return .parser (.eof (← a.toParser))
  | .sepBy separator item => do
    let s ← build separator
    let a ← build item
    let p ← a.toParser
    return .parser (.sepBy (← s.toParser) p)
  | .andThen g fns => do
    let a ← build g
    let p ← a.toParser
    return .parser (if fns.isEmpty then p else .andThen p fns)
  | .memoize g => do
    let a ← build g
    let p ← a.toParser
    return .parser (.memoize (← Store.newCell) (← Action.state).debug p)
  | .lazy g => do
    return .parser (.lazy (← Store.newCell) g)
  | .named label g => do
    let a ← build g
    let p ← a.toParser
    return .parser (.named label (← Action.state).debug p)
  | .probe event g => do
    let a ← build g
    return .parser (.probe event (← a.toParser))

def buildAll : List Grammar → Action Store (List Argument)
  | [] => return []
  | g :: gs => do
    let a ← build g
    return a :: (← buildAll gs)

end

def parser (g : Grammar) : Action Store Parser := do
  let a ← g.build
  a.toParser

end Descent.Grammar
