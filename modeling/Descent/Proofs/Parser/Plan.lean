import Descent.Parser.Build
import Descent.Proofs.Parser.Parts

/-!
What building a grammar comes to when nothing is remembered. A plain parser has no memory of its own
and writes no messages; planning a grammar gives the plain form of the parser that building it
gives.
-/

namespace Descent

namespace Parser

mutual

/-- A parser without its memory and its messages. -/
def plain : Parser → Parser
  | .char c => .char c
  | .string t => .string t
  | .regex r => .regex r
  | .satisfy test label => .satisfy test label
  | .whitespaces => .whitespaces
  | .succeed v => .succeed v
  | .fail message => .fail message
  | .custom verdict => .custom verdict
  | .seq ps => .seq (plainAll ps)
  | .alt ps => .alt (plainAll ps)
  | .map p fn validate => .map (plain p) fn validate
  | .many p => .many (plain p)
  | .many1 p => .many1 (plain p)
  | .upTo stop p => .upTo (plain stop) (plain p)
  | .not p => .not (plain p)
  | .except exclusion p => .except (plain exclusion) (plain p)
  | .peek p => .peek (plain p)
  | .eof p => .eof (plain p)
  | .sepBy separator item => .sepBy (plain separator) (plain item)
  | .andThen p fns => .andThen (plain p) fns
  | .memoize _ _ p => plain p
  | .lazy _ g => .lazy 0 g
  | .named label _ p => .named label false (plain p)
  | .probe event p => .probe event (plain p)

def plainAll : List Parser → List Parser
  | [] => []
  | p :: ps => plain p :: plainAll ps

end

theorem plainAll_eq_map (ps : List Parser) : plainAll ps = ps.map plain := by
  induction ps with
  | nil => rfl
  | cons p ps ih => rw [plainAll, ih, List.map_cons]

end Parser

def Argument.plain : Argument → Argument
  | .parser p => .parser p.plain
  | .other v => .other v

/-- What names stand for, as plain parsers. -/
abbrev Names := Text → Option Argument

def Names.All (P : Argument → Prop) (names : Names) : Prop :=
  ∀ name a, names name = some a → P a

namespace Grammar

mutual

/-- What a grammar builds to, in its plain form. -/
def plan (names : Names) : Grammar → Except Fault Argument
  | .value v =>
    match v with
    | .text t => return .parser (.string t)
    | v => return .other v
  | .ref name =>
    match names name with
    | some a => return a
    | none => .error (.unknownName name)
  | .noting _ g => plan names g
  | .faulty e => .error e
  | .char t =>
    match t with
    | [c] => return .parser (.char c)
    | _ => .error .oneCharacterRequired
  | .string t => return .parser (.string t)
  | .regex flags pattern => do return .parser (.regex (← Regex.read flags pattern))
  | .satisfy test label => return .parser (.satisfy test label)
  | .whitespaces => return .parser .whitespaces
  | .succeed v => return .parser (.succeed v)
  | .fail message => return .parser (.fail message)
  | .custom verdict => return .parser (.custom verdict)
  | .seq gs => do
    let arguments ← planAll names gs
    if arguments.isEmpty then .error .parserRequired
    else return .parser (.seq (← Argument.toParsers arguments))
  | .alt gs => do
    let arguments ← planAll names gs
    if arguments.isEmpty then .error .parserRequired
    else return .parser (.alt (← Argument.toParsers arguments))
  | .copies g count => do
    let a ← plan names g
    let n ← count
    if n ≤ 0 then .error .parserRequired
    else return .parser (.seq (List.replicate n.toNat (← a.toParser)))
  | .map g fn validate => do
    let a ← plan names g
    return .parser (.map (← a.toParser) fn validate)
  | .many g => do
    let a ← plan names g
    return .parser (.many (← a.toParser))
  | .many1 g => do
    let a ← plan names g
    return .parser (.many1 (← a.toParser))
  | .between left right g => do
    let l ← plan names left
    let r ← plan names right
    let a ← plan names g
    let first ← l.toParser
    let middle ← a.toParser
    let last ← r.toParser
    return .parser (.map (.seq [first, middle, last]) (.silent (Value.item 1)) none)
  | .upTo stop g => do
    let s ← plan names stop
    let a ← plan names g
    return .parser (.upTo (← s.toParser) (← a.toParser))
  | .not g => do
    let a ← plan names g
    return .parser (.not (← a.toParser))
  | .except exclusion g => do
    let x ← plan names exclusion
    let a ← plan names g
    return .parser (.except (← x.toParser) (← a.toParser))
  | .peek g => do
    let a ← plan names g
    return .parser (.peek (← a.toParser))
  | .eof g => do
    let a ← plan names g
    return .parser (.eof (← a.toParser))
  | .sepBy separator item => do
    let s ← plan names separator
    let a ← plan names item
    let p ← a.toParser
    return .parser (.sepBy (← s.toParser) p)
  | .andThen g fns => do
    let a ← plan names g
    let p ← a.toParser
    return .parser (if fns.isEmpty then p else .andThen p fns)
  | .memoize g => do
    let a ← plan names g
    return .parser (← a.toParser)
  | .lazy g => return .parser (.lazy 0 g)
  | .named label g => do
    let a ← plan names g
    return .parser (.named label false (← a.toParser))
  | .probe event g => do
    let a ← plan names g
    return .parser (.probe event (← a.toParser))

def planAll (names : Names) : List Grammar → Except Fault (List Argument)
  | [] => return []
  | g :: gs => do
    let a ← plan names g
    return a :: (← planAll names gs)

end

def planned (names : Names) (g : Grammar) : Except Fault Parser := do
  let a ← g.plan names
  a.toParser

theorem toParsers_map (ps : List Parser) : Argument.toParsers (ps.map .parser) = .ok ps := by
  induction ps with
  | nil => rfl
  | cons p ps ih =>
      simp only [List.map_cons, Argument.toParsers, Argument.toParser, ih]
      rfl

end Grammar

end Descent
