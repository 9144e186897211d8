import Descent.Parser.Run

/-!
Sessions: requests one after the other over one store. A fault ends the request that it arises in,
and the next one goes on from there.
-/

namespace Descent

inductive Request where
  | define (name : Text) (g : Grammar)
  | run (g : Grammar) (src : Text) (pos : Int)
  /-- Parses a text from its start, up to its end if `full` is set. -/
  | parse (g : Grammar) (src : Text) (full : Bool)
  | inspect (g : Grammar)
  | setDebug (on : Bool)
  | takeEvents

inductive Answer where
  | defined (name : Text)
  | outcome (r : Outcome)
  | parsed (result : Except ParseError Value)
  | inspected (name? : Option Text)
  | debug (on : Bool)
  | events (events : List Text)

namespace Request

def perform (fuel : Nat) : Request → Action Store Answer
  | .define name g => do
    let a ← g.build
    Action.modify (Store.keepName name a)
    return .defined name
  | .run g src pos => do
    let p ← g.parser
    return .outcome (← p.run fuel src pos)
  | .parse g src full => do
    let p ← g.parser
    return .parsed (← Matcher.parse full (p.run fuel) src)
  | .inspect g => do return .inspected (← g.parser).name?
  | .setDebug on => do
    Action.modify fun s => { s with debug := on }
    return .debug on
  | .takeEvents => do
    let s ← Action.state
    Action.modify fun s => { s with events := [] }
    return .events s.events

/-- Fuel that is ample for grammars of ordinary depth: it grows with the text and with the distance
that a repetition may go before it comes to the text. -/
def fuel : Request → Nat
  | .run _ src pos => 10000 + 8 * (src.length + pos.natAbs)
  | .parse _ src _ => 10000 + 8 * src.length
  | _ => 0

end Request

structure Report where
  answer : Except Fault Answer
  log : List Message

namespace Store

def answer (s : Store) (r : Request) : Option (Report × Store) :=
  ((r.perform r.fuel).run { s with log := [] }).map fun (result, t) => (⟨result, t.log⟩, t)

/-- Answers requests in order. The answer to one whose fuel ran out is missing, and it changes
nothing. -/
def answerAll (s : Store) : List Request → List (Option Report)
  | [] => []
  | r :: rs =>
    match s.answer r with
    | some (report, t) => some report :: t.answerAll rs
    | none => none :: s.answerAll rs

end Store

end Descent
