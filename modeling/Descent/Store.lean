import Descent.Action
import Descent.Parser.Basic

/-!
The store: everything that parsers remember, and what they have recorded.
-/

namespace Descent

inductive Message where
  | trying (name : Text) (pos : Int)
  | memoHit (name? : Option Text) (pos : Int)
  | parseFailed (reason : Failure)

def Message.text : Message → Text
  | .trying name pos =>
      Text.ofString "trying " ++ name ++ Text.ofString " at " ++ Numeral.decimal pos
  | .memoHit name? pos =>
    Text.ofString "memo hit for " ++ Parser.describeName name? ++ Text.ofString " at " ++
      Numeral.decimal pos
  | .parseFailed reason => Text.ofString "parse failed: " ++ reason.describe

structure Store where
  nextCell : Nat
  /-- Remembered outcomes by cell and position, latest first. -/
  outcomes : List ((Nat × Int) × Outcome)
  /-- Parsers built late, by cell, latest first. -/
  targets : List (Nat × Parser)
  names : List (Text × Argument)
  /-- Whether parsers that are built now will write messages. -/
  debug : Bool
  events : List Text
  log : List Message

namespace Store

def empty : Store :=
  ⟨0, [], [], [], false, [], []⟩

def outcomeAt? (s : Store) (cell : Nat) (pos : Int) : Option Outcome :=
  s.outcomes.lookup (cell, pos)

def remember (cell : Nat) (pos : Int) (r : Outcome) (s : Store) : Store :=
  { s with outcomes := ((cell, pos), r) :: s.outcomes }

def target? (s : Store) (cell : Nat) : Option Parser :=
  s.targets.lookup cell

def keepTarget (cell : Nat) (p : Parser) (s : Store) : Store :=
  { s with targets := (cell, p) :: s.targets }

def named? (s : Store) (name : Text) : Option Argument :=
  s.names.lookup name

def keepName (name : Text) (a : Argument) (s : Store) : Store :=
  { s with names := (name, a) :: s.names }

def record (event : Text) (s : Store) : Store :=
  { s with events := s.events ++ [event] }

def write (m : Message) (s : Store) : Store :=
  { s with log := s.log ++ [m] }

def newCell : Action Store Nat := do
  let s ← Action.state
  Action.modify fun s => { s with nextCell := s.nextCell + 1 }
  return s.nextCell

end Store

def Callback.run {α : Type} (f : Callback α) (v : Value) : Action Store α := do
  match f.event with
  | some event => Action.modify (Store.record event)
  | none => pure ()
  f.call v

end Descent
