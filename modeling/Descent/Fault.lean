import Descent.Text.Basic

/-!
The faults that stop a computation. A fault is not a failure to match: nothing catches it.
-/

namespace Descent

inductive Fault where
  /-- A character parser was asked for with a text that is not one code point long. -/
  | oneCharacterRequired
  | parserRequired
  | expectationRequired
  /-- Something that is no parser stands where one is needed; `shown` describes it. -/
  | notAParser (shown : Text)
  | raised (message : Text)
  /-- A text is not the number that it is read as, or the number has too many digits. -/
  | badNumber
  | outOfRange
  | badPattern
  /-- No parser is remembered under a name. -/
  | unknownName (name : Text)
  | illTyped
  deriving DecidableEq

/-- The text of a fault. The faults of look-ups and of reading numbers and
patterns carry none. -/
def Fault.message? : Fault → Option Text
  | .oneCharacterRequired => some "Exactly one character required."
  | .parserRequired => some "At least one parser required."
  | .expectationRequired => some "At least one expectation required."
  | .notAParser shown =>
      some (Text.ofString "Can't make a parser out of " ++ shown ++ Text.ofString ".")
  | .raised message => some message
  | .badNumber | .outOfRange | .badPattern | .unknownName _ | .illTyped => none

end Descent
