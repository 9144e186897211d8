import Descent.Session
import Descent.Grammar.General
import Descent.Proofs.Memoization.Transparency
import Descent.Proofs.Position.Bounds
import Descent.Proofs.Position.Translation
import Descent.Proofs.Peg.Session
import Descent.Proofs.Debug.Observer
import Descent.Proofs.Contract.Legal
import Descent.Proofs.Labels.Session
import Descent.Proofs.Quoted.Pieces
import Descent.Proofs.Memoization.Remembering
import Descent.Proofs.Parse.Exact
import Descent.Proofs.Failure.WellFormed
import Descent.Proofs.Diagnostic.Caret
import Descent.Proofs.Diagnostic.Place
import Descent.Proofs.Diagnostic.Window
import Descent.Proofs.Repetition.Laws
import Descent.Proofs.Repetition.Session
import Descent.Proofs.Nesting.Choice
import Descent.Proofs.Nesting.Sequence
import Descent.Proofs.Nesting.Session
import Descent.Proofs.Chaining.Laws
import Descent.Proofs.Lookahead.Laws
import Descent.Proofs.Parser.Unbounded
import Descent.Proofs.Repetition.Ending
import Descent.Proofs.Number.Integer
import Descent.Proofs.Number.Float
import Descent.Proofs.Late.Session
import Descent.Proofs.Brackets.Nested
import Descent.Proofs.Blank.Skipping
import Descent.Proofs.Name.Identifier
import Descent.Proofs.Matcher.Letters
import Descent.Proofs.Failure.FirstSeen
