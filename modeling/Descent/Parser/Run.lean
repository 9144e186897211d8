import Descent.Parser.Build
import Descent.Diagnostic
import Descent.Matcher.Choice
import Descent.Matcher.Repetition
import Descent.Matcher.Lookahead
import Descent.Matcher.Chaining

/-!
Running parsers. A parser is run by its structure; fuel is spent where that ends, on entering a
parser that is built while another one runs, and on the rounds of repetitions. What needs more than
any amount of fuel does not end.
-/

namespace Descent

namespace Matcher

/-- Fails under a name of its own unless the failure lies further on. -/
def named (label : Text) (trace : Bool) (p : Matcher Store) : Matcher Store := fun src pos => do
  if trace then Action.modify (Store.write (.trying label pos))
  match ← p src pos with
  | .success r => return .success r
  | .failure f => return if f.pos = pos then .failed label pos else .failure f

/-- Answers from memory if it has answered at the position before, on whatever text. -/
def memoize (cell : Nat) (trace : Bool) (name? : Option Text) (p : Matcher Store) : Matcher Store :=
  fun src pos => do
    match (← Action.state).outcomeAt? cell pos with
    | some r =>
      if trace then Action.modify (Store.write (.memoHit name? pos))
      return r
    | none =>
      let r ← p src pos
      Action.modify (Store.remember cell pos r)
      return r

/-- Uses the parser that was built at the first use, and builds it if there is none yet. A parser
that could not be built is not kept. -/
def lazy (cell : Nat) (factory : Action Store Parser) (run : Parser → Matcher Store) :
    Matcher Store :=
  fun src pos => do
    match (← Action.state).target? cell with
    | some p => run p src pos
    | none =>
      let p ← factory
      Action.modify (Store.keepTarget cell p)
      run p src pos

def probe (event : Text) (p : Matcher Store) : Matcher Store := fun src pos => do
  Action.modify (Store.record (event ++ Text.ofString "@" ++ Numeral.decimal pos))
  p src pos

end Matcher

namespace Parser

mutual

/-- Runs a parser. A repetition goes round at most `fuel` times, and `enter` runs the parsers that
are built late. -/
def runWith (enter : Parser → Matcher Store) (fuel : Nat) : Parser → Matcher Store
  | .char c => Matcher.char c
  | .string t => Matcher.string t
  | .regex r => Matcher.regex r
  | .satisfy test label => Matcher.satisfy label fun c => test.run (.text [c])
  | .whitespaces => Matcher.whitespaces
  | .succeed v => Matcher.succeed v
  | .fail message => Matcher.fail message
  | .custom verdict => Matcher.custom verdict
  | .seq ps => Matcher.seq (runAllWith enter fuel ps)
  | .alt ps => Matcher.alt (runAllWith enter fuel ps)
  | .map p fn validate => Matcher.map (runWith enter fuel p) fn.run (validate.map Callback.run)
  | .many p => Matcher.many fuel (runWith enter fuel p)
  | .many1 p => Matcher.many1 fuel (runWith enter fuel p)
  | .upTo stop p => Matcher.upTo fuel (runWith enter fuel stop) (runWith enter fuel p)
  | .not p => Matcher.not (runWith enter fuel p)
  | .except exclusion p => Matcher.except (runWith enter fuel exclusion) (runWith enter fuel p)
  | .peek p => Matcher.peek (runWith enter fuel p)
  | .eof p => Matcher.eof (runWith enter fuel p)
  | .sepBy separator item =>
      Matcher.sepBy fuel (runWith enter fuel separator) (runWith enter fuel item)
  | .andThen p fns =>
    Matcher.andThen (runWith enter fuel p) (fns.map fun fn v => do return enter (← (fn v).parser))
  | .memoize cell trace p => Matcher.memoize cell trace p.name? (runWith enter fuel p)
  | .lazy cell g => Matcher.lazy cell g.parser enter
  | .named label trace p => Matcher.named label trace (runWith enter fuel p)
  | .probe event p => Matcher.probe event (runWith enter fuel p)

def runAllWith (enter : Parser → Matcher Store) (fuel : Nat) : List Parser → List (Matcher Store)
  | [] => []
  | p :: ps => runWith enter fuel p :: runAllWith enter fuel ps

end

theorem runAllWith_eq_map (enter : Parser → Matcher Store) (fuel : Nat) (ps : List Parser) :
    runAllWith enter fuel ps = ps.map (runWith enter fuel) := by
  induction ps with
  | nil => rfl
  | cons p ps ih => rw [runAllWith, ih, List.map_cons]

/-- Runs a parser with fuel. A parser that is built late gets one unit less. -/
def run : Nat → Parser → Matcher Store
  | 0 => runWith (fun _ _ _ => Action.exhausted) 0
  | fuel + 1 => runWith (run fuel) (fuel + 1)

end Parser

/-- Parses a text from its start, up to its end if `full` is set. A failure is reported, and written
to the log if debugging is on by now. -/
def Matcher.parse (full : Bool) (p : Matcher Store) (src : Text) :
    Action Store (Except ParseError Value) := do
  match ← (if full then Matcher.eof p else p) src 0 with
  | .success r => return .ok r.value
  | .failure f =>
    if (← Action.state).debug then Action.modify (Store.write (.parseFailed f))
    return .error (f.report src)

end Descent
