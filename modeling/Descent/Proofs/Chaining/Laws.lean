import Mathlib.Data.Nat.Digits.Defs
import Descent.Proofs.Contract.Legal
import Descent.Proofs.Parser.Fuel

/-!
Chains whose parsers are built while the chain is run. Main statement: the laws of chains hold of
them as well, the first stage that does not match decides, and a continuation that makes no parser
is a fault when its stage is reached.
-/

namespace Descent

namespace Grammar

theorem parser_andThen (g : Grammar) (fns : List (Value → Grammar)) :
    (Grammar.andThen g fns).parser = do
      let p ← g.parser
      return if fns.isEmpty then p else .andThen p fns := by
  simp only [parser, build, bind_assoc, pure_bind]
  rfl

end Grammar

namespace Parser

/-- What a continuation comes to while a chain is run with fuel. -/
def continuation (fuel : Nat) (fn : Value → Grammar) (v : Value) :
    Action Store (Matcher Store) := do
  return late run fuel (← (fn v).parser)

variable {p : Parser} {fns gs : List (Value → Grammar)} {f fn : Value → Grammar} {src : Text}
  {pos : Int}
  {s t u : Store} {x : Except Fault Outcome} {r : Success}

theorem run_andThen (fuel : Nat) (p : Parser) (fns : List (Value → Grammar)) :
    run fuel (.andThen p fns) = Matcher.andThen (run fuel p) (fns.map (continuation fuel)) := by
  cases fuel <;> rfl

theorem run_andThen_append (fuel : Nat) (p : Parser) (fs gs : List (Value → Grammar)) :
    run fuel (.andThen (.andThen p fs) gs) = run fuel (.andThen p (fs ++ gs)) := by
  rw [run_andThen, run_andThen, run_andThen, List.map_append, Matcher.andThen_append]

/-! A chain behind a continuation may be built with it: that takes one unit of fuel more. -/

theorem continuation_andThen (fuel : Nat) (f : Value → Grammar) (gs : List (Value → Grammar))
    (v : Value) :
    continuation (fuel + 1) (fun v => .andThen (f v) gs) v =
      do return Matcher.andThen (run fuel (← (f v).parser)) (gs.map (continuation fuel)) := by
  have built (q : Parser) : run fuel (if gs.isEmpty then q else .andThen q gs) =
      Matcher.andThen (run fuel q) (gs.map (continuation fuel)) := by
    cases gs with
    | nil => exact (Matcher.andThen_nil _).symm
    | cons g gs => exact run_andThen fuel q (g :: gs)
  simp only [continuation, late, Grammar.parser_andThen, bind_assoc, pure_bind, built]

section

open Correspondence

/-- More fuel for every part of a chain behind a continuation. -/
theorem behind_prolongs {m n : Nat} (more : m ≤ n) {enter enter' : Parser → Matcher Store}
    (first : ∀ q, Matcher.Corresponds (prolonging Store) (.identity src) (enter q)
      fun _ => enter' q)
    (g : Grammar) (gs : List (Value → Grammar)) :
    Matcher.Corresponds (prolonging Store) (.identity src)
      (Matcher.thenRun do return Matcher.andThen (enter (← g.parser)) (gs.map (continuation m)))
      fun _ => Matcher.thenRun do
        return Matcher.andThen (enter' (← g.parser)) (gs.map (continuation n)) := by
  have alike (q : Parser) : Matcher.Corresponds (prolonging Store) (.identity src)
      (Matcher.andThen (enter q) (gs.map (continuation m)))
      fun _ => Matcher.andThen (enter' q) (gs.map (continuation n)) :=
    Matcher.andThen_corresponds (F := continuation m) (G := fun _ => continuation n) (first q)
      fun fn _ v => enter_prolongs (late_prolongs more) (fn v)
  exact enter_prolongs alike g

theorem andThen_prolongs {m n : Nat} (more : m ≤ n) (p : Parser)
    {next next' : Value → Action Store (Matcher Store)}
    (each : ∀ v, Matcher.Corresponds (prolonging Store) (.identity src) (Matcher.thenRun (next v))
      fun _ => Matcher.thenRun (next' v)) :
    Matcher.Corresponds (prolonging Store) (.identity src) (Matcher.andThen (run m p) [next])
      fun _ => Matcher.andThen (run n p) [next'] :=
  Matcher.andThen_corresponds (l := [()]) (F := fun _ => next) (G := fun _ _ => next')
    (run_prolongs more p)
    fun _ _ v => each v

end

theorem ends_andThen_cons : (Parser.andThen p (f :: gs)).Ends src pos s x t ↔
    (Parser.andThen p [fun v => .andThen (f v) gs]).Ends src pos s x t := by
  have unfolded (n : Nat) : run n (.andThen p (f :: gs)) = Matcher.andThen (run n p)
      [fun v => do
        return Matcher.andThen (late run n (← (f v).parser)) (gs.map (continuation n))] := by
    rw [run_andThen, List.map_cons, Matcher.andThen_cons]
    simp only [continuation, bind_assoc, pure_bind]
  have nested (n : Nat) : run (n + 1) (.andThen p [fun v => .andThen (f v) gs]) =
    Matcher.andThen (run (n + 1) p)
      [fun v => do return Matcher.andThen (run n (← (f v).parser)) (gs.map (continuation n))] := by
    rw [run_andThen, List.map_singleton]
    exact congrArg (fun next => Matcher.andThen _ [next]) (funext (continuation_andThen n f gs))
  constructor
  · rintro ⟨n, ended⟩
    rw [unfolded] at ended
    refine ⟨n + 1, ?_⟩
    rw [nested]
    have more : n ≤ n + 1 := Nat.le_succ n
    exact (andThen_prolongs more p fun v =>
      behind_prolongs (Nat.le_refl n) (late_prolongs more) (f v) gs).prolongs ended
  · rintro ⟨n, ended⟩
    have more : n ≤ n + 1 := Nat.le_succ n
    have longer := run_mono more ended
    rw [nested] at longer
    refine ⟨n + 1, ?_⟩
    rw [unfolded]
    exact (andThen_prolongs (Nat.le_refl (n + 1)) p fun v =>
      behind_prolongs more (run_prolongs (Nat.le_refl n)) (f v) gs).prolongs longer

/-- A continuation has not made a parser. -/
theorem ends_andThen_of_fault {e : Fault}
    (matched : (Parser.andThen p fns).Ends src pos s (.ok (.success r)) t)
    (faulty : (fn r.value).parser.run t = some (.error e, u)) (more : List (Value → Grammar)) :
    (Parser.andThen p (fns ++ fn :: more)).Ends src pos s (.error e) u := by
  obtain ⟨fuel, matched⟩ := matched
  refine ⟨fuel, ?_⟩
  rw [run_andThen] at matched ⊢
  rw [List.map_append, List.map_cons, Matcher.andThen_run_matched matched]
  refine Matcher.andThen_run_answered ?_ nofun
  rw [Matcher.thenRun, continuation, bind_assoc, Action.run_bind, faulty]

end Parser

theorem Grammar.parser_run_other {g : Grammar} {w : Value} {t u : Store}
    (built : g.build.run t = some (.ok (.other w), u)) :
    g.parser.run t = (Action.ofExcept (Argument.other w).toParser).run u := by
  rw [parser, Action.run_bind, built]
  rfl

namespace Matcher

/-- The fuel matters only where a chain is built behind a continuation. -/
theorem chaining_laws {σ : Type} (p q : Matcher σ) (f : Value → Action σ (Matcher σ))
    (fs gs : List (Value → Action σ (Matcher σ))) (g : Value → Action σ Value) (v : Value)
    (src : Text) (pos : Int) :
    (andThen (andThen p fs) gs = andThen p (fs ++ gs) ∧
      andThen p (f :: gs) = andThen p [fun v => do return andThen (← f v) gs] ∧
      andThen (succeed v) [f] = thenRun (f v) ∧
      andThen p [fun v => return succeed v] = p ∧
      map p g none = andThen p [fun v => do return succeed (← g v)] ∧
      seq [p, q] = andThen p [fun v => return map q (fun w => return .tuple [v, w]) none]) ∧
    (∀ s x t, (∀ r, x ≠ .ok (.success r)) → (andThen p fs src pos).run s = some (x, t) →
      (andThen p (fs ++ gs) src pos).run s = some (x, t)) ∧
    (∀ s r t x u, (∀ r, x ≠ .ok (.success r)) →
      (andThen p fs src pos).run s = some (.ok (.success r), t) →
      (thenRun (f r.value) src r.pos).run t = some (x, u) →
      (andThen p (fs ++ f :: gs) src pos).run s = some (x, u)) ∧
    (∀ fuel (p : Parser) fs gs,
      Parser.run fuel (.andThen (.andThen p fs) gs) = Parser.run fuel (.andThen p (fs ++ gs))) ∧
    (∀ (p : Parser) (f : Value → Grammar) gs s x t,
      (Parser.andThen p (f :: gs)).Ends src pos s x t ↔
      (Parser.andThen p [fun v => .andThen (f v) gs]).Ends src pos s x t) ∧
    ∀ (p : Parser) fns fn more s r t w u,
      (Parser.andThen p fns).Ends src pos s (.ok (.success r)) t →
      (fn r.value).build.run t = some (.ok (.other w), u) →
      (w.IsShort → ∃ shown, w.describe = .ok shown ∧
        (Parser.andThen p (fns ++ fn :: more)).Ends src pos s (.error (.notAParser shown)) u) ∧
      (¬ w.IsShort →
        (Parser.andThen p (fns ++ fn :: more)).Ends src pos s (.error .badNumber) u) := by
  refine ⟨⟨(andThen_append p fs gs).symm, andThen_cons p f gs, andThen_succeed v f,
    andThen_pure_succeed p, map_eq_andThen p g, seq_eq_andThen p q⟩, ?decided, ?stage,
    Parser.run_andThen_append,
    fun p f gs s x t => Parser.ends_andThen_cons, ?other⟩
  case decided =>
    intro s x t decides answered
    rw [andThen_append]
    exact andThen_run_answered answered decides
  case stage =>
    intro s r t x u decides matched answered
    rw [andThen_run_matched matched]
    exact andThen_run_answered answered decides
  case other =>
    intro p fns fn more s r t w u matched built
    have parser := Grammar.parser_run_other built
    constructor
    · intro short
      obtain ⟨shown, described⟩ := Value.describe_of_isShort short
      refine ⟨shown, described, Parser.ends_andThen_of_fault matched ?_ more⟩
      rw [parser, Argument.toParser, described]
      rfl
    · intro long
      refine Parser.ends_andThen_of_fault matched ?_ more
      rw [parser, Argument.toParser, Value.describe_of_not_isShort long]
      rfl

/-- The second continuation makes a number in the first place, and the parser that the first one
makes fails in the second. -/
theorem chaining_laws_decided :
    (Parser.andThen (.char 'a')
      [fun _ => .char ['b'], fun _ => .value (.int 7), fun _ => .char ['c']]).Ends
        ['a', 'b', 'c'] 0 .empty (.error (.notAParser ['7'])) .empty ∧
      (andThen (char 'a') [fun _ => return char 'b', fun _ => Action.raise .illTyped] ['a', 'x'] 0 :
          Action Unit Outcome).run () =
        some (.ok (.failed (Text.inQuotes ['b']) 1), ()) := by
  let b : Value → Action Unit (Matcher Unit) := fun _ => return char 'b'
  obtain ⟨-, -, -, -, -, other⟩ :=
    chaining_laws (char 'a') (char 'a') b [] [] pure .none ['a', 'b', 'c'] 0
  obtain ⟨-, -, stage, -⟩ :=
    chaining_laws (char 'a') (char 'a') b [] [fun _ => Action.raise .illTyped] pure
    .none ['a', 'x'] 0
  constructor
  · have before : (Parser.andThen (.char 'a') [fun _ => .char ['b']]).Ends ['a', 'b', 'c'] 0 .empty
        (.ok (.matched (.text ['b']) 2)) .empty := ⟨1, rfl⟩
    obtain ⟨short, -⟩ := other (.char 'a') [fun _ => .char ['b']] (fun _ => .value (.int 7))
      [fun _ => .char ['c']] .empty ⟨.text ['b'], 2⟩ .empty (.int 7) .empty before rfl
    obtain ⟨shown, described, ended⟩ :=
      short (show (Numeral.digits 10 7).length ≤ Numeral.digitLimit by decide)
    cases described
    exact ended
  · exact stage () ⟨.text ['a'], 1⟩ () _ () nofun rfl rfl

end Matcher

theorem Numeral.write_of_le {z : Int} (long : 10 ^ digitLimit ≤ z.natAbs) :
    write z = .error .badNumber := by
  refine if_neg fun short => ?_
  have count : (Nat.toDigits 10 z.natAbs).length ≤ digitLimit := by
    rwa [digits, List.length_map] at short
  have small := (Nat.length_toDigits_le_iff (by decide) (by decide)).mp count
  exact absurd long (Nat.not_le.mpr small)

namespace Parser

/-- What has been matched is a number with too many digits to be shown. -/
theorem chain_unshowable :
    let factor : Int := ((10 ^ 2200 : Nat) : Int)
    let factors : Value := .tuple [.int factor, .list [.tuple [.text ['*'], .int factor]]]
    let product : Parser := .map (.succeed factors) (.silent fun v => .int <$> v.foldOperators) none
    (Parser.andThen product [.value]).Ends [] 0 .empty (.error .badNumber) .empty ∧
      ∀ shown t, ¬ (Parser.andThen product [.value]).Ends [] 0 .empty
        (.error (.notAParser shown)) t := by
  intro factor factors product
  have long : 10 ^ Numeral.digitLimit ≤ (factor * factor).natAbs := by
    rw [Int.natAbs_mul, Int.natAbs_natCast, ← pow_add]
    exact pow_le_pow_right₀ (by decide) (by decide)
  have matched : (Parser.andThen product []).Ends [] 0 .empty
      (.ok (.matched (.int (factor * factor)) 0)) .empty :=
    ⟨1, rfl⟩
  have faulty : (Grammar.value (.int (factor * factor))).parser.run .empty =
      some (.error .badNumber, .empty) := by
    rw [Grammar.parser_run_other (w := .int (factor * factor)) rfl, Argument.toParser,
      Value.describe, Numeral.write_of_le long]
    rfl
  have ended : (Parser.andThen product [.value]).Ends [] 0 .empty (.error .badNumber) .empty :=
    ends_andThen_of_fault matched faulty []
  refine ⟨ended, fun shown t other => ?_⟩
  cases (ended.unique other).1

end Parser

end Descent
