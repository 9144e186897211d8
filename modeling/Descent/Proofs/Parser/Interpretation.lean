import Descent.Parser.Run
import Descent.Proofs.Parser.Parts
import Descent.Proofs.Correspondence.Matchers

/-!
Parsers over any kind of state. An interpretation says what a parser does that goes beyond matching:
calling functions, remembering, building parsers late and writing messages. Running a parser is one
interpretation of it. Main statement: interpretations that correspond in these points correspond on
every parser.
-/

namespace Descent

/-- What parsers do beyond matching. -/
structure Interpretation (σ : Type) where
  fuel : Nat
  /-- What a test or a failing parser says that it expects, from what it was given to say. -/
  label : Text → Text
  call : {α : Type} → Callback α → Value → Action σ α
  enter : Grammar → Action σ (Matcher σ)
  memoize : Nat → Bool → Option Text → Matcher σ → Matcher σ
  lazy : Nat → Grammar → Matcher σ
  named : Text → Bool → Matcher σ → Matcher σ
  probe : Text → Matcher σ → Matcher σ

namespace Interpretation

variable {σ : Type}

mutual

def matcher (E : Interpretation σ) : Parser → Matcher σ
  | .char c => Matcher.char c
  | .string t => Matcher.string t
  | .regex r => Matcher.regex r
  | .satisfy test label => Matcher.satisfy (E.label label) fun c => E.call test (.text [c])
  | .whitespaces => Matcher.whitespaces
  | .succeed v => Matcher.succeed v
  | .fail message => Matcher.fail (E.label message)
  | .custom verdict => Matcher.custom verdict
  | .seq ps => Matcher.seq (matchers E ps)
  | .alt ps => Matcher.alt (matchers E ps)
  | .map p fn validate => Matcher.map (matcher E p) (E.call fn) (validate.map E.call)
  | .many p => Matcher.many E.fuel (matcher E p)
  | .many1 p => Matcher.many1 E.fuel (matcher E p)
  | .upTo stop p => Matcher.upTo E.fuel (matcher E stop) (matcher E p)
  | .not p => Matcher.not (matcher E p)
  | .except exclusion p => Matcher.except (matcher E exclusion) (matcher E p)
  | .peek p => Matcher.peek (matcher E p)
  | .eof p => Matcher.eof (matcher E p)
  | .sepBy separator item => Matcher.sepBy E.fuel (matcher E separator) (matcher E item)
  | .andThen p fns => Matcher.andThen (matcher E p) (fns.map fun fn v => E.enter (fn v))
  | .memoize cell trace p => E.memoize cell trace p.name? (matcher E p)
  | .lazy cell g => E.lazy cell g
  | .named label trace p => E.named label trace (matcher E p)
  | .probe event p => E.probe event (matcher E p)

def matchers (E : Interpretation σ) : List Parser → List (Matcher σ)
  | [] => []
  | p :: ps => matcher E p :: matchers E ps

end

theorem matchers_eq_map (E : Interpretation σ) (ps : List Parser) :
    E.matchers ps = ps.map E.matcher := by
  induction ps with
  | nil => rfl
  | cons p ps ih => rw [matchers, ih, List.map_cons]

def ofStore (enter : Parser → Matcher Store) (fuel : Nat) : Interpretation Store where
  fuel := fuel
  label := id
  call f v := f.run v
  enter g := do return enter (← g.parser)
  memoize := Matcher.memoize
  lazy cell g := Matcher.lazy cell g.parser enter
  named := Matcher.named
  probe := Matcher.probe

end Interpretation

theorem Parser.runWith_eq_matcher (enter : Parser → Matcher Store) (fuel : Nat) :
    ∀ p, Parser.runWith enter fuel p = (Interpretation.ofStore enter fuel).matcher p := by
  apply Parser.induction
  intro p ih
  cases p with
  | seq ps | alt ps =>
      have members :
          ps.map (runWith enter fuel) = ps.map (Interpretation.ofStore enter fuel).matcher :=
        List.map_congr_left ih
      rw [Parser.runWith, Interpretation.matcher, Parser.runAllWith_eq_map,
        Interpretation.matchers_eq_map, members]
  | _ =>
      simp only [Parser.parts, List.mem_cons, List.not_mem_nil, or_false, forall_eq_or_imp,
        forall_eq] at ih
      simp only [Parser.runWith, Interpretation.matcher, ih] <;> rfl

namespace Interpretation

variable {ι σ τ : Type}

/-- Interpretations that answer alike at aligned places in all that goes beyond matching, for
parsers that pass a test. -/
structure Corresponds (K : Correspondence ι σ τ) {src dst : Text} (A : Alignment src dst)
    (ok : Parser → Prop) (E : Interpretation σ) (F : ι → Interpretation τ) : Prop where
  fuel : ∀ x, E.fuel ≤ (F x).fuel
  label (text : Text) : ∃ other, (∀ x, (F x).label text = other) ∧ A.Alike [E.label text] [other]
  call {α : Type} (f : Callback α) (v : Value) : K.Rel Eq (E.call f v) fun x => (F x).call f v
  regex {r : Regex} : ok (.regex r) →
    Matcher.Corresponds K A (Matcher.regex r) fun _ => Matcher.regex r
  custom {verdict : Text → Int → Except Fault Verdict} : ok (.custom verdict) →
    Matcher.Corresponds K A (Matcher.custom verdict) fun _ => Matcher.custom verdict
  enter {p : Parser} {fns : List (Value → Grammar)} : ok (.andThen p fns) →
    ∀ fn ∈ fns, ∀ v, Matcher.Corresponds K A (Matcher.thenRun (E.enter (fn v)))
      fun x => Matcher.thenRun ((F x).enter (fn v))
  memoize {cell : Nat} {trace : Bool} {p : Parser} : ok (.memoize cell trace p) →
    Matcher.Corresponds K A (E.matcher p) (fun x => (F x).matcher p) →
    Matcher.Corresponds K A (E.memoize cell trace p.name? (E.matcher p))
      fun x => (F x).memoize cell trace p.name? ((F x).matcher p)
  lazy {cell : Nat} {g : Grammar} : ok (.lazy cell g) →
    Matcher.Corresponds K A (E.lazy cell g) fun x => (F x).lazy cell g
  named (label : Text) (trace : Bool) {p : Matcher σ} {q : ι → Matcher τ} :
    Matcher.Corresponds K A p q →
    Matcher.Corresponds K A (E.named label trace p) fun x => (F x).named label trace (q x)
  probe (event : Text) {p : Matcher σ} {q : ι → Matcher τ} : Matcher.Corresponds K A p q →
    Matcher.Corresponds K A (E.probe event p) fun x => (F x).probe event (q x)

variable {K : Correspondence ι σ τ} {src dst : Text} {A : Alignment src dst} {ok : Parser → Prop}
  {E : Interpretation σ} {F : ι → Interpretation τ}

open Matcher in
theorem Corresponds.matcher (related : Corresponds K A ok E F) {p : Parser} (all : p.All ok) :
    Matcher.Corresponds K A (E.matcher p) fun x => (F x).matcher p := by
  induction all with
  | @intro p here _ ih =>
      cases p with
      | char c => exact char_corresponds c
      | string t => exact string_corresponds t
      | regex r => exact related.regex here
      | satisfy test label =>
          obtain ⟨other, same, alike⟩ := related.label label
          simp only [Interpretation.matcher, same]
          exact satisfy_corresponds alike fun c => related.call test (.text [c])
      | whitespaces => exact whitespaces_corresponds
      | succeed v => exact succeed_corresponds v
      | fail message =>
          obtain ⟨other, same, alike⟩ := related.label message
          simp only [Interpretation.matcher, same]
          exact fail_corresponds alike
      | custom verdict => exact related.custom here
      | seq ps =>
          simp only [Interpretation.matcher, matchers_eq_map]
          exact seq_corresponds ih
      | alt ps =>
          simp only [Interpretation.matcher, matchers_eq_map]
          exact alt_corresponds ih
      | map p fn validate =>
          have inner := ih p (by simp [Parser.parts])
          cases validate with
          | none => exact map_none_corresponds inner (related.call fn)
          | some test => exact map_some_corresponds inner (related.call fn) (related.call test)
      | many p => exact many_corresponds (ih p (by simp [Parser.parts])) related.fuel
      | many1 p =>
          have inner := ih p (by simp [Parser.parts])
          exact chain_corresponds inner inner related.fuel
      | upTo stop p =>
          exact upTo_corresponds (ih stop (by simp [Parser.parts])) (ih p (by simp [Parser.parts]))
            related.fuel
      | not p => exact not_corresponds (ih p (by simp [Parser.parts]))
      | except exclusion p =>
          exact except_corresponds (ih exclusion (by simp [Parser.parts]))
            (ih p (by simp [Parser.parts]))
      | peek p => exact peek_corresponds (ih p (by simp [Parser.parts]))
      | eof p => exact eof_corresponds (ih p (by simp [Parser.parts]))
      | sepBy separator item =>
          have inner := ih item (by simp [Parser.parts])
          exact chain_corresponds inner
            (after_corresponds (ih separator (by simp [Parser.parts])) inner) related.fuel
      | andThen p fns =>
          exact andThen_corresponds (ih p (by simp [Parser.parts])) (related.enter here)
      | memoize cell trace p => exact related.memoize here (ih p (by simp [Parser.parts]))
      | lazy cell g => exact related.lazy here
      | named label trace p => exact related.named label trace (ih p (by simp [Parser.parts]))
      | probe event p => exact related.probe event (ih p (by simp [Parser.parts]))

end Interpretation

end Descent
