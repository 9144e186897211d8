import Descent.Proofs.Parser.Interpretation
import Descent.Proofs.Parser.Fragment

/-!
The meaning of a parser: what it answers when nothing is remembered from one use to the next. It
depends on what the names stand for, and on no store. Main statements: a parser means the same as
its plain form, and more fuel does not change a finished answer.
-/

namespace Descent

namespace Interpretation

/-- Nothing is remembered: a parser that is built late is planned anew at every use. -/
def forgetful (names : Names) (enter : Parser → Matcher Unit) (fuel : Nat) :
    Interpretation Unit where
  fuel := fuel
  label := id
  call f v := Action.ofExcept (f.call v)
  enter g := do return enter (← g.planned names)
  memoize _ _ _ p := p
  lazy _ g := Matcher.thenRun do return enter (← g.planned names)
  named label _ p := Matcher.relabel label p
  probe _ p := p

end Interpretation

namespace Parser

/-- How a parser that is built late is run, out of how any parser is run: with one unit less. -/
def late {σ : Type} (run : Nat → Parser → Matcher σ) : Nat → Parser → Matcher σ
  | 0 => fun _ _ _ => Action.exhausted
  | fuel + 1 => run fuel

theorem run_eq_matcher (fuel : Nat) (p : Parser) :
    p.run fuel = (Interpretation.ofStore (late Parser.run fuel) fuel).matcher p := by
  cases fuel <;> exact runWith_eq_matcher _ _ p

/-- What a parser answers when nothing is remembered. -/
def meaning (names : Names) : Nat → Parser → Matcher Unit
  | 0 => (Interpretation.forgetful names (fun _ _ _ => Action.exhausted) 0).matcher
  | fuel + 1 => (Interpretation.forgetful names (meaning names fuel) (fuel + 1)).matcher

theorem meaning_eq_matcher (names : Names) (fuel : Nat) (p : Parser) :
    p.meaning names fuel =
      (Interpretation.forgetful names (late (meaning names) fuel) fuel).matcher p := by
  cases fuel <;> rfl

end Parser

namespace Interpretation

variable {names : Names} {enter : Parser → Matcher Unit} {fuel : Nat}

theorem forgetful_plain (p : Parser) :
    (forgetful names enter fuel).matcher p.plain = (forgetful names enter fuel).matcher p := by
  induction p using Parser.induction with
  | step p ih =>
      cases p with
      | seq ps | alt ps =>
          have members : (ps.map Parser.plain).map (forgetful names enter fuel).matcher =
              ps.map (forgetful names enter fuel).matcher := by
            rw [List.map_map]
            exact List.map_congr_left ih
          simp only [Parser.plain, Parser.plainAll_eq_map, matcher, matchers_eq_map, members]
      | _ =>
          simp only [Parser.parts, List.mem_cons, List.not_mem_nil, or_false, forall_eq_or_imp,
            forall_eq] at ih
          simp only [Parser.plain, matcher, ih] <;> rfl

end Interpretation

namespace Parser

@[simp] theorem meaning_plain (names : Names) (fuel : Nat) (p : Parser) :
    p.plain.meaning names fuel = p.meaning names fuel := by
  rw [meaning_eq_matcher, meaning_eq_matcher, Interpretation.forgetful_plain]

theorem meaning_memoize (names : Names) (fuel cell : Nat) (trace : Bool) (p : Parser) :
    (memoize cell trace p).meaning names fuel = p.meaning names fuel := by
  cases fuel <;> rfl

end Parser

/-- A class of parsers that is not left when parsers are built late. -/
structure Closed (names : Names) (ok : Parser → Prop) (late : Grammar → Prop) : Prop where
  lazy {cell : Nat} {g : Grammar} : ok (.lazy cell g) → late g
  next {p : Parser} {fns : List (Value → Grammar)} : ok (.andThen p fns) →
    ∀ fn ∈ fns, ∀ v, late (fn v)
  planned {g : Grammar} : late g → Ensures (Parser.All ok) (g.planned names)

theorem Closed.everything (names : Names) : Closed names (fun _ => True) fun _ => True where
  lazy _ := True.intro
  next _ _ _ _ := True.intro
  planned _ p _ := Parser.all_true p

theorem Closed.fragment {names : Names} {test : Grammar → Prop}
    (known : names.All (Argument.Passes test)) :
    Closed names (Parser.Passes test) (Grammar.All test) where
  lazy allowed := allowed
  next allowed := allowed
  planned all := Grammar.planned_passes known all

section

variable {src dst : Text} {A : Alignment src dst} {names : Names} {ok : Parser → Prop}
  {late : Grammar → Prop}

theorem enter_corresponds (closed : Closed names ok late) {enter enter' : Parser → Matcher Unit}
    (alike : ∀ p, p.All ok → Matcher.Corresponds .refinement A (enter p) fun _ => enter' p)
    {g : Grammar} (allowed : late g) :
    Matcher.Corresponds .refinement A (Matcher.thenRun do return enter (← g.planned names))
      fun _ => Matcher.thenRun do return enter' (← g.planned names) := by
  intro i j place
  have planned : Agree (fun p q => p = q ∧ p.All ok) (g.planned names) (g.planned names) := by
    cases equal : g.planned names with
    | error e => exact .error e
    | ok p => exact .ok ⟨rfl, closed.planned allowed p equal⟩
  simp only [Matcher.thenRun, bind_assoc, pure_bind]
  apply Correspondence.refinement.bind (Correspondence.refinement.ofExcept planned)
  intro p _ same
  obtain ⟨rfl, passes⟩ := same
  exact alike p passes i j place

/-- Meanings by different names, with more fuel for the second one. They correspond if what is built
late does. -/
theorem Parser.meanings_correspond {K : Correspondence Unit Unit Unit} {before : Names}
    (closed : Closed names ok late)
    (enter : ∀ {enter enter' : Parser → Matcher Unit},
      (∀ p, p.All ok → Matcher.Corresponds K A (enter p) fun _ => enter' p) →
      ∀ {g : Grammar}, late g →
        Matcher.Corresponds K A (Matcher.thenRun do return enter (← g.planned before))
          fun _ => Matcher.thenRun do return enter' (← g.planned names))
    (regex : ∀ {r}, ok (.regex r) →
      Matcher.Corresponds K A (Matcher.regex r) fun _ => Matcher.regex r)
    (custom : ∀ {verdict}, ok (.custom verdict) →
      Matcher.Corresponds K A (Matcher.custom verdict) fun _ => Matcher.custom verdict)
    {m n : Nat} (more : m ≤ n) {p : Parser} (all : p.All ok) :
    Matcher.Corresponds K A (p.meaning before m) fun _ => p.meaning names n := by
  induction m using Nat.strongRecOn generalizing n p with
  | ind m ih =>
      have alike : ∀ p, p.All ok →
          Matcher.Corresponds K A (Parser.late (Parser.meaning before) m p)
            fun _ => Parser.late (Parser.meaning names) n p := by
        intro p passes i j place
        cases m with
        | zero => exact K.exhausted _
        | succ m =>
            obtain ⟨n, rfl⟩ : ∃ k, n = k + 1 := ⟨n - 1, by omega⟩
            exact ih m (Nat.lt_succ_self m) (Nat.le_of_succ_le_succ more) passes i j place
      simp only [Parser.meaning_eq_matcher]
      refine Interpretation.Corresponds.matcher ?_ all
      exact {
        fuel := fun _ => more
        label := fun text => ⟨text, fun _ => rfl, A.alike_single text⟩
        call := fun f v => K.ofExcept (agree_eq_iff.mpr rfl)
        regex := regex
        custom := custom
        enter := fun allowed fn member v => enter alike (closed.next allowed fn member v)
        memoize := fun _ inner => inner
        lazy := fun allowed => enter alike (closed.lazy allowed)
        named := fun label _ _ _ inner => Matcher.relabel_corresponds label inner
        probe := fun _ _ _ inner => inner }

/-- What a parser means at aligned places, with more fuel for the second one: whenever the first
ends, the second ends alike. -/
theorem Parser.meaning_corresponds (closed : Closed names ok late)
    (regex : ∀ {r}, ok (.regex r) →
      Matcher.Corresponds .refinement A (Matcher.regex r) fun _ => Matcher.regex r)
    (custom : ∀ {verdict}, ok (.custom verdict) →
      Matcher.Corresponds .refinement A (Matcher.custom verdict) fun _ => Matcher.custom verdict)
    {m n : Nat} (more : m ≤ n) {p : Parser} (all : p.All ok) :
    Matcher.Corresponds .refinement A (p.meaning names m) fun _ => p.meaning names n :=
  Parser.meanings_correspond closed (enter_corresponds closed) regex custom more all

end

theorem Parser.meaning_mono {names : Names} {p : Parser} {src : Text} {pos : Int} {m n : Nat}
    (more : m ≤ n) {x : Except Fault Outcome}
    (ended : (p.meaning names m src pos).run () = some (x, ())) :
    (p.meaning names n src pos).run () = some (x, ()) := by
  obtain ⟨y, other, agree⟩ := Parser.meaning_corresponds (A := .identity src) (.everything names)
    (fun _ => Matcher.regex_corresponds_identity _) (fun _ => Matcher.custom_corresponds_identity _)
      more
    p.all_true pos pos rfl x ended
  obtain rfl : x = y := Alignment.agree_identity_iff.mp agree
  exact other

namespace Parser

/-- What a parser comes to at a position, given enough fuel. -/
def Means (names : Names) (src : Text) (p : Parser) (pos : Int) (x : Except Fault Outcome) : Prop :=
  ∃ fuel, (p.meaning names fuel src pos).run () = some (x, ())

theorem Means.unique {names : Names} {src : Text} {p : Parser} {pos : Int}
    {x y : Except Fault Outcome} (first : p.Means names src pos x)
    (second : p.Means names src pos y) : x = y := by
  obtain ⟨m, first⟩ := first
  obtain ⟨n, second⟩ := second
  have left := meaning_mono (Nat.le_max_left m n) first
  have right := meaning_mono (Nat.le_max_right m n) second
  rw [left] at right
  cases right
  rfl

end Parser

namespace Grammar

/-- What a grammar means: it is planned, and what it is planned to be means so. -/
def meaning (names : Names) (fuel : Nat) (g : Grammar) : Matcher Unit :=
  Matcher.thenRun do return (← g.planned names).meaning names fuel

/-- What a grammar comes to at a position, given enough fuel. -/
def Means (names : Names) (src : Text) (g : Grammar) (pos : Int) (x : Except Fault Outcome) :
    Prop :=
  ∃ fuel, (g.meaning names fuel src pos).run () = some (x, ())

variable {names : Names} {src : Text} {g : Grammar} {pos : Int} {x y : Except Fault Outcome}

theorem meaning_of_planned {p : Parser} (planned : g.planned names = .ok p) (fuel : Nat) :
    g.meaning names fuel = p.meaning names fuel := by
  funext src pos
  simp only [meaning, Matcher.thenRun, planned]
  rfl

theorem meaning_of_fault {e : Fault} (planned : g.planned names = .error e) (fuel : Nat) :
    g.meaning names fuel = fun _ _ => Action.raise e := by
  funext src pos
  simp only [meaning, Matcher.thenRun, planned]
  rfl

theorem means_iff_of_planned {p : Parser} (planned : g.planned names = .ok p) :
    g.Means names src pos x ↔ p.Means names src pos x := by
  simp only [Means, Parser.Means, meaning_of_planned planned]

theorem means_iff_of_fault {e : Fault} (planned : g.planned names = .error e) :
    g.Means names src pos x ↔ x = .error e := by
  simp only [Means, meaning_of_fault planned, Action.run_raise]
  constructor
  · intro ended
    obtain ⟨_, equal⟩ := ended
    cases equal
    rfl
  · intro same
    subst same
    exact ⟨0, rfl⟩

theorem means_ok_iff {r : Outcome} : g.Means names src pos (.ok r) ↔
    ∃ p, g.planned names = .ok p ∧ p.Means names src pos (.ok r) := by
  cases planned : g.planned names with
  | error e => simp [means_iff_of_fault planned]
  | ok p => simp [means_iff_of_planned planned]

theorem Means.unique (first : g.Means names src pos x) (second : g.Means names src pos y) :
    x = y := by
  cases planned : g.planned names with
  | error e =>
      rw [means_iff_of_fault planned] at first second
      rw [first, second]
  | ok p =>
      rw [means_iff_of_planned planned] at first second
      exact first.unique second

theorem Means.corresponds {dst : Text} {A : Alignment src dst} {ok : Parser → Prop}
    {late : Grammar → Prop} (closed : Closed names ok late)
    (regex : ∀ {r}, ok (.regex r) →
      Matcher.Corresponds .refinement A (Matcher.regex r) fun _ => Matcher.regex r)
    (custom : ∀ {verdict}, ok (.custom verdict) →
      Matcher.Corresponds .refinement A (Matcher.custom verdict) fun _ => Matcher.custom verdict)
    (allowed : late g) {i j : Int} (place : A.Place i j) (means : g.Means names src i x) :
    ∃ y, g.Means names dst j y ∧ Agree A.Outcomes x y := by
  obtain ⟨fuel, ended⟩ := means
  have alike := enter_corresponds closed
    (fun p passes => Parser.meaning_corresponds closed regex custom (Nat.le_refl fuel) passes)
      allowed
  obtain ⟨y, other, agree⟩ := alike i j place x ended
  exact ⟨y, ⟨fuel, other⟩, agree⟩

end Grammar

end Descent
