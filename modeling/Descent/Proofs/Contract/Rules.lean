import Descent.Proofs.Contract.Matchers
import Descent.Proofs.Meaning.Basic
import Descent.Proofs.Parser.Settling

/-!
Contracts of grammars. A grammar meets a specification if what is planned from it means a matcher
that meets it. There is one rule for each way to make a grammar; what a grammar with a continuation,
or one that is lazy, builds late is left to a condition of its rule.
-/

namespace Descent

/-- What contracts of grammars are about: the guarantee, the text, what names stand for when parsers
are built late, and the fuel. -/
structure Setting where
  guarantee : Guarantee
  src : Text
  names : Names
  fuel : Nat

namespace Setting

def enter (C : Setting) : Parser → Matcher Unit :=
  Parser.late (Parser.meaning C.names) C.fuel

def matcher (C : Setting) : Parser → Matcher Unit :=
  (Interpretation.forgetful C.names C.enter C.fuel).matcher

def MeetsMatcher (C : Setting) (S : Spec) (m : Matcher Unit) : Prop :=
  m.Meets C.guarantee C.src S

/-- How a grammar is run that is built late: it is planned, and run at once. -/
def late (C : Setting) (g : Grammar) : Matcher Unit :=
  Matcher.thenRun do return C.enter (← g.planned C.names)

/-- A parser meets a specification. A value that is no parser is never run. -/
def MeetsArgument (C : Setting) (S : Spec) : Argument → Prop
  | .parser p => C.MeetsMatcher S (C.matcher p)
  | .other _ => True

/-- What is planned from a grammar meets a specification. -/
def Meets (C : Setting) (before : Names) (S : Spec) (g : Grammar) : Prop :=
  Ensures (C.MeetsArgument S) (g.plan before)

variable {C : Setting} {before : Names} {S T U : Spec} {g h : Grammar}

theorem matcher_eq (C : Setting) (p : Parser) : p.meaning C.names C.fuel = C.matcher p :=
  Parser.meaning_eq_matcher C.names C.fuel p

theorem MeetsArgument.toParser {a : Argument} (meets : C.MeetsArgument S a) :
    Ensures (fun p => C.MeetsMatcher S (C.matcher p)) a.toParser := by
  cases a with
  | parser p => exact .pure meets
  | other v => exact (Ensures.trivial v.describe).bind fun shown _ => .error _

namespace Meets

private theorem of_part {x : Except Fault Argument} (part : Ensures (C.MeetsArgument T) x)
    {f : Parser → Parser}
    (whole : ∀ p, C.MeetsMatcher T (C.matcher p) → C.MeetsMatcher S (C.matcher (f p))) :
    Ensures (C.MeetsArgument S) (do return .parser (f (← (← x).toParser))) :=
  part.bind fun _ here => here.toParser.bind fun p meets => .pure (whole p meets)

private theorem of_pair {x y : Except Fault Argument} (first : Ensures (C.MeetsArgument T) x)
    (second : Ensures (C.MeetsArgument U) y) {f : Parser → Parser → Parser}
    (whole : ∀ p q, C.MeetsMatcher T (C.matcher p) → C.MeetsMatcher U (C.matcher q) →
      C.MeetsMatcher S (C.matcher (f p q))) :
    Ensures (C.MeetsArgument S) (do
      let a ← x
      let b ← y
      return .parser (f (← a.toParser) (← b.toParser))) :=
  first.bind fun _ one => second.bind fun _ two => one.toParser.bind fun p left =>
    two.toParser.bind fun q right => .pure (whole p q left right)

theorem mono (meets : C.Meets before T g)
    (weaker : ∀ i j v, i ≤ j → j ≤ C.src.length → T i j v → S i j v) :
    C.Meets before S g := by
  refine fun a planned => ?_
  have here := meets a planned
  cases a with
  | parser p => exact here.mono weaker
  | other v => exact True.intro

theorem any (meets : C.Meets before S g) : C.Meets before .any g :=
  meets.mono fun _ _ _ _ _ _ => True.intro

/-- Whatever a grammar matches is a value that it means. -/
theorem means (given : ∀ name a, before name = some a → C.names name = some a)
    (meets : C.Meets before S g) :
    C.Meets before (fun i j v => S i j v ∧ i ≤ C.src.length ∧
      g.Means C.names C.src i (.ok (.matched v j))) g := by
  intro a planned
  have here := meets a planned
  obtain ⟨settled, -⟩ := Grammar.plan_settles given g a planned
  cases a with
  | other v => exact True.intro
  | parser p =>
      have asParser : g.planned C.names = .ok p := by
        rw [Grammar.planned, settled]
        rfl
      intro i inside
      refine C.guarantee.mono (C.guarantee.self (here i inside)) fun r both => ?_
      obtain ⟨outcome, run⟩ := both
      cases outcome with
      | failed nonempty => exact .failed nonempty
      | @matched v j onward within value =>
          have means : p.Means C.names C.src i (.ok (.matched v j)) := by
            refine ⟨C.fuel, ?_⟩
            rw [C.matcher_eq]
            exact run
          exact .matched onward within
            ⟨value, inside, (Grammar.means_iff_of_planned asParser).mpr means⟩

theorem ref {name : Text} (known : ∀ a, before name = some a → C.MeetsArgument S a) :
    C.Meets before S (.ref name) := by
  simp only [Setting.Meets, Grammar.plan]
  cases found : before name with
  | none => exact .error _
  | some a => exact .pure (known a found)

theorem noting (event : Text) (meets : C.Meets before S g) : C.Meets before S (.noting event g) :=
  meets

/-! Grammars that look at the text themselves. -/

theorem string {t : Text} (value : ∀ i : Nat, i ≤ C.src.length → t <+: C.src.drop i →
      S i (i + t.length) (.text t)) : C.Meets before S (.string t) :=
  .pure (Matcher.string_meets value)

theorem text {t : Text} (value : ∀ i : Nat, i ≤ C.src.length → t <+: C.src.drop i →
      S i (i + t.length) (.text t)) : C.Meets before S (.value (.text t)) :=
  .pure (Matcher.string_meets value)

theorem char {t : Text} (value : ∀ i c, C.src[i]? = some c → S i (i + 1) (.text [c])) :
    C.Meets before S (.char t) := by
  simp only [Setting.Meets, Grammar.plan]
  split
  · exact .pure (Matcher.char_meets fun i => value i _)
  · exact .error _

theorem satisfy {test : Callback Bool} {label : Text}
    (tests : ∀ i c, C.src[i]? = some c →
      C.guarantee.Holds (Action.ofExcept (test.call (.text [c])))
        fun passed => passed = true → S i (i + 1) (.text [c])) :
    C.Meets before S (.satisfy test label) :=
  .pure (Matcher.satisfy_meets tests)

theorem regex {flags : Regex.Flags} {pattern : Text}
    (value : ∀ i j : Nat, i ≤ j → j ≤ C.src.length → S i j (.text (C.src.slice i j))) :
    C.Meets before S (.regex flags pattern) :=
  (Ensures.trivial _).bind fun _ _ => .pure (Matcher.regex_meets value)

theorem whitespaces
    (value : ∀ i j : Nat, i ≤ j → j ≤ C.src.length → S i j (.text (C.src.slice i j))) :
    C.Meets before S .whitespaces :=
  .pure (Matcher.whitespaces_meets value)

theorem succeed {v : Value} (value : ∀ i, S i i v) : C.Meets before S (.succeed v) :=
  .pure (Matcher.succeed_meets value)

theorem fail (message : Text) : C.Meets before S (.fail message) :=
  .pure (Matcher.fail_meets message)

/-! Sequences and choices. -/

private theorem planAll_meets {Ss : List Spec} {gs : List Grammar}
    (members : List.Forall₂ (C.Meets before) Ss gs) :
    Ensures (fun as => List.Forall₂ C.MeetsArgument Ss as) (Grammar.planAll before gs) := by
  induction members with
  | nil => exact .pure .nil
  | cons here _ ih => exact here.bind fun a first => ih.bind fun as rest => .pure (.cons first rest)

private theorem toParsers_meets {Ss : List Spec} {as : List Argument}
    (members : List.Forall₂ C.MeetsArgument Ss as) :
    Ensures (fun ps => List.Forall₂ C.MeetsMatcher Ss (ps.map C.matcher))
      (Argument.toParsers as) := by
  induction members with
  | nil => exact .pure .nil
  | cons here _ ih =>
      exact here.toParser.bind fun p first => ih.bind fun ps rest => .pure (.cons first rest)

theorem seq {Ss : List Spec} {gs : List Grammar} (members : List.Forall₂ (C.Meets before) Ss gs) :
    C.Meets before (.tuple C.src Ss) (.seq gs) := by
  refine (planAll_meets members).bind fun as each => ?_
  split
  · exact .error _
  · refine (toParsers_meets each).bind fun ps parts => .pure ?_
    simp only [MeetsArgument, Setting.matcher, Interpretation.matcher,
      Interpretation.matchers_eq_map]
    exact Matcher.seq_meets parts

private theorem of_members {gs : List Grammar} (members : ∀ g ∈ gs, C.Meets before S g)
    {f : List Parser → Parser}
    (whole : ∀ ps, ps ≠ [] → (∀ p ∈ ps, C.MeetsMatcher S (C.matcher p)) →
      C.MeetsMatcher T (C.matcher (f ps))) :
    Ensures (C.MeetsArgument T) (do
      let arguments ← Grammar.planAll before gs
      if arguments.isEmpty then .error .parserRequired
      else return .parser (f (← Argument.toParsers arguments))) := by
  refine (Grammar.planAll_ensures members).bind fun as each => ?_
  split
  · exact .error _
  · rename_i some
    have parts := (Argument.toParsers_length as).and
      (Argument.toParsers_ensures fun a member => (each a member).toParser)
    refine parts.bind fun ps both => .pure (whole ps ?_ both.2)
    rintro rfl
    exact some (List.isEmpty_iff_length_eq_zero.mpr both.1.symm)

private theorem forall_matcher {ps : List Parser}
    (parts : ∀ p ∈ ps, C.MeetsMatcher S (C.matcher p)) :
    ∀ m ∈ ps.map C.matcher, C.MeetsMatcher S m :=
  List.forall_mem_map.mpr parts

theorem row {gs : List Grammar} (members : ∀ g ∈ gs, C.Meets before S g) :
    C.Meets before (.row C.src S) (.seq gs) := by
  refine of_members members fun ps _ parts => ?_
  simp only [Setting.matcher, Interpretation.matcher, Interpretation.matchers_eq_map]
  exact Matcher.row_meets (forall_matcher parts)

theorem copies {count : Except Fault Int} (inner : C.Meets before S g) :
    C.Meets before (.row C.src S) (.copies g count) := by
  refine inner.bind fun a part => (Ensures.trivial count).bind fun n _ => ?_
  split
  · exact .error _
  · refine part.toParser.bind fun p meets => .pure ?_
    simp only [MeetsArgument, Setting.matcher, Interpretation.matcher,
      Interpretation.matchers_eq_map]
    refine Matcher.row_meets (forall_matcher fun q member => ?_)
    obtain rfl := List.eq_of_mem_replicate member
    exact meets

theorem alt {gs : List Grammar} (members : ∀ g ∈ gs, C.Meets before S g) :
    C.Meets before S (.alt gs) := by
  refine of_members members fun ps some parts => ?_
  simp only [Setting.matcher, Interpretation.matcher, Interpretation.matchers_eq_map]
  exact Matcher.alt_meets (forall_matcher parts) (by simpa using some)

/-! Repetition. -/

theorem many (inner : C.Meets before S g) : C.Meets before (.list C.src S) (.many g) :=
  of_part inner fun _ meets => Matcher.many_meets meets C.fuel

theorem many1 (inner : C.Meets before S g) : C.Meets before (.chain C.src S S) (.many1 g) :=
  of_part inner fun _ meets => Matcher.chain_meets meets meets C.fuel

theorem upTo (stop : C.Meets before T h) (inner : C.Meets before S g) :
    C.Meets before (.list C.src S) (.upTo h g) :=
  of_pair stop inner fun _ _ ends meets => Matcher.upTo_meets ends meets C.fuel

theorem sepBy (separator : C.Meets before T h) (item : C.Meets before S g) :
    C.Meets before (.chain C.src S fun i j v => ∃ k, i ≤ k ∧ S k j v) (.sepBy h g) := by
  refine separator.bind fun a between => item.bind fun b inner =>
    inner.toParser.bind fun p meets => between.toParser.bind fun q mark => .pure ?_
  exact Matcher.chain_meets meets
    (Matcher.after_meets mark meets fun i k j v onward here => ⟨k, onward, here⟩) C.fuel

/-! Looking ahead. -/

theorem not (inner : C.Meets before T g)
    (shown : ∀ i j v, T i j v →
      C.guarantee.Holds (Action.ofExcept (Matcher.unwanted v)) fun _ => True)
    (value : ∀ i, S i i .none) : C.Meets before S (.not g) :=
  of_part inner fun _ meets => Matcher.not_meets meets shown value

theorem except (exclusion : C.Meets before T h)
    (shown : ∀ i j v, T i j v →
      C.guarantee.Holds (Action.ofExcept (Matcher.unwanted v)) fun _ => True)
    (inner : C.Meets before S g) : C.Meets before S (.except h g) :=
  of_pair exclusion inner fun _ _ excluded meets => Matcher.except_meets excluded shown meets

theorem peek (inner : C.Meets before T g) (value : ∀ i j v, T i j v → S i i v) :
    C.Meets before S (.peek g) :=
  of_part inner fun _ meets => Matcher.peek_meets meets value

theorem eof (inner : C.Meets before S g) : C.Meets before S (.eof g) :=
  of_part inner fun _ meets => Matcher.eof_meets meets

/-! Functions on what was matched. -/

theorem map (inner : C.Meets before T g) {fn : Callback Value} {validate : Option (Callback Bool)}
    (tests : ∀ test ∈ validate, ∀ i j v, T i j v →
      C.guarantee.Holds (Action.ofExcept (test.call v)) fun _ => True)
    (calls : ∀ i j v, T i j v → (∀ test ∈ validate, test.call v = .ok true) →
      C.guarantee.Holds (Action.ofExcept (fn.call v)) fun w => S i j w) :
    C.Meets before S (.map g fn validate) := by
  refine of_part inner fun p meets => Matcher.map_meets meets ?_ fun i j v here passed => ?_
  · rintro _ member i j v here
    obtain ⟨test, found, rfl⟩ := Option.map_eq_some_iff.mp member
    exact tests test found i j v here
  · refine calls i j v here fun test member => ?_
    have run : (Action.ofExcept (test.call v)).run () = some (.ok true, ()) :=
      passed _ (Option.mem_map_of_mem _ member)
    rw [Action.run_ofExcept] at run
    cases called : test.call v <;> rw [called] at run <;> cases run
    rfl

theorem pick {Ss : List Spec} {gs : List Grammar} (members : List.Forall₂ (C.Meets before) Ss gs)
    (index : Nat) (lt : index < Ss.length)
    (value : ∀ i j vs w, i ≤ j → j ≤ C.src.length → Path C.src Ss i j vs →
      vs[index]? = some w → S i j w) : C.Meets before S (Grammar.pick index (.seq gs)) :=
  of_part (seq members) fun _ meets => Matcher.pick_meets meets index lt value

theorem after {lead : Grammar} (first : C.Meets before T lead) (inner : C.Meets before S g) :
    C.Meets before (fun i j v => ∃ k, i ≤ k ∧ S k j v) (.after lead g) := by
  refine pick (.cons first (.cons inner .nil)) 1 (by simp) fun i j vs w _ _ path member => ?_
  cases path with
  | cons onward _ _ rest =>
      cases rest with
      | cons _ _ here rest =>
          cases rest
          cases member
          exact ⟨_, onward, here⟩

theorem token (inner : C.Meets before S g) :
    C.Meets before (fun i j v => ∃ k, k ≤ j ∧ S i k v) (.token g) := by
  have blanks : C.Meets before (fun _ _ _ => True) .whitespaces :=
    whitespaces fun _ _ _ _ => True.intro
  refine pick (.cons inner (.cons blanks .nil)) 0 (by simp) fun i j vs w _ _ path member => ?_
  cases path with
  | cons _ within here rest =>
      cases member
      exact ⟨_, (rest.bounds within).1, here⟩

theorem between {left right : Grammar} (lead : C.Meets before T left)
    (trail : C.Meets before U right) (inner : C.Meets before S g) :
    C.Meets before (fun i j v => ∃ k l, i ≤ k ∧ k ≤ l ∧ l ≤ j ∧ S k l v)
      (.between left right g) := by
  refine lead.bind fun a one => trail.bind fun b three => inner.bind fun c two => ?_
  refine one.toParser.bind fun p first => two.toParser.bind fun q middle =>
    three.toParser.bind fun r last => .pure ?_
  have members := Matcher.seq_meets (.cons first (.cons middle (.cons last .nil)))
  refine Matcher.pick_meets members 1 (by simp) fun i j vs w _ inside path member => ?_
  cases path with
  | cons before _ _ rest =>
      cases rest with
      | cons onward within here rest =>
          have after := (rest.bounds within).1
          cases member
          exact ⟨_, _, before, onward, after, here⟩

theorem memoize (meets : C.Meets before S g) : C.Meets before S (.memoize g) :=
  of_part meets fun _ meets => meets

theorem named (label : Text) (meets : C.Meets before S g) : C.Meets before S (.named label g) :=
  of_part meets fun _ meets => Matcher.relabel_meets label meets

theorem probe (event : Text) (meets : C.Meets before S g) : C.Meets before S (.probe event g) :=
  of_part meets fun _ meets => meets

/-! What is built late. -/

theorem lazy (late : C.MeetsMatcher S (C.late g)) : C.Meets before S (.lazy g) :=
  .pure late

private theorem plan_andThen (before : Names) (g : Grammar) (fns : List (Value → Grammar)) :
    (Grammar.andThen g fns).plan before = do
      let p ← g.planned before
      return .parser (if fns.isEmpty then p else .andThen p fns) := by
  simp only [Grammar.plan, Grammar.planned, bind_assoc]

private theorem matcher_andThen (p : Parser) (fns : List (Value → Grammar)) :
    C.matcher (if fns.isEmpty then p else .andThen p fns) =
      Matcher.andThen (C.matcher p)
        (fns.map fun fn v => do return C.enter (← (fn v).planned C.names)) := by
  cases fns with
  | nil =>
      funext src pos
      exact (bind_pure (C.matcher p src pos)).symm
  | cons fn fns => rfl

theorem andThen_nil (meets : C.Meets before S g) : C.Meets before S (.andThen g []) :=
  of_part meets fun _ meets => meets

/-- One continuation more: what it makes of the values so far goes on from where they end. -/
theorem andThen_append {fns : List (Value → Grammar)} (start : C.Meets before T (.andThen g fns))
    {fn : Value → Grammar}
    (next : ∀ i k v, k ≤ C.src.length → T i k v →
      C.guarantee.Holds (C.late (fn v) C.src k) (Outcome.Meets C.src (fun _ j w => S i j w) k)) :
    C.Meets before S (.andThen g (fns ++ [fn])) := by
  have first :
      Ensures (fun p => C.MeetsMatcher T (C.matcher (if fns.isEmpty then p else .andThen p fns)))
      (g.planned before) := by
    intro p planned
    refine start (.parser _) ?_
    rw [plan_andThen, planned]
    rfl
  simp only [Setting.Meets, plan_andThen]
  refine first.bind fun p meets => .pure ?_
  rw [matcher_andThen] at meets
  simp only [MeetsArgument, matcher_andThen, List.map_append]
  exact Matcher.andThen_append_meets meets next

end Meets

end Setting

section

variable {G : Guarantee} {src : Text} {names : Names} {S : Spec} {P : Parser → Prop}
  {ok : Grammar → Prop}

theorem Matcher.thenRun_meets {x : Action Unit Parser} (planned : G.Holds x P)
    {enter : Parser → Matcher Unit} (each : ∀ p, P p → Matcher.Meets G src S (enter p)) :
    Matcher.Meets G src S (Matcher.thenRun do return enter (← x)) := by
  intro i inside
  simp only [Matcher.thenRun, bind_assoc, pure_bind]
  exact G.bind planned fun p here => each p here i inside

/-- What is planned from a grammar is what it means. -/
theorem Setting.Meets.meaning {C : Setting} {g : Grammar} (meets : C.Meets C.names S g)
    (planned : ∀ {P}, Ensures P (g.planned C.names) →
      C.guarantee.Holds (Action.ofExcept (g.planned C.names)) P) :
    (g.meaning C.names C.fuel).Meets C.guarantee C.src S := by
  refine Matcher.thenRun_meets (planned (meets.bind fun _ here => here.toParser)) fun p here => ?_
  rw [C.matcher_eq]
  exact here

/-- A value that a grammar comes to is as its contract says. -/
theorem Grammar.Means.meets {g : Grammar} {i : Nat} {j : Int} {v : Value}
    (means : g.Means names src i (.ok (.matched v j))) (inside : i ≤ src.length)
    (contract : ∀ fuel, Setting.Meets ⟨.faulting, src, names, fuel⟩ names S g) :
    ∃ k : Nat, j = k ∧ i ≤ k ∧ k ≤ src.length ∧ S i k v := by
  obtain ⟨fuel, ended⟩ := means
  cases (contract fuel).meaning Guarantee.faulting_ofExcept i inside _ ended with
  | matched onward within value => exact ⟨_, rfl, onward, within, value⟩

/-- What the grammars of a class mean meets a specification if it does so provided that what they
build late does. -/
theorem Grammar.meaning_meets
    (planned : ∀ g, ok g → ∀ {P}, Ensures P (g.planned names) →
      G.Holds (Action.ofExcept (g.planned names)) P)
    (rules : ∀ fuel, (∀ g, ok g → Setting.MeetsMatcher ⟨G, src, names, fuel⟩ S
        (Setting.late ⟨G, src, names, fuel⟩ g)) →
      ∀ g, ok g → Setting.Meets ⟨G, src, names, fuel⟩ names S g)
    (fuel : Nat) {g : Grammar} (allowed : ok g) : (g.meaning names fuel).Meets G src S := by
  induction fuel using Nat.strongRecOn generalizing g with
  | ind fuel ih =>
      have late : ∀ g, ok g → Setting.MeetsMatcher ⟨G, src, names, fuel⟩ S
          (Setting.late ⟨G, src, names, fuel⟩ g) := by
        intro g allowed
        cases fuel with
        | zero =>
            exact Matcher.thenRun_meets (planned g allowed (Ensures.trivial _))
              fun _ _ _ _ => G.exhausted
        | succ fuel => exact ih fuel (Nat.lt_succ_self fuel) allowed
      exact (rules fuel late g allowed).meaning (planned g allowed)

end

end Descent
