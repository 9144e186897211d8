import Descent.Proofs.Chaining.Laws
import Descent.Proofs.Late.Tracing
import Descent.Proofs.Late.Unfolding
import Descent.Proofs.Session.Named

/-!
Parsers that are built late, within a session. Main statement: whatever is requested, the first call
of a factory that makes a parser is the last one, from then on that parser answers, and a name that
stands for such a parser has the answers of its grammar.
-/

namespace Descent

/-! Sessions with a record. -/

def Request.trace (fuel : Nat) : Request → Action Traced Answer
  | .run g src pos => do
    let p ← g.parser.traced
    return .outcome (← p.trace fuel src pos)
  | .parse g src full => do
    let p ← g.parser.traced
    let r ← (if full then Matcher.eof (p.trace fuel) else p.trace fuel) src 0
    (r.conclude src).traced
  | r => (r.perform fuel).traced

theorem Request.perform_traces {base : Owners} (fuel : Nat) (r : Request) :
    Traces base Eq (r.perform fuel) (r.trace fuel) := by
  cases r with
  | run g src pos =>
      refine Traces.parser fun later p _ owned => ?_
      refine Traces.bind (Parser.run_traces owned pos pos rfl) fun r _ related => ?_
      exact .pure (congrArg Answer.outcome (Alignment.outcomes_identity related))
  | parse g src full =>
      rw [perform_parse_eq, Grammar.attempt, bind_assoc]
      refine Traces.parser fun later p _ owned => ?_
      refine Traces.bind (Matcher.eofIf_corresponds full (Parser.run_traces owned) 0 0 rfl)
        fun r _ related => ?_
      rw [Alignment.outcomes_identity related]
      refine .quiet fun s x t ended => ?_
      rw [Outcome.run_conclude] at ended
      cases ended
      rfl
  | define name g =>
      have named (a : Argument) :
          Action.Keeps Store.targets (Action.modify (Store.keepName name a)) :=
        .modify fun _ => rfl
      refine .still (g.build_keeps.targets.bind fun a => (named a).bind fun _ => .pure _) ?_
      intro owners s x t owned performed
      rcases Action.run_bind_eq_some.mp performed with ⟨e, failed, -⟩ | ⟨a, u, built, ended⟩
      · obtain ⟨later, longer, kept, -⟩ := owned.build failed
        exact ⟨later, longer, kept⟩
      · obtain ⟨later, longer, kept, ownedArgument⟩ := owned.build built
        cases ended
        exact ⟨later, longer, kept.keepName name (ownedArgument a rfl)⟩
  | inspect g =>
      refine .still (g.parser_keeps.targets.bind fun _ => .pure _) ?_
      intro owners s x t owned performed
      rcases Action.run_bind_eq_some.mp performed with ⟨e, failed, -⟩ | ⟨p, u, built, ended⟩
      · obtain ⟨later, longer, kept, -⟩ := owned.parser failed
        exact ⟨later, longer, kept⟩
      · obtain ⟨later, longer, kept, -⟩ := owned.parser built
        cases ended
        exact ⟨later, longer, kept⟩
  | setDebug on =>
      refine .quiet (Action.Keeps.bind (.modify ?_) fun _ => .pure _)
      exact fun _ => rfl
  | takeEvents =>
      refine .quiet
        (Action.Keeps.state.bind fun _ => Action.Keeps.bind (.modify ?_) fun _ => .pure _)
      exact fun _ => rfl

namespace Store

inductive Unfolds : Store → List Request → List Use → Store → Prop
  | nil (s : Store) : Unfolds s [] [] s
  | cons {s t u : Store} {r : Request} {rs : List Request} {fuel : Nat} {x : Except Fault Answer}
      {l k : List Use} (answered : (r.perform fuel).run s = some (x, t))
      (traced : (r.trace fuel).run ⟨s, []⟩ = some (x, ⟨t, l⟩)) (rest : Unfolds t rs k u) :
      Unfolds s (r :: rs) (l ++ k) u

variable {s t : Store} {rs : List Request} {uses : List Use} {owners : Owners}

theorem leads_iff_unfolds (owned : s.Owned owners) :
    s.Leads rs t ↔ ∃ uses, s.Unfolds rs uses t := by
  constructor
  · intro leads
    induction leads generalizing owners with
    | nil s => exact ⟨[], .nil s⟩
    | @cons s t u r rs fuel x answered rest ih =>
        obtain ⟨later, y, l, -, kept, agree, -, -, traced⟩ :=
          r.perform_traces fuel owners s (List.prefix_refl _) owned x t answered
        obtain rfl := agree_eq_iff.mp agree
        obtain ⟨k, unfolds⟩ := ih kept
        exact ⟨l ++ k, .cons answered (traced []) unfolds⟩
  · rintro ⟨uses, unfolds⟩
    clear owned
    induction unfolds with
    | nil s => exact .nil s
    | cons answered traced rest ih => exact .cons answered ih

theorem Unfolds.unfolding (unfolds : s.Unfolds rs uses t) (owned : s.Owned owners) :
    ∃ later, t.Owned later ∧ Unfolding s uses t ∧ ∀ u ∈ uses, u.Of later := by
  suffices longer : ∃ later, owners <+: later ∧ t.Owned later ∧ Unfolding s uses t ∧
    ∀ u ∈ uses, u.Of later by
    obtain ⟨later, -, rest⟩ := longer
    exact ⟨later, rest⟩
  induction unfolds generalizing owners with
  | nil s => exact ⟨owners, List.prefix_refl _, owned, .still rfl, List.forall_mem_nil _⟩
  | @cons s t u r rs fuel x l k answered traced rest ih =>
      obtain ⟨later, y, l', longer, kept, -, unfolding, belong, traced'⟩ :=
        r.perform_traces fuel owners s (List.prefix_refl _) owned x t answered
      cases traced.symm.trans (traced' [])
      obtain ⟨last, further, kept, onward, belong'⟩ := ih kept
      refine ⟨last, longer.trans further, kept, unfolding.append onward,
        List.forall_mem_append.mpr ⟨?_, belong'⟩⟩
      exact fun v member => (belong v member).mono further

end Store

theorem Parser.trace_lazy {cell : Nat} {g : Grammar} {n : Nat} {src : Text} {pos : Int}
    {w v : Traced} {x : Except Fault Outcome}
    (ran : ((Parser.lazy cell g).trace n src pos).run w = some (x, v)) :
    ∃ inside, v.uses = w.uses ++
      ⟨cell, g.parser, Parser.late Parser.run n, src, pos, w.store, x, v.store⟩ :: inside := by
  rw [trace_eq_matcher] at ran
  obtain ⟨⟨y, t⟩, -, ended⟩ := Option.map_eq_some_iff.mp ran
  cases ended
  exact ⟨_, rfl⟩

structure Request.BuiltLate (rs : List Request) (t : Store) : Prop where
  recorded : ∃ uses, Store.empty.Unfolds rs uses t
  /-- What is on record are uses of grammars, with some fuel or other, and each cell has one
  grammar. -/
  unfolding {uses : List Use} : Store.empty.Unfolds rs uses t → Unfolding .empty uses t ∧
    ∀ cell, ∃ g : Grammar, ∀ u ∈ uses, u.cell = cell →
      u.factory = g.parser ∧ ∃ n, u.enter = Parser.late Parser.run n
  builtOnce {uses : List Use} (cell : Nat) : Store.empty.Unfolds rs uses t → BuiltOnce cell uses t
  asked {name : Text} {cell : Nat} {g : Grammar} {src : Text} {pos : Int} {n : Nat}
    {x : Except Fault Answer}
    {u : Store} {uses : List Use} : t.named? name = some (.parser (.lazy cell g)) →
    ((Request.run (.ref name) src pos).trace n).run ⟨t, []⟩ = some (x, ⟨u, uses⟩) →
    ∃ y inside, x = y.map Answer.outcome ∧
      uses = ⟨cell, g.parser, Parser.late Parser.run n, src, pos, t, y, u⟩ :: inside
  apart {g : Grammar} {cell : Nat} {u : Store} {uses : List Use} : Store.empty.Unfolds rs uses t →
    (Grammar.lazy g).build.run t = some (.ok (.parser (.lazy cell g)), u) → ∀ v ∈ uses,
      v.cell ≠ cell

theorem Request.builtLate {rs : List Request} {t : Store} (leads : Store.empty.Leads rs t) :
    Request.BuiltLate rs t where
  recorded := (Store.leads_iff_unfolds .empty).mp leads
  unfolding {uses} unfolds := by
    obtain ⟨owners, -, unfolding, belong⟩ := unfolds.unfolding .empty
    refine ⟨unfolding, fun cell => ?_⟩
    by_cases used : ∃ u ∈ uses, u.cell = cell
    · obtain ⟨u, member, rfl⟩ := used
      obtain ⟨g, -, owner, -⟩ := belong u member
      refine ⟨g, fun v member same => ?_⟩
      obtain ⟨h, n, owner', factory, enter⟩ := belong v member
      rw [same, owner] at owner'
      cases owner'
      exact ⟨factory, n, enter⟩
    · exact ⟨.whitespaces, fun u member same => absurd ⟨u, member, same⟩ used⟩
  builtOnce cell unfolds := by
    obtain ⟨owners, -, unfolding, -⟩ := unfolds.unfolding .empty
    exact unfolding.builtOnce rfl
  asked {name cell g src pos n x u uses} named ran := by
    rw [Request.trace, Action.run_bind, Action.run_traced (Grammar.parser_ref named) []] at ran
    rcases Action.run_bind_eq_some.mp ran with ⟨e, failed, rfl⟩ | ⟨r, w, answered, ended⟩
    · obtain ⟨inside, uses⟩ := Parser.trace_lazy failed
      exact ⟨.error e, inside, rfl, uses⟩
    · obtain ⟨inside, uses⟩ := Parser.trace_lazy answered
      cases ended
      exact ⟨.ok r, inside, rfl, uses⟩
  apart {g cell u uses} unfolds built v member same := by
    obtain ⟨owners, owned, -, belong⟩ := unfolds.unfolding .empty
    obtain ⟨h, n, owner, -⟩ := belong v member
    have taken := (List.getElem?_eq_some_iff.mp owner).1
    rw [← owned.nextCell] at taken
    cases built
    omega

namespace Grammar

/-- What a factory comes to, from what building comes to. A value that is no parser is shown, unless
there are too many digits in it. -/
theorem parser_run {g : Grammar} {s t : Store} {x : Except Fault Argument}
    (built : g.build.run s = some (x, t)) :
    (∀ e, x = .error e → g.parser.run s = some (.error e, t)) ∧
    (∀ p, x = .ok (.parser p) → g.parser.run s = some (.ok p, t)) ∧
    ∀ w, x = .ok (.other w) →
      (w.IsShort → ∃ shown, w.describe = .ok shown ∧
        g.parser.run s = some (.error (.notAParser shown), t)) ∧
      (¬ w.IsShort → g.parser.run s = some (.error .badNumber, t)) := by
  refine ⟨fun e equal => ?_, fun p equal => ?_, fun w equal => ?_⟩
  · rw [parser, Action.run_bind, built, equal]
  · rw [parser, Action.run_bind, built, equal]
    rfl
  · rw [equal] at built
    rw [parser_run_other built, Argument.toParser]
    constructor
    · intro short
      obtain ⟨shown, described⟩ := Value.describe_of_isShort short
      rw [described]
      exact ⟨shown, rfl, rfl⟩
    · intro long
      rw [Value.describe_of_not_isShort long]
      rfl

end Grammar

namespace Store

private def recursive : Grammar :=
  .alt [.seq [.char ['a'], .ref ['x']], .char ['b']]

/-- The factory gives what a second name stands for: nothing, a number, a grammar that uses the
parser itself, and something else when it is too late. -/
private def attempts : List Request := [
  .define ['x'] (.lazy (.ref ['q'])), .run (.ref ['x']) ['a', 'b'] 0,
  .define ['q'] (.value (.int 7)), .run (.ref ['x']) ['a', 'b'] 0,
  .define ['q'] recursive, .run (.ref ['x']) ['a', 'b'] 0,
  .define ['q'] (.char ['c']), .run (.ref ['x']) ['b'] 0]

private def shared : Grammar :=
  .alt [.seq [.char ['a'], .ref ['x']], .ref ['d']]

/-- On the text `ab`, `shared` is used together with a memoized parser, while another memoized
parser is used on other texts. -/
private def mixed : List Request := [
  .define ['m'] (.memoize (.char ['c'])), .run (.ref ['m']) ['c'] 0,
  .define ['d'] (.memoize (.char ['b'])), .run (.ref ['d']) ['a', 'b'] 1,
  .define ['x'] (.lazy shared), .run (.ref ['x']) ['a', 'b'] 0, .run (.ref ['m']) ['c', 'c'] 1]

private def afterMixed : Store :=
  (empty.performAll 9 mixed).getD empty

private def ofShared : Scope where
  cells cell := cell = 1 ∨ cell = 2
  names name := name = ['x'] ∨ name = ['d']
  outcomes := True

private theorem char_inside (scope : Scope) (c : CodePoint) :
    (Parser.char c).All (Parser.Inside scope) :=
  .intro True.intro (List.forall_mem_nil _)

private theorem shared_inside : (Parser.lazy 2 shared).All (Parser.Inside ofShared) :=
  .intro ⟨.inr rfl, by simp [shared, Scope.Allows, ofShared, CodePoint.ofChar]⟩
    (List.forall_mem_nil _)

private theorem memoize_inside :
    (Parser.memoize 1 false (.char 'b')).All (Parser.Inside ofShared) :=
  .intro (.inl rfl) (List.forall_mem_singleton.mpr (char_inside _ _))

private theorem closedIn_ofShared : afterMixed.ClosedIn ofShared where
  targets {cell q} here found := by
    have first : (Parser.seq [.char 'a', .lazy 2 shared]).All (Parser.Inside ofShared) :=
      .intro True.intro (List.forall_mem_cons.mpr
        ⟨char_inside _ _, List.forall_mem_singleton.mpr shared_inside⟩)
    rcases here with rfl | rfl
    · have missing : afterMixed.target? 1 = none := rfl
      cases missing.symm.trans found
    · have kept : afterMixed.target? 2 =
          some (.alt [.seq [.char 'a', .lazy 2 shared], .memoize 1 false (.char 'b')]) := rfl
      cases kept.symm.trans found
      exact .intro True.intro
        (List.forall_mem_cons.mpr ⟨first, List.forall_mem_singleton.mpr memoize_inside⟩)
  named {name q} here found := by
    rcases here with rfl | rfl
    · have known : afterMixed.named? ['x'] = some (.parser (.lazy 2 shared)) := rfl
      cases known.symm.trans found
      exact shared_inside
    · have known : afterMixed.named? ['d'] = some (.parser (.memoize 1 false (.char 'b'))) := rfl
      cases known.symm.trans found
      exact memoize_inside

private theorem mixed_reserves :
    empty.Reserves ['a', 'b'] (afterMixed.reach (.lazy 2 shared)) mixed afterMixed := by
  have inside {cell : Nat} (reaches : afterMixed.Reaches (.lazy 2 shared) cell) : cell ≠ 0 := by
    rcases closedIn_ofShared.reaches shared_inside reaches with rfl | rfl <;> decide
  have step (r : Request) {s : Store} {x : Except Fault Answer} {t u : Store} {rs : List Request}
      (answered : (r.perform 9).run s = some (x, t)) (outcomes) (defines)
      (rest : t.Reserves ['a', 'b'] (afterMixed.reach (.lazy 2 shared)) rs u) :
      s.Reserves ['a', 'b'] (afterMixed.reach (.lazy 2 shared)) (r :: rs) u :=
    .cons answered outcomes defines rest
  refine step _ rfl (.inr fun _ _ _ => rfl) (fun | _, _, rfl, _ => .inl rfl) ?_
  refine step _ rfl (.inr fun _ reaches _ => outcomeAt?_remember_of_ne (inside reaches)) nofun ?_
  refine step _ rfl (.inr fun _ _ _ => rfl) (fun | _, _, rfl, _ => .inl rfl) ?_
  refine step _ rfl (.inl rfl) nofun ?_
  refine step _ rfl (.inr fun _ _ _ => rfl) (fun | _, _, rfl, _ => .inl rfl) ?_
  refine step _ rfl (.inl rfl) nofun ?_
  exact step _ rfl (.inr fun _ reaches _ => outcomeAt?_remember_of_ne (inside reaches)) nofun
    (.nil _)

/-- A session with a memoized parser that `recursive` does not use. -/
private def unrelated : List Request := [
  .define ['m'] (.memoize (.char ['c'])), .run (.ref ['m']) ['c'] 0,
  .define ['x'] (.lazy recursive), .run (.ref ['x']) ['a', 'b'] 0, .run (.ref ['m']) ['a'] 0]

private def afterUnrelated : Store :=
  (empty.performAll 9 unrelated).getD empty

private theorem leads_unrelated : empty.Leads unrelated afterUnrelated :=
  leads_of_performAll 9 rfl

private theorem named_unrelated :
    afterUnrelated.named? ['x'] = some (.parser (.lazy 1 recursive)) :=
  rfl

private def ofRecursive : Scope where
  cells cell := cell = 1
  names name := name = ['x']
  outcomes := True

private theorem recursive_inside : (Parser.lazy 1 recursive).All (Parser.Inside ofRecursive) :=
  .intro ⟨rfl, by simp [recursive, Scope.Allows, ofRecursive, CodePoint.ofChar]⟩
    (List.forall_mem_nil _)

private theorem closedIn_ofRecursive : afterUnrelated.ClosedIn ofRecursive where
  targets {cell q} here found := by
    obtain rfl : cell = 1 := here
    have kept : afterUnrelated.target? 1 =
        some (.alt [.seq [.char 'a', .lazy 1 recursive], .char 'b']) := rfl
    cases kept.symm.trans found
    have first : (Parser.seq [.char 'a', .lazy 1 recursive]).All (Parser.Inside ofRecursive) :=
      .intro True.intro (List.forall_mem_cons.mpr
        ⟨char_inside _ _, List.forall_mem_singleton.mpr recursive_inside⟩)
    exact .intro True.intro
      (List.forall_mem_cons.mpr ⟨first, List.forall_mem_singleton.mpr (char_inside _ _)⟩)
  named {name q} here found := by
    obtain rfl : name = ['x'] := here
    cases named_unrelated.symm.trans found
    exact recursive_inside

private theorem recursive_unmemoized : ¬ afterUnrelated.Memoizes (.lazy 1 recursive) := by
  rintro ⟨cell, trace, q, uses⟩
  obtain ⟨owners, owned⟩ := leads_unrelated.owned .empty
  have here : (Parser.lazy 1 recursive).All (Parser.Owned owners) := owned.named named_unrelated
  have owner : owners[cell]? = some (.memoize cell trace q) :=
    (Parser.all_iff.mp (owned.dependsOn here uses)).1
  obtain rfl : cell = 1 := closedIn_ofRecursive.reaches recursive_inside ⟨_, uses, rfl⟩
  cases owner.symm.trans (Parser.all_iff.mp here).1

/-- Of any history, and of any session; then what a factory comes to that makes no parser, and the
law of a grammar that refers to itself. For the law, what the parser uses has to be reserved for the
text. If that is not memoized, then the law holds on every text, as long as the names that it refers
to are not defined twice. -/
theorem late_built_once :
    (∀ (cell : Nat) (s t : Store) (uses : List Use), Unfolding s uses t → s.target? cell = none →
      BuiltOnce cell uses t) ∧
    (∀ (rs : List Request) (t : Store), empty.Leads rs t → Request.BuiltLate rs t) ∧
    (∀ (g : Grammar) (s t : Store) (x : Except Fault Argument), g.build.run s = some (x, t) →
      (∀ e, x = .error e → g.parser.run s = some (.error e, t)) ∧
      (∀ p, x = .ok (.parser p) → g.parser.run s = some (.ok p, t)) ∧
      ∀ w, x = .ok (.other w) →
        (w.IsShort → ∃ shown, w.describe = .ok shown ∧
          g.parser.run s = some (.error (.notAParser shown), t)) ∧
        (¬ w.IsShort → g.parser.run s = some (.error .badNumber, t))) ∧
    (∀ (rs : List Request) (u : Store) (name : Text) (cell : Nat) (g : Grammar) (src : Text),
      u.named? name = some (.parser (.lazy cell g)) →
      empty.Reserves src (u.reach (.lazy cell g)) rs u →
      ∀ pos x, u.Answers (.run (.ref name) src pos) x ↔ u.Answers (.run g src pos) x) ∧
    ∀ (rs : List Request) (u : Store) (name : Text) (cell : Nat) (g : Grammar),
      empty.Leads rs u → u.named? name = some (.parser (.lazy cell g)) →
      ¬ u.Memoizes (.lazy cell g) →
      (∀ other, u.Needs (.lazy cell g) other →
        (rs.filterMap Request.defined?).count other ≤ 1) →
      ∀ src pos x, u.Answers (.run (.ref name) src pos) x ↔ u.Answers (.run g src pos) x :=
  ⟨fun _ _ _ _ unfolding fresh => unfolding.builtOnce fresh, fun _ _ => Request.builtLate,
    fun _ _ _ _ => Grammar.parser_run,
    fun _ _ _ _ _ _ named reserves => answers_late_iff named reserves,
    fun _ _ _ _ _ => answers_late_iff_of_unmemoized⟩

theorem late_built_once_attempts :
    (∃ t uses, empty.Unfolds attempts uses t ∧ BuiltOnce 0 uses t ∧ Request.BuiltLate attempts t ∧
      (uses.map fun u => (u.src, u.pos, u.call.map Except.isOk, u.answer.isOk)) =
        ([(['a', 'b'], 0, some false, false), (['a', 'b'], 0, some false, false),
          (['a', 'b'], 0, some true, true), (['a', 'b'], 1, none, true), (['b'], 0, none, true)] :
          List (Text × Int × Option Bool × Bool))) ∧
    (Grammar.value (.int 7)).parser.run .empty = some (.error (.notAParser ['7']), .empty) ∧
    (∃ u, u.named? ['x'] = some (.parser (.lazy 2 shared)) ∧
      empty.Reserves ['a', 'b'] (u.reach (.lazy 2 shared)) mixed u ∧
      ∀ pos x, u.Answers (.run (.ref ['x']) ['a', 'b'] pos) x ↔
        u.Answers (.run shared ['a', 'b'] pos) x) ∧
    ∃ u, empty.Leads unrelated u ∧ u.named? ['x'] = some (.parser (.lazy 1 recursive)) ∧
      ¬ u.Memoizes (.lazy 1 recursive) ∧
      ∀ src pos x, u.Answers (.run (.ref ['x']) src pos) x ↔
        u.Answers (.run recursive src pos) x := by
  have step (r : Request) (s : Store) {x : Except Fault Answer} {t u : Store} {rs : List Request}
      {l k : List Use} (answered : (r.perform 9).run s = some (x, t))
      (traced : (r.trace 9).run ⟨s, []⟩ = some (x, ⟨t, l⟩)) (rest : t.Unfolds rs k u) :
      s.Unfolds (r :: rs) (l ++ k) u := .cons answered traced rest
  have unfolds : empty.Unfolds attempts _ _ :=
    step _ _ rfl rfl
      (step _ _ rfl rfl (step _ _ rfl rfl (step _ _ rfl rfl (step _ _ rfl rfl (step _ _ rfl rfl
      (step _ _ rfl rfl (step _ _ rfl rfl (.nil _))))))))
  obtain ⟨alone, sessions, factories, law, everywhere⟩ := late_built_once
  have session := sessions _ _ ((leads_iff_unfolds .empty).mpr ⟨_, unfolds⟩)
  have once := alone 0 _ _ _ (session.unfolding unfolds).1 rfl
  obtain ⟨-, -, other⟩ := factories (.value (.int 7)) .empty .empty (.ok (.other (.int 7))) rfl
  obtain ⟨shown, described, refused⟩ :=
    (other _ rfl).1 (show (Numeral.digits 10 7).length ≤ Numeral.digitLimit by decide)
  cases described
  have single (name : Text) : (unrelated.filterMap Request.defined?).count name ≤ 1 :=
    List.nodup_iff_count_le_one.mp (by decide) name
  exact ⟨⟨_, _, unfolds, once, session, rfl⟩, refused,
    ⟨_, rfl, mixed_reserves, law _ _ _ _ _ _ rfl mixed_reserves⟩,
    _, leads_unrelated, named_unrelated, recursive_unmemoized,
    everywhere _ _ _ _ _ leads_unrelated named_unrelated recursive_unmemoized
      fun name _ => single name⟩

private def entangled : Nat → Action Store Parser
  | 0 => Action.exhausted
  | fuel + 1 => do
    if (← Action.state).events.isEmpty then
      Action.modify (Store.record ['e'])
      let _ ← Matcher.lazy 0 (entangled fuel) (Parser.run 0) ['b'] 0
      return .char 'a'
    return .char 'b'

/-- A number with too many digits is no parser, but it cannot be shown. A factory that uses the
parser it is to make has made two in the end. And what was remembered of one text is the answer of a
parser that was built late on another text, but not of its grammar, which is built again. -/
theorem late_limits :
    (let number := Grammar.value (.int ((10 ^ Numeral.digitLimit : Nat) : Int))
    (Parser.lazy 0 number).Ends [] 0 .empty (.error .badNumber) .empty ∧
      ∀ shown t, ¬ (Parser.lazy 0 number).Ends [] 0 .empty (.error (.notAParser shown)) t) ∧
    (∃ t u, (∀ fuel,
      (Matcher.lazy 0 (entangled (fuel + 1)) (Parser.run 0) ['b'] 0).run (empty.record ['e']) =
        some (.ok (.matched (.text ['b']) 1), t)) ∧ t.target? 0 = some (.char 'b') ∧
      (∀ fuel, (Matcher.lazy 0 (entangled (fuel + 2)) (Parser.run 0) ['a'] 0).run .empty =
        some (.ok (.matched (.text ['a']) 1), u)) ∧ u.target? 0 = some (.char 'a')) ∧
    ∃ s t, empty.Leads [.define ['x'] (.lazy (.memoize recursive))] s ∧
      s.Leads [.run (.ref ['x']) ['b'] 0] t ∧
      t.Answers (.run (.ref ['x']) ['c'] 0) (.ok (.outcome (.matched (.text ['b']) 1))) ∧
      t.Answers (.run (.memoize recursive) ['c'] 0)
        (.ok (.outcome (.failure ⟨[Text.inQuotes ['a'], Text.inQuotes ['b']], 0⟩))) := by
  refine ⟨?_, ⟨_, _, fun fuel => rfl, rfl, fun fuel => rfl, rfl⟩, ?_⟩
  · intro number
    have long : 10 ^ Numeral.digitLimit ≤ ((10 ^ Numeral.digitLimit : Nat) : Int).natAbs :=
      (Int.natAbs_natCast _).ge
    have faulty : number.parser.run .empty = some (.error .badNumber, .empty) := by
      rw [Grammar.parser_run_other (w := .int _) rfl, Argument.toParser, Value.describe,
        Numeral.write_of_le long]
      rfl
    have ended : (Parser.lazy 0 number).Ends [] 0 .empty (.error .badNumber) .empty :=
      ⟨1, Matcher.run_lazy_failed rfl faulty _ _ _⟩
    refine ⟨ended, fun shown t other => ?_⟩
    cases (ended.unique other).1
  · let s := (empty.performAll 0 [.define ['x'] (.lazy (.memoize recursive))]).getD empty
    let t := (s.performAll 5 [.run (.ref ['x']) ['b'] 0]).getD s
    exact ⟨s, t, leads_of_performAll 0 rfl, leads_of_performAll 5 rfl, ⟨5, _, rfl⟩, ⟨5, _, rfl⟩⟩

end Store

end Descent
