import Mathlib.Data.List.TakeWhile
import Descent.Proofs.Matcher.Answering
import Descent.Proofs.Nesting.Choice
import Descent.Proofs.Nesting.Sequence
import Descent.Proofs.Late.Session
import Descent.Proofs.Memoization.History

/-!
A letter in brackets, by a grammar that refers to itself. Main statement: from an empty memory it
accepts the letter in as many brackets as are opened, closed one by one, and what it expects
otherwise is what the innermost brackets lack.
-/

namespace Descent

namespace Brackets

def opening : CodePoint := '('

def closing : CodePoint := ')'

def letter : CodePoint := 'x'

/-- The letter, or brackets around what the name stands for. -/
def body (name : Text) : Grammar :=
  .alt [.between (.value (.text [opening])) (.value (.text [closing])) (.ref name),
    .value (.text [letter])]

def nested (name : Text) : Grammar :=
  .memoize (.lazy (body name))

def around (p : Parser) : Parser :=
  .alt [.map (.seq [.string [opening], p, .string [closing]]) (.silent (Value.item 1)) none,
    .string [letter]]

def parser (name : Text) (cell late : Nat) (trace : Bool) : Parser :=
  .memoize cell trace (.lazy late (body name))

/-- Failing where a bracket would do, or the letter. -/
def lacks (bracket : CodePoint) (pos : Int) : Outcome :=
  .failure ⟨[Text.inQuotes [bracket], Text.inQuotes [letter]], pos⟩

/-- The answer at a position where so many brackets are opened, and what is behind them goes on with
something else. -/
def answer (depth : Nat) (behind : Text) (pos : Nat) : Outcome :=
  if behind.head? = some letter then
    if List.replicate depth closing <+: behind.tail then .matched (.text [letter])
      (pos + (2 * depth + 1) : Nat)
    else lacks closing pos
  else lacks opening pos

/-- What becomes of an answer when brackets are to be closed behind it. -/
def close (src : Text) : Outcome → Outcome
  | .success m => if src.standsAt [closing] m.pos then .matched m.value (m.pos + 1)
    else .failed (Text.inQuotes [closing]) m.pos
  | .failure f => .failure f

/-- What becomes of an answer where the letter would do as well, but does not stand. -/
def orLetter (pos : Int) : Outcome → Outcome
  | .success m => .success m
  | .failure f => .failure ⟨unique (f.expected ++ [Text.inQuotes [letter]]), pos⟩

section

variable {src rest behind : Text} {i depth : Nat} {p : Parser} {s t : Store} {r : Outcome}
  {fuel : Nat}

theorem around_run (fuel : Nat) (p : Parser) : (around p).run fuel = Matcher.alt
    [Matcher.between (Matcher.string [opening]) (Matcher.string [closing]) (p.run fuel),
      Matcher.string [letter]] := by
  have plain (t : Text) : (Parser.string t).run fuel = Matcher.string t := by
    cases fuel <;> rfl
  rw [around, Parser.run_alt, List.map_cons, List.map_cons, Parser.run_between, plain, plain, plain,
    List.map_nil]

/-! One level of brackets. -/

theorem between_run_opened (opened : src.Remains i (opening :: rest))
    (ran : (p.run fuel src (i + 1 : Nat)).run s = some (.ok r, t)) :
    (Matcher.between (Matcher.string [opening]) (Matcher.string [closing])
      (p.run fuel) src i).run s =
      some (.ok (close src r), t) := by
  have first : (Matcher.string [opening] src i).run s =
      some (.ok (.matched (.text [opening]) (i + 1 : Nat)), s) := by
    rw [Matcher.string_matched opened ⟨rest, rfl⟩]
    rfl
  have staged : (Matcher.seq [Matcher.string [opening], p.run fuel, Matcher.string [closing]]
      src i).run s = _ :=
    Matcher.stages_run_matched first
  cases r with
  | failure f =>
      refine Matcher.pick_run_answered ?_ fun _ same => by cases same
      exact staged.trans (Matcher.stages_run_answered ran fun _ same => by cases same)
  | success m =>
      rw [Matcher.stages_run_matched ran, Matcher.stages, Matcher.string] at staged
      rw [close]
      by_cases closed : src.standsAt [closing] m.pos = true
      · rw [if_pos closed] at staged ⊢
        exact Matcher.pick_run_matched staged rfl
      · rw [if_neg closed] at staged ⊢
        exact Matcher.pick_run_answered staged fun _ same => by cases same

theorem alternatives_run_letter (remains : src.Remains i rest) (differs : rest.head? ≠ some letter)
    (labels : List Text) : (Matcher.alternatives src i [Matcher.string [letter]] labels).run t =
      some (.ok (.failure ⟨unique (labels ++ [Text.inQuotes [letter]]), i⟩), t) := by
  have absent : ¬ [letter] <+: rest := by
    rintro ⟨others, rfl⟩
    exact differs rfl
  rw [Matcher.alternatives_failed (Matcher.string_failed remains absent)]
  exact Matcher.alternatives_run_refused
    (List.append_ne_nil_of_right_ne_nil _ (List.cons_ne_nil _ _))

theorem around_run_opened (opened : src.Remains i (opening :: rest))
    (ran : (p.run fuel src (i + 1 : Nat)).run s = some (.ok r, t)) :
    ((around p).run fuel src i).run s = some (.ok (orLetter i (close src r)), t) := by
  have between := between_run_opened opened ran
  rw [around_run, Matcher.alt]
  cases closed : close src r with
  | success m =>
      rw [closed] at between
      exact Matcher.alternatives_run_answered between fun _ same => by cases same
  | failure f =>
      rw [closed] at between
      rw [Matcher.alternatives_run_failed between]
      exact alternatives_run_letter opened (fun same => absurd (Option.some.inj same) (by decide))
        f.expected

theorem around_run_unopened (remains : src.Remains i behind)
    (unopened : behind.head? ≠ some opening) :
    ((around p).run fuel src i).run s = some (.ok (answer 0 behind i), s) := by
  have absent : ¬ [opening] <+: behind := by
    rintro ⟨others, rfl⟩
    exact unopened rfl
  have between :
      Matcher.between (Matcher.string [opening]) (Matcher.string [closing]) (p.run fuel) src i =
      pure (.failed (Text.inQuotes [opening]) i) :=
    Matcher.pick_failed (Matcher.stages_failed (Matcher.string_failed remains absent)) 1
  rw [around_run, Matcher.alt, Matcher.alternatives_failed between, answer]
  by_cases here : behind.head? = some letter
  · obtain ⟨after, rfl⟩ := List.head?_eq_some_iff.mp here
    rw [if_pos here, List.replicate_zero, if_pos List.nil_prefix,
      Matcher.alternatives_matched (Matcher.string_matched remains ⟨after, rfl⟩)]
    rfl
  · rw [if_neg here]
    exact alternatives_run_letter remains here _

theorem close_matched {v : Value} {stop : Int} (closed : src.standsAt [closing] stop = true) :
    close src (.matched v stop) = .matched v (stop + 1) :=
  if_pos closed

theorem close_unclosed {v : Value} {stop : Int} (unclosed : ¬ src.standsAt [closing] stop = true) :
    close src (.matched v stop) = .failed (Text.inQuotes [closing]) stop :=
  if_neg unclosed

theorem orLetter_lacks {bracket : CodePoint}
    (differs : Text.inQuotes [bracket] ≠ Text.inQuotes [letter]) (pos stop : Int) :
    orLetter pos (lacks bracket stop) = lacks bracket pos := by
  have once :
      unique ([Text.inQuotes [bracket], Text.inQuotes [letter]] ++ [Text.inQuotes [letter]]) =
      [Text.inQuotes [bracket], Text.inQuotes [letter]] := by
    simp [unique, differs.symm]
  rw [lacks, orLetter, once, lacks]

theorem answer_succ (opened : src.Remains i (List.replicate (depth + 1) opening ++ behind)) :
    orLetter i (close src (answer depth behind (i + 1))) = answer (depth + 1) behind i := by
  -- The bracket that closes this level is the last one of those that must follow the letter.
  rw [answer, answer]
  by_cases here : behind.head? = some letter
  · rw [if_pos here, if_pos here]
    obtain ⟨after, rfl⟩ := List.head?_eq_some_iff.mp here
    rw [List.tail_cons]
    by_cases stand : List.replicate depth closing <+: after
    · rw [if_pos stand]
      obtain ⟨more, rfl⟩ := stand
      have remains : src.Remains (i + 1 + (2 * depth + 1)) more := by
        have last := (List.append_cons _ letter _ ▸ opened).skip.skip
        simpa [Nat.two_mul, Nat.add_assoc, Nat.add_comm, Nat.add_left_comm] using last
      have further : List.replicate (depth + 1) closing <+: List.replicate depth closing ++ more ↔
          src.standsAt [closing] (i + 1 + (2 * depth + 1) : Nat) = true := by
        rw [List.replicate_succ', List.prefix_append_right_inj, remains.standsAt_iff]
      by_cases closed : src.standsAt [closing] (i + 1 + (2 * depth + 1) : Nat) = true
      · have stop :
            ((i + 1 + (2 * depth + 1) : Nat) : Int) + 1 = (i + (2 * (depth + 1) + 1) : Nat) := by
              omega
        rw [close_matched closed, if_pos (further.mpr closed), stop]
        rfl
      · rw [close_unclosed closed, if_neg (mt further.mp closed)]
        rfl
    · have short : ¬ List.replicate (depth + 1) closing <+: after := fun longer =>
        stand (((List.replicate_succ' (n := depth) (a := closing)) ▸ List.prefix_append _ _).trans
          longer)
      rw [if_neg stand, if_neg short]
      exact orLetter_lacks (by decide) _ _
  · rw [if_neg here, if_neg here]
    exact orLetter_lacks (by decide) _ _

end

/-! All levels. -/

/-- The name stands for the grammar, which is built late if it is built yet, and of which nothing is
remembered from a position on. -/
structure Ready (name : Text) (cell late : Nat) (trace : Bool) (i : Nat) (s : Store) : Prop where
  named : s.named? name = some (.parser (parser name cell late trace))
  built : ∀ p, s.target? late = some p → p = around (parser name cell late trace)
  fresh : ∀ pos : Int, i ≤ pos → s.outcomeAt? cell pos = none

variable {name src behind : Text} {cell late i depth fuel : Nat} {trace : Bool} {s : Store}

theorem parser_body {p : Parser} (named : s.named? name = some (.parser p)) :
    (body name).parser.run s = some (.ok (around p), s) := by
  simp only [Grammar.parser, body, Grammar.build, Grammar.buildAll, bind_assoc, pure_bind,
    Action.run_bind, Action.run_state, named]
  rfl

/-- Nothing is remembered yet when the body is run. -/
theorem Ready.enter (ready : Ready name cell late trace i s) (src : Text) (fuel : Nat) :
    ∃ u, Ready name cell late trace (i + 1) u ∧
      ((parser name cell late trace).run (fuel + 1) src i).run s =
      (((around (parser name cell late trace)).run fuel src i).run u).map
        fun (x, t) => (x, t.rememberAnswer cell i x) := by
  have later {u : Store} (names : u.names = s.names) (outcomes : u.outcomes = s.outcomes)
      (built : ∀ p, u.target? late = some p → p = around (parser name cell late trace)) :
      Ready name cell late trace (i + 1) u := {
    named := by simpa only [Store.named?, names] using ready.named
    built := built
    fresh := fun pos onward => by
      simpa only [Store.outcomeAt?, outcomes] using ready.fresh pos (by omega) }
  have remembering (m : Matcher Store) :
      (Matcher.memoize cell trace (Parser.lazy late (body name)).name? m src i).run s =
        ((m src i).run s).map fun (x, t) => (x, t.rememberAnswer cell i x) :=
    Matcher.run_memoize_missing (ready.fresh i (Int.le_refl _)) m
  have entered : (parser name cell late trace).run (fuel + 1) = Matcher.memoize cell trace
    (Parser.lazy late (body name)).name? (Matcher.lazy late (body name).parser (Parser.run fuel)) :=
      rfl
  rw [entered, remembering]
  cases found : s.target? late with
  | some p =>
      obtain rfl := ready.built p found
      refine ⟨s, later rfl rfl ready.built, ?_⟩
      rw [Matcher.lazy, Action.run_bind, Action.run_state]
      simp only [found]
  | none =>
      refine ⟨s.keepTarget late (around (parser name cell late trace)),
        later rfl rfl fun p kept => ?_, ?_⟩
      · rw [Store.target?_keepTarget, if_pos rfl] at kept
        exact (Option.some.inj kept).symm
      · rw [Matcher.lazy, Action.run_bind, Action.run_state]
        simp only [found, Action.run_bind, parser_body ready.named, Action.run_modify]

theorem parser_run (remains : src.Remains i (List.replicate depth opening ++ behind))
    (unopened : behind.head? ≠ some opening) (enough : depth < fuel)
    (ready : Ready name cell late trace i s) :
    ∃ t, ((parser name cell late trace).run fuel src i).run s =
      some (.ok (answer depth behind i), t) := by
  -- On the brackets. The memory is asked for each position once, on the way in, so it is fresh from
  -- there on.
  induction depth generalizing i s fuel with
  | zero =>
      obtain ⟨fuel, rfl⟩ : ∃ k, fuel = k + 1 := ⟨fuel - 1, by omega⟩
      obtain ⟨u, -, entered⟩ := ready.enter src fuel
      rw [entered, around_run_unopened remains unopened]
      exact ⟨_, rfl⟩
  | succ depth ih =>
      obtain ⟨fuel, rfl⟩ : ∃ k, fuel = k + 1 := ⟨fuel - 1, by omega⟩
      obtain ⟨u, inside, entered⟩ := ready.enter src fuel
      obtain ⟨t, ran⟩ := ih remains.next (Nat.lt_of_succ_lt_succ enough) inside
      rw [entered, around_run_opened remains ran, answer_succ remains]
      exact ⟨_, rfl⟩

def depthOf (src : Text) : Nat :=
  (src.takeWhile (· = opening)).length

theorem remains_depthOf (src : Text) :
    ∃ behind, src.Remains 0 (List.replicate (depthOf src) opening ++ behind) ∧
    behind.head? ≠ some opening ∧ src[depthOf src]? = behind.head? ∧
      src.drop (depthOf src + 1) = behind.tail := by
  have same : src.takeWhile (· = opening) = List.replicate (depthOf src) opening :=
    List.eq_replicate_iff.mpr ⟨rfl, fun c member => by simpa using List.mem_takeWhile_imp member⟩
  have whole : src = List.replicate (depthOf src) opening ++ src.dropWhile (· = opening) := by
    conv => lhs; rw [← List.takeWhile_append_dropWhile (p := (· = opening)) (l := src), same]
  have behind : src.drop (depthOf src) = src.dropWhile (· = opening) :=
    (congrArg (List.drop (depthOf src)) whole).trans (List.drop_left' List.length_replicate)
  refine ⟨src.dropWhile (· = opening), ⟨Nat.zero_le _, whole⟩, fun opens => ?_, ?_, ?_⟩
  · have stopped := List.head?_dropWhile_not (· = opening) src
    rw [opens] at stopped
    simp at stopped
  · rw [← behind, List.head?_drop]
  · rw [← behind, List.tail_drop]

theorem Ready.answers (ready : Ready name cell late trace 0 s) {src behind : Text}
    (remains : src.Remains 0 (List.replicate (depthOf src) opening ++ behind))
    (unopened : behind.head? ≠ some opening) :
    (∀ fuel, depthOf src < fuel → ∃ t, ((Request.run (.ref name) src 0).perform fuel).run s =
        some (.ok (.outcome (answer (depthOf src) behind 0)), t)) ∧
      ∀ x, s.Answers (.run (.ref name) src 0) x ↔
        x = .ok (.outcome (answer (depthOf src) behind 0)) := by
  have performed {fuel : Nat} (enough : depthOf src < fuel) :
      ∃ t, ((Request.run (.ref name) src 0).perform fuel).run s =
        some (.ok (.outcome (answer (depthOf src) behind 0)), t) := by
    obtain ⟨t, ran⟩ := parser_run remains unopened enough ready
    refine ⟨t, ?_⟩
    rw [Request.perform_run_ref ready.named, show (0 : Int) = (0 : Nat) from rfl, ran]
    rfl
  refine ⟨fun fuel => performed, fun x => ⟨fun answered => ?_, fun same => ?_⟩⟩
  · obtain ⟨y, t, ends, rfl⟩ := (Store.answers_ref_iff ready.named).mp answered
    obtain ⟨u, ran⟩ := parser_run remains unopened (Nat.lt_succ_self _) ready
    rw [(ends.unique ⟨_, ran⟩).1]
    rfl
  · obtain ⟨t, ran⟩ := performed (Nat.lt_succ_self _)
    exact ⟨_, t, same ▸ ran⟩

/-- The cells that a definition takes hold nothing yet. -/
theorem define_ready {rs : List Request} (leads : Store.empty.Leads rs s) (name : Text)
    (fuel : Nat) :
    ∃ cell late trace t, ((Request.define name (nested name)).perform fuel).run s =
      some (.ok (.defined name), t) ∧ Ready name cell late trace 0 t := by
  obtain ⟨owners, owned⟩ := leads.owned .empty
  refine ⟨s.nextCell + 1, s.nextCell, s.debug, _, rfl, ?_, fun p kept => ?_, fun pos _ => ?_⟩
  · rw [Store.named?, Store.keepName, List.lookup_cons_self]
    rfl
  · have free : s.target? s.nextCell = none := owned.target?_eq_none (Nat.le_refl _)
    cases free.symm.trans kept
  · exact owned.outcomeAt?_eq_none (Nat.le_succ _) pos

/-- The letter in brackets. After whatever was requested, the grammar can be defined; and as long as
nothing of it is remembered, it has one answer on each text, at any depth. -/
theorem nested_answers :
    (∀ (rs : List Request) (s : Store), Store.empty.Leads rs s → ∀ (name : Text) (fuel : Nat),
      ∃ cell late trace t, ((Request.define name (nested name)).perform fuel).run s =
        some (.ok (.defined name), t) ∧ Ready name cell late trace 0 t) ∧
    ∀ (name : Text) (cell late : Nat) (trace : Bool) (s : Store), Ready name cell late trace 0 s →
      ∀ src : Text,
        let depth := (src.takeWhile (· = opening)).length
        let closed := List.replicate depth closing <+: src.drop (depth + 1)
        ∃ r, (∀ fuel, depth < fuel → ∃ t,
            ((Request.run (.ref name) src 0).perform fuel).run s = some (.ok (.outcome r), t)) ∧
          (∀ x, s.Answers (.run (.ref name) src 0) x ↔ x = .ok (.outcome r)) ∧
          ((∃ m, r = .success m) ↔ src[depth]? = some letter ∧ closed) ∧
          (src[depth]? = some letter ∧ closed → r = .matched (.text ['x']) (2 * depth + 1 : Nat)) ∧
          (src[depth]? ≠ some letter →
            r = .failure ⟨[Text.ofString "'('", Text.ofString "'x'"], 0⟩) ∧
          (src[depth]? = some letter ∧ ¬ closed →
            r = .failure ⟨[Text.ofString "')'", Text.ofString "'x'"], 0⟩) := by
  refine ⟨fun rs s leads => define_ready leads, fun name cell late trace s ready src => ?_⟩
  intro depth closed
  obtain ⟨behind, remains, unopened, first, others⟩ := remains_depthOf src
  obtain ⟨performed, answers⟩ := ready.answers remains unopened
  have here : src[depth]? = some letter ↔ behind.head? = some letter := first ▸ Iff.rfl
  have follow : closed ↔ List.replicate depth closing <+: behind.tail := others ▸ Iff.rfl
  refine ⟨answer depth behind 0, performed, answers, ?_⟩
  rw [Ne, here, follow, answer]
  by_cases stands : behind.head? = some letter
  · rw [if_pos stands]
    by_cases accepted : List.replicate depth closing <+: behind.tail
    · rw [if_pos accepted, Nat.zero_add]
      exact ⟨⟨fun _ => ⟨stands, accepted⟩, fun _ => ⟨_, rfl⟩⟩, fun _ => rfl,
        fun absent => absurd stands absent, fun unclosed => absurd accepted unclosed.2⟩
    · rw [if_neg accepted]
      exact ⟨⟨nofun, fun both => absurd both.2 accepted⟩, fun both => absurd both.2 accepted,
        fun absent => absurd stands absent, fun _ => rfl⟩
  · rw [if_neg stands]
    exact ⟨⟨nofun, fun both => absurd both.1 stands⟩, fun both => absurd both.1 stands,
      fun _ => rfl, fun both => absurd both.1 stands⟩

theorem nested_answers_twice :
    ∃ s, Store.empty.Leads [.define ['n'] (nested ['n'])] s ∧
      (∀ x, s.Answers (.run (.ref ['n']) (Text.ofString "((x))") 0) x ↔
        x = .ok (.outcome (.matched (.text ['x']) 5))) ∧
      (∀ x, s.Answers (.run (.ref ['n']) (Text.ofString "((x)") 0) x ↔
        x = .ok (.outcome (.failure ⟨[Text.ofString "')'", Text.ofString "'x'"], 0⟩))) ∧
      ∀ x, s.Answers (.run (.ref ['n']) (Text.ofString "((") 0) x ↔
        x = .ok (.outcome (.failure ⟨[Text.ofString "'('", Text.ofString "'x'"], 0⟩)) := by
  obtain ⟨define, run⟩ := nested_answers
  obtain ⟨cell, late, trace, s, defined, ready⟩ := define [] .empty (.nil _) ['n'] 0
  refine ⟨s, .cons defined (.nil _), ?_, ?_, ?_⟩
  · obtain ⟨r, -, answers, -, matched, -⟩ := run _ _ _ _ s ready (Text.ofString "((x))")
    exact matched (by decide) ▸ answers
  · obtain ⟨r, -, answers, -, -, -, unclosed⟩ := run _ _ _ _ s ready (Text.ofString "((x)")
    exact unclosed (by decide) ▸ answers
  · obtain ⟨r, -, answers, -, -, absent, -⟩ := run _ _ _ _ s ready (Text.ofString "((")
    exact absent (by decide) ▸ answers

end Brackets

end Descent
