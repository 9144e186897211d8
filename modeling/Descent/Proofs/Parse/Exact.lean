import Descent.Proofs.Conduct.Session
import Descent.Proofs.Position.Bounds

/-!
Parsing a text. Main statement: a parse comes to the value of one run from the start, or to a report
of exactly that run's failure; and if no parser was written by hand, then whatever the report says
about the position is the same and lies within the text.
-/

namespace Descent

attribute [ext] ParseError

/-- An error that reports a failure, and that alone. -/
structure ParseError.Reports (e : ParseError) (src : Text) (f : Failure) : Prop where
  source : e.source = src
  pos : e.pos = f.pos
  expected : e.expected = f.expected
  message : e.message = Text.ofString "expected " ++
    (if f.expected.length = 1 then [] else Text.ofString "one of ") ++
    Text.joinWith (Text.ofString ", ") f.expected ++
    Text.ofString " at position " ++ Numeral.decimal f.pos
  notes : e.notes = [Note.ofPosition src f.pos]

theorem Failure.describe_eq (f : Failure) : f.describe = Text.ofString "expected " ++
    (if f.expected.length = 1 then [] else Text.ofString "one of ") ++
    Text.joinWith (Text.ofString ", ") f.expected ++
    Text.ofString " at position " ++ Numeral.decimal f.pos := by
  obtain ⟨expected, pos⟩ := f
  rcases expected with _ | ⟨label, _ | ⟨other, labels⟩⟩
  · simp [describe]
  · simp [describe, Text.joinWith]
  · simp [describe]

theorem ParseError.reports_iff {e : ParseError} {src : Text} {f : Failure} :
    e.Reports src f ↔ e = f.report src := by
  constructor
  · intro reports
    exact ParseError.ext reports.source reports.pos (reports.message.trans f.describe_eq.symm)
      reports.expected reports.notes
  · intro equal
    subst equal
    exact ⟨rfl, rfl, rfl, f.describe_eq, rfl⟩

/-- What is reported of an outcome that a parse does not accept. -/
inductive Outcome.Refused (full : Bool) (src : Text) : Outcome → Failure → Prop
  | failed (f : Failure) : Refused full src (.failure f) f
  | short {v : Value} {stop : Int} (whole : full = true) (early : stop ≠ src.length) :
      Refused full src (.matched v stop) ⟨[Text.ofString "end of input"], stop⟩

namespace Outcome

/-- The outcome of a run as a parse sees it. -/
def judged (full : Bool) (src : Text) : Outcome → Outcome
  | .success r =>
    if full = true ∧
      r.pos ≠ src.length then .failed (Text.ofString "end of input") r.pos else .success r
  | .failure f => .failure f

variable {full : Bool} {src : Text} {r : Outcome}

theorem judged_eq_matched {v : Value} {stop : Int} :
    r.judged full src = .matched v stop ↔ r = .matched v stop ∧
      (full = true → stop = src.length) := by
  cases r with
  | failure f => exact ⟨nofun, nofun⟩
  | success r =>
      by_cases early : full = true ∧ r.pos ≠ src.length
      · simp only [judged, if_pos early]
        refine ⟨nofun, fun both => ?_⟩
        cases both.1
        exact absurd (both.2 early.1) early.2
      · simp only [judged, if_neg early]
        refine ⟨fun same => ⟨same, ?_⟩, And.left⟩
        cases same
        simpa using early

theorem judged_eq_failure {f : Failure} :
    r.judged full src = .failure f ↔ r.Refused full src f := by
  constructor
  · intro judged
    cases r with
    | failure g =>
        cases judged
        exact .failed f
    | success r =>
        by_cases early : full = true ∧ r.pos ≠ src.length
        · simp only [Outcome.judged, if_pos early] at judged
          cases judged
          exact .short early.1 early.2
        · simp only [Outcome.judged, if_neg early] at judged
          cases judged
  · intro refused
    cases refused with
    | failed f => rfl
    | short whole early => exact if_pos ⟨whole, early⟩

end Outcome

namespace Matcher

/-- A parse runs the parser once, and beyond what that does it writes at most one message. -/
theorem run_parse (full : Bool) (p : Matcher Store) (src : Text) (s : Store) :
    (parse full p src).run s = ((p src 0).run s).map fun (x, t) =>
      match x with
      | .ok r => (.ok ((r.judged full src).parsed src),
          { t with log := t.log ++ (r.judged full src).complaints t.debug })
      | .error e => (.error e, t) := by
  have ended : (if full then eof p else p) src 0 = do return (← p src 0).judged full src := by
    cases full with
    | false =>
        have same : Outcome.judged false src = id := by
          funext r
          cases r <;> rfl
        simp [same]
    | true =>
        refine bind_congr fun r => ?_
        cases r with
        | failure f => rfl
        | success r =>
            by_cases whole : r.pos = src.length
            · simp [Outcome.judged, whole]
            · simp [Outcome.judged, whole]
  have concluded (r : Outcome) (t : Store) :
      (match r with
        | .success r => (pure (.ok r.value) : Action Store (Except ParseError Value))
        | .failure f => do
          if (← Action.state).debug then Action.modify (Store.write (.parseFailed f))
          return .error (f.report src)).run t =
      some (.ok (r.parsed src), { t with log := t.log ++ r.complaints t.debug }) := by
    cases r with
    | success r => simp [Outcome.parsed, Outcome.complaints]
    | failure f =>
        obtain ⟨nextCell, outcomes, targets, names, debug, events, log⟩ := t
        cases debug with
        | false =>
            simp only [Outcome.complaints, Bool.false_eq_true, if_false, List.append_nil]; rfl
        | true => rfl
  rw [parse, ended, bind_assoc, Action.run_bind]
  cases (p src 0).run s with
  | none => rfl
  | some result =>
      obtain ⟨x, t⟩ := result
      cases x with
      | error e => rfl
      | ok r => exact concluded (r.judged full src) t

variable {full : Bool} {p : Matcher Store} {src : Text} {s t : Store}

theorem run_parse_eq_value {v : Value} :
    (parse full p src).run s = some (.ok (.ok v), t) ↔
      ∃ stop, (p src 0).run s = some (.ok (.matched v stop), t) ∧
        (full = true → stop = src.length) := by
  rw [run_parse, Option.map_eq_some_iff]
  constructor
  · rintro ⟨⟨x, u⟩, answered, ended⟩
    cases x with
    | error e => cases ended
    | ok r =>
        dsimp only at ended
        cases judged : r.judged full src with
        | failure f =>
            rw [judged] at ended
            cases ended
        | success m =>
            obtain ⟨rfl, whole⟩ := Outcome.judged_eq_matched.mp judged
            rw [judged] at ended
            simp only [Outcome.complaints, List.append_nil] at ended
            cases ended
            exact ⟨m.pos, answered, whole⟩
  · rintro ⟨stop, answered, whole⟩
    refine ⟨_, answered, ?_⟩
    dsimp only
    rw [Outcome.judged_eq_matched.mpr ⟨rfl, whole⟩]
    simp [Outcome.matched, Outcome.parsed, Outcome.complaints]

theorem run_parse_eq_error {e : ParseError} :
    (parse full p src).run s = some (.ok (.error e), t) ↔
      ∃ r f u, (p src 0).run s = some (.ok r, u) ∧ r.Refused full src f ∧ e.Reports src f ∧
        t = { u with log := u.log ++ if u.debug then [.parseFailed f] else [] } := by
  rw [run_parse, Option.map_eq_some_iff]
  constructor
  · rintro ⟨⟨x, u⟩, answered, ended⟩
    cases x with
    | error e => cases ended
    | ok r =>
        dsimp only at ended
        cases judged : r.judged full src with
        | success m =>
            rw [judged] at ended
            cases ended
        | failure f =>
            rw [judged] at ended
            cases ended
            exact ⟨r, f, u, answered, Outcome.judged_eq_failure.mp judged,
              ParseError.reports_iff.mpr rfl, rfl⟩
  · rintro ⟨r, f, u, answered, refused, reports, rfl⟩
    refine ⟨_, answered, ?_⟩
    dsimp only
    rw [Outcome.judged_eq_failure.mpr refused, ParseError.reports_iff.mp reports]
    rfl

theorem run_parse_eq_fault {fault : Fault} :
    (parse full p src).run s = some (.error fault, t) ↔
      (p src 0).run s = some (.error fault, t) := by
  rw [run_parse, Option.map_eq_some_iff]
  constructor
  · rintro ⟨⟨x, u⟩, answered, ended⟩
    cases x with
    | error e =>
        cases ended
        exact answered
    | ok r => cases ended
  · exact fun failed => ⟨_, failed, rfl⟩

end Matcher

/-! Positions within a text that all runs are about. -/

/-- Runs on one text do not lead out of it, whoever starts them. -/
def Conduct.within (text : Text) : Conduct where
  __ := loose
  Reads src := src = text
  Reaches i j := 0 ≤ i → i ≤ text.length → i ≤ j ∧ j ≤ text.length
  here _ _ inside := ⟨Int.le_refl _, inside⟩
  onward first second nonneg inside := by
    obtain ⟨above, below⟩ := first nonneg inside
    obtain ⟨further, ends⟩ := second (by omega) below
    exact ⟨by omega, ends⟩
  next reads found _ _ := by
    subst reads
    have := Text.lt_length_of_lookAt found
    omega
  skip reads stands nonneg _ := by
    subst reads
    have := Text.add_length_le_of_standsAt nonneg stands
    omega
  find reads found nonneg _ := by
    subst reads
    have bounds := Regex.endOf?_bounds _ (Nat.min_le_right _ _) found
    omega

theorem Grammar.NotCustom.permitted {text : Text} {g : Grammar} (notCustom : g.NotCustom) :
    (Conduct.within text).Permits g := by
  have any {α : Type} (f : Callback α) : (Conduct.within text).Calls f := fun _ _ _ => True.intro
  cases g with
  | custom verdict => exact notCustom.elim
  | satisfy test label => exact any test
  | map g fn validate => exact ⟨any fn, fun test _ => any test⟩
  | copies g count => exact fun _ _ => True.intro
  | _ => exact True.intro

namespace Store

theorem parse_exact (src : Text) (full : Bool) :
    (∀ (p : Matcher Store) (s t : Store),
      (∀ v, (Matcher.parse full p src).run s = some (.ok (.ok v), t) ↔
        ∃ stop, (p src 0).run s = some (.ok (.matched v stop), t) ∧
          (full = true → stop = src.length)) ∧
      (∀ e, (Matcher.parse full p src).run s = some (.ok (.error e), t) ↔
        ∃ r f u, (p src 0).run s = some (.ok r, u) ∧ r.Refused full src f ∧ e.Reports src f ∧
          t = { u with log := u.log ++ if u.debug then [.parseFailed f] else [] }) ∧
      ∀ fault, (Matcher.parse full p src).run s = some (.error fault, t) ↔
        (p src 0).run s = some (.error fault, t)) ∧
    ∀ (rs : List Request) (g : Grammar) (s : Store) (e : ParseError), empty.Leads rs s →
      (∀ r ∈ rs, r.All Grammar.NotCustom ∧ r.Reads (· = src)) → g.All Grammar.NotCustom →
      s.Answers (.parse g src full) (.ok (.parsed (.error e))) →
      0 ≤ e.pos ∧ e.pos ≤ src.length ∧
        ∃ f note, e.Reports src f ∧ e.notes = [note] ∧ f.pos = e.pos ∧ note.pos = e.pos := by
  constructor
  · exact fun p s t => ⟨fun _ => Matcher.run_parse_eq_value, fun _ => Matcher.run_parse_eq_error,
      fun _ => Matcher.run_parse_eq_fault⟩
  · intro rs g s e led each notCustom answers
    have permitted : g.All (Conduct.within src).Permits :=
      notCustom.mono fun _ => Grammar.NotCustom.permitted
    have keeps : ∀ r ∈ rs, r.All (Conduct.within src).Permits ∧ r.Reads (· = src) := by
      intro r member
      exact ⟨(each r member).1.mono fun _ => Grammar.NotCustom.permitted, (each r member).2⟩
    obtain ⟨sound, -⟩ := Conduct.Sound.empty.leads keeps led
    obtain ⟨f, fits, rfl⟩ :=
      (sound.answers (r := .parse g src full) ⟨permitted, rfl⟩ answers).1 _ rfl
    cases fits with
    | failure _ reach =>
        obtain ⟨nonneg, inside⟩ := reach (Int.le_refl 0) (by omega)
        exact ⟨nonneg, inside, f, _, ParseError.reports_iff.mpr rfl, rfl, rfl,
          Int.min_eq_left inside⟩

/-- An `x` in brackets, to any depth. -/
private def enclosed : Grammar :=
  .memoize (.alt [.between (.char ['(']) (.char [')']) (.lazy (.ref ['p'])), .char ['x']])

theorem parse_exact_overlong :
    ∃ s e, empty.Leads [.define ['p'] enclosed, .run (.ref ['p']) ['(', 'x', ')', ')'] 1] s ∧
      s.Answers (.parse (.ref ['p']) ['(', 'x', ')', ')'] true) (.ok (.parsed (.error e))) ∧
      e.message = Text.ofString "expected end of input at position 3" ∧ 0 ≤ e.pos ∧ e.pos ≤ 4 ∧
      ∃ f note, e.Reports ['(', 'x', ')', ')'] f ∧ e.notes = [note] ∧ f.pos = e.pos ∧
        note.pos = e.pos := by
  let s :=
    (empty.performAll 5 [.define ['p'] enclosed, .run (.ref ['p']) ['(', 'x', ')', ')'] 1]).getD
    empty
  have led : empty.Leads [.define ['p'] enclosed, .run (.ref ['p']) ['(', 'x', ')', ')'] 1] s :=
    leads_of_performAll 5 rfl
  have answers :
      s.Answers (.parse (.ref ['p']) ['(', 'x', ')', ')'] true) (.ok (.parsed (.error _))) :=
    ⟨5, _, rfl⟩
  have library : enclosed.All Grammar.NotCustom := by simp [enclosed, Grammar.NotCustom]
  have name : (Grammar.ref ['p']).All Grammar.NotCustom := Grammar.all_ref.mpr True.intro
  refine ⟨s, _, led, answers, rfl, ?_⟩
  refine (parse_exact _ _).2 _ _ _ _ led ?_ name answers
  simp [Request.All, Request.Reads, library, name]

end Store

end Descent
