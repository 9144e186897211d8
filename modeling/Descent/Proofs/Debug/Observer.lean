import Descent.Proofs.Debug.Running
import Descent.Proofs.Session.Preparation

/-!
The debugging switch within a session. Main statement: it only observes. Whoever leaves out the
changes of the switch gets the same answers and events, and which messages are written, by whom and
when, is settled by the switch at the time of building, or of the report for a text that could not
be parsed.
-/

namespace Descent

def Outcome.parsed (src : Text) : Outcome → Except ParseError Value
  | .success r => .ok r.value
  | .failure f => .error (f.report src)

def Outcome.complaints (debug : Bool) : Outcome → List Message
  | .success _ => []
  | .failure f => if debug then [.parseFailed f] else []

def Grammar.attempt (g : Grammar) (full : Bool) (fuel : Nat) (src : Text) :
    Action Store Outcome := do
  let p ← g.parser
  (if full then Matcher.eof (p.run fuel) else p.run fuel) src 0

def Outcome.conclude (src : Text) : Outcome → Action Store Answer
  | .success r => return .parsed (.ok r.value)
  | .failure f => do
    Action.writeIf (← Action.state).debug (.parseFailed f)
    return .parsed (.error (f.report src))

theorem Outcome.run_conclude (src : Text) (r : Outcome) (s : Store) :
    (r.conclude src).run s =
      some (.ok (.parsed (r.parsed src)), { s with log := s.log ++ r.complaints s.debug }) := by
  cases r with
  | success r => simp [conclude, parsed, complaints]
  | failure f =>
      simp only [conclude, Action.run_bind, Action.run_state, Action.run_writeIf]
      rfl

namespace Request

def setsDebug : Request → Bool
  | .setDebug _ => true
  | _ => false

theorem perform_parse_eq (fuel : Nat) (g : Grammar) (src : Text) (full : Bool) :
    (parse g src full).perform fuel = g.attempt full fuel src >>= Outcome.conclude src := by
  simp only [perform, Matcher.parse, Grammar.attempt, bind_assoc]
  refine bind_congr fun p => bind_congr fun r => Action.ext fun s => ?_
  cases r with
  | success r => rfl
  | failure f =>
      simp only [Outcome.conclude, bind_assoc, Action.run_bind, Action.run_state]
      cases s.debug <;> rfl

end Request

section

variable {on : Bool}

theorem Grammar.attempt_echoes (g : Grammar) (full : Bool) (fuel : Nat) (src : Text) :
    Echoes on Eq (g.attempt full fuel src) (g.attempt full fuel src) := by
  refine g.parser_echoes.bind fun p q alike => ?_
  have inner : Matcher.Corresponds (.echo on) (.identity src) (p.run fuel) fun _ => q.run fuel :=
    Parser.run_echoes alike
  have matcher : Matcher.Corresponds (.echo on) (.identity src)
      (if full then Matcher.eof (p.run fuel) else p.run fuel)
      fun _ => if full then Matcher.eof (q.run fuel) else q.run fuel :=
    Matcher.eofIf_corresponds full inner
  intro s t stores x u run
  obtain ⟨y, v, other, agree, inStep⟩ := matcher 0 0 rfl s t stores x u run
  exact ⟨y, v, other, agree.mono fun _ _ => Alignment.outcomes_identity, inStep⟩

theorem Request.perform_alike {r : Request} (other : r.setsDebug = false) {fuel : Nat}
    {s t u : Store} (alike : s.Alike on t) {x : Except Fault Answer}
    (run : (r.perform fuel).run s = some (x, u)) :
    ∃ v, (r.perform fuel).run t = some (x, v) ∧ u.Alike on v := by
  have of_echoes {m : Action Store Answer} (echoes : Echoes on Eq m m)
      (run : m.run s = some (x, u)) : ∃ v, m.run t = some (x, v) ∧ u.Alike on v := by
    obtain ⟨y, v, answered, agree, inStep⟩ := echoes s t alike x u run
    obtain rfl := agree_eq_iff.mp agree
    exact ⟨v, answered, inStep.alike⟩
  cases r with
  | define name g =>
      refine of_echoes (g.build_echoes.bind fun a b same => ?_) run
      refine (Echoes.modify ?_ ?_ ?_).bind fun _ _ _ => .pure rfl
      · exact fun _ _ alike => alike.keepName name same
      · exact fun _ => .nothing rfl rfl
      · exact fun _ => .nothing rfl rfl
  | run g src pos =>
      refine of_echoes (g.parser_echoes.bind fun p q same => ?_) run
      have ran :
          Echoes on (Alignment.identity src).Outcomes (p.run fuel src pos) (q.run fuel src pos) :=
        Parser.run_echoes same pos pos rfl
      exact ran.bind fun a b related =>
        .pure (congrArg Answer.outcome (Alignment.outcomes_identity related))
  | parse g src full =>
      rw [perform_parse_eq] at run ⊢
      rcases Action.run_bind_eq_some.mp run with ⟨e, failed, rfl⟩ | ⟨r, w, answered, concluded⟩
      · obtain ⟨y, v, failed', agree, inStep⟩ := g.attempt_echoes full fuel src s t alike _ u failed
        cases agree
        exact ⟨v, Action.run_bind_eq_some.mpr (.inl ⟨e, failed', rfl⟩), inStep.alike⟩
      · obtain ⟨y, v, answered', agree, inStep⟩ :=
          g.attempt_echoes full fuel src s t alike _ w answered
        cases agree with
        | ok same =>
            subst same
            rw [Outcome.run_conclude] at concluded
            cases concluded
            exact ⟨_, Action.run_bind_eq_some.mpr (.inr ⟨r, v, answered', r.run_conclude src v⟩),
              inStep.alike⟩
  | inspect g =>
      refine of_echoes (g.parser_echoes.bind fun p q same => .pure ?_) run
      rw [← p.name?_audible on, show p.audible on = q.audible on from same, q.name?_audible]
  | setDebug on => cases other
  | takeEvents =>
      refine of_echoes (Echoes.state.bind fun s t alike => ?_) run
      refine (Echoes.modify ?_ ?_ ?_).bind fun _ _ _ => .pure (congrArg Answer.events alike.events)
      · exact fun _ _ alike => (alike.view fun s => { s with events := [] } :)
      · exact fun _ => .nothing rfl rfl
      · exact fun _ => .nothing rfl rfl

end

namespace Store

/-- Requests with the answers they were given, one after the other, each with fuel of its own. -/
inductive Transcript : Store → List (Request × Except Fault Answer) → Store → Prop
  | nil (s : Store) : Transcript s [] s
  | cons {s t u : Store} {r : Request} {x : Except Fault Answer} {fuel : Nat}
      {l : List (Request × Except Fault Answer)} (answered : (r.perform fuel).run s = some (x, t))
      (rest : Transcript t l u) : Transcript s ((r, x) :: l) u

theorem Alike.setDebug {s t : Store} (alike : s.Alike false t) (on : Bool) :
    ({ s with debug := on } : Store).Alike false t := by
  have same : ({ s with debug := on } : Store).audible false = s.audible false := by
    simp [audible]
  exact same.trans alike

theorem Transcript.without {s t s' : Store} {l : List (Request × Except Fault Answer)}
    (transcript : s.Transcript l t) (alike : s.Alike false s') :
    ∃ t', s'.Transcript (l.filter fun step => !step.1.setsDebug) t' ∧ t.Alike false t' := by
  induction transcript generalizing s' with
  | nil s => exact ⟨s', .nil s', alike⟩
  | @cons s t u r x fuel l answered _ ih =>
      cases sets : r.setsDebug with
      | true =>
          cases r with
          | setDebug on =>
              cases answered
              obtain ⟨t', rest, same⟩ := ih (alike.setDebug on)
              exact ⟨t', by simpa [Request.setsDebug] using rest, same⟩
          | _ => cases sets
      | false =>
          obtain ⟨v, answered', alike⟩ := Request.perform_alike sets alike answered
          obtain ⟨t', rest, same⟩ := ih alike
          exact ⟨t', by simpa [sets] using rest.cons answered', same⟩

theorem Transcript.within {s t s' : Store} {l : List (Request × Except Fault Answer)}
    (transcript : s.Transcript l t) {rs : List Request}
    (requests : l.map Prod.fst = rs.filter fun r => !r.setsDebug) (alike : s.Alike false s') :
    ∃ whole t', s'.Transcript whole t' ∧ whole.map Prod.fst = rs ∧
      (whole.filter fun step => !step.1.setsDebug) = l ∧ t.Alike false t' := by
  induction rs generalizing s s' l with
  | nil =>
      obtain rfl := List.map_eq_nil_iff.mp requests
      cases transcript
      exact ⟨[], s', .nil s', rfl, rfl, alike⟩
  | cons r rs ih =>
      cases sets : r.setsDebug with
      | true =>
          rw [List.filter_cons_of_neg (by simp [sets])] at requests
          cases r with
          | setDebug on =>
              have switched : s.Alike false { s' with debug := on } :=
                ((Alike.setDebug (Eq.symm alike) on).symm :)
              obtain ⟨whole, t', rest, same, others, alike⟩ := ih transcript requests switched
              have switch : ((Request.setDebug on).perform 0).run s' =
                  some (.ok (.debug on), { s' with debug := on }) := rfl
              refine ⟨(.setDebug on, .ok (.debug on)) :: whole, t', .cons switch rest, ?_, ?_,
                alike⟩
              · rw [List.map_cons, same]
              · simpa [Request.setsDebug] using others
          | _ => cases sets
      | false =>
          rw [List.filter_cons_of_pos (by simp [sets])] at requests
          obtain ⟨⟨q, x⟩, l, rfl, first, later⟩ := List.map_eq_cons_iff.mp requests
          obtain rfl : q = r := first
          cases transcript with
          | cons answered rest =>
              obtain ⟨v, answered', alike⟩ := Request.perform_alike sets alike answered
              obtain ⟨whole, t', rest, same, others, alike⟩ := ih rest later alike
              refine ⟨(q, x) :: whole, t', rest.cons answered', ?_, ?_, alike⟩
              · rw [List.map_cons, same]
              · simpa [sets] using others

theorem Alike.eq_of_counts {u v : Store} (alike : u.Alike true v) :
    u = { v with log := u.log } := by
  have all (s : Store) : s.audible true = { s with log := [] } := by
    have arguments : ∀ a : Argument, a.audible true = a
      | .parser p => congrArg Argument.parser p.audible_true
      | .other v => rfl
    simp [audible, arguments]
  have same : ({ u with log := [] } : Store) = { v with log := [] } := by
    rw [← all u, ← all v]
    exact alike
  exact congrArg (fun s : Store => { s with log := u.log }) same

end Store

section

variable {s t : Store} {src : Text} {pos : Int} {n : Nat} {p : Parser} {x : Except Fault Outcome}

theorem Parser.run_writes (ran : (p.run n src pos).run s = some (x, t)) : ∃ ms, s.Writes ms t := by
  have echoes : Echoes true (Alignment.identity src).Outcomes (p.run n src pos) (p.run n src pos) :=
    Parser.run_echoes rfl pos pos rfl
  exact echoes.writes ran

theorem Grammar.build_writes {g : Grammar} {x : Except Fault Argument}
    (built : g.build.run s = some (x, t)) : ∃ ms, s.Writes ms t :=
  g.build_echoes.writes built

theorem Grammar.build_around {g : Grammar} {a : Argument} {f : Parser → Action Store Argument}
    (built : (do
      let b ← g.build
      let p ← b.toParser
      f p : Action Store Argument).run s = some (.ok a, t)) :
    ∃ p u, u.debug = s.debug ∧ (f p).run u = some (.ok a, t) := by
  rcases Action.run_bind_eq_some.mp built with ⟨_, _, equal⟩ | ⟨b, u, inner, continued⟩
  · cases equal
  obtain ⟨ms, wrote⟩ := g.build_writes inner
  cases b with
  | parser p => exact ⟨p, u, wrote.debug, continued⟩
  | other v =>
      simp only [Argument.toParser] at continued
      cases shown : v.describe <;> rw [shown] at continued <;> cases continued

theorem Grammar.attempt_writes {g : Grammar} {full : Bool}
    (attempted : (g.attempt full n src).run s = some (x, t)) : ∃ ms, s.Writes ms t :=
  (g.attempt_echoes full n src).writes attempted

theorem Parser.run_forgets {u : Store} (ran : (p.run n src pos).run s = some (x, t))
    (alike : s.Alike true u) : ∃ v ms, (p.run n src pos).run u = some (x, v) ∧ u.Writes ms v ∧
      t = { v with log := s.log ++ ms } := by
  have echoes : Echoes true (Alignment.identity src).Outcomes (p.run n src pos) (p.run n src pos) :=
    Parser.run_echoes rfl pos pos rfl
  obtain ⟨y, v, ran', agree, same, ms, ns, wrote, wrote', counts⟩ := echoes s u alike x t ran
  obtain rfl := counts rfl
  obtain rfl := Alignment.agree_identity_iff.mp agree
  refine ⟨v, ms, ran', wrote', ?_⟩
  rw [← wrote.log]
  exact same.eq_of_counts

end

/-- What it means, in a store, that the switch only observes. -/
structure Store.DebugObserves (s : Store) : Prop where
  erasable (rs : List Request) (l : List (Request × Except Fault Answer)) (events : List Text) :
    (∃ whole t, s.Transcript whole t ∧ whole.map Prod.fst = rs ∧
        (whole.filter fun step => !step.1.setsDebug) = l ∧ t.events = events) ↔
      l.map Prod.fst = (rs.filter fun r => !r.setsDebug) ∧ ∃ t, s.Transcript l t ∧ t.events = events
  named_built {label : Text} {g : Grammar} {a : Argument} {t : Store}
    (built : (Grammar.named label g).build.run s = some (.ok a, t)) :
    ∃ p, a = .parser (.named label s.debug p)
  memoize_built {g : Grammar} {a : Argument} {t : Store}
    (built : (Grammar.memoize g).build.run s = some (.ok a, t)) :
    ∃ cell p, a = .parser (.memoize cell s.debug p)
  build_leaves {g : Grammar} {x : Except Fault Argument} {t : Store}
    (built : g.build.run s = some (x, t)) : t.debug = s.debug
  /-- Running leaves the switch as it is, so what is built late looks at the same one; and what is
  written then is written by parsers with a name or a memory. -/
  run_writes {p : Parser} {n : Nat} {src : Text} {pos : Int} {x : Except Fault Outcome} {t : Store}
    (ran : (p.run n src pos).run s = some (x, t)) : ∃ ms, s.Writes ms t
  /-- A parser with a name that was told to write does so once, before all that the parser inside
  writes, and otherwise not at all, whatever the switch is by now. -/
  named_writes {label : Text} {trace : Bool} {p : Parser} {n : Nat} {src : Text} {pos : Int}
    {x : Except Fault Outcome} {t : Store}
    (ran : ((Parser.named label trace p).run n src pos).run s = some (x, t)) :
    ∃ y u ms, (p.run n src pos).run s = some (y, u) ∧ s.Writes ms u ∧
      t = { u with log := s.log ++ (if trace then [.trying label pos] else []) ++ ms }
  memoize_hit {cell : Nat} {trace : Bool} {p : Parser} {src : Text} {pos : Int} {r : Outcome}
    (found : s.outcomeAt? cell pos = some r) (n : Nat) :
    ((Parser.memoize cell trace p).run n src pos).run s =
      some (.ok r, { s with log := s.log ++ if trace then [.memoHit p.name? pos] else [] })
  memoize_miss {cell : Nat} {trace : Bool} {p : Parser} {n : Nat} {src : Text} {pos : Int}
    {x : Except Fault Outcome} {t : Store} (missing : s.outcomeAt? cell pos = none)
    (ran : ((Parser.memoize cell trace p).run n src pos).run s = some (x, t)) :
    ∃ u, (p.run n src pos).run s = some (x, u) ∧ t.log = u.log
  /-- Parsing a text writes a complaint, last of all, exactly if it reports a failure while the
  switch is on. -/
  parse_writes {g : Grammar} {src : Text} {full : Bool} {n : Nat} {x : Except Fault Answer}
    {t : Store}
    (parsed : ((Request.parse g src full).perform n).run s = some (x, t)) :
    ∃ ms last, t.log = s.log ++ ms ++ last ∧ (∀ m ∈ ms, m.FromParser) ∧ t.debug = s.debug ∧
      ((∃ f : Failure, s.debug = true ∧ x = .ok (.parsed (.error (f.report src))) ∧
          last = [.parseFailed f]) ∨
        (s.debug = false ∨ ∀ e, x ≠ .ok (.parsed (.error e))) ∧ last = [])

namespace Store

theorem debug_observes (s : Store) : s.DebugObserves where
  erasable rs l events := by
    constructor
    · rintro ⟨whole, t, transcript, rfl, rfl, rfl⟩
      obtain ⟨t', without, alike⟩ := transcript.without (.refl s)
      exact ⟨by rw [List.filter_map]; rfl, t', without, alike.events.symm⟩
    · rintro ⟨requests, t, transcript, rfl⟩
      obtain ⟨whole, t', within, same, others, alike⟩ := transcript.within requests (.refl s)
      exact ⟨whole, t', within, same, others, alike.events.symm⟩
  named_built {label g a t} built := by
    rw [Grammar.build] at built
    obtain ⟨p, u, same, continued⟩ := Grammar.build_around built
    cases continued
    exact ⟨p, by rw [same]⟩
  memoize_built {g a t} built := by
    rw [Grammar.build] at built
    obtain ⟨p, u, same, continued⟩ := Grammar.build_around built
    cases continued
    exact ⟨u.nextCell, p, by rw [same]⟩
  build_leaves built := by
    obtain ⟨ms, wrote⟩ := Grammar.build_writes built
    exact wrote.debug
  run_writes ran := Parser.run_writes ran
  named_writes {label trace p n src pos x t} ran := by
    rw [Parser.run_eq_matcher, Interpretation.matcher] at ran
    change (Matcher.named label trace _ src pos).run s = _ at ran
    rw [Matcher.named_eq, ← Parser.run_eq_matcher] at ran
    simp only [Action.run_bind, Action.run_writeIf] at ran
    have inner : ∃ y, (p.run n src pos).run
        { s with log := s.log ++ if trace then [.trying label pos] else [] } = some (y, t) := by
      rcases Action.run_bind_eq_some.mp ran with ⟨e, failed, _⟩ | ⟨r, u, answered, relabelled⟩
      · exact ⟨.error e, failed⟩
      · cases r <;> cases relabelled <;> exact ⟨_, answered⟩
    obtain ⟨y, ran⟩ := inner
    obtain ⟨u, ms, alone, wrote, same⟩ := Parser.run_forgets ran (u := s) rfl
    exact ⟨y, u, ms, alone, wrote, same⟩
  memoize_hit {cell trace p src pos r} found n := by
    rw [Parser.run_eq_matcher, Interpretation.matcher]
    change (Matcher.memoize cell trace _ _ src pos).run s = _
    simp only [Matcher.memoize_eq, Action.run_bind, Action.run_state, found, Action.run_writeIf,
      Action.run_pure]
  memoize_miss {cell trace p n src pos x t} missing ran := by
    rw [Parser.run_eq_matcher, Interpretation.matcher, ← Parser.run_eq_matcher] at ran
    change (Matcher.memoize cell trace _ _ src pos).run s = _ at ran
    rw [Matcher.memoize_eq, Action.run_bind, Action.run_state] at ran
    simp only [missing] at ran
    rcases Action.run_bind_eq_some.mp ran with ⟨e, failed, rfl⟩ | ⟨r, u, answered, kept⟩
    · exact ⟨t, failed, rfl⟩
    · cases kept
      exact ⟨u, answered, rfl⟩
  parse_writes {g src full n x t} parsed := by
    rw [Request.perform_parse_eq] at parsed
    rcases Action.run_bind_eq_some.mp parsed with ⟨e, failed, rfl⟩ | ⟨r, u, answered, concluded⟩
    · obtain ⟨ms, wrote⟩ := Grammar.attempt_writes failed
      exact ⟨ms, [], by rw [wrote.log, List.append_nil], wrote.fromParser, wrote.debug,
        .inr ⟨.inr (by simp), rfl⟩⟩
    · obtain ⟨ms, wrote⟩ := Grammar.attempt_writes answered
      rw [Outcome.run_conclude] at concluded
      cases concluded
      refine ⟨ms, r.complaints u.debug, by simp [wrote.log], wrote.fromParser, wrote.debug, ?_⟩
      rw [wrote.debug]
      cases r with
      | success r => exact .inr ⟨.inr (by simp [Outcome.parsed]), rfl⟩
      | failure f =>
          cases debug : s.debug with
          | false => exact .inr ⟨.inl rfl, rfl⟩
          | true => exact .inl ⟨f, rfl, rfl, rfl⟩

private def switched : List (Request × Except Fault Answer) := [
  (.setDebug true, .ok (.debug true)),
  (.define ['x'] (.memoize (.named ['a'] (.char ['b']))), .ok (.defined ['x'])),
  (.setDebug false, .ok (.debug false)),
  (.run (.ref ['x']) ['c'] 0, .ok (.outcome (.failed ['a'] 0))),
  (.run (.probe ['r'] (.ref ['x'])) ['c'] 0, .ok (.outcome (.failed ['a'] 0)))]

theorem debug_observes_switched :
    ∃ t, empty.Transcript switched t ∧ t.log = [.trying ['a'] 0, .memoHit (some ['a']) 0] ∧
      ∃ u, empty.Transcript (switched.filter fun step => !step.1.setsDebug) u ∧
        u.events = [(['r', '@', '0'] : Text)] := by
  have step (r : Request) (s : Store) {x : Except Fault Answer} {t u : Store}
      {l : List (Request × Except Fault Answer)} (answered : (r.perform 5).run s = some (x, t))
      (rest : t.Transcript l u) : s.Transcript ((r, x) :: l) u := .cons answered rest
  have transcript : empty.Transcript switched _ :=
    step _ _ rfl (step _ _ rfl (step _ _ rfl (step _ _ rfl (step _ _ rfl (.nil _)))))
  refine ⟨_, transcript, rfl, ?_⟩
  exact (((debug_observes empty).erasable _ _ _).mp ⟨_, _, transcript, rfl, rfl, rfl⟩).2

end Store

end Descent
