import Descent.Proofs.Nesting.Factoring
import Descent.Proofs.Parser.Planning
import Descent.Proofs.Session.Runs

/-!
What all alternatives start with, in sessions. Parsers may remember and be built late there, also
the common start. Main statement: it may as well be matched once before the choice.
-/

namespace Descent

theorem Action.run_map_eq_some {σ α β : Type} {f : α → β} {m : Action σ α} {s t : σ}
    {x : Except Fault β} :
    (f <$> m).run s = some (x, t) ↔ ∃ y, m.run s = some (y, t) ∧ y.map f = x := by
  rw [run_map]
  rcases m.run s with _ | ⟨y, u⟩
  · simp
  · simp [and_comm]

namespace Parser

variable {names : Names} {fuel : Nat}

theorem meaning_seq (ps : List Parser) :
    (seq ps).meaning names fuel = Matcher.seq (ps.map (meaning names fuel)) := by
  rw [meaning_eq_matcher, Interpretation.matcher, Interpretation.matchers_eq_map]
  rw [List.map_congr_left fun p _ => (meaning_eq_matcher names fuel p).symm]

theorem meaning_alt (ps : List Parser) :
    (alt ps).meaning names fuel = Matcher.alt (ps.map (meaning names fuel)) := by
  rw [meaning_eq_matcher, Interpretation.matcher, Interpretation.matchers_eq_map]
  rw [List.map_congr_left fun p _ => (meaning_eq_matcher names fuel p).symm]

end Parser

namespace Grammar

variable {names : Names} {a : Grammar} {bs : List Grammar} {ps : List Parser} {u : Parser}

theorem planned_seq_pair {b : Grammar} : (seq [a, b]).planned names = .ok u ↔
    ∃ p q, a.planned names = .ok p ∧ b.planned names = .ok q ∧ .seq [p, q] = u := by
  rw [planned_seq]
  constructor
  · rintro ⟨-, _, members, same⟩
    obtain ⟨p, _, first, others, rfl⟩ := List.forall₂_cons_left_iff.mp members
    obtain ⟨q, _, second, none, rfl⟩ := List.forall₂_cons_left_iff.mp others
    obtain rfl := List.forall₂_nil_left_iff.mp none
    exact ⟨p, q, first, second, same⟩
  · rintro ⟨p, q, first, second, same⟩
    exact ⟨List.cons_ne_nil _ _, _, .cons first (.cons second .nil), same⟩

/-- Whatever else is planned, the common start is planned to be the same each time. -/
theorem plannedAll_behind {p : Parser} (planned : a.planned names = .ok p)
    (members : PlannedAll names (bs.map fun b => seq [a, b]) ps) :
    ∃ qs, PlannedAll names bs qs ∧ (qs.map fun q => .seq [p, q]) = ps := by
  rw [PlannedAll, List.forall₂_map_left_iff] at members
  induction members with
  | nil => exact ⟨[], .nil, rfl⟩
  | cons here _ ih =>
      obtain ⟨qs, each, rfl⟩ := ih
      obtain ⟨p', q, first, second, rfl⟩ := planned_seq_pair.mp here
      cases planned.symm.trans first
      exact ⟨q :: qs, .cons second each, rfl⟩

theorem planned_alternatives (nonempty : bs ≠ []) :
    (alt (bs.map fun b => seq [a, b])).planned names = .ok u ↔
      ∃ p qs, a.planned names = .ok p ∧ PlannedAll names bs qs ∧
        .alt (qs.map fun q => .seq [p, q]) = u := by
  rw [planned_alt]
  constructor
  · rintro ⟨-, ps, members, same⟩
    obtain ⟨b, others, rfl⟩ := List.exists_cons_of_ne_nil nonempty
    obtain ⟨r, _, first, -, -⟩ := List.forall₂_cons_left_iff.mp members
    obtain ⟨p, -, planned, -, -⟩ := planned_seq_pair.mp first
    obtain ⟨qs, each, rfl⟩ := plannedAll_behind planned members
    exact ⟨p, qs, planned, each, same⟩
  · rintro ⟨p, qs, planned, each, same⟩
    refine ⟨by simpa using nonempty, _, ?_, same⟩
    rw [PlannedAll, List.forall₂_map_left_iff, List.forall₂_map_right_iff]
    exact each.imp fun b q second => planned_seq_pair.mpr ⟨p, q, planned, second, rfl⟩

theorem planned_factored (nonempty : bs ≠ []) : (seq [a, alt bs]).planned names = .ok u ↔
    ∃ p qs, a.planned names = .ok p ∧ PlannedAll names bs qs ∧ .seq [p, .alt qs] = u := by
  rw [planned_seq_pair]
  simp [planned_alt, nonempty]

end Grammar

namespace Parser

variable {names : Names} {src : Text} {pos : Int} {p : Parser} {qs : List Parser} {fuel : Nat}

/-- There is one state only. -/
theorem meaning_steady (p : Parser) (src : Text) (pos : Int) :
    (p.meaning names fuel).Steady (fun _ => True) src pos :=
  ⟨((p.meaning names fuel src pos).run ()).map Prod.fst, fun s _ => by
    cases (p.meaning names fuel src pos).run () <;> rfl⟩

theorem meaning_seq_alt (p : Parser) (qs : List Parser) :
    (seq [p, alt qs]).meaning names fuel =
      Matcher.seq [p.meaning names fuel, Matcher.alt (qs.map (meaning names fuel))] := by
  simp [meaning_seq, meaning_alt]

theorem meaning_factored
    (formed : ∀ f, (p.meaning names fuel src pos).run () = some (.ok (.failure f), ()) →
      f.WellFormed)
    (nonempty : qs ≠ []) :
    ((alt (qs.map fun q => seq [p, q])).meaning names fuel src pos).run () =
      (Outcome.reportedAt pos <$> (seq [p, alt qs]).meaning names fuel src pos).run () := by
  have each : (qs.map fun q => seq [p, q]).map (meaning names fuel) =
      (qs.map (meaning names fuel)).map fun b => Matcher.seq [p.meaning names fuel, b] := by
    simp [meaning_seq]
  rw [meaning_alt, each, meaning_seq_alt]
  exact Matcher.alt_factored (p.meaning_steady src pos) (fun _ failed => formed _ failed)
    (fun _ _ _ _ _ _ _ _ => True.intro) (by simpa using nonempty) True.intro

theorem means_factored {x : Except Fault Outcome}
    (formed : ∀ fuel f, (p.meaning names fuel src pos).run () = some (.ok (.failure f), ()) →
      f.WellFormed)
    (nonempty : qs ≠ []) :
    (alt (qs.map fun q => seq [p, q])).Means names src pos x ↔
      ∃ y, (seq [p, alt qs]).Means names src pos y ∧ y.map (Outcome.reportedAt pos) = x := by
  simp only [Means, meaning_factored (formed _) nonempty, Action.run_map_eq_some]
  constructor
  · rintro ⟨fuel, y, ended, same⟩
    exact ⟨y, ⟨fuel, ended⟩, same⟩
  · rintro ⟨y, ⟨fuel, ended⟩, same⟩
    exact ⟨fuel, y, ended, same⟩

theorem meaning_seq_alt_failed {f : Failure}
    (failed : ((seq [p, alt qs]).meaning names fuel src pos).run () = some (.ok (.failure f), ())) :
    (p.meaning names fuel src pos).run () = some (.ok (.failure f), ()) ∨
      ∃ v, (p.meaning names fuel src pos).run () = some (.ok (.matched v f.pos), ()) ∧
        ((alt qs).meaning names fuel src f.pos).run () = some (.ok (.failure f), ()) := by
  rw [meaning_seq_alt] at failed
  rw [meaning_alt]
  exact Matcher.seq_alt_failed (p.meaning_steady src pos) True.intro failed

end Parser

namespace Store

variable {rs runs : List Request} {s t : Store} {src : Text} {a g : Grammar} {bs : List Grammar}
  {pos : Int}

theorem RunsTo.wellFormed {f : Failure} (led : empty.Leads rs s) (ran : s.Leads runs t)
    (failed : t.RunsTo src g pos (.failure f)) : f.WellFormed := by
  have free := Conduct.loose_open
  obtain ⟨sound, -⟩ := Conduct.Sound.empty.leads (fun r _ => free.request r) led
  obtain ⟨sound, -⟩ := sound.leads (fun r _ => free.request r) ran
  cases (sound.answers (free.request _) failed).1 _ rfl with
  | failure wellFormed _ => exact wellFormed

/-- Faults are compared where all parts can be built; what cannot is found in another order. -/
theorem alternatives_answer_factored (prepare : ∀ r ∈ rs, r.Prepares) (prepared : empty.Leads rs s)
    (on : ∀ r ∈ runs, r.On src) (ran : s.Leads runs t) (nonempty : bs ≠ []) :
    (∀ r, t.RunsTo src (.alt (bs.map fun b => .seq [a, b])) pos r ↔
      ∃ r', t.RunsTo src (.seq [a, .alt bs]) pos r' ∧ r'.reportedAt pos = r) ∧
    (∀ f, t.RunsTo src (.seq [a, .alt bs]) pos (.failure f) →
      t.RunsTo src a pos (.failure f) ∨
        ∃ v, t.RunsTo src a pos (.matched v f.pos) ∧ t.RunsTo src (.alt bs) f.pos (.failure f)) ∧
    ((∀ g ∈ a :: bs, ∃ y, t.Answers (.inspect g) (.ok y)) → ∀ e,
      t.Answers (.run (.alt (bs.map fun b => .seq [a, b])) src pos) (.error e) ↔
        t.Answers (.run (.seq [a, .alt bs]) src pos) (.error e)) := by
  have runs {h : Grammar} {p : Parser} {fuel : Nat} {i : Int} {r : Outcome}
      (planned : h.planned (Request.namesAfter .empty rs) = .ok p)
      (ended : (p.meaning _ fuel src i).run () = some (.ok r, ())) : t.RunsTo src h i r :=
    runsTo_of_planned prepare prepared on ran planned ended
  have factored {p : Parser} {qs : List Parser} {x : Except Fault Outcome}
      (planned : a.planned (Request.namesAfter .empty rs) = .ok p)
      (each : Grammar.PlannedAll (Request.namesAfter .empty rs) bs qs) :
      (Parser.alt (qs.map fun q => .seq [p, q])).Means (Request.namesAfter .empty rs) src pos x ↔
        ∃ y, (Parser.seq [p, .alt qs]).Means (Request.namesAfter .empty rs) src pos y ∧
          y.map (Outcome.reportedAt pos) = x :=
    Parser.means_factored
      (fun _ _ failed => (runs planned failed).wellFormed prepared ran)
      (Grammar.plannedAll_ne_nil each nonempty)
  refine ⟨fun r => ?_, fun f failed => ?_, fun built e => ?_⟩
  · simp only [runsTo_iff_means prepare prepared on ran, Grammar.means_ok_iff,
      Grammar.planned_alternatives nonempty, Grammar.planned_factored nonempty]
    constructor
    · rintro ⟨u, ⟨p, qs, planned, each, rfl⟩, means⟩
      obtain ⟨_ | r', other, same⟩ := (factored planned each).mp means
      · cases same
      · exact ⟨r', ⟨_, ⟨p, qs, planned, each, rfl⟩, other⟩, Except.ok.inj same⟩
    · rintro ⟨r', ⟨u, ⟨p, qs, planned, each, rfl⟩, means⟩, same⟩
      exact ⟨_, ⟨p, qs, planned, each, rfl⟩,
        (factored planned each).mpr ⟨_, means, congrArg Except.ok same⟩⟩
  · obtain ⟨u, both, fuel, ended⟩ :=
      Grammar.means_ok_iff.mp ((runsTo_iff_means prepare prepared on ran).mp failed)
    obtain ⟨p, qs, planned, each, rfl⟩ := (Grammar.planned_factored nonempty).mp both
    rcases Parser.meaning_seq_alt_failed ended with first | ⟨v, matched, chosen⟩
    · exact .inl (runs planned first)
    · exact .inr ⟨v, runs planned matched,
        runs (Grammar.planned_alt.mpr ⟨nonempty, qs, each, rfl⟩) chosen⟩
  · have parts : ∀ g ∈ a :: bs, ∃ p, g.planned (Request.namesAfter .empty rs) = .ok p :=
      fun g member => (built g member).elim fun _ made =>
        planned_of_inspected prepare prepared on ran made
    obtain ⟨⟨p, planned⟩, others⟩ := List.forall_mem_cons.mp parts
    obtain ⟨qs, each⟩ := Grammar.plannedAll_of_each others
    have one := (Grammar.planned_alternatives nonempty).mpr ⟨p, qs, planned, each, rfl⟩
    have other := (Grammar.planned_factored nonempty).mpr ⟨p, qs, planned, each, rfl⟩
    have answers {h : Grammar} : t.Answers (.run h src pos) (.error e) ↔
        h.Means (Request.namesAfter .empty rs) src pos (.error e) :=
      answers_map_iff_means prepare prepared on ran (x := .error e)
    rw [answers, answers, Grammar.means_iff_of_planned one, Grammar.means_iff_of_planned other,
      factored planned each]
    constructor
    · rintro ⟨_ | r, means, same⟩
      · cases same
        exact means
      · cases same
    · exact fun means => ⟨_, means, rfl⟩

/-- An `x` behind any number of brackets. -/
private def opening : Grammar :=
  .memoize (.alt [.seq [.char ['('], .lazy (.ref ['n'])], .char ['x']])

theorem alternatives_answer_factored_opening :
    ∃ s labels, empty.Leads [.define ['n'] opening] s ∧
      s.RunsTo ['(', 'x', 'd'] (.seq [.ref ['n'], .alt [.char ['b'], .char ['c']]]) 0
        (.failure ⟨labels, 2⟩) ∧
      s.RunsTo ['(', 'x', 'd']
        (.alt [.seq [.ref ['n'], .char ['b']], .seq [.ref ['n'], .char ['c']]]) 0
        (.failure ⟨labels, 0⟩) := by
  let s := (empty.performAll 0 [.define ['n'] opening]).getD empty
  have prepared : empty.Leads [.define ['n'] opening] s := leads_of_performAll 0 rfl
  have once : s.RunsTo ['(', 'x', 'd'] (.seq [.ref ['n'], .alt [.char ['b'], .char ['c']]]) 0
      (.failure ⟨[Text.inQuotes ['b'], Text.inQuotes ['c']], 2⟩) := ⟨3, _, rfl⟩
  have filled : [Grammar.char ['b'], .char ['c']] ≠ [] := List.cons_ne_nil _ _
  obtain ⟨factored, -⟩ := alternatives_answer_factored
    (by simp [Request.Prepares]) prepared (by simp) (.nil s) filled
  exact ⟨s, _, prepared, once, (factored _).mpr ⟨_, once, rfl⟩⟩

end Store

end Descent
