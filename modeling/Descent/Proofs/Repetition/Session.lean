import Descent.Proofs.Parser.Planning
import Descent.Proofs.Repetition.Until
import Descent.Proofs.Session.Runs

/-!
Matching until something else would match, in sessions. Parsers may remember and be built late
there; a run over a prepared store is answered as if they did not. Main statement: until a marker
and many that exclude it are answered the same, unless neither the marker nor an item is there in
the end.
-/

namespace Descent

namespace Parser

variable {names : Names} {stop p : Parser} {fuel : Nat}

theorem meaning_upTo :
    (upTo stop p).meaning names fuel =
      Matcher.upTo fuel (stop.meaning names fuel) (p.meaning names fuel) := by
  simp only [meaning_eq_matcher]
  rfl

theorem meaning_many_except :
    (many (except stop p)).meaning names fuel =
      Matcher.many fuel (Matcher.except (stop.meaning names fuel) (p.meaning names fuel)) := by
  simp only [meaning_eq_matcher]
  rfl

/-- There is one state only. -/
theorem meaning_quiet (src : Text) : (p.meaning names fuel).Quiet src :=
  fun _ _ _ _ _ => rfl

end Parser

namespace Grammar

variable {names : Names} {src : Text} {stop g : Grammar} {pos : Int} {r : Outcome}

theorem means_upTo_iff : (upTo stop g).Means names src pos (.ok r) ↔
    ∃ p q, stop.planned names = .ok p ∧ g.planned names = .ok q ∧ ∃ fuel,
      (Matcher.upTo fuel (p.meaning names fuel) (q.meaning names fuel) src pos).run () =
        some (.ok r, ()) := by
  simp [means_ok_iff, planned_upTo, Parser.Means, Parser.meaning_upTo]

theorem means_many_except_iff : (many (except stop g)).Means names src pos (.ok r) ↔
    ∃ p q, stop.planned names = .ok p ∧ g.planned names = .ok q ∧ ∃ fuel,
      (Matcher.many fuel (Matcher.except (p.meaning names fuel) (q.meaning names fuel))
        src pos).run () = some (.ok r, ()) := by
  simp [means_ok_iff, planned_many, planned_except, Parser.Means, Parser.meaning_many_except]

end Grammar

namespace Store

/-- Items one after the other, each from where the one before it ended. None starts at a marker. -/
inductive Items (t : Store) (src : Text) (stop g : Grammar) : Int → List Value → Int → Prop
  | nil (pos : Int) : Items t src stop g pos [] pos
  | cons {pos next q : Int} {v : Value} {vs : List Value} {f : Failure}
      (clear : t.RunsTo src stop pos (.failure f)) (item : t.RunsTo src g pos (.matched v next))
      (moved : next ≠ pos) (more : Items t src stop g next vs q) :
      Items t src stop g pos (v :: vs) q

variable {rs runs : List Request} {s t : Store} {src : Text} {stop g : Grammar} {pos : Int}

theorem Items.of_advances {p q : Matcher Unit} {a b : Unit} {places : List Int} {vs : List Value}
    {last : Int} (rounds : q.Advances src pos a places vs last b)
    (apart : ∀ i ∈ places, p.FailsAt src i ())
    (clear : ∀ i f, (p src i).run () = some (.ok (.failure f), ()) →
      t.RunsTo src stop i (.failure f))
        (item : ∀ i r, (q src i).run () = some (.ok (.success r), ()) →
          t.RunsTo src g i (.success r)) :
    t.Items src stop g pos vs last := by
  induction rounds with
  | nil pos => exact .nil pos
  | cons round moved _ ih =>
      obtain ⟨⟨f, _, failed⟩, apart⟩ := List.forall_mem_cons.mp apart
      exact .cons (clear _ f failed) (item _ _ round) moved (ih apart)

theorem upTo_answers_many_except (prepare : ∀ r ∈ rs, r.Prepares) (prepared : empty.Leads rs s)
    (on : ∀ r ∈ runs, r.On src) (ran : s.Leads runs t) :
    ((∀ i r, t.RunsTo src stop i (.success r) → ∃ label, Matcher.unwanted r.value = .ok label) →
      ((∃ r, t.RunsTo src (.many (.except stop g)) pos r) ↔
        ∃ r, t.RunsTo src (.upTo stop g) pos r)) ∧
    ∀ r, t.RunsTo src (.many (.except stop g)) pos r →
      ∃ vs q, r = .matched (.list vs) q ∧ t.Items src stop g pos vs q ∧
        ((∃ m, t.RunsTo src stop q (.success m)) ∨ (∃ m, t.RunsTo src g q (.success m)) →
          t.RunsTo src (.upTo stop g) pos r) ∧
        ((¬ ∃ m, t.RunsTo src stop q (.success m)) →
          ∀ v next, t.RunsTo src g q (.matched v next) → next = q) ∧
        (¬ ((∃ m, t.RunsTo src stop q (.success m)) ∨ ∃ m, t.RunsTo src g q (.success m)) →
          ∃ f, t.RunsTo src g q (.failure f) ∧ t.RunsTo src (.upTo stop g) pos (.failure f)) ∧
        ∀ m, t.RunsTo src (.upTo stop g) pos (.success m) → .success m = r := by
  have means (h : Grammar) {i : Int} {r : Outcome} :
      t.RunsTo src h i r ↔ h.Means (Request.namesAfter .empty rs) src i (.ok r) :=
    runsTo_iff_means prepare prepared on ran
  have runs {h : Grammar} {p : Parser} {fuel : Nat} {i : Int} {r : Outcome}
      (planned : h.planned (Request.namesAfter .empty rs) = .ok p)
      (ended : (p.meaning _ fuel src i).run () = some (.ok r, ())) : t.RunsTo src h i r :=
    runsTo_of_planned prepare prepared on ran planned ended
  constructor
  · intro shown
    have showable {p : Parser} (planned : stop.planned (Request.namesAfter .empty rs) = .ok p)
      (fuel : Nat) :
        (p.meaning (Request.namesAfter .empty rs) fuel).Showable src :=
      fun i _ _ r ended => shown i r (runs planned ended)
    simp only [means, Grammar.means_many_except_iff, Grammar.means_upTo_iff]
    constructor
    · rintro ⟨r, p, q, plannedStop, planned, fuel, ended⟩
      obtain ⟨r', other⟩ := (Matcher.many_except_ends_iff (showable plannedStop fuel)).mp ⟨r, ended⟩
      exact ⟨r', p, q, plannedStop, planned, fuel, other⟩
    · rintro ⟨r, p, q, plannedStop, planned, fuel, ended⟩
      obtain ⟨r', other⟩ :=
        (Matcher.many_except_ends_iff (showable plannedStop fuel)).mpr ⟨r, ended⟩
      exact ⟨r', p, q, plannedStop, planned, fuel, other⟩
  · intro r answered
    obtain ⟨p, q, plannedStop, planned, fuel, ended⟩ :=
      Grammar.means_many_except_iff.mp ((means _).mp answered)
    obtain ⟨-, vs, last, places, r', rfl, rounds, apart, before, other⟩ :=
      Matcher.many_except_ended (p.meaning_quiet src) (q.meaning_quiet src) ended
    have answer : t.RunsTo src (.upTo stop g) pos r' :=
      (means _).mpr (Grammar.means_upTo_iff.mpr ⟨p, q, plannedStop, planned, fuel, other⟩)
    have items : t.Items src stop g pos vs last :=
      .of_advances rounds apart (fun _ _ => runs plannedStop) fun _ _ => runs planned
    have same {h : Grammar} {i : Int} {r r' : Outcome} (first : t.RunsTo src h i r)
        (second : t.RunsTo src h i r') : r = r' :=
      first.unique prepare prepared on ran second
    refine ⟨vs, last, rfl, items, ?_⟩
    cases before with
    | marked here =>
        have marked := runs plannedStop here
        exact ⟨fun _ => answer, fun absent => absurd ⟨_, marked⟩ absent,
          fun neither => absurd (.inl ⟨_, marked⟩) neither, fun m matched => same matched answer⟩
    | still clear round =>
        have still := runs planned round
        refine ⟨fun _ => answer, fun _ v next moved => ?_,
          fun neither => absurd (.inr ⟨_, still⟩) neither, fun m matched => same matched answer⟩
        cases same moved still
        rfl
    | failed clear round =>
        have clear := runs plannedStop clear
        have failed := runs planned round
        refine ⟨?_, fun _ v next matched => ?_, fun _ => ⟨_, failed, answer⟩, fun m matched => ?_⟩
        · rintro (⟨m, marked⟩ | ⟨m, matched⟩)
          · cases same marked clear
          · cases same matched failed
        · cases same matched failed
        · cases same matched answer

/-- Brackets around any number of brackets and of `a`. -/
private def parenthesized : Grammar :=
  .memoize (.alt [
    .between (.char ['(']) (.char [')']) (.upTo (.char [')']) (.lazy (.ref ['n']))),
    .char ['a']])

theorem upTo_answers_many_except_listed :
    ∃ s, empty.Leads [.define ['n'] parenthesized] s ∧
      ∃ vs, s.RunsTo ['(', 'a', ')', ')'] (.upTo (.char [')']) (.ref ['n'])) 0
        (.matched (.list vs) 3) ∧
        s.Items ['(', 'a', ')', ')'] (.char [')']) (.ref ['n']) 0 vs 3 := by
  let s := (empty.performAll 0 [.define ['n'] parenthesized]).getD empty
  have prepared : empty.Leads [.define ['n'] parenthesized] s := leads_of_performAll 0 rfl
  have answered : s.RunsTo ['(', 'a', ')', ')'] (.many (.except (.char [')']) (.ref ['n']))) 0
      (.matched (.list [.list [.text ['a']]]) 3) := ⟨3, _, rfl⟩
  have marked : s.RunsTo ['(', 'a', ')', ')'] (.char [')']) 3 (.matched (.text [')']) 4) :=
    ⟨0, _, rfl⟩
  obtain ⟨vs, last, same, items, found, -⟩ :=
    (upTo_answers_many_except (by simp [Request.Prepares]) prepared (by simp) (.nil s)).2 _ answered
  cases same
  exact ⟨s, prepared, _, found (.inl ⟨_, marked⟩), items⟩

end Store

end Descent
