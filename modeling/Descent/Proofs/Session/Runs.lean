import Descent.Proofs.Meaning.Running
import Descent.Proofs.Session.Preparation

/-!
Runs within a session. Main statements: requests on one text keep a store consistent for that text,
and a run over a consistent store is answered with what its grammar means there, whatever was run
before.
-/

namespace Descent

namespace Request

/-- Runs nothing on other texts, and defines nothing. -/
def On (src : Text) : Request → Prop
  | .define _ _ => False
  | .run _ text _ | .parse _ text _ => text = src
  | _ => True

theorem perform_run (fuel : Nat) (g : Grammar) (src : Text) (pos : Int) :
    (run g src pos).perform fuel =
      do return .outcome (← Matcher.thenRun (do return (← g.parser).run fuel) src pos) := by
  simp only [perform, Matcher.thenRun, bind_assoc, pure_bind]

theorem perform_parse (fuel : Nat) (g : Grammar) (src : Text) (full : Bool) :
    (parse g src full).perform fuel =
      (do let p ← g.parser; Matcher.parse full (p.run fuel) src) >>= fun r => return .parsed r := by
  simp only [perform, bind_assoc]

end Request

/-- A request over a store is answered so, given enough fuel. -/
def Store.Answers (s : Store) (r : Request) (x : Except Fault Answer) : Prop :=
  ∃ fuel t, (r.perform fuel).run s = some (x, t)

theorem Store.exists_answer (fuel : Nat) {s : Store} {r : Request}
    (ends : ((r.perform fuel).run s).isSome = true) : ∃ x, s.Answers r x := by
  obtain ⟨⟨x, t⟩, performed⟩ := Option.isSome_iff_exists.mp ends
  exact ⟨x, fuel, t, performed⟩

section

variable {scope : Scope} {names : Names} {src : Text} {base : Owners}

theorem Grammar.run_reflects (known : scope.outcomes) {g : Grammar} (allowed : g.All scope.Allows)
    (fuel : Nat) :
    Matcher.Corresponds (.reflection scope names src base) (.identity src)
      (Matcher.thenRun do return (← g.parser).run fuel) fun i => g.meaning names (i + fuel) := by
  refine enter_reflects (fun later p placed => ?_) allowed
  simpa only [Parser.meaning_plain] using Parser.run_reflects known placed

theorem Grammar.run_realizes (known : scope.outcomes) {g : Grammar} (allowed : g.All scope.Allows)
    (fuel : Nat) :
    Matcher.Corresponds (.realization scope names src base) (.identity src) (g.meaning names fuel)
      fun _ => Matcher.thenRun do return (← g.parser).run fuel := by
  refine enter_realizes (fun later p placed => ?_) allowed
  simpa only [Parser.meaning_plain] using Parser.run_realizes known placed

theorem Reflects.finish {α β γ : Type} {A : α → β → Prop} {B : γ → β → Prop} {m : Action Store α}
    {d : Nat → Action Unit β} {f : α → Action Store γ} (first : Reflects scope names src base A m d)
    (last : ∀ a b, A a b → Reflects scope names src base B (f a) fun _ => pure b) :
    Reflects scope names src base B (m >>= f) d := by
  have whole := (Correspondence.reflection scope names src base).bind first last
  exact (funext fun i => bind_pure (d i)) ▸ whole

theorem Reflects.map {α β γ : Type} {A : α → β → Prop} {m : Action Store α}
    {d : Nat → Action Unit β} (first : Reflects scope names src base A m d) (f : α → γ) :
    Reflects scope names src base (fun c b => ∃ a, A a b ∧ c = f a) (do return f (← m)) d :=
  first.finish fun a _ related => (Correspondence.reflection scope names src base).pure
    ⟨a, related, rfl⟩

private theorem trace_reflects {α β : Type} (m : Message) (a : α) (b : β) :
    Reflects scope names src base (fun _ _ => True)
      (do
        if (← Action.state).debug then Action.modify (Store.write m)
        return a) fun _ => pure b := by
  intro owners s _ consistent x t run
  simp only [Action.run_bind, Action.run_state] at run
  cases debug : s.debug with
  | false =>
      rw [debug] at run
      cases run
      exact ⟨owners, _, 0, List.prefix_refl _, consistent, .ok True.intro, fun _ _ => rfl⟩
  | true =>
      rw [debug] at run
      cases run
      exact ⟨owners, _, 0, List.prefix_refl _, consistent.congr rfl, .ok True.intro, fun _ _ => rfl⟩

theorem Matcher.parse_reflects (full : Bool) {p : Matcher Store} {q : Nat → Matcher Unit}
    (inner : Matcher.Corresponds (.reflection scope names src base) (.identity src) p q) :
    Reflects scope names src base (fun _ _ => True) (Matcher.parse full p src)
      fun i => (if full then Matcher.eof (q i) else q i) src 0 := by
  have matcher : Matcher.Corresponds (.reflection scope names src base) (.identity src)
      (if full then Matcher.eof p else p) fun i => if full then Matcher.eof (q i) else q i :=
    Matcher.eofIf_corresponds full inner
  apply Reflects.finish (matcher 0 0 rfl)
  intro r _ _
  cases r with
  | success r => exact (Correspondence.reflection scope names src base).pure True.intro
  | failure f => exact trace_reflects _ _ _

theorem Grammar.parse_reflects (known : scope.outcomes) {g : Grammar}
    (allowed : g.All scope.Allows) (fuel : Nat) (full : Bool) :
    Reflects scope names src base (fun _ _ => True)
      (do let p ← g.parser; Matcher.parse full (p.run fuel) src)
      fun i => Action.ofExcept (g.planned names) >>= fun p =>
        (if full then Matcher.eof (p.meaning names (i + fuel)) else p.meaning names (i + fuel))
          src 0 := by
  refine Reflects.of_builds (fun _ _ => Grammar.parser_builds allowed) ?_
  intro later p _ _ tracks
  obtain ⟨rfl, placed⟩ := tracks
  simp only [Parser.meaning_plain]
  exact Matcher.parse_reflects full (Parser.run_reflects known placed)

end

namespace Store.Consistent

variable {names : Names} {src : Text} {owners : Owners} {s t : Store}

theorem perform (consistent : s.Consistent .whole names src owners) {r : Request} (on : r.On src)
    {fuel : Nat} {x : Except Fault Answer} (answered : (r.perform fuel).run s = some (x, t)) :
    ∃ later, t.Consistent .whole names src later := by
  cases r with
  | define name g => exact on.elim
  | run g text pos =>
      subst on
      have ran : Matcher.Corresponds (.reflection .whole names text owners) (.identity text) _ _ :=
        Grammar.run_reflects True.intro (Scope.whole_allows g) fuel
      obtain ⟨later, _, _, _, kept, _⟩ := Reflects.map (ran pos pos rfl) Answer.outcome owners s
        (List.prefix_refl _) consistent x t (by rwa [Request.perform_run] at answered)
      exact ⟨later, kept⟩
  | parse g text full =>
      subst on
      have ran : Reflects .whole names text owners _ _ _ :=
        Grammar.parse_reflects True.intro (Scope.whole_allows g) fuel full
      obtain ⟨later, _, _, _, kept, _⟩ := Reflects.map ran Answer.parsed owners s
        (List.prefix_refl _) consistent x t (by rwa [Request.perform_parse] at answered)
      exact ⟨later, kept⟩
  | inspect g =>
      obtain ⟨later, y, u, built, _, kept, _⟩ :=
        Grammar.parser_builds (Scope.whole_allows g) s consistent
      simp only [Request.perform, Action.run_bind, built] at answered
      cases y <;> cases answered <;> exact ⟨later, kept⟩
  | setDebug on =>
      cases answered
      exact ⟨owners, consistent.congr rfl⟩
  | takeEvents =>
      cases answered
      exact ⟨owners, consistent.congr rfl⟩

theorem leads (consistent : s.Consistent .whole names src owners) {rs : List Request}
    (on : ∀ r ∈ rs, r.On src) (leads : s.Leads rs t) :
    ∃ later, t.Consistent .whole names src later := by
  induction leads generalizing owners with
  | nil s => exact ⟨owners, consistent⟩
  | @cons s t u r rs fuel x answered rest ih =>
      obtain ⟨later, kept⟩ := consistent.perform (on r (by simp)) answered
      exact ih kept fun r member => on r (by simp [member])

theorem answers_iff {scope : Scope} (consistent : s.Consistent scope names src owners)
    (known : scope.outcomes) {g : Grammar} (allowed : g.All scope.Allows) {pos : Int}
    {x : Except Fault Answer} :
    s.Answers (.run g src pos) x ↔ ∃ y, g.Means names src pos y ∧ x = y.map Answer.outcome := by
  constructor
  · intro answers
    obtain ⟨fuel, t, answered⟩ := answers
    have ran : Matcher.Corresponds (.reflection scope names src owners) (.identity src) _ _ :=
      Grammar.run_reflects known allowed fuel
    obtain ⟨later, y, k, _, _, agree, settled⟩ :=
      Reflects.map (ran pos pos rfl) Answer.outcome owners s (List.prefix_refl _)
        consistent x t (by rwa [Request.perform_run] at answered)
    refine ⟨y, ⟨_, settled k (Nat.le_refl k)⟩, ?_⟩
    cases agree with
    | error e => rfl
    | ok related =>
        obtain ⟨r, same, rfl⟩ := related
        rw [Alignment.outcomes_identity same]
        rfl
  · intro meant
    obtain ⟨y, ⟨fuel, means⟩, rfl⟩ := meant
    obtain ⟨later, z, t, run, _, _, agree⟩ :=
      Grammar.run_realizes known allowed fuel pos pos rfl y means owners s (List.prefix_refl _)
        consistent
    obtain rfl : y = z := Alignment.agree_identity_iff.mp agree
    refine ⟨fuel, t, ?_⟩
    rw [Request.perform_run, Action.run_bind, run]
    cases y <;> rfl

end Store.Consistent

namespace Store

variable {rs runs : List Request} {s t : Store} {src : Text} {g : Grammar} {pos : Int}

/-- A run on a text, after what names stand for is settled and after other requests on that text, is
answered with what its grammar means. -/
theorem answers_iff_means (prepare : ∀ r ∈ rs, r.Prepares) (prepared : empty.Leads rs s)
    (on : ∀ r ∈ runs, r.On src) (ran : s.Leads runs t) {x : Except Fault Answer} :
    t.Answers (.run g src pos) x ↔
      ∃ y, g.Means (Request.namesAfter .empty rs) src pos y ∧ x = y.map Answer.outcome := by
  obtain ⟨owners, consistent⟩ := (empty_prepared.leads prepare prepared).consistent
  obtain ⟨later, kept⟩ := (consistent src).leads on ran
  exact kept.answers_iff True.intro (Scope.whole_allows g)

theorem answers_map_iff_means (prepare : ∀ r ∈ rs, r.Prepares) (prepared : empty.Leads rs s)
    (on : ∀ r ∈ runs, r.On src) (ran : s.Leads runs t) {x : Except Fault Outcome} :
    t.Answers (.run g src pos) (x.map Answer.outcome) ↔
    g.Means (Request.namesAfter .empty rs) src pos x := by
  rw [answers_iff_means prepare prepared on ran]
  constructor
  · intro meant
    obtain ⟨y, means, equal⟩ := meant
    have same : x = y := by
      cases x <;> cases y <;> cases equal <;> rfl
    rwa [same]
  · exact fun means => ⟨x, means, rfl⟩

/-- A run on a text comes to an outcome. -/
def RunsTo (t : Store) (src : Text) (g : Grammar) (pos : Int) (r : Outcome) : Prop :=
  t.Answers (.run g src pos) (.ok (.outcome r))

theorem runsTo_iff_means (prepare : ∀ r ∈ rs, r.Prepares) (prepared : empty.Leads rs s)
    (on : ∀ r ∈ runs, r.On src) (ran : s.Leads runs t) {r : Outcome} :
    t.RunsTo src g pos r ↔ g.Means (Request.namesAfter .empty rs) src pos (.ok r) :=
  answers_map_iff_means prepare prepared on ran (x := .ok r)

theorem runsTo_of_planned (prepare : ∀ r ∈ rs, r.Prepares) (prepared : empty.Leads rs s)
    (on : ∀ r ∈ runs, r.On src) (ran : s.Leads runs t) {p : Parser}
    (planned : g.planned (Request.namesAfter .empty rs) = .ok p) {fuel : Nat} {r : Outcome}
    (ended : (p.meaning (Request.namesAfter .empty rs) fuel src pos).run () = some (.ok r, ())) :
    t.RunsTo src g pos r :=
  (runsTo_iff_means prepare prepared on ran).mpr
    (Grammar.means_ok_iff.mpr ⟨p, planned, fuel, ended⟩)

/-- A grammar that can be looked at is planned to be a parser. -/
theorem planned_of_inspected (prepare : ∀ r ∈ rs, r.Prepares) (prepared : empty.Leads rs s)
    (on : ∀ r ∈ runs, r.On src) (ran : s.Leads runs t) {y : Answer}
    (made : t.Answers (.inspect g) (.ok y)) :
    ∃ p, g.planned (Request.namesAfter .empty rs) = .ok p := by
  obtain ⟨owners, consistent⟩ := (empty_prepared.leads prepare prepared).consistent
  obtain ⟨later, kept⟩ := (consistent src).leads on ran
  obtain ⟨_, r, u, built, _, _, agree⟩ := Grammar.parser_builds (Scope.whole_allows g) t kept
  obtain ⟨fuel, v, inspected⟩ := made
  rw [Request.perform, Action.run_bind, built] at inspected
  generalize g.planned (Request.namesAfter .empty rs) = x at agree ⊢
  cases agree with
  | error e => cases inspected
  | ok related => exact ⟨_, rfl⟩

theorem RunsTo.unique (prepare : ∀ r ∈ rs, r.Prepares) (prepared : empty.Leads rs s)
    (on : ∀ r ∈ runs, r.On src) (ran : s.Leads runs t) {r r' : Outcome}
    (first : t.RunsTo src g pos r) (second : t.RunsTo src g pos r') : r = r' := by
  rw [runsTo_iff_means prepare prepared on ran] at first second
  exact Except.ok.inj (first.unique second)

end Store

end Descent
