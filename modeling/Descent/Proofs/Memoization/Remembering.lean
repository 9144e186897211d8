import Descent.Proofs.Conduct.Session
import Descent.Proofs.Memoization.Watching

/-!
Memories within a session. Main statement: each memory answers with what it came to first at a
position, and runs the parser inside, once, only where it has come to nothing yet. This is so for
whatever is requested, and no two memories are one.
-/

namespace Descent

open Visit in
/-- What there is to say of the uses of one memory, in the order in which they came to an end, up to
a store. -/
structure Remembers (cell : Nat) (visits : List Visit) (t : Store) : Prop where
  /-- Where there was an outcome before, it is the answer, whatever the parser inside would do. -/
  again {pre post : List Visit} {v : Visit} {r : Outcome} : visits = pre ++ v :: post →
    v.cell = cell →
    first v.place pre = some r → v.answer = .ok r ∧
      (∀ p, (Matcher.memoize v.cell v.trace v.name? p v.src v.pos).run v.before =
        some (v.answer, v.after)) ∧
      ∃ ms, v.after = { v.before with log := v.before.log ++ ms }
  anew {pre post : List Visit} {v : Visit} : visits = pre ++ v :: post → v.cell = cell →
    first v.place pre = none → v.after.outcomeAt? cell v.pos = v.answer.toOption ∧
      ∃ u, (v.inner v.src v.pos).run v.before = some (v.answer, u) ∧
        v.after = u.rememberAnswer cell v.pos v.answer
  entries {pre post : List Visit} {v : Visit} : visits = pre ++ v :: post →
    ∀ pos, v.after.outcomeAt? cell pos = first (cell, pos) (pre ++ [v])
  ends (pos : Int) : t.outcomeAt? cell pos = first (cell, pos) visits
  lasting {pre post : List Visit} {v : Visit} : visits = pre ++ v :: post →
    ∀ pos r, v.after.outcomeAt? cell pos = some r →
      (∀ w ∈ post, w.after.outcomeAt? cell pos = some r) ∧ t.outcomeAt? cell pos = some r
  next (trace : Bool) (name? : Option Text) (p : Matcher Store) (src : Text) (pos : Int) :
    (∀ r, first (cell, pos) visits = some r → (Matcher.memoize cell trace name? p src pos).run t =
      some (.ok r, { t with log := t.log ++ if trace then [.memoHit name? pos] else [] })) ∧
    (first (cell, pos) visits = none → (Matcher.memoize cell trace name? p src pos).run t =
      ((p src pos).run t).map fun (x, u) => (x, u.rememberAnswer cell pos x))
  once : (produced cell visits).Nodup
  bounded (n : Nat) : (∀ v ∈ visits, v.cell = cell → 0 ≤ v.pos ∧ v.pos ≤ n) →
    (produced cell visits).length ≤ n + 1

namespace History

open Visit

variable {s t : Store} {visits : List Visit} {cell : Nat}

theorem remembers (history : History s visits t) (fresh : ∀ pos, s.outcomeAt? cell pos = none)
    (apart : ∀ v ∈ visits, v.cell = cell → v.place ∉ v.meanwhile) : Remembers cell visits t where
  again {pre post v r} split same known := by
    obtain ⟨early, l, -, -, -, asked, -⟩ := history.of_append split
    rw [← history.entry_before fresh apart split same] at known
    obtain ⟨answer, after⟩ := asked.reuse known
    refine ⟨answer, fun p => ?_, _, after⟩
    rw [Matcher.run_memoize_found known, answer, after]
  anew {pre post v} split same unknown := by
    obtain ⟨early, l, -, -, -, asked, -⟩ := history.of_append split
    have known := history.entries_after fresh apart split v.pos
    subst same
    rw [first_append, show (v.cell, v.pos) = v.place from rfl, unknown, first_single, if_pos rfl,
      Option.none_or] at known
    rw [← history.entry_before fresh apart split rfl] at unknown
    exact ⟨known, asked.compute unknown⟩
  entries split pos := history.entries_after fresh apart split pos
  ends pos := by rw [history.entries apart, fresh, Option.none_or]
  lasting {pre post v} split pos r found := by
    rw [history.entries_after fresh apart split pos] at found
    constructor
    · intro w member
      obtain ⟨mid, rest, rfl⟩ := List.append_of_mem member
      have later : visits = pre ++ [v] ++ mid ++ w :: rest := by simp [split]
      rw [history.entries_after fresh apart later pos, List.append_assoc _ mid, first_append, found,
        Option.some_or]
    · have whole : visits = pre ++ [v] ++ post := by simp [split]
      rw [history.entries apart, fresh, Option.none_or, whole, first_append, found, Option.some_or]
  next trace name? p src pos := by
    have entry : t.outcomeAt? cell pos = first (cell, pos) visits := by
      rw [history.entries apart, fresh, Option.none_or]
    exact ⟨fun r known => Matcher.run_memoize_found (entry.trans known) p,
      fun unknown => Matcher.run_memoize_missing (entry.trans unknown) p⟩
  once := history.produced_nodup fresh apart
  bounded n inside := history.produced_length_le fresh apart inside

end History

/-! Sessions with a record. -/

def Request.watch (fuel : Nat) : Request → Action Watched Answer
  | .run g src pos => do
    let p ← g.parser.watched
    return .outcome (← p.watch fuel src pos)
  | .parse g src full => do
    let p ← g.parser.watched
    let r ← (if full then Matcher.eof (p.watch fuel) else p.watch fuel) src 0
    (r.conclude src).watched
  | r => (r.perform fuel).watched

namespace Request

theorem watch_erases (fuel : Nat) (r : Request) : Erases Eq (r.watch fuel) (r.perform fuel) := by
  cases r with
  | run g src pos =>
      refine (Erases.watched g.parser).bind fun p _ equal => ?_
      cases equal
      refine Erases.bind (p.watch_erases fuel pos pos rfl) fun r _ related => ?_
      exact .pure (congrArg Answer.outcome (Alignment.outcomes_identity related))
  | parse g src full =>
      rw [perform_parse_eq, Grammar.attempt, bind_assoc]
      refine (Erases.watched g.parser).bind fun p _ equal => ?_
      cases equal
      refine Erases.bind (Matcher.eofIf_corresponds full (p.watch_erases fuel) 0 0 rfl)
        fun r _ related => ?_
      rw [Alignment.outcomes_identity related]
      exact .watched _
  | define name g | inspect g | setDebug on | takeEvents => exact .watched _

theorem watch_records (fuel : Nat) (r : Request) : Records Eq (r.perform fuel) (r.watch fuel) := by
  cases r with
  | run g src pos =>
      refine (Records.parser g).bind fun p _ equal => ?_
      cases equal
      refine Records.bind (p.watch_records fuel pos pos rfl) fun r _ related => ?_
      exact .pure (congrArg Answer.outcome (Alignment.outcomes_identity related))
  | parse g src full =>
      rw [perform_parse_eq, Grammar.attempt, bind_assoc]
      refine (Records.parser g).bind fun p _ equal => ?_
      cases equal
      refine Records.bind (Matcher.eofIf_corresponds full (p.watch_records fuel) 0 0 rfl)
        fun r _ related => ?_
      rw [Alignment.outcomes_identity related]
      refine .watched fun s x t ended => ?_
      rw [Outcome.run_conclude] at ended
      cases ended
      rfl
  | define name g =>
      have named (a : Argument) :
          Action.Keeps Store.outcomes (Action.modify (Store.keepName name a)) :=
        .modify fun _ => rfl
      exact .watched (g.build_keeps.outcomes.bind fun a => (named a).bind fun _ => .pure _)
  | inspect g => exact .watched (g.parser_keeps.outcomes.bind fun _ => .pure _)
  | setDebug on =>
      refine .watched (Action.Keeps.bind (.modify ?_) fun _ => .pure _)
      exact fun _ => rfl
  | takeEvents =>
      refine .watched
        (Action.Keeps.state.bind fun _ => Action.Keeps.bind (.modify ?_) fun _ => .pure _)
      exact fun _ => rfl

end Request

namespace Store

inductive Uses : Store → List Request → List Visit → Store → Prop
  | nil (s : Store) : Uses s [] [] s
  | cons {s t u : Store} {r : Request} {rs : List Request} {fuel : Nat} {x : Except Fault Answer}
      {l k : List Visit} (answered : (r.watch fuel).run ⟨s, []⟩ = some (x, ⟨t, l⟩))
      (rest : Uses t rs k u) :
      Uses s (r :: rs) (l ++ k) u

variable {s t : Store} {rs : List Request} {visits : List Visit}

theorem leads_iff_uses : s.Leads rs t ↔ ∃ visits, s.Uses rs visits t := by
  constructor
  · intro leads
    induction leads with
    | nil s => exact ⟨[], .nil s⟩
    | @cons s t u r rs fuel x answered rest ih =>
        obtain ⟨k, uses⟩ := ih
        obtain ⟨y, l, -, -, -, watched⟩ := r.watch_records fuel s x t answered
        exact ⟨l ++ k, .cons (watched []) uses⟩
  · rintro ⟨visits, uses⟩
    induction uses with
    | nil s => exact .nil s
    | @cons s t u r rs fuel x l k answered rest ih =>
        obtain ⟨y, -, performed⟩ := r.watch_erases fuel _ x _ answered
        exact .cons performed ih

theorem Uses.history (uses : s.Uses rs visits t) :
    History s visits t ∧ ∀ v ∈ visits, ∃ p n, v.Around p n := by
  induction uses with
  | nil s => exact ⟨.still rfl, List.forall_mem_nil _⟩
  | @cons s t u r rs fuel x l k answered rest ih =>
      obtain ⟨y, -, performed⟩ := r.watch_erases fuel _ x _ answered
      obtain ⟨z, l', -, history, around, watched⟩ := r.watch_records fuel s y t performed
      cases answered.symm.trans (watched [])
      exact ⟨history.append ih.1, List.forall_mem_append.mpr ⟨around, ih.2⟩⟩

end Store

theorem Parser.watch_memoize {cell : Nat} {trace : Bool} {p : Parser} {n : Nat} {src : Text}
    {pos : Int} {w u : Watched} {x : Except Fault Outcome}
    (ran : ((Parser.memoize cell trace p).watch n src pos).run w = some (x, u)) :
    ∃ inner inside, inner src pos = p.run n src pos ∧ u.visits = w.visits ++ (inside ++
      [⟨cell, trace, p.name?, inner, src, pos, w.store, x, u.store, inside.map Visit.place⟩]) := by
  rw [watch_eq_matcher, Interpretation.matcher, ← watch_eq_matcher] at ran
  obtain ⟨⟨y, t⟩, -, ended⟩ := Option.map_eq_some_iff.mp ran
  cases ended
  exact ⟨_, _, unwatched_watch (watch_records n p) pos, rfl⟩

/-! Cells. -/

def Conduct.growing : Conduct where
  __ := loose
  Turns s t := s.nextCell ≤ t.nextCell
  quiet cells _ := cells
  trans := Nat.le_trans
  memoize {cell trace name? p src pos s t x} inner ran := by
    rcases Matcher.run_memoize_cases ran with ⟨r, log, -, -, rfl⟩ | ⟨-, u, answered, rfl⟩
    · exact Nat.le_refl _
    · have cells := inner x u answered
      cases x <;> exact cells

theorem Conduct.growing_open : growing.Open :=
  ⟨fun _ => True.intro, fun _ => True.intro, fun _ _ => True.intro⟩

namespace Store

variable {s t u v : Store}

theorem Leads.grows {rs : List Request} (sound : Conduct.growing.Sound s) (leads : s.Leads rs t) :
    Conduct.growing.Sound t ∧ s.nextCell ≤ t.nextCell :=
  sound.leads (fun r _ => Conduct.growing_open.request r) leads

theorem build_memoize (sound : Conduct.growing.Sound s)
    {g : Grammar} {cell : Nat} {trace : Bool} {p : Parser}
    (built : (Grammar.memoize g).build.run s = some (.ok (.parser (.memoize cell trace p)), t)) :
    Conduct.growing.Sound t ∧ s.nextCell ≤ cell ∧ cell < t.nextCell := by
  have permitted (g : Grammar) := Conduct.growing_open.permits g
  obtain ⟨kept, -⟩ := Grammar.build_holds (permitted (.memoize g)) s sound _ t built
  refine ⟨kept, ?_⟩
  rw [Grammar.build] at built
  rcases Action.run_bind_eq_some.mp built with ⟨e, -, absurd⟩ | ⟨a, u, part, continued⟩
  · cases absurd
  · obtain ⟨-, cells, -⟩ := Grammar.build_holds (permitted g) s sound _ u part
    rcases Action.run_bind_eq_some.mp continued with ⟨e, -, absurd⟩ | ⟨q, v, given, continued⟩
    · cases absurd
    · obtain ⟨-, rfl⟩ :=
        Prod.mk.inj (Option.some.inj ((Action.run_ofExcept a.toParser u).symm.trans given))
      cases continued
      exact ⟨cells, Nat.lt_succ_self _⟩

end Store

/-- What a session that ends with a store makes of memories. -/
structure Request.Remembered (rs : List Request) (t : Store) : Prop where
  recorded : ∃ visits, Store.empty.Uses rs visits t
  history {visits : List Visit} : Store.empty.Uses rs visits t →
    History .empty visits t ∧ ∀ v ∈ visits, ∃ p n, v.Around p n
  remembers {visits : List Visit} {cell : Nat} : Store.empty.Uses rs visits t →
    (∀ v ∈ visits, v.cell = cell → v.place ∉ v.meanwhile) → Remembers cell visits t
  /-- A memory that is run is used, after it was used in the course of it. -/
  asked {name : Text} {cell : Nat} {trace : Bool} {p : Parser} {src : Text} {pos : Int} {n : Nat}
    {x : Except Fault Answer} {u : Store} {visits : List Visit} :
    t.named? name = some (.parser (.memoize cell trace p)) →
    ((Request.run (.ref name) src pos).watch n).run ⟨t, []⟩ = some (x, ⟨u, visits⟩) →
    ∃ y inner inside, x = y.map Answer.outcome ∧ inner src pos = p.run n src pos ∧
      visits = inside ++
      [⟨cell, trace, p.name?, inner, src, pos, t, y, u, inside.map Visit.place⟩]
  apart {g h : Grammar} {c d : Nat} {first second : Bool} {p q : Parser} {u v w : Store}
    {more : List Request} :
    (Grammar.memoize g).build.run t = some (.ok (.parser (.memoize c first p)), u) →
      u.Leads more v →
    (Grammar.memoize h).build.run v = some (.ok (.parser (.memoize d second q)), w) → c ≠ d

namespace Store

theorem memories_remember :
    (∀ (cell : Nat) (s t : Store) (visits : List Visit), History s visits t →
      (∀ pos, s.outcomeAt? cell pos = none) →
      (∀ v ∈ visits, v.cell = cell → v.place ∉ v.meanwhile) → Remembers cell visits t) ∧
    ∀ (rs : List Request) (t : Store), empty.Leads rs t → Request.Remembered rs t := by
  refine ⟨fun cell s t visits history => history.remembers, fun rs t leads => ?_⟩
  exact {
    recorded := leads_iff_uses.mp leads
    history := Uses.history
    remembers := fun uses apart => uses.history.1.remembers (fun _ => rfl) apart
    asked := fun {name cell trace p src pos n x u visits} found ran => by
      have looked : (Grammar.ref name).parser.run t = some (.ok (.memoize cell trace p), t) := by
        rw [Grammar.parser, Grammar.build]
        simp only [bind_assoc, Action.run_bind, Action.run_state, found]
        rfl
      rw [Request.watch, Action.run_bind, Action.run_watched looked []] at ran
      rcases Action.run_bind_eq_some.mp ran with ⟨e, failed, rfl⟩ | ⟨r, w, answered, ended⟩
      · obtain ⟨inner, inside, same, rest⟩ := Parser.watch_memoize failed
        exact ⟨.error e, inner, inside, rfl, same, rest⟩
      · obtain ⟨inner, inside, same, rest⟩ := Parser.watch_memoize answered
        cases ended
        exact ⟨.ok r, inner, inside, rfl, same, rest⟩
    apart := fun {g h c d first second p q u v w more} built between built' same => by
      obtain ⟨sound, -⟩ := leads.grows .empty
      obtain ⟨sound, -, taken⟩ := build_memoize sound built
      obtain ⟨sound, cells⟩ := between.grows sound
      obtain ⟨-, taken', -⟩ := build_memoize sound built'
      omega }

/-- A memory that asks itself further on, around a parser that stops with a fault on the empty
text. -/
private def climbing : Grammar :=
  .memoize (.lazy (.alt [.seq [.char ['a'], .ref ['x']], .custom fun src pos =>
    match src with
    | [] => .error (.raised ['n', 'o'])
    | _ => .ok (.success (.text ['b']) (pos + 1))]))

private def climbed : List Request := [.define ['x'] climbing, .run (.ref ['x']) [] 0,
  .run (.ref ['x']) ['a', 'b'] 0, .run (.ref ['x']) [] 1]

theorem memories_remember_climbing :
    ∃ t visits, empty.Uses climbed visits t ∧ Remembers 1 visits t ∧ Request.Remembered climbed t ∧
      (visits.map fun v => (v.src, v.pos, v.answer.isOk, v.produces)) =
        ([([], 0, false, false), (['a', 'b'], 1, true, true), (['a', 'b'], 0, true, true),
          ([], 1, true, false)] : List (Text × Int × Bool × Bool)) ∧
      Visit.produced 1 visits = [1, 0] ∧ (Visit.produced 1 visits).length ≤ 2 + 1 := by
  have step (r : Request) (s : Store) {x : Except Fault Answer} {t u : Store} {rs : List Request}
      {l k : List Visit} (answered : (r.watch 9).run ⟨s, []⟩ = some (x, ⟨t, l⟩))
        (rest : t.Uses rs k u) :
      s.Uses (r :: rs) (l ++ k) u := .cons answered rest
  have uses : empty.Uses climbed _ _ :=
    step _ _ rfl (step _ _ rfl (step _ _ rfl (step _ _ rfl (.nil _))))
  obtain ⟨alone, sessions⟩ := memories_remember
  have session := sessions _ _ (leads_iff_uses.mpr ⟨_, uses⟩)
  have remembers := alone 1 _ _ _ (session.history uses).1 (fun _ => rfl) (by decide)
  exact ⟨_, _, uses, remembers, session, rfl, rfl, remembers.bounded 2 (by decide)⟩

end Store

end Descent
