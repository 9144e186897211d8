import Descent.Proofs.Debug.Running
import Descent.Proofs.Late.History
import Descent.Proofs.Session.Cells

/-!
Tracing parsers that are built late: parsers can be run in a way that puts each such use on record.
Main statement: every run comes to the same that way, and what is on record are uses of parsers with
one factory each.
-/

namespace Descent

/-- A store, and which parsers that are built late were used so far. -/
structure Traced where
  store : Store
  uses : List Use

namespace Action

variable {α : Type}

/-- Does the same, and puts nothing on record. -/
def traced (m : Action Store α) : Action Traced α := fun w =>
  (m.run w.store).map fun (x, t) => (x, ⟨t, w.uses⟩)

/-- What is put on record from a store on. -/
def usesFrom (m : Action Traced α) (s : Store) : List Use :=
  match m.run ⟨s, []⟩ with
  | some (_, w) => w.uses
  | none => []

theorem run_traced {m : Action Store α} {s t : Store} {x : Except Fault α}
    (ran : m.run s = some (x, t)) (l : List Use) : m.traced.run ⟨s, l⟩ = some (x, ⟨t, l⟩) := by
  change (m.run s).map _ = _
  rw [ran]
  rfl

theorem usesFrom_of_run {m : Action Traced α} {s : Store} {w : Traced} {x : Except Fault α}
    (ran : m.run ⟨s, []⟩ = some (x, w)) : m.usesFrom s = w.uses := by
  rw [usesFrom, ran]

end Action

namespace Matcher

/-- Is used as ever, and puts that on record, before what is put on record in the course of it. -/
def traced (cell : Nat) (factory : Action Store Parser) (plain : Parser → Matcher Store)
    (enter : Parser → Matcher Traced) : Matcher Traced := fun src pos => fun w =>
  ((lazy cell factory plain src pos).run w.store).map fun (x, t) =>
    (x, ⟨t, w.uses ++ ⟨cell, factory, plain, src, pos, w.store, x, t⟩ ::
      Action.usesFrom (do enter (← (opening cell factory).traced) src pos) w.store⟩)

end Matcher

namespace Interpretation

def tracing (plain : Parser → Matcher Store) (enter : Parser → Matcher Traced) (fuel : Nat) :
    Interpretation Traced where
  fuel := fuel
  label := id
  call f v := (f.run v).traced
  enter g := do return enter (← g.parser.traced)
  memoize cell trace name? p := fun src pos => do
    match (← Action.state.traced).outcomeAt? cell pos with
    | some r =>
      (Action.writeIf trace (.memoHit name? pos)).traced
      return r
    | none =>
      let r ← p src pos
      (Action.modify (Store.remember cell pos r)).traced
      return r
  lazy cell g := Matcher.traced cell g.parser plain enter
  named label trace p := fun src pos => do
    (Action.writeIf trace (.trying label pos)).traced
    Matcher.relabel label p src pos
  probe event p := fun src pos => do
    (Action.modify (Store.record (event ++ Text.ofString "@" ++ Numeral.decimal pos))).traced
    p src pos

end Interpretation

namespace Parser

/-- Runs a parser, and puts the uses of parsers that are built late on record. -/
def trace : Nat → Parser → Matcher Traced
  | 0 => (Interpretation.tracing (late run 0) (fun _ _ _ => Action.exhausted) 0).matcher
  | fuel + 1 => (Interpretation.tracing (late run (fuel + 1)) (trace fuel) (fuel + 1)).matcher

theorem trace_eq_matcher (fuel : Nat) (p : Parser) :
    p.trace fuel = (Interpretation.tracing (late run fuel) (late trace fuel) fuel).matcher p := by
  cases fuel <;> rfl

end Parser

/-- The parser in use belongs to its cell, and is run with some fuel or other. -/
def Use.Of (owners : Owners) (u : Use) : Prop :=
  ∃ g n, owners[u.cell]? = some (.lazy u.cell g) ∧ u.factory = g.parser ∧
    u.enter = Parser.late Parser.run n

theorem Use.Of.mono {owners later : Owners} (longer : owners <+: later) {u : Use}
    (belongs : u.Of owners) :
    u.Of later := by
  obtain ⟨g, n, owner, rest⟩ := belongs
  exact ⟨g, n, Owners.getElem?_of_prefix longer owner, rest⟩

theorem Action.Keeps.targets {α : Type} {m : Action Store α} (keeps : m.Keeps Store.memory) :
    m.Keeps Store.targets :=
  fun s x t run => congrArg (fun memory => memory.2.2) (keeps s x t run)

/-- From any store with owners: whatever the first computation comes to, the second comes to with a
record of it. -/
def Traces (base : Owners) {α β : Type} (A : α → β → Prop) (m : Action Store α)
    (n : Action Traced β) : Prop :=
  ∀ owners s, base <+: owners → s.Owned owners → ∀ x t, m.run s = some (x, t) →
    ∃ later y uses, owners <+: later ∧ t.Owned later ∧ Agree A x y ∧ Unfolding s uses t ∧
      (∀ u ∈ uses, u.Of later) ∧ ∀ l, n.run ⟨s, l⟩ = some (y, ⟨t, l ++ uses⟩)

namespace Traces

variable {α β γ δ : Type} {A : α → β → Prop} {B : γ → δ → Prop} {base : Owners}

theorem pure {a : α} {b : β} (related : A a b) : Traces base A (Pure.pure a) (Pure.pure b) := by
  intro owners s _ owned x t run
  cases run
  exact ⟨owners, _, [], List.prefix_refl _, owned, .ok related, .still rfl, List.forall_mem_nil _,
    fun l => by rw [List.append_nil]; rfl⟩

theorem bind {m : Action Store α} {n : Action Traced β} {f : α → Action Store γ}
    {g : β → Action Traced δ} (first : Traces base A m n)
    (next : ∀ a b, A a b → Traces base B (f a) (g b)) :
    Traces base B (m >>= f) (n >>= g) := by
  intro owners s longer owned x t run
  rcases Action.run_bind_eq_some.mp run with ⟨e, failed, rfl⟩ | ⟨a, u, answered, continued⟩
  · obtain ⟨later, y, uses, further, kept, agree, unfolding, belong, traced⟩ :=
      first owners s longer owned _ t failed
    cases agree
    refine ⟨later, _, uses, further, kept, .error e, unfolding, belong, fun l => ?_⟩
    exact Action.run_bind_eq_some.mpr (.inl ⟨e, traced l, rfl⟩)
  · obtain ⟨later, y, uses, further, kept, agree, unfolding, belong, traced⟩ :=
      first owners s longer owned _ u answered
    cases agree with
    | ok related =>
        obtain ⟨last, z, others, furthest, kept, agree, onward, belong', traced'⟩ :=
          next _ _ related later u (longer.trans further) kept x t continued
        refine ⟨last, z, uses ++ others, further.trans furthest, kept, agree,
          unfolding.append onward, ?_, fun l => ?_⟩
        · exact List.forall_mem_append.mpr
            ⟨fun v member => (belong v member).mono furthest, belong'⟩
        · rw [← List.append_assoc]
          exact Action.run_bind_eq_some.mpr (.inr ⟨_, _, traced l, traced' (l ++ uses)⟩)

theorem still {m : Action Store α} (keeps : m.Keeps Store.targets)
    (owned : ∀ owners s x t, s.Owned owners → m.run s = some (x, t) → ∃ later, owners <+: later ∧
      t.Owned later) :
    Traces base Eq m m.traced := by
  intro owners s _ known x t run
  obtain ⟨later, longer, kept⟩ := owned owners s x t known run
  refine ⟨later, x, [], longer, kept, agree_eq_iff.mpr rfl, .still (keeps s x t run),
    List.forall_mem_nil _, fun l => ?_⟩
  rw [List.append_nil, Action.run_traced run]

/-- What takes no cells and remembers nothing. -/
theorem quiet {m : Action Store α} (keeps : m.Keeps Store.holdings) : Traces base Eq m m.traced :=
  still (fun s x t run => congrArg (fun holdings => holdings.2.2.2) (keeps s x t run))
    fun owners s x t owned run => ⟨owners, List.prefix_refl _, owned.congr (keeps s x t run)⟩

theorem writeIf (flag : Bool) (m : Message) :
    Traces base Eq (Action.writeIf flag m) (Action.writeIf flag m).traced :=
  quiet (Action.writeIf_keeps flag m)

theorem callback (f : Callback α) (v : Value) : Traces base Eq (f.run v) (f.run v).traced :=
  quiet (f.run_keeps v)

theorem record (event : Text) :
    Traces base Eq (Action.modify (Store.record event))
      (Action.modify (Store.record event)).traced :=
  quiet (Store.record_keeps event)

/-- An outcome is remembered in a cell that is owned. -/
theorem remember {cell : Nat} {trace : Bool} {p : Parser}
    (owner : base[cell]? = some (.memoize cell trace p)) (pos : Int) (r : Outcome) :
    Traces base Eq (Action.modify (Store.remember cell pos r))
      (Action.modify (Store.remember cell pos r)).traced := by
  intro owners s longer owned x t run
  cases run
  refine ⟨owners, _, [], List.prefix_refl _,
    owned.remember (Owners.getElem?_of_prefix longer owner) pos r, agree_eq_iff.mpr rfl, .still rfl,
    List.forall_mem_nil _, fun l => ?_⟩
  rw [List.append_nil]
  rfl

theorem raise (e : Fault) : Traces base A (Action.raise e) (Action.raise e) := by
  intro owners s _ owned x t run
  cases run
  exact ⟨owners, _, [], List.prefix_refl _, owned, .error e, .still rfl, List.forall_mem_nil _,
    fun l => by rw [List.append_nil]; rfl⟩

theorem parser {g : Grammar} {f : Parser → Action Store α} {f' : Parser → Action Traced β}
    (next : ∀ later p, base <+: later → p.All (Parser.Owned later) → Traces later A (f p) (f' p)) :
    Traces base A (g.parser >>= f) (g.parser.traced >>= f') := by
  intro owners s longer owned x t run
  rcases Action.run_bind_eq_some.mp run with ⟨e, failed, rfl⟩ | ⟨p, u, built, continued⟩
  · obtain ⟨later, further, kept, -⟩ := owned.parser failed
    have same : t.targets = s.targets := g.parser_keeps.targets s _ t failed
    refine ⟨later, _, [], further, kept, .error e, .still same, List.forall_mem_nil _, fun l => ?_⟩
    rw [List.append_nil]
    exact Action.run_bind_eq_some.mpr (.inl ⟨e, Action.run_traced failed l, rfl⟩)
  · obtain ⟨later, further, kept, ownedParser⟩ := owned.parser built
    have same : u.targets = s.targets := g.parser_keeps.targets s _ u built
    obtain ⟨last, y, uses, furthest, kept, agree, unfolding, belong, traced⟩ :=
      next later p (longer.trans further) (ownedParser p rfl) later u
        (List.prefix_refl _) kept x t continued
    refine ⟨last, y, uses, further.trans furthest, kept, agree, ?_, belong, fun l => ?_⟩
    · exact (Unfolding.still same).append unfolding
    · exact Action.run_bind_eq_some.mpr (.inr ⟨p, _, Action.run_traced built l, traced l⟩)

end Traces

def Correspondence.tracing (base : Owners) : Correspondence Unit Store Traced where
  Rel A m n := Traces base A m (n ())
  pure related := .pure related
  bind first next := Traces.bind first next
  raise e := .raise e
  exhausted n _ _ _ _ _ _ run := by cases run

section

variable {src : Text} {base : Owners} {plain : Parser → Matcher Store}
  {enter : Parser → Matcher Traced}

open Correspondence

theorem lazy_traces (run : ∃ n, plain = Parser.late Parser.run n)
    (alike : ∀ later p, p.All (Parser.Owned later) →
      Matcher.Corresponds (tracing later) (.identity src) (plain p) fun _ => enter p)
    {cell : Nat} {g : Grammar} (owner : base[cell]? = some (.lazy cell g)) :
    Matcher.Corresponds (tracing base) (.identity src) (Matcher.lazy cell g.parser plain)
      fun _ => Matcher.traced cell g.parser plain enter := by
  intro i j place owners s longer owned x t ran
  obtain rfl := place
  let u : Use := ⟨cell, g.parser, plain, src, i, s, x, t⟩
  have asked : u.Asked := ran
  have building {x : Except Fault Parser} {v : Store} (called : g.parser.run s = some (x, v)) :
      Unfolding s [] v := .still (g.parser_keeps.targets s x v called)
  have results : Agree (Alignment.identity src).Outcomes x x := Alignment.agree_identity_iff.mpr rfl
  obtain ⟨n, entered⟩ := run
  have belongs {later : Owners} (further : owners <+: later) : u.Of later :=
    ⟨g, n, Owners.getElem?_of_prefix (longer.trans further) owner, rfl, entered⟩
  -- What is on record in the course of it is what the parser that was opened puts there.
  have recorded {l : List Use} {y : Except Fault Outcome}
      (inside : Action.run (do enter (← (Matcher.opening cell g.parser).traced) src i) ⟨s, []⟩ =
        some (y, ⟨t, l⟩)) (before : List Use) :
      (Matcher.traced cell g.parser plain enter src i).run ⟨s, before⟩ =
        some (x, ⟨t, before ++ u :: l⟩) := by
    refine Option.map_eq_some_iff.mpr ⟨(x, t), ran, ?_⟩
    rw [Action.usesFrom_of_run inside]
  rcases Matcher.run_lazy_cases ran with
    ⟨p, found, alone⟩ | ⟨missing, e, called, rfl⟩ | ⟨missing, p, v, called, alone⟩
  · obtain ⟨ownedParser, -⟩ := owned.targets found
    obtain ⟨later, y, uses, further, kept, agree, unfolding, belong, traced⟩ :=
      alike owners p ownedParser i i rfl owners s (List.prefix_refl _) owned x t alone
    refine ⟨later, x, u :: uses, further, kept, results, .again asked found unfolding,
      List.forall_mem_cons.mpr ⟨belongs further, belong⟩, recorded (y := y) ?_⟩
    rw [Action.run_bind, Action.run_traced (Matcher.run_opening_found found g.parser)]
    exact traced []
  · obtain ⟨later, further, kept, -⟩ := owned.parser called
    refine ⟨later, .error e, [u], further, kept, results,
      .refused asked missing called (building called) (List.forall_mem_nil _),
      List.forall_mem_singleton.mpr (belongs further), recorded (y := .error e) ?_⟩
    rw [Action.run_bind, Action.run_traced (Matcher.run_opening_failed missing called)]
  · obtain ⟨later, further, kept, ownedParser⟩ := owned.parser called
    have opened : (v.keepTarget cell p).Owned later :=
      kept.keepTarget (Owners.getElem?_of_prefix (longer.trans further) owner) (ownedParser p rfl)
    obtain ⟨last, y, uses, furthest, kept, agree, unfolding, belong, traced⟩ :=
      alike later p (ownedParser p rfl) i i rfl later _ (List.prefix_refl _) opened x t alone
    refine ⟨last, x, u :: uses, further.trans furthest, kept, results,
      .first asked missing called (building called) (List.forall_mem_nil _) unfolding,
      List.forall_mem_cons.mpr ⟨belongs (further.trans furthest), belong⟩, recorded (y := y) ?_⟩
    rw [Action.run_bind, Action.run_traced (Matcher.run_opening_built missing called)]
    exact traced []

theorem memoize_traces {cell : Nat} {trace : Bool} {name? : Option Text} {p : Matcher Store}
    {q : Matcher Traced} {r : Parser} (owner : base[cell]? = some (.memoize cell trace r))
    {fuel : Nat}
    (inner : Matcher.Corresponds (tracing base) (.identity src) p fun _ => q) :
    Matcher.Corresponds (tracing base) (.identity src) (Matcher.memoize cell trace name? p)
      fun _ => (Interpretation.tracing plain enter fuel).memoize cell trace name? q := by
  intro i j place
  obtain rfl := place
  simp only [Matcher.memoize_eq, Interpretation.tracing]
  refine Traces.bind (.quiet .state) fun s _ same => ?_
  obtain rfl := same
  cases s.outcomeAt? cell i with
  | some r =>
      exact (Traces.writeIf trace _).bind fun _ _ _ => .pure (Alignment.outcomes_identity_refl r)
  | none =>
      refine Traces.bind (inner i i rfl) fun r _ related => ?_
      obtain rfl := Alignment.outcomes_identity related
      exact (Traces.remember owner i r).bind fun _ _ _ => .pure (Alignment.outcomes_identity_refl r)

theorem enter_traces (alike : ∀ later p, p.All (Parser.Owned later) →
      Matcher.Corresponds (tracing later) (.identity src) (plain p) fun _ => enter p)
        (g : Grammar) :
    Matcher.Corresponds (tracing base) (.identity src)
      (Matcher.thenRun do return plain (← g.parser))
      fun _ => Matcher.thenRun do return enter (← g.parser.traced) := by
  intro i j place
  simp only [Matcher.thenRun, bind_assoc, pure_bind]
  exact Traces.parser fun later p _ owned => alike later p owned i j place

/-- A run comes to the same when it is traced, and what is on record are the uses in it. -/
theorem Parser.run_traces {n : Nat} {p : Parser} (owned : p.All (Parser.Owned base)) :
    Matcher.Corresponds (tracing base) (.identity src) (p.run n) fun _ => p.trace n := by
  -- On the fuel. What is built while running owns new cells, so the owners vary with the parser.
  induction n using Nat.strongRecOn generalizing base p with
  | ind n ih =>
      have alike : ∀ later p, p.All (Parser.Owned later) →
          Matcher.Corresponds (tracing later) (.identity src) (Parser.late Parser.run n p)
            fun _ => Parser.late Parser.trace n p := by
        intro later p owned
        cases n with
        | zero => exact fun _ _ _ => (tracing later).exhausted _
        | succ n => exact ih n (Nat.lt_succ_self n) owned
      simp only [Parser.trace_eq_matcher, Parser.run_eq_matcher]
      refine Interpretation.Corresponds.matcher ?_ owned
      exact {
        fuel := fun _ => Nat.le_refl n
        label := fun text => ⟨text, fun _ => rfl, rfl⟩
        call := fun f v => .callback f v
        regex := fun _ => Matcher.regex_corresponds_identity _
        custom := fun _ => Matcher.custom_corresponds_identity _
        enter := fun _ fn _ v => enter_traces alike (fn v)
        memoize := fun owner inner => memoize_traces owner inner
        lazy := fun owner => lazy_traces ⟨n, rfl⟩ alike owner
        named := fun label trace p q inner i j place => by
          simp only [Interpretation.tracing, Interpretation.ofStore, Matcher.named_eq]
          obtain rfl := place
          exact (Traces.writeIf trace _).bind fun _ _ _ =>
            Matcher.relabel_corresponds label inner i i rfl
        probe := fun event p q inner i j place => by
          obtain rfl := place
          exact (Traces.record _).bind fun _ _ _ => inner i i rfl }

end

end Descent
