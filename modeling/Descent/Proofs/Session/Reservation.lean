import Descent.Proofs.Debug.Observer
import Descent.Proofs.Meaning.Separation
import Descent.Proofs.Meaning.Settling
import Descent.Proofs.Session.Named

/-!
Sessions on many texts. Some cells are reserved for one text if nothing is remembered in them on
another one. Main statement: if all cells in reach of a parser are reserved for a text, then on that
text the parser, and every grammar that refers to nothing else, is answered with what it means,
whatever else was requested. Where nothing is memoized, every text has all cells reserved.
-/

namespace Descent

def Store.Unused (s : Store) (cell : Nat) : Prop :=
  s.target? cell = none ∧ ∀ pos, s.outcomeAt? cell pos = none

def Request.defined? : Request → Option Text
  | .define name _ => some name
  | _ => none

/-- Requests that are answered one after the other. Those on other texts remember nothing in the
cells of a scope, and no name in it is given another meaning once one of the cells has been used. -/
inductive Store.Reserves (src : Text) (scope : Scope) : Store → List Request → Store → Prop
  | nil (s : Store) : Reserves src scope s [] s
  | cons {s t u : Store} {r : Request} {rs : List Request} {fuel : Nat} {x : Except Fault Answer}
      (answered : (r.perform fuel).run s = some (x, t))
      (outcomes : r.On src ∨
        ∀ cell, scope.cells cell → ∀ pos, t.outcomeAt? cell pos = s.outcomeAt? cell pos)
      (defines : ∀ name g, r = .define name g → scope.names name →
        s.named? name = none ∨ ∀ cell, scope.cells cell → s.Unused cell)
      (rest : Reserves src scope t rs u) : Reserves src scope s (r :: rs) u

theorem Request.perform_spares {scope : Scope} {names : Names} {src : Text} {base : Owners}
    {r : Request} (known : scope.outcomes → r.On src) (runs : ∀ name g, r ≠ .define name g)
    (fuel : Nat) : Spares scope names src base (fun _ _ => True) (r.perform fuel) := by
  cases r with
  | define name g => exact absurd rfl (runs name g)
  | run g text pos =>
      rw [perform_run]
      have ran :
          Spares scope names src base (fun _ r => ∃ r', (Alignment.identity text).Outcomes r r')
          (Matcher.thenRun (do return (← g.parser).run fuel) text pos) :=
        enter_spares (fun _ _ owned => Parser.run_spares known owned) g pos pos rfl
      exact ran.bind fun _ _ _ _ => .pure fun _ _ => True.intro
  | parse g text full =>
      rw [perform_parse_eq, Grammar.attempt, bind_assoc]
      refine (Spares.parser g).bind fun later p _ owned => ?_
      refine Spares.bind (Matcher.eofIf_corresponds full (p.run_spares known owned) 0 0 rfl)
        fun _ r _ _ => .quiet fun s x t ended => ?_
      rw [Outcome.run_conclude] at ended
      cases ended
      rfl
  | inspect g => exact (Spares.parser g).bind fun _ _ _ _ => .pure fun _ _ => True.intro
  | setDebug on => exact .quiet (Action.Keeps.bind (.modify fun _ => rfl) fun _ => .pure _)
  | takeEvents =>
      exact .quiet (Action.Keeps.state.bind fun _ => .bind (.modify fun _ => rfl) fun _ => .pure _)

/-- A name that stood for nothing takes nothing from the others. -/
theorem Names.define_extends {names : Names} {name other : Text} {a b : Argument}
    (unknown : names name = none) (found : names other = some b) :
    names.define name a other = some b := by
  have different : other ≠ name := ne_of_apply_ne names (by simp [unknown, found])
  rw [Names.define, if_neg different, found]

namespace Store

variable {names : Names} {src : Text} {owners later : Owners} {scope : Scope} {s t u : Store}

theorem Consistent.unknown (consistent : s.Consistent scope names src owners) {name : Text}
    (here : scope.names name) (fresh : s.named? name = none) : names name = none := by
  rw [← (consistent.named here).1, fresh]
  rfl

theorem Consistent.keepName_beside (consistent : s.Consistent scope names src owners) {name : Text}
    (apart : ¬ scope.names name) {a : Argument} (owned : a.All (Parser.Owned owners)) :
    (s.keepName name a).Consistent scope names src owners where
  owned := consistent.owned.keepName name owned
  free := consistent.free
  inside := consistent.inside
  named {other} inside := by
    have different : other ≠ name := fun same => apart (same ▸ inside)
    simpa only [named?_keepName, if_neg different] using consistent.named inside
  outcomes := consistent.outcomes
  targets := consistent.targets

/-- What was remembered without the name stays true with it. -/
theorem Consistent.keepName_fresh (consistent : s.Consistent scope names src owners) {name : Text}
    (here : scope.names name) (fresh : s.named? name = none) {a : Argument}
    (placed : a.All (Parser.Placed scope owners)) :
    (s.keepName name a).Consistent scope (names.define name a.plain) src owners := by
  have given : ∀ other b, names other = some b → names.define name a.plain other = some b :=
    fun _ _ => Names.define_extends (consistent.unknown here fresh)
  exact {
    owned := consistent.owned.keepName name (placed.mono fun _ => And.left)
    free := consistent.free
    inside := consistent.inside
    named := fun {other} inside => by
      simp only [named?_keepName, Names.define]
      split
      · exact ⟨rfl, fun b found => Option.some.inj found ▸ placed.mono fun _ => And.right⟩
      · exact consistent.named inside
    outcomes := fun sure inside found => by
      obtain ⟨p, owner, means⟩ := consistent.outcomes sure inside found
      exact ⟨p, owner, means.settles given⟩
    targets := fun inside found => by
      obtain ⟨within, g, owner, planned⟩ := consistent.targets inside found
      exact ⟨within, g, owner, (g.planned_settles given _ planned).1⟩ }

theorem run_define {name : Text} {g : Grammar} {fuel : Nat} {x : Except Fault Answer}
    (answered : ((Request.define name g).perform fuel).run s = some (x, t)) :
    (∃ e, g.build.run s = some (.error e, t)) ∨
      ∃ a v, g.build.run s = some (.ok a, v) ∧ t = v.keepName name a := by
  rcases Action.run_bind_eq_some.mp answered with ⟨e, failed, -⟩ | ⟨a, v, built, ended⟩
  · exact .inl ⟨e, failed⟩
  · cases ended
    exact .inr ⟨a, v, built, rfl⟩

theorem target?_define {name : Text} {g : Grammar} {fuel : Nat} {x : Except Fault Answer}
    (answered : ((Request.define name g).perform fuel).run s = some (x, t)) (cell : Nat) :
    t.target? cell = s.target? cell := by
  rcases run_define answered with ⟨e, failed⟩ | ⟨a, v, built, rfl⟩
  · exact target?_of_memory (g.build_keeps s _ t failed)
  · change v.target? cell = _
    exact target?_of_memory (g.build_keeps s _ v built)

theorem named?_define {name other : Text} {g : Grammar} {fuel : Nat} {x : Except Fault Answer}
    (apart : other ≠ name) (answered : ((Request.define name g).perform fuel).run s = some (x, t)) :
    t.named? other = s.named? other := by
  rcases run_define answered with ⟨e, failed⟩ | ⟨a, v, built, rfl⟩
  · exact (Lasts.of_memory (g.build_keeps s _ t failed)).named other
  · rw [named?_keepName, if_neg apart]
    exact (Lasts.of_memory (g.build_keeps s _ v built)).named other

/-- What was built late is still there after a request, and names that it does not define stand for
the same. -/
structure Follows (r : Request) (s t : Store) : Prop where
  named {name : Text} : (∀ g, r ≠ .define name g) → t.named? name = s.named? name
  targets {cell : Nat} {p : Parser} : s.target? cell = some p → t.target? cell = some p

theorem Owned.define (owned : s.Owned owners) (scope : Scope) (names : Names) {name : Text}
    {g : Grammar} {fuel : Nat} {x : Except Fault Answer}
    (answered : ((Request.define name g).perform fuel).run s = some (x, t)) :
    ∃ later, owners <+: later ∧ t.Owned later ∧
      ((scope.names name → s.named? name = none) → t.Encloses scope later →
        s.Consistent (scope.withFree s.nextCell) names src owners →
        ∃ names' : Names, (∀ other a, names other = some a → names' other = some a) ∧
          t.Consistent (scope.withFree t.nextCell) names' src later) := by
  rcases run_define answered with ⟨e, failed⟩ | ⟨a, v, built, rfl⟩
  · obtain ⟨later, longer, kept, -⟩ := owned.build failed
    refine ⟨later, longer, kept, fun _ encloses consistent => ?_⟩
    exact ⟨names, fun _ _ => id,
      consistent.of_memory longer kept encloses (g.build_keeps s _ t failed)⟩
  · obtain ⟨later, longer, kept, belongs⟩ := owned.build built
    have same := g.build_keeps s _ v built
    refine ⟨later, longer, kept.keepName name (belongs a rfl),
      fun fresh encloses consistent => ?_⟩
    have unnamed : scope.names name → v.named? name = none := fun here =>
      ((Lasts.of_memory same).named name).trans (fresh here)
    have before : v.Encloses scope later := by
      refine encloses.of_later (List.prefix_refl _) (fun _ _ => id) fun other b here found => ?_
      have different : other ≠ name := by
        rintro rfl
        cases found.symm.trans (unnamed here)
      rw [named?_keepName, if_neg different, found]
    have beside := consistent.of_memory longer kept before same
    by_cases here : scope.names name
    · refine ⟨names.define name a.plain,
        fun _ _ => Names.define_extends (consistent.unknown here (fresh here)),
        beside.keepName_fresh here (unnamed here) ?_⟩
      cases a with
      | parser p =>
          have inside := encloses.named here (by rw [named?_keepName, if_pos rfl])
          exact Parser.all_placed (belongs _ rfl) (Parser.all_withFree inside _)
      | other w => exact True.intro
    · exact ⟨names, fun _ _ => id, beside.keepName_beside here (belongs a rfl)⟩

/-- What a request leaves of a scope that is closed in the end. -/
theorem Owned.perform (owned : s.Owned owners) (scope : Scope) (names : Names) (src : Text)
    {r : Request} (known : scope.outcomes → r.On src) {fuel : Nat} {x : Except Fault Answer}
    (answered : (r.perform fuel).run s = some (x, t)) :
    ∃ later, owners <+: later ∧ t.Owned later ∧ s.Follows r t ∧
      ((∀ name g, r = .define name g → scope.names name → s.named? name = none) →
        t.Encloses scope later → s.Consistent (scope.withFree s.nextCell) names src owners →
        ∃ names' : Names, (∀ name a, names name = some a → names' name = some a) ∧
          t.Consistent (scope.withFree t.nextCell) names' src later) := by
  by_cases defines : ∃ name g, r = .define name g
  · obtain ⟨name, g, rfl⟩ := defines
    obtain ⟨later, longer, kept, spared⟩ := owned.define scope names answered
    refine ⟨later, longer, kept, ⟨fun different => ?_, fun found => ?_⟩,
      fun fresh => spared (fresh name g rfl)⟩
    · refine named?_define ?_ answered
      rintro rfl
      exact different g rfl
    · rw [target?_define answered, found]
  · have runs : ∀ name g, r ≠ .define name g := fun name g same => defines ⟨name, g, same⟩
    obtain ⟨later, longer, kept, lasts, -, spared⟩ :=
      Request.perform_spares known runs fuel owners s (List.prefix_refl _) owned x t answered
    exact ⟨later, longer, kept, ⟨fun _ => lasts.named _, lasts.targets⟩,
      fun _ encloses consistent => ⟨names, fun _ _ => id, spared encloses consistent⟩⟩

theorem Leads.owned {rs : List Request} (leads : s.Leads rs t) (owned : s.Owned owners) :
    ∃ later, t.Owned later := by
  induction leads generalizing owners with
  | nil s => exact ⟨owners, owned⟩
  | @cons s t u r rs fuel x answered _ ih =>
      obtain ⟨later, -, kept, -, -⟩ :=
        owned.perform ⟨fun _ => False, fun _ => False, False⟩ .empty [] False.elim answered
      exact ih kept

/-- A cell that is not the cell of a memory in the end has nothing remembered in it. -/
theorem Owned.outcomeAt?_of_unmemoized (owned : s.Owned owners) (longer : owners <+: later)
    {cell : Nat} (unmemoized : ∀ trace p, later[cell]? ≠ some (.memoize cell trace p)) (pos : Int) :
    s.outcomeAt? cell pos = none := by
  refine Option.eq_none_iff_forall_ne_some.mpr fun r found => ?_
  obtain ⟨trace, p, owner⟩ := owned.outcomes found
  exact unmemoized trace p (Owners.getElem?_of_prefix longer owner)

/-- A scope without memories is reserved for every text, as long as none of its names is defined
twice. -/
theorem Leads.reserves {rs : List Request} (leads : s.Leads rs u) (owned : s.Owned owners) :
    ∃ later, owners <+: later ∧ u.Owned later ∧ ∀ (scope : Scope) (src : Text),
      (∀ cell trace p, scope.cells cell → later[cell]? ≠ some (.memoize cell trace p)) →
      (∀ name, scope.names name → name ∈ rs.filterMap Request.defined? → s.named? name = none) →
      (∀ name, scope.names name → (rs.filterMap Request.defined?).count name ≤ 1) →
      s.Reserves src scope rs u := by
  induction leads generalizing owners with
  | nil s => exact ⟨owners, List.prefix_refl _, owned, fun _ _ _ _ _ => .nil s⟩
  | @cons s t u r rs fuel x answered _ ih =>
      obtain ⟨between, longer, kept, follows, -⟩ :=
        owned.perform ⟨fun _ => False, fun _ => False, False⟩ .empty [] False.elim answered
      obtain ⟨later, further, last, reserves⟩ := ih kept
      have behind :
          (rs.filterMap Request.defined?).Sublist ((r :: rs).filterMap Request.defined?) :=
        (List.sublist_cons_self r rs).filterMap _
      refine ⟨later, longer.trans further, last, fun scope src unmemoized fresh once => ?_⟩
      refine .cons answered (.inr fun cell inside pos => ?_) (fun name g same here => ?_)
        (reserves scope src unmemoized (fun name here member => ?_)
          fun name here => (behind.count_le name).trans (once name here))
      · have bare := fun trace p => unmemoized cell trace p inside
        rw [kept.outcomeAt?_of_unmemoized further bare,
          owned.outcomeAt?_of_unmemoized (longer.trans further) bare]
      · subst same
        exact .inl (fresh name here List.mem_cons_self)
      · rw [follows.named, fresh name here (behind.mem member)]
        rintro g rfl
        have twice : (name :: rs.filterMap Request.defined?).count name ≤ 1 := once name here
        rw [List.count_cons_self] at twice
        have again := List.count_pos_iff.mpr member
        omega

/-- Without anything in its cells, a scope that is closed is consistent. -/
theorem Owned.consistent_unused (owned : s.Owned owners) (encloses : s.Encloses scope owners)
    (unused : ∀ cell, scope.cells cell → s.Unused cell) (src : Text) :
    s.Consistent (scope.withFree s.nextCell)
      (fun name => (s.named? name).map Argument.plain) src owners := by
  have beyond {cell : Nat} (inside : (scope.withFree s.nextCell).cells cell) : s.Unused cell := by
    rcases inside with inside | free
    · exact unused cell inside
    · exact ⟨owned.target?_eq_none free, owned.outcomeAt?_eq_none free⟩
  exact {
    owned := owned
    free := .inr
    inside := fun {cell p} inside owner => by
      rcases inside with inside | free
      · exact Parser.all_withFree (encloses.inside inside owner) _
      · have taken := (List.getElem?_eq_some_iff.mp owner).1
        rw [owned.nextCell] at free
        omega
    named := fun {name} inside => by
      refine ⟨rfl, fun a found => ?_⟩
      cases a with
      | parser p => exact Parser.all_withFree (encloses.named inside found) _
      | other v => exact True.intro
    outcomes := fun _ inside found => by cases found.symm.trans ((beyond inside).2 _)
    targets := fun inside found => by cases found.symm.trans (beyond inside).1 }

/-- What is known of outcomes is known later on, if they are the same as before. -/
theorem Consistent.regain {names' : Names} {known : Prop}
    (before : s.Consistent (scope.withFree s.nextCell) names src owners) (longer : owners <+: later)
    (given : ∀ name a, names name = some a → names' name = some a)
    (after : t.Consistent (({ scope with outcomes := known } : Scope).withFree t.nextCell)
      names' src later)
    (same : (scope.outcomes → known) ∨
      ∀ cell, scope.cells cell → ∀ pos, t.outcomeAt? cell pos = s.outcomeAt? cell pos) :
    t.Consistent (scope.withFree t.nextCell) names' src later :=
  { after with
    outcomes := fun {cell pos r} sure inside found => by
      rcases same with known | same
      · exact after.outcomes (known sure) inside found
      · obtain ⟨_, _, owner⟩ := after.owned.outcomes found
        have taken := (List.getElem?_eq_some_iff.mp owner).1
        rw [← after.owned.nextCell] at taken
        have here : scope.cells cell := inside.resolve_right (Nat.not_le_of_lt taken)
        rw [same cell here] at found
        obtain ⟨p, owner, means⟩ := before.outcomes sure (.inl here) found
        exact ⟨p, Owners.getElem?_of_prefix longer owner, means.settles given⟩ }

/-- A scope that is closed in the end and reserved for a text is consistent in the end, if it was at
the start or was still unused when a name in it was last given another meaning. -/
theorem Reserves.consistent {rs : List Request} (reserves : s.Reserves src scope rs u)
    (owned : s.Owned owners) :
    ∃ later, owners <+: later ∧ u.Owned later ∧
      (∀ cell p, s.target? cell = some p → u.target? cell = some p) ∧
      (u.Encloses scope later →
        ((∀ name a, scope.names name → s.named? name = some a → u.named? name = some a) →
          ∃ names, s.Consistent (scope.withFree s.nextCell) names src owners) →
        ∃ names, u.Consistent (scope.withFree u.nextCell) names src later) := by
  induction reserves generalizing owners with
  | nil s =>
      exact ⟨owners, List.prefix_refl _, owned, fun _ _ => id, fun _ start => start fun _ _ _ => id⟩
  | @cons s t u r rs fuel x answered outcomes defines rest ih =>
      obtain ⟨names, best⟩ : ∃ names,
          (∃ other, s.Consistent (scope.withFree s.nextCell) other src owners) →
            s.Consistent (scope.withFree s.nextCell) names src owners := by
        by_cases any : ∃ other, s.Consistent (scope.withFree s.nextCell) other src owners
        · obtain ⟨names, consistent⟩ := any
          exact ⟨names, fun _ => consistent⟩
        · exact ⟨.empty, fun other => absurd other any⟩
      -- Of a request on another text it is known what it leaves of the outcomes, but not how.
      obtain ⟨between, longer, kept, follows, spared⟩ :=
        owned.perform { scope with outcomes := scope.outcomes ∧ r.On src } names src And.right
          answered
      obtain ⟨later, further, last, targets, ended⟩ := ih kept
      refine ⟨later, longer.trans further, last,
        fun cell p found => targets cell p (follows.targets found),
        fun encloses start => ended encloses fun persist => ?_⟩
      have closed : t.Encloses scope between := encloses.of_later further targets persist
      by_cases fresh : ∀ name g, r = .define name g → scope.names name → s.named? name = none
      · have consistent := best <| start fun name a here found => persist name a here <| by
          rw [follows.named, found]
          intro g same
          cases found.symm.trans (fresh name g same here)
        obtain ⟨names', given, after⟩ :=
          spared fresh ⟨⟨closed.targets, closed.named⟩, closed.inside⟩
          { consistent with outcomes := fun sure => consistent.outcomes sure.1 }
        exact ⟨names',
          consistent.regain longer given after (outcomes.imp_left fun on sure => ⟨sure, on⟩)⟩
      · push Not at fresh
        obtain ⟨name, g, rfl, here, known⟩ := fresh
        have unused := (defines name g rfl here).resolve_left known
        refine ⟨_, kept.consistent_unused closed (fun cell inside => ?_) src⟩
        refine ⟨(target?_define answered cell).trans (unused cell inside).1, fun pos => ?_⟩
        exact (outcomes.resolve_left id cell inside pos).trans ((unused cell inside).2 pos)

/-- If all that is in reach of a parser was reserved for a text, then whatever it is remembered to
come to is what it means. -/
theorem Reserves.consistent_reach {rs : List Request} {name : Text} {p : Parser}
    (named : u.named? name = some (.parser p)) (reserves : empty.Reserves src (u.reach p) rs u) :
    ∃ names later, u.Consistent ((u.reach p).withFree u.nextCell) names src later ∧
      p.All (Parser.Placed ((u.reach p).withFree u.nextCell) later) := by
  obtain ⟨later, -, owned, -, ended⟩ := reserves.consistent .empty
  have here : p.All (Parser.Owned later) := owned.named named
  have encloses := owned.encloses_reach here
  have start := Owned.empty.consistent_unused (encloses.of_later List.nil_prefix nofun nofun)
    (fun _ _ => ⟨rfl, fun _ => rfl⟩) src
  obtain ⟨names, consistent⟩ := ended encloses fun _ => ⟨_, start⟩
  exact ⟨names, later, consistent,
    Parser.all_placed here (Parser.all_withFree (inside_reach .refl) _)⟩

end Store

end Descent
