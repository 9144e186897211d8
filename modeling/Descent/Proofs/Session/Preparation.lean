import Descent.Session
import Descent.Proofs.Meaning.Building
import Descent.Proofs.Parser.Frame

/-!
What a session does before anything is run. Requests that run nothing put names into the store and
leave it without outcomes and late parsers. Main statement: after them the names stand for what was
planned, and the store is consistent for every text.
-/

namespace Descent

/-- Requests that are answered one after the other, each with fuel of its own. A request may end
with a fault. -/
inductive Store.Leads : Store → List Request → Store → Prop
  | nil (s : Store) : Leads s [] s
  | cons {s t u : Store} {r : Request} {rs : List Request} {fuel : Nat} {x : Except Fault Answer}
      (answered : (r.perform fuel).run s = some (x, t)) (rest : Leads t rs u) : Leads s (r :: rs) u

def Store.performAll (fuel : Nat) (s : Store) : List Request → Option Store
  | [] => some s
  | r :: rs =>
    match (r.perform fuel).run s with
    | some (_, t) => t.performAll fuel rs
    | none => none

theorem Store.leads_of_performAll (fuel : Nat) {s t : Store} {rs : List Request}
    (performed : s.performAll fuel rs = some t) : s.Leads rs t := by
  induction rs generalizing s with
  | nil =>
      cases performed
      exact .nil _
  | cons r rs ih =>
      simp only [performAll] at performed
      split at performed
      · rename_i x u answered
        exact .cons answered (ih performed)
      · cases performed

theorem Store.leads_performAll (fuel : Nat) {s : Store} {rs : List Request}
    (ends : (s.performAll fuel rs).isSome = true) : s.Leads rs ((s.performAll fuel rs).getD s) := by
  obtain ⟨t, performed⟩ := Option.isSome_iff_exists.mp ends
  rw [performed]
  exact leads_of_performAll fuel performed

namespace Names

def empty : Names :=
  fun _ => none

def define (name : Text) (a : Argument) (names : Names) : Names :=
  fun other => if other = name then some a else names other

end Names

namespace Request

/-- Runs nothing. -/
def Prepares : Request → Prop
  | .run _ _ _ | .parse _ _ _ => False
  | _ => True

/-- What names stand for after a request. A definition that stops with a fault names nothing. -/
def names (before : Names) : Request → Names
  | .define name g =>
    match g.plan before with
    | .ok a => before.define name a
    | .error _ => before
  | _ => before

def namesAfter (before : Names) : List Request → Names
  | [] => before
  | r :: rs => namesAfter (r.names before) rs

/-- If the request defines something, then a grammar that passes a test throughout. -/
def Defines (test : Grammar → Prop) : Request → Prop
  | .define _ g => g.All test
  | _ => True

end Request

namespace Names

variable {P : Argument → Prop} {names : Names}

theorem all_empty : empty.All P :=
  nofun

theorem All.define (all : names.All P) (name : Text) {a : Argument} (here : P a) :
    (names.define name a).All P := by
  intro other b found
  unfold Names.define at found
  split at found
  · cases found
    exact here
  · exact all other b found

theorem All.afterRequest (all : names.All P) {r : Request}
    (defines : ∀ name g, r = .define name g → Ensures P (g.plan names)) :
    (r.names names).All P := by
  cases r with
  | define name g =>
      simp only [Request.names]
      cases planned : g.plan names with
      | error e => exact all
      | ok a => exact all.define name (defines name g rfl a planned)
  | _ => exact all

theorem All.afterRequests {test : Grammar → Prop}
    (each : ∀ (before : Names) (g : Grammar), before.All P → g.All test → Ensures P (g.plan before))
    (all : names.All P) {rs : List Request} (define : ∀ r ∈ rs, r.Defines test) :
    (Request.namesAfter names rs).All P := by
  induction rs generalizing names with
  | nil => exact all
  | cons r rs ih =>
      refine ih (all.afterRequest fun name g equal => ?_)
        fun q member => define q (by simp [member])
      subst equal
      exact each names g all (define (.define name g) (by simp))

theorem All.namesAfter {test : Grammar → Prop} (all : names.All (Argument.Passes test))
    {rs : List Request} (define : ∀ r ∈ rs, r.Defines test) :
    (Request.namesAfter names rs).All (Argument.Passes test) :=
  all.afterRequests (fun _ _ known passes => Grammar.plan_passes known passes) define

end Names

namespace Store

/-- A store in which nothing has been run. -/
structure Prepared (names : Names) (s : Store) : Prop where
  consistent : ∃ owners, ∀ src, s.Consistent .whole names src owners
  outcomes : s.outcomes = []
  targets : s.targets = []

theorem empty_prepared : empty.Prepared .empty where
  consistent := ⟨[], fun _ => {
    owned := .empty
    free := fun _ => True.intro
    inside := nofun
    named := fun _ => ⟨rfl, nofun⟩
    outcomes := nofun
    targets := nofun }⟩
  outcomes := rfl
  targets := rfl

theorem Consistent.prepared {names : Names} {src : Text} {owners : Owners} {s : Store}
    (consistent : s.Consistent .whole names src owners) (outcomes : s.outcomes = [])
    (targets : s.targets = []) :
    s.Prepared names where
  consistent := ⟨owners, fun other => {
    owned := consistent.owned
    free := consistent.free
    inside := consistent.inside
    named := consistent.named
    -- Only outcomes speak of the text, and there are none.
    outcomes := fun _ _ found => by simp [outcomeAt?, outcomes] at found
    targets := consistent.targets }⟩
  outcomes := outcomes
  targets := targets

namespace Prepared

variable {names : Names} {s t : Store}

theorem congr (prepared : s.Prepared names) (same : t.holdings = s.holdings) :
    t.Prepared names := by
  obtain ⟨owners, consistent⟩ := prepared.consistent
  obtain ⟨-, -, outcomes, targets⟩ :
      t.nextCell = s.nextCell ∧ t.names = s.names ∧ t.outcomes = s.outcomes ∧
        t.targets = s.targets := by
    simpa [holdings, Store.memory] using same
  exact ((consistent []).congr same).prepared (outcomes.trans prepared.outcomes)
    (targets.trans prepared.targets)

theorem of_builds (prepared : s.Prepared names) {α β : Type} {A : Owners → α → β → Prop}
    {m : Action Store α} {x : Except Fault β}
    (builds : ∀ owners, Builds .whole names [] owners A m x) (keeps : m.Keeps Store.memory) :
    ∃ later r u, m.run s = some (r, u) ∧ u.Consistent .whole names [] later ∧ u.Prepared names ∧
      Agree (A later) r x := by
  obtain ⟨owners, consistent⟩ := prepared.consistent
  obtain ⟨later, r, u, run, _, kept, agree⟩ := builds owners s (consistent [])
  obtain ⟨-, outcomes, targets⟩ :
      u.names = s.names ∧ u.outcomes = s.outcomes ∧ u.targets = s.targets := by
    simpa [Store.memory] using keeps s r u run
  exact ⟨later, r, u, run, kept, kept.prepared (outcomes.trans prepared.outcomes)
    (targets.trans prepared.targets), agree⟩

theorem keepName (prepared : s.Prepared names) {src : Text} {owners : Owners}
    (consistent : s.Consistent .whole names src owners) (name : Text) {a : Argument}
    (owned : a.All (Parser.Owned owners)) :
    (s.keepName name a).Prepared (names.define name a.plain) := by
  have kept : (s.keepName name a).Consistent .whole (names.define name a.plain) src owners := {
    owned := consistent.owned.keepName name owned
    free := consistent.free
    inside := consistent.inside
    named := fun {other} inside => by
      refine ⟨?_, fun b _ => b.all_inside_whole⟩
      rw [named?_keepName, Names.define, ← (consistent.named inside).1]
      split <;> rfl
    outcomes := fun _ _ known => by simp [outcomeAt?, Store.keepName, prepared.outcomes] at known
    targets := fun _ known => by simp [target?, Store.keepName, prepared.targets] at known }
  exact kept.prepared prepared.outcomes prepared.targets

theorem perform (prepared : s.Prepared names) {r : Request} (prepares : r.Prepares) (fuel : Nat) :
    ∃ x t, (r.perform fuel).run s = some (x, t) ∧ t.Prepared (r.names names) := by
  cases r with
  | define name g =>
      obtain ⟨later, x, u, built, kept, ready, agree⟩ :=
        prepared.of_builds (Grammar.build_builds (Scope.whole_allows g)) g.build_keeps
      simp only [Request.perform, Request.names, Action.run_bind, built]
      generalize planned : g.plan names = y at agree
      cases agree with
      | error e => exact ⟨_, u, rfl, ready⟩
      | ok tracks =>
          obtain ⟨rfl, placed⟩ := tracks
          exact ⟨_, _, rfl, ready.keepName kept name (placed.mono fun _ => And.left)⟩
  | run g src pos => exact prepares.elim
  | parse g src full => exact prepares.elim
  | inspect g =>
      obtain ⟨later, x, u, built, kept, ready, agree⟩ :=
        prepared.of_builds (fun _ => Grammar.parser_builds (Scope.whole_allows g)) g.parser_keeps
      simp only [Request.perform, Request.names, Action.run_bind, built]
      cases x with
      | error e => exact ⟨_, u, rfl, ready⟩
      | ok p => exact ⟨_, u, rfl, ready⟩
  | setDebug on => exact ⟨_, _, rfl, prepared.congr rfl⟩
  | takeEvents => exact ⟨_, _, rfl, prepared.congr rfl⟩

theorem leads (prepared : s.Prepared names) {rs : List Request} (prepare : ∀ r ∈ rs, r.Prepares)
    (leads : s.Leads rs t) : t.Prepared (Request.namesAfter names rs) := by
  induction leads generalizing names with
  | nil s => exact prepared
  | @cons s t u r rs fuel x answered rest ih =>
      obtain ⟨y, v, performed, ready⟩ := prepared.perform (prepare r (by simp)) fuel
      cases answered.symm.trans performed
      exact ih ready fun r member => prepare r (by simp [member])

end Prepared

end Store

end Descent
