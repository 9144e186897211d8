import Mathlib.Logic.Relation
import Descent.Proofs.Meaning.Consistency

/-!
What parsers use. A parser reaches its parts, what was built for it late, and what stands behind the
names that it refers to. Main statements: what a parser reaches is closed in itself, and a closed
scope that a parser lies in holds all that it reaches.
-/

namespace Descent

open Relation

inductive Grammar.Refers : Grammar → Text → Prop
  | here {name : Text} : Refers (.ref name) name
  | part {g h : Grammar} {name : Text} (part : g.HasPart h) (refers : h.Refers name) : Refers g name

theorem Grammar.all_allows_iff {scope : Scope} {g : Grammar} :
    g.All scope.Allows ↔ ∀ name, g.Refers name → scope.names name := by
  constructor
  · intro all name refers
    induction refers with
    | here => exact Grammar.all_ref.mp all
    | part part _ ih =>
        cases all with
        | intro _ parts => exact ih (parts _ part)
  · intro allowed
    induction g using Grammar.induction with
    | step g ih =>
        refine .intro ?_ fun h part => ih h part fun name refers => allowed name (.part part refers)
        cases g with
        | ref name => exact allowed name .here
        | _ => exact True.intro

namespace Parser

/-- What the parser builds when it is run. -/
inductive Defers : Parser → Grammar → Prop
  | lazy {cell : Nat} {g : Grammar} : Defers (.lazy cell g) g
  | andThen {p : Parser} {fns : List (Value → Grammar)} {fn : Value → Grammar} (member : fn ∈ fns)
      (v : Value) : Defers (.andThen p fns) (fn v)

def cell? : Parser → Option Nat
  | .memoize cell _ _ | .lazy cell _ => some cell
  | _ => none

variable {scope : Scope} {owners : Owners} {p : Parser}

theorem inside_iff : p.Inside scope ↔ (∀ cell, p.cell? = some cell → scope.cells cell) ∧
    ∀ g, p.Defers g → g.All scope.Allows := by
  cases p with
  | memoize cell trace p =>
      exact ⟨fun here => ⟨fun _ equal => Option.some.inj equal ▸ here, nofun⟩,
        fun both => both.1 _ rfl⟩
  | lazy cell g =>
      exact ⟨fun here => ⟨fun _ equal => Option.some.inj equal ▸ here.1, fun | _, .lazy => here.2⟩,
        fun both => ⟨both.1 _ rfl, both.2 _ .lazy⟩⟩
  | andThen p fns =>
      refine ⟨fun here => ⟨nofun, fun g defers => ?_⟩,
        fun both fn member v => both.2 _ (.andThen member v)⟩
      cases defers with
      | andThen member v => exact here _ member v
  | _ => exact ⟨fun _ => ⟨nofun, nofun⟩, fun _ => True.intro⟩

theorem Owned.of_cell (owned : p.Owned owners) {cell : Nat} (has : p.cell? = some cell) :
    owners[cell]? = some p := by
  cases p with
  | memoize cell' trace p =>
      cases has
      exact owned
  | lazy cell' g =>
      cases has
      exact owned
  | _ => cases has

end Parser

namespace Store

/-- The parsers that a parser makes direct use of. -/
inductive DependsOn (s : Store) : Parser → Parser → Prop
  | part {p q : Parser} (member : q ∈ p.parts) : DependsOn s p q
  | built {cell : Nat} {g : Grammar} {q : Parser} (found : s.target? cell = some q) :
      DependsOn s (.lazy cell g) q
  | named {p q : Parser} {g : Grammar} {name : Text} (defers : p.Defers g) (refers : g.Refers name)
      (found : s.named? name = some (.parser q)) : DependsOn s p q

/-- The parser, or one that it uses, has the cell. -/
def Reaches (s : Store) (p : Parser) (cell : Nat) : Prop :=
  ∃ q, ReflTransGen s.DependsOn p q ∧ q.cell? = some cell

/-- The parser, or one that it uses, refers to the name when it is run. -/
def Needs (s : Store) (p : Parser) (name : Text) : Prop :=
  ∃ q g, ReflTransGen s.DependsOn p q ∧ q.Defers g ∧ g.Refers name

/-- The parser, or one that it uses, is memoized. -/
def Memoizes (s : Store) (p : Parser) : Prop :=
  ∃ cell trace q, ReflTransGen s.DependsOn p (.memoize cell trace q)

def reach (s : Store) (p : Parser) : Scope where
  cells := s.Reaches p
  names := s.Needs p
  outcomes := True

variable {s t : Store} {p q : Parser} {scope : Scope} {owners later : Owners}

theorem inside_reach (uses : ReflTransGen s.DependsOn p q) : q.All (Parser.Inside (s.reach p)) := by
  induction q using Parser.induction with
  | step q ih =>
      refine .intro (Parser.inside_iff.mpr ⟨?_, ?_⟩) fun r member =>
        ih r member (uses.tail (.part member))
      · exact fun cell has => ⟨q, uses, has⟩
      · exact fun g defers => Grammar.all_allows_iff.mpr fun name refers =>
          ⟨q, g, uses, defers, refers⟩

theorem Owned.dependsOn (owned : s.Owned owners) (here : p.All (Parser.Owned owners))
    (uses : ReflTransGen s.DependsOn p q) : q.All (Parser.Owned owners) := by
  induction uses with
  | refl => exact here
  | tail _ step ih =>
      cases step with
      | part member => exact (Parser.all_iff.mp ih).2 _ member
      | built found => exact (owned.targets found).1
      | named _ _ found => exact owned.named found

theorem Owned.owner_of_reaches (owned : s.Owned owners) (here : p.All (Parser.Owned owners))
    {cell : Nat} (reaches : s.Reaches p cell) :
    ∃ q, ReflTransGen s.DependsOn p q ∧ owners[cell]? = some q := by
  obtain ⟨q, uses, has⟩ := reaches
  exact ⟨q, uses, (Parser.all_iff.mp (owned.dependsOn here uses)).1.of_cell has⟩

/-- Nothing that is looked up in the scope leads out of it. -/
structure ClosedIn (s : Store) (scope : Scope) : Prop where
  targets {cell : Nat} {q : Parser} : scope.cells cell → s.target? cell = some q →
    q.All (Parser.Inside scope)
  named {name : Text} {q : Parser} : scope.names name → s.named? name = some (.parser q) →
    q.All (Parser.Inside scope)

theorem ClosedIn.dependsOn (closed : s.ClosedIn scope) (here : p.All (Parser.Inside scope))
    (uses : ReflTransGen s.DependsOn p q) : q.All (Parser.Inside scope) := by
  induction uses with
  | refl => exact here
  | @tail q r _ step ih =>
      obtain ⟨inside, parts⟩ := Parser.all_iff.mp ih
      cases step with
      | part member => exact parts _ member
      | built found => exact closed.targets inside.1 found
      | named defers refers found =>
          have allowed := (Parser.inside_iff.mp inside).2 _ defers
          exact closed.named (Grammar.all_allows_iff.mp allowed _ refers) found

theorem ClosedIn.reaches (closed : s.ClosedIn scope) (here : p.All (Parser.Inside scope))
    {cell : Nat} (reaches : s.Reaches p cell) : scope.cells cell := by
  obtain ⟨q, uses, has⟩ := reaches
  have inside := (Parser.all_iff.mp (closed.dependsOn here uses)).1
  exact (Parser.inside_iff.mp inside).1 cell has

/-- The owners of cells in the scope do not lead out of it either. -/
structure Encloses (s : Store) (scope : Scope) (owners : Owners) : Prop
    extends s.ClosedIn scope where
  inside {cell : Nat} {p : Parser} : scope.cells cell → owners[cell]? = some p →
    p.All (Parser.Inside scope)

theorem Encloses.of_later (encloses : t.Encloses scope later) (longer : owners <+: later)
    (targets : ∀ cell p, s.target? cell = some p → t.target? cell = some p)
    (named : ∀ name a, scope.names name → s.named? name = some a → t.named? name = some a) :
    s.Encloses scope owners where
  inside here owner := encloses.inside here (Owners.getElem?_of_prefix longer owner)
  targets here found := encloses.targets here (targets _ _ found)
  named here found := encloses.named here (named _ _ here found)

/-- All that is in reach of a parser uses nothing else. -/
theorem Owned.encloses_reach (owned : s.Owned owners) (here : p.All (Parser.Owned owners)) :
    s.Encloses (s.reach p) owners where
  inside {cell q} reaches owner := by
    obtain ⟨r, uses, other⟩ := owned.owner_of_reaches here reaches
    cases owner.symm.trans other
    exact inside_reach uses
  targets {cell q} reaches found := by
    obtain ⟨r, uses, other⟩ := owned.owner_of_reaches here reaches
    obtain ⟨-, g, owner⟩ := owned.targets found
    cases owner.symm.trans other
    exact inside_reach (uses.tail (.built found))
  named {name q} needs found := by
    obtain ⟨r, g, uses, defers, refers⟩ := needs
    exact inside_reach (uses.tail (.named defers refers found))

end Store

end Descent
