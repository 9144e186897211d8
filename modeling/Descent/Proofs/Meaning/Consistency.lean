import Mathlib.Data.List.Basic
import Descent.Proofs.Meaning.Basic
import Descent.Proofs.Parser.Frame

/-!
Stores that remember the truth. The owners of a store say what each of its cells is for. Within a
scope, some of the cells and some of the names, a store is consistent if what it remembers there is
what the owners mean. Main statement: what a run does to a store in the course of it keeps it
consistent.
-/

namespace Descent

/-- What each cell is for, in the order of the cells: the parser whose outcomes the cell keeps, or
the one that is built late and kept there. -/
abbrev Owners := List Parser

namespace Owners

theorem getElem?_of_prefix {owners later : Owners} (longer : owners <+: later) {cell : Nat}
    {p : Parser} (owner : owners[cell]? = some p) : later[cell]? = some p := by
  obtain ⟨rest, rfl⟩ := longer
  exact (List.getElem?_append_left (List.getElem?_eq_some_iff.mp owner).1).trans owner

end Owners

/-- The part of a store that is looked at: some cells, some names, and whether it is known how the
outcomes in the cells came about. -/
structure Scope where
  cells : Nat → Prop
  names : Text → Prop
  outcomes : Prop

namespace Scope

def whole : Scope where
  cells _ := True
  names _ := True
  outcomes := True

def Allows (scope : Scope) : Grammar → Prop
  | .ref name => scope.names name
  | _ => True

theorem whole_allows (g : Grammar) : g.All whole.Allows := by
  induction g using Grammar.induction with
  | step g ih => exact .intro (by cases g <;> exact True.intro) ih

end Scope

namespace Parser

def Owned (owners : Owners) : Parser → Prop
  | .memoize cell trace p => owners[cell]? = some (.memoize cell trace p)
  | .lazy cell g => owners[cell]? = some (.lazy cell g)
  | _ => True

/-- The parser has its cell in the scope, and refers to names in the scope later on. -/
def Inside (scope : Scope) : Parser → Prop
  | .memoize cell _ _ => scope.cells cell
  | .lazy cell g => scope.cells cell ∧ g.All scope.Allows
  | .andThen _ fns => ∀ fn ∈ fns, ∀ v, (fn v).All scope.Allows
  | _ => True

def Placed (scope : Scope) (owners : Owners) (p : Parser) : Prop :=
  p.Owned owners ∧ p.Inside scope

variable {owners later : Owners} {scope : Scope} {p : Parser}

theorem Owned.mono (longer : owners <+: later) (owned : p.Owned owners) : p.Owned later := by
  cases p with
  | memoize cell trace p => exact Owners.getElem?_of_prefix longer owned
  | lazy cell g => exact Owners.getElem?_of_prefix longer owned
  | _ => exact True.intro

theorem Placed.mono (longer : owners <+: later) (placed : p.Placed scope owners) :
    p.Placed scope later :=
  ⟨placed.1.mono longer, placed.2⟩

theorem inside_whole (p : Parser) : p.Inside .whole := by
  cases p with
  | lazy cell g => exact ⟨True.intro, Scope.whole_allows g⟩
  | andThen p fns => exact fun fn _ v => Scope.whole_allows (fn v)
  | _ => exact True.intro

theorem all_inside_whole (p : Parser) : p.All (Inside .whole) :=
  p.all_true.mono fun p _ => p.inside_whole

theorem all_placed (owned : p.All (Owned owners)) (inside : p.All (Inside scope)) :
    p.All (Placed scope owners) := by
  induction owned with
  | @intro p here _ ih =>
      rw [all_iff] at inside
      exact .intro ⟨here, inside.1⟩ fun q member => ih q member (inside.2 q member)

theorem all_owned (placed : p.All (Placed scope owners)) : p.All (Owned owners) :=
  placed.mono fun _ => And.left

theorem all_inside (placed : p.All (Placed scope owners)) : p.All (Inside scope) :=
  placed.mono fun _ => And.right

end Parser

def Argument.All (ok : Parser → Prop) : Argument → Prop
  | .parser p => p.All ok
  | .other _ => True

theorem Argument.All.mono {ok ok' : Parser → Prop} (weaker : ∀ p, ok p → ok' p) {a : Argument}
    (all : a.All ok) : a.All ok' := by
  cases a with
  | parser p => exact Parser.All.mono weaker all
  | other v => exact True.intro

theorem Argument.all_inside_whole (a : Argument) : a.All (Parser.Inside .whole) := by
  cases a with
  | parser p => exact p.all_inside_whole
  | other v => exact True.intro

namespace Store

variable {s t : Store} {cell cell' : Nat} {pos pos' : Int} {r : Outcome} {p : Parser}
  {owners later : Owners}

theorem outcomeAt?_remember : (s.remember cell pos r).outcomeAt? cell' pos' =
    if cell' = cell ∧ pos' = pos then some r else s.outcomeAt? cell' pos' := by
  by_cases same : cell' = cell ∧ pos' = pos
  · obtain ⟨rfl, rfl⟩ := same
    simp [outcomeAt?, remember]
  · have other : ((cell', pos') == (cell, pos)) = false := by simpa using same
    simp [outcomeAt?, remember, List.lookup_cons, other, same]

theorem outcomeAt?_remember_of_ne (apart : cell' ≠ cell) :
    (s.remember cell pos r).outcomeAt? cell' pos' = s.outcomeAt? cell' pos' := by
  rw [outcomeAt?_remember, if_neg fun same => apart same.1]

theorem target?_keepTarget :
    (s.keepTarget cell p).target? cell' = if cell' = cell then some p else s.target? cell' := by
  by_cases same : cell' = cell
  · subst same
    simp [target?, keepTarget]
  · have other : (cell' == cell) = false := by simpa using same
    simp [target?, keepTarget, List.lookup_cons, other, same]

theorem named?_keepName {name other : Text} {a : Argument} :
    (s.keepName name a).named? other = if other = name then some a else s.named? other := by
  by_cases same : other = name
  · subst same
    simp [named?, keepName]
  · have different : (other == name) = false := by simpa using same
    simp [named?, keepName, List.lookup_cons, different, same]

/-- The part of a store that has owners. -/
def holdings (s : Store) :
    Nat × List (Text × Argument) × List ((Nat × Int) × Outcome) × List (Nat × Parser) :=
  (s.nextCell, s.memory)

/-- All that a store holds belongs to the owners of its cells. What is remembered may come from any
text and from any names. -/
structure Owned (owners : Owners) (s : Store) : Prop where
  nextCell : s.nextCell = owners.length
  parsers {cell : Nat} {p : Parser} : owners[cell]? = some p → p.All (Parser.Owned owners)
  named {name : Text} {a : Argument} : s.named? name = some a → a.All (Parser.Owned owners)
  outcomes {cell : Nat} {pos : Int} {r : Outcome} : s.outcomeAt? cell pos = some r →
    ∃ trace p, owners[cell]? = some (.memoize cell trace p)
  targets {cell : Nat} {p : Parser} : s.target? cell = some p →
    p.All (Parser.Owned owners) ∧ ∃ g, owners[cell]? = some (.lazy cell g)

namespace Owned

theorem empty : Store.empty.Owned [] where
  nextCell := rfl
  parsers := nofun
  named := nofun
  outcomes := nofun
  targets := nofun

theorem congr (owned : s.Owned owners) (same : t.holdings = s.holdings) : t.Owned owners := by
  obtain ⟨nextCell, names, outcomes, targets⟩ :
      t.nextCell = s.nextCell ∧ t.names = s.names ∧ t.outcomes = s.outcomes ∧
        t.targets = s.targets := by
    simpa [holdings, memory] using same
  exact {
    nextCell := nextCell.trans owned.nextCell
    parsers := owned.parsers
    named := fun found => owned.named (by simpa only [named?, names] using found)
    outcomes := fun found => owned.outcomes (by simpa only [outcomeAt?, outcomes] using found)
    targets := fun found => owned.targets (by simpa only [target?, targets] using found) }

theorem newCell (owned : s.Owned owners) (built : p.All (Parser.Owned (owners ++ [p]))) :
    ({ s with nextCell := s.nextCell + 1 } : Store).Owned (owners ++ [p]) where
  nextCell := by simp [owned.nextCell]
  parsers owner := by
    rw [List.getElem?_append] at owner
    split at owner
    · exact (owned.parsers owner).mono fun _ => Parser.Owned.mono (List.prefix_append owners [p])
    · obtain rfl := List.mem_singleton.mp (List.mem_of_getElem? owner)
      exact built
  named found :=
    (owned.named found).mono fun _ => Parser.Owned.mono (List.prefix_append owners [p])
  outcomes found := by
    obtain ⟨trace, q, owner⟩ := owned.outcomes found
    exact ⟨trace, q, Owners.getElem?_of_prefix (List.prefix_append owners [p]) owner⟩
  targets found := by
    obtain ⟨built, g, owner⟩ := owned.targets found
    exact ⟨built.mono fun _ => Parser.Owned.mono (List.prefix_append owners [p]), g,
      Owners.getElem?_of_prefix (List.prefix_append owners [p]) owner⟩

theorem remember (owned : s.Owned owners) {trace : Bool}
    (owner : owners[cell]? = some (.memoize cell trace p)) (pos : Int) (r : Outcome) :
    (s.remember cell pos r).Owned owners where
  nextCell := owned.nextCell
  parsers := owned.parsers
  named := owned.named
  outcomes found := by
    rw [outcomeAt?_remember] at found
    split at found
    next same => exact same.1 ▸ ⟨trace, p, owner⟩
    next => exact owned.outcomes found
  targets := owned.targets

theorem keepTarget (owned : s.Owned owners) {g : Grammar}
    (owner : owners[cell]? = some (.lazy cell g)) (built : p.All (Parser.Owned owners)) :
    (s.keepTarget cell p).Owned owners where
  nextCell := owned.nextCell
  parsers := owned.parsers
  named := owned.named
  outcomes := owned.outcomes
  targets found := by
    rw [target?_keepTarget] at found
    split at found
    next same =>
      subst same
      cases found
      exact ⟨built, g, owner⟩
    next => exact owned.targets found

theorem keepName (owned : s.Owned owners) (name : Text) {a : Argument}
    (built : a.All (Parser.Owned owners)) : (s.keepName name a).Owned owners where
  nextCell := owned.nextCell
  parsers := owned.parsers
  named found := by
    rw [named?_keepName] at found
    split at found
    · cases found
      exact built
    · exact owned.named found
  outcomes := owned.outcomes
  targets := owned.targets

/-- A cell that is still to be taken. -/
theorem outcomeAt?_eq_none (owned : s.Owned owners) (free : s.nextCell ≤ cell) (pos : Int) :
    s.outcomeAt? cell pos = none := by
  refine Option.eq_none_iff_forall_ne_some.mpr fun r found => ?_
  obtain ⟨_, _, owner⟩ := owned.outcomes found
  have taken := (List.getElem?_eq_some_iff.mp owner).1
  rw [owned.nextCell] at free
  omega

theorem target?_eq_none (owned : s.Owned owners) (free : s.nextCell ≤ cell) :
    s.target? cell = none := by
  refine Option.eq_none_iff_forall_ne_some.mpr fun p found => ?_
  obtain ⟨-, g, owner⟩ := owned.targets found
  have taken := (List.getElem?_eq_some_iff.mp owner).1
  rw [owned.nextCell] at free
  omega

end Owned

/-- A store in which everything remembered within a scope is what the owners of the cells mean
on a text. What is in the scope uses nothing out of it, and cells that are still to be taken are
in it. -/
structure Consistent (scope : Scope) (names : Names) (src : Text) (owners : Owners) (s : Store) :
    Prop where
  owned : s.Owned owners
  free {cell : Nat} : s.nextCell ≤ cell → scope.cells cell
  inside {cell : Nat} {p : Parser} : scope.cells cell → owners[cell]? = some p →
    p.All (Parser.Inside scope)
  named {name : Text} : scope.names name → (s.named? name).map Argument.plain = names name ∧
    ∀ a, s.named? name = some a → a.All (Parser.Inside scope)
  outcomes {cell : Nat} {pos : Int} {r : Outcome} : scope.outcomes → scope.cells cell →
    s.outcomeAt? cell pos = some r → ∃ p, owners[cell]? = some p ∧ p.Means names src pos (.ok r)
  targets {cell : Nat} {p : Parser} : scope.cells cell → s.target? cell = some p →
    p.All (Parser.Inside scope) ∧
      ∃ g, owners[cell]? = some (.lazy cell g) ∧ g.planned names = .ok p.plain

namespace Consistent

variable {scope : Scope} {names : Names} {src : Text}

theorem congr (consistent : s.Consistent scope names src owners) (same : t.holdings = s.holdings) :
    t.Consistent scope names src owners := by
  obtain ⟨nextCell, known, outcomes, targets⟩ :
      t.nextCell = s.nextCell ∧ t.names = s.names ∧ t.outcomes = s.outcomes ∧
        t.targets = s.targets := by
    simpa [holdings, memory] using same
  exact {
    owned := consistent.owned.congr same
    free := fun later => consistent.free (nextCell ▸ later)
    inside := consistent.inside
    named := fun inside => by simpa only [named?, known] using consistent.named inside
    outcomes := fun sure inside found =>
      consistent.outcomes sure inside (by simpa only [outcomeAt?, outcomes] using found)
    targets := fun inside found =>
      consistent.targets inside (by simpa only [target?, targets] using found) }

theorem placed (consistent : s.Consistent scope names src owners) {name : Text} {a : Argument}
    (inside : scope.names name) (found : s.named? name = some a) :
    a.All (Parser.Placed scope owners) := by
  have owned := consistent.owned.named found
  have within := (consistent.named inside).2 a found
  cases a with
  | parser p => exact Parser.all_placed owned within
  | other v => exact True.intro

theorem target (consistent : s.Consistent scope names src owners) {g : Grammar}
    (inside : scope.cells cell) (owner : owners[cell]? = some (.lazy cell g))
    (found : s.target? cell = some p) :
    p.All (Parser.Placed scope owners) ∧ g.planned names = .ok p.plain := by
  obtain ⟨within, h, other, planned⟩ := consistent.targets inside found
  cases owner.symm.trans other
  exact ⟨Parser.all_placed (consistent.owned.targets found).1 within, planned⟩

theorem newCell (consistent : s.Consistent scope names src owners)
    (placed : p.All (Parser.Placed scope (owners ++ [p]))) :
    ({ s with nextCell := s.nextCell + 1 } : Store).Consistent scope names src (owners ++ [p]) where
  owned := consistent.owned.newCell (Parser.all_owned placed)
  free later := consistent.free (Nat.le_of_succ_le later)
  inside {cell q} inside owner := by
    rw [List.getElem?_append] at owner
    split at owner
    · exact consistent.inside inside owner
    · obtain rfl := List.mem_singleton.mp (List.mem_of_getElem? owner)
      exact Parser.all_inside placed
  named := consistent.named
  outcomes sure inside found := by
    obtain ⟨q, owner, means⟩ := consistent.outcomes sure inside found
    exact ⟨q, Owners.getElem?_of_prefix (List.prefix_append owners [p]) owner, means⟩
  targets inside found := by
    obtain ⟨within, g, owner, planned⟩ := consistent.targets inside found
    exact ⟨within, g, Owners.getElem?_of_prefix (List.prefix_append owners [p]) owner, planned⟩

theorem remember (consistent : s.Consistent scope names src owners) {trace : Bool}
    (owner : owners[cell]? = some (.memoize cell trace p))
    (means : (Parser.memoize cell trace p).Means names src pos (.ok r)) :
    (s.remember cell pos r).Consistent scope names src owners where
  owned := consistent.owned.remember owner pos r
  free := consistent.free
  inside := consistent.inside
  named := consistent.named
  outcomes sure inside found := by
    rw [outcomeAt?_remember] at found
    split at found
    next same =>
      obtain ⟨rfl, rfl⟩ := same
      cases found
      exact ⟨_, owner, means⟩
    next => exact consistent.outcomes sure inside found
  targets := consistent.targets

theorem keepTarget (consistent : s.Consistent scope names src owners) {g : Grammar}
    (owner : owners[cell]? = some (.lazy cell g)) (placed : p.All (Parser.Placed scope owners))
    (planned : g.planned names = .ok p.plain) :
    (s.keepTarget cell p).Consistent scope names src owners where
  owned := consistent.owned.keepTarget owner (Parser.all_owned placed)
  free := consistent.free
  inside := consistent.inside
  named := consistent.named
  outcomes := consistent.outcomes
  targets inside found := by
    rw [target?_keepTarget] at found
    split at found
    next same =>
      subst same
      cases found
      exact ⟨Parser.all_inside placed, g, owner, planned⟩
    next => exact consistent.targets inside found

end Consistent

end Store

theorem Callback.run_run {α : Type} (f : Callback α) (v : Value) {scope : Scope} {names : Names}
    {src : Text} {owners : Owners} {s : Store} (consistent : s.Consistent scope names src owners) :
    ∃ t, (f.run v).run s = some (f.call v, t) ∧ t.Consistent scope names src owners := by
  cases noted : f.event with
  | none =>
      refine ⟨s, ?_, consistent⟩
      simp only [Callback.run, noted]
      exact Action.run_ofExcept _ s
  | some event =>
      refine ⟨s.record event, ?_, consistent.congr rfl⟩
      simp only [Callback.run, noted]
      exact Action.run_ofExcept _ (s.record event)

end Descent
