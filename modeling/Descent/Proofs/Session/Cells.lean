import Descent.Proofs.Debug.Running
import Descent.Proofs.Meaning.Building

/-!
Building in any store. Main statement: whatever was requested, and on whatever texts, building
leaves its owners to a store, and what is built belongs to them.
-/

namespace Descent

theorem Store.record_keeps (event : Text) :
    Action.Keeps Store.holdings (Action.modify (Store.record event)) :=
  .modify fun _ => rfl

theorem Callback.run_keeps {α : Type} (f : Callback α) (v : Value) :
    Action.Keeps Store.holdings (f.run v) := by
  have called : Action.Keeps Store.holdings (Action.ofExcept (f.call v)) := .ofExcept _
  unfold Callback.run
  cases f.event with
  | none => exact called
  | some event => exact (Store.record_keeps event).bind fun _ => called

theorem Action.writeIf_keeps (flag : Bool) (m : Message) :
    Action.Keeps Store.holdings (Action.writeIf flag m) := by
  intro s x t run
  rw [Action.run_writeIf] at run
  cases run
  rfl

namespace Store.Owned

variable {owners later : Owners} {s t : Store}

/-- Without what it remembers, the store is consistent, for want of anything to remember. -/
theorem consistent (owned : s.Owned owners) :
    s.unused.Consistent .whole (fun name => (s.named? name).map Argument.plain) [] owners where
  owned := {
    nextCell := owned.nextCell
    parsers := owned.parsers
    named := owned.named
    outcomes := nofun
    targets := nofun }
  free _ := True.intro
  inside {_ p} _ _ := p.all_inside_whole
  named _ := ⟨rfl, fun a _ => a.all_inside_whole⟩
  outcomes := nofun
  targets := nofun

theorem of_unused (owned : s.Owned owners) (longer : owners <+: later) {names : Names} {src : Text}
    (consistent : t.unused.Consistent .whole names src later) (memory : t.memory = s.memory) :
    t.Owned later := by
  obtain ⟨-, outcomes, targets⟩ :
      t.names = s.names ∧ t.outcomes = s.outcomes ∧ t.targets = s.targets := by
    simpa [Store.memory] using memory
  exact {
    nextCell := consistent.owned.nextCell
    parsers := consistent.owned.parsers
    named := consistent.owned.named
    outcomes := fun found => by
      obtain ⟨trace, p, owner⟩ :=
        owned.outcomes (by simpa only [outcomeAt?, outcomes] using found)
      exact ⟨trace, p, Owners.getElem?_of_prefix longer owner⟩
    targets := fun found => by
      obtain ⟨built, g, owner⟩ := owned.targets (by simpa only [target?, targets] using found)
      exact ⟨built.mono fun _ => Parser.Owned.mono longer, g,
        Owners.getElem?_of_prefix longer owner⟩ }

/-- What keeps consistent stores consistent, and looks at nothing that is remembered, leaves its
owners to a store. -/
theorem of_builds (owned : s.Owned owners) {α β : Type} {A : Owners → α → β → Prop}
    {m : Action Store α} {y : Except Fault β} {x : Except Fault α}
    (commutes : m.Commutes Store.unused) (keeps : m.Keeps Store.memory)
    (builds : Builds .whole (fun name => (s.named? name).map Argument.plain) [] owners A m y)
    (ran : m.run s = some (x, t)) :
    ∃ later, owners <+: later ∧ t.Owned later ∧ Agree (A later) x y := by
  obtain ⟨later, z, u, alone, longer, kept, agree⟩ := builds s.unused owned.consistent
  rw [commutes s, ran] at alone
  obtain ⟨rfl, rfl⟩ := Prod.mk.inj (Option.some.inj alone)
  exact ⟨later, longer, owned.of_unused longer kept (keeps s x t ran), agree⟩

theorem build (owned : s.Owned owners) {g : Grammar} {x : Except Fault Argument}
    (built : g.build.run s = some (x, t)) :
    ∃ later, owners <+: later ∧ t.Owned later ∧ ∀ a, x = .ok a → a.All (Parser.Owned later) := by
  obtain ⟨later, longer, kept, agree⟩ :=
    owned.of_builds g.build_commutes g.build_keeps
      (Grammar.build_builds (Scope.whole_allows g) owners) built
  refine ⟨later, longer, kept, fun a equal => ?_⟩
  subst equal
  generalize g.plan _ = y at agree
  cases agree with
  | ok tracks => exact tracks.2.mono fun _ => And.left

theorem parser (owned : s.Owned owners) {g : Grammar} {x : Except Fault Parser}
    (built : g.parser.run s = some (x, t)) :
    ∃ later, owners <+: later ∧ t.Owned later ∧ ∀ p, x = .ok p → p.All (Parser.Owned later) := by
  obtain ⟨later, longer, kept, agree⟩ :=
    owned.of_builds g.parser_commutes g.parser_keeps
      (Grammar.parser_builds (Scope.whole_allows g)) built
  refine ⟨later, longer, kept, fun p equal => ?_⟩
  subst equal
  generalize g.planned _ = y at agree
  cases agree with
  | ok tracks => exact Parser.all_owned tracks.2

end Store.Owned

end Descent
