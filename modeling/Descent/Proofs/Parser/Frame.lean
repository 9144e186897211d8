import Descent.Parser.Build
import Descent.Proofs.Correspondence.Basic
import Descent.Proofs.Parser.Parts

/-!
What building leaves as it is, and what it does not look at: a grammar that is built takes cells and
records events, nothing that parsers look up in the store changes, and what they remember makes no
difference.
-/

namespace Descent

namespace Action

variable {σ α β γ : Type} {f : σ → γ}

/-- Whatever the computation comes to, a part of the state is as before. -/
def Keeps (f : σ → γ) (m : Action σ α) : Prop :=
  ∀ s x t, m.run s = some (x, t) → f t = f s

namespace Keeps

theorem pure (a : α) : Keeps f (Pure.pure a : Action σ α) := by
  intro s x t run
  cases run
  rfl

theorem raise (e : Fault) : Keeps f (Action.raise e : Action σ α) := by
  intro s x t run
  cases run
  rfl

theorem ofExcept (x : Except Fault α) : Keeps f (Action.ofExcept x : Action σ α) := by
  cases x with
  | ok a => exact .pure a
  | error e => exact .raise e

theorem state : Keeps f (Action.state : Action σ σ) := by
  intro s x t run
  cases run
  rfl

theorem modify {change : σ → σ} (same : ∀ s, f (change s) = f s) :
    Keeps f (Action.modify change) := by
  intro s x t run
  cases run
  exact same s

theorem bind {m : Action σ α} {n : α → Action σ β} (first : Keeps f m) (next : ∀ a, Keeps f (n a)) :
    Keeps f (m >>= n) := by
  intro s x t run
  rcases Action.run_bind_eq_some.mp run with ⟨e, failed, rfl⟩ | ⟨a, u, answered, continued⟩
  · exact first s _ t failed
  · exact (next a u x t continued).trans (first s _ u answered)

end Keeps

/-- Changing the state before the computation is as good as changing it afterwards. -/
def Commutes (f : σ → σ) (m : Action σ α) : Prop :=
  ∀ s, m.run (f s) = (m.run s).map fun (x, t) => (x, f t)

namespace Commutes

variable {f : σ → σ}

theorem bind {m : Action σ α} {n : α → Action σ β} (first : Commutes f m)
    (next : ∀ a, Commutes f (n a)) :
    Commutes f (m >>= n) := by
  intro s
  rw [run_bind, run_bind, first s]
  rcases m.run s with _ | ⟨_ | a, t⟩
  · rfl
  · rfl
  · exact next a t

theorem look {view : σ → α} (same : ∀ s, view (f s) = view s) :
    Commutes f do return view (← state) := by
  intro s
  simp only [run_bind, run_state, run_pure, same]
  rfl

theorem modify {change : σ → σ} (exchange : ∀ s, change (f s) = f (change s)) :
    Commutes f (Action.modify change) := by
  intro s
  rw [run_modify, run_modify, exchange]
  rfl

end Commutes

end Action

/-- The part of a store that names, outcomes and late parsers are looked up in. -/
def Store.memory (s : Store) :
    List (Text × Argument) × List ((Nat × Int) × Outcome) × List (Nat × Parser) :=
  (s.names, s.outcomes, s.targets)

/-- The store, with nothing remembered. -/
def Store.unused (s : Store) : Store :=
  { s with outcomes := [], targets := [] }

theorem Store.newCell_keeps : Action.Keeps Store.memory Store.newCell := by
  refine Action.Keeps.state.bind fun _ => Action.Keeps.bind (Action.Keeps.modify ?_)
    fun _ => .pure _
  exact fun _ => rfl

namespace Grammar

/-- A property of computations that holds of all that building is made of. -/
structure Steps (P : (α : Type) → Action Store α → Prop) : Prop where
  pure {α : Type} (a : α) : P α (Pure.pure a)
  raise {α : Type} (e : Fault) : P α (Action.raise e)
  bind {α β : Type} {m : Action Store α} {f : α → Action Store β} : P α m → (∀ a, P β (f a)) →
    P β (m >>= f)
  record (event : Text) : P Unit (Action.modify (Store.record event))
  named (name : Text) : P (Option Argument) do return (← Action.state).named? name
  debug : P Bool do return (← Action.state).debug
  newCell : P Nat Store.newCell

namespace Steps

variable {P : (α : Type) → Action Store α → Prop}

theorem ofExcept (steps : Steps P) {α : Type} (x : Except Fault α) : P α (Action.ofExcept x) := by
  cases x with
  | ok a => exact steps.pure a
  | error e => exact steps.raise e

/-- Of the store, building looks at names, the switch and the next cell only. -/
private theorem look (steps : Steps P) {α β : Type} {view : Store → α}
    (seen : P α do return view (← Action.state)) {f : α → Action Store β} (next : ∀ a, P β (f a)) :
    P β (do f (view (← Action.state))) := by
  simpa only [bind_assoc, pure_bind] using steps.bind seen next

private theorem part (steps : Steps P) {m : Action Store Argument} (here : P Argument m)
    {f : Parser → Action Store Argument} (whole : ∀ p, P Argument (f p)) :
    P Argument (do f (← (← m).toParser)) :=
  steps.bind here fun _ => steps.bind (steps.ofExcept _) whole

private theorem members (steps : Steps P) {m : Action Store (List Argument)}
    (parts : P (List Argument) m) (f : List Parser → Parser) :
    P Argument (do
      let arguments ← m
      if arguments.isEmpty then Action.raise .parserRequired
      return Argument.parser (f (← Argument.toParsers arguments))) := by
  refine steps.bind parts fun arguments => ?_
  split
  · exact steps.bind (steps.raise _) fun _ => steps.bind (steps.ofExcept _) fun _ => steps.pure _
  · exact steps.bind (steps.ofExcept _) fun _ => steps.pure _

theorem buildAll (steps : Steps P) {gs : List Grammar} (parts : ∀ g ∈ gs, P Argument g.build) :
    P (List Argument) (Grammar.buildAll gs) := by
  induction gs with
  | nil => exact steps.pure _
  | cons g gs ih =>
      obtain ⟨here, later⟩ := List.forall_mem_cons.mp parts
      exact steps.bind here fun _ => steps.bind (ih later) fun _ => steps.pure _

theorem build (steps : Steps P) (g : Grammar) : P Argument g.build := by
  induction g using Grammar.induction with
  | step g ih =>
      cases g with
      | value v => cases v <;> exact steps.pure _
      | ref name =>
          let f (found : Option Argument) : Action Store Argument :=
            found.elim (Action.raise (.unknownName name)) Pure.pure
          have known : (Grammar.ref name).build = Action.state >>= fun s => f (s.named? name) := by
            rw [Grammar.build]
            refine bind_congr fun s => ?_
            cases s.named? name <;> rfl
          rw [known]
          refine steps.look (steps.named name) (f := f) fun found => ?_
          cases found with
          | none => exact steps.raise _
          | some a => exact steps.pure a
      | noting event g => exact steps.bind (steps.record event) fun _ => ih g .noting
      | faulty e => exact steps.raise e
      | char t =>
          rcases t with _ | ⟨c, _ | ⟨d, t⟩⟩
          · exact steps.raise _
          · exact steps.pure _
          · exact steps.raise _
      | regex flags pattern => exact steps.bind (steps.ofExcept _) fun _ => steps.pure _
      | seq gs => exact steps.members (steps.buildAll fun g member => ih g (.seq member)) Parser.seq
      | alt gs => exact steps.members (steps.buildAll fun g member => ih g (.alt member)) Parser.alt
      | copies g count =>
          refine steps.bind (ih g .copies) fun a => steps.bind (steps.ofExcept count) fun n => ?_
          split
          · exact steps.bind (steps.raise _) fun _ => steps.bind (steps.ofExcept _)
              fun _ => steps.pure _
          · exact steps.bind (steps.ofExcept _) fun _ => steps.pure _
      | map g fn validate => exact steps.part (ih g .map) fun _ => steps.pure _
      | many g => exact steps.part (ih g .many) fun _ => steps.pure _
      | many1 g => exact steps.part (ih g .many1) fun _ => steps.pure _
      | between left right g =>
          refine steps.bind (ih left .betweenLeft) fun _ =>
            steps.bind (ih right .betweenRight) fun _ => steps.bind (ih g .between) fun _ => ?_
          exact steps.bind (steps.ofExcept _) fun _ => steps.bind (steps.ofExcept _) fun _ =>
            steps.bind (steps.ofExcept _) fun _ => steps.pure _
      | upTo stop g =>
          refine steps.bind (ih stop .upToStop) fun _ => steps.bind (ih g .upTo) fun _ => ?_
          exact steps.bind (steps.ofExcept _) fun _ => steps.bind (steps.ofExcept _)
            fun _ => steps.pure _
      | not g => exact steps.part (ih g .not) fun _ => steps.pure _
      | except exclusion g =>
          refine steps.bind (ih exclusion .exceptExclusion) fun _ =>
            steps.bind (ih g .except) fun _ => ?_
          exact steps.bind (steps.ofExcept _) fun _ => steps.bind (steps.ofExcept _)
            fun _ => steps.pure _
      | peek g => exact steps.part (ih g .peek) fun _ => steps.pure _
      | eof g => exact steps.part (ih g .eof) fun _ => steps.pure _
      | sepBy separator item =>
          refine steps.bind (ih separator .sepBySeparator) fun _ =>
            steps.bind (ih item .sepBy) fun _ => ?_
          exact steps.bind (steps.ofExcept _) fun _ => steps.bind (steps.ofExcept _)
            fun _ => steps.pure _
      | andThen g fns => exact steps.part (ih g .andThen) fun _ => steps.pure _
      | memoize g =>
          refine steps.part (ih g .memoize) fun p => steps.bind steps.newCell fun cell => ?_
          exact steps.look steps.debug
            (f := fun trace => Pure.pure (Argument.parser (.memoize cell trace p)))
            fun _ => steps.pure _
      | lazy g => exact steps.bind steps.newCell fun _ => steps.pure _
      | named label g =>
          refine steps.part (ih g .named) fun p => ?_
          exact steps.look steps.debug
            (f := fun trace => Pure.pure (Argument.parser (.named label trace p)))
            fun _ => steps.pure _
      | probe event g => exact steps.part (ih g .probe) fun _ => steps.pure _
      | string _ | satisfy _ _ | whitespaces | succeed _ | fail _ | custom _ => exact steps.pure _

theorem parser (steps : Steps P) (g : Grammar) : P Parser g.parser :=
  steps.bind (steps.build g) fun _ => steps.ofExcept _

end Steps

private theorem steps_keep : Steps fun _ m => Action.Keeps Store.memory m where
  pure := .pure
  raise := .raise
  bind := .bind
  record _ := .modify fun _ => rfl
  named _ := Action.Keeps.state.bind fun _ => .pure _
  debug := Action.Keeps.state.bind fun _ => .pure _
  newCell := Store.newCell_keeps

theorem build_keeps (g : Grammar) : Action.Keeps Store.memory g.build :=
  steps_keep.build g

theorem parser_keeps (g : Grammar) : Action.Keeps Store.memory g.parser :=
  steps_keep.parser g

private theorem steps_commute : Steps fun _ m => Action.Commutes Store.unused m where
  pure _ _ := rfl
  raise _ _ := rfl
  bind := .bind
  record _ := .modify fun _ => rfl
  named _ := .look fun _ => rfl
  debug := .look fun _ => rfl
  newCell _ := rfl

theorem build_commutes (g : Grammar) : Action.Commutes Store.unused g.build :=
  steps_commute.build g

theorem parser_commutes (g : Grammar) : Action.Commutes Store.unused g.parser :=
  steps_commute.parser g

end Grammar

end Descent
