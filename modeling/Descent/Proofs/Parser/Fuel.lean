import Descent.Proofs.Meaning.Basic

/-!
Fuel. Main statement: a run that ends with some fuel ends alike with more, and leaves the same store
behind.
-/

namespace Descent

/-- Computations over one kind of state: from every state, where the first one ends, the second one
ends in the same state with a result that agrees. -/
def Correspondence.prolonging (σ : Type) : Correspondence Unit σ σ where
  Rel A m n := ∀ s x t, m.run s = some (x, t) → ∃ y, (n ()).run s = some (y, t) ∧ Agree A x y
  pure related s x t run := by
    cases run
    exact ⟨_, rfl, .ok related⟩
  bind first next s x t run := by
    rcases Action.run_bind_eq_some.mp run with ⟨e, failed, rfl⟩ | ⟨a, u, answered, continued⟩
    · obtain ⟨y, other, agree⟩ := first s _ t failed
      cases agree
      exact ⟨_, Action.run_bind_eq_some.mpr (.inl ⟨e, other, rfl⟩), .error e⟩
    · obtain ⟨y, other, agree⟩ := first s _ u answered
      cases agree with
      | ok related =>
          obtain ⟨z, otherContinued, result⟩ := next _ _ related u x t continued
          exact ⟨z, Action.run_bind_eq_some.mpr (.inr ⟨_, u, other, otherContinued⟩), result⟩
  raise e s x t run := by
    cases run
    exact ⟨_, rfl, .error e⟩
  exhausted n s x t run := by cases run

theorem Correspondence.prolonging_same {σ α : Type} (m : Action σ α) :
    (prolonging σ).Rel Eq m fun _ => m :=
  fun _ x _ ran => ⟨x, ran, agree_eq_iff.mpr rfl⟩

section

variable {src : Text} {p q : Matcher Store} {enter enter' : Parser → Matcher Store}

open Correspondence

theorem Matcher.Corresponds.prolongs {σ : Type} {p q : Matcher σ}
    (corresponds : Matcher.Corresponds (prolonging σ) (.identity src) p fun _ => q) {pos : Int}
    {s t : σ} {x : Except Fault Outcome} (ended : (p src pos).run s = some (x, t)) :
    (q src pos).run s = some (x, t) := by
  obtain ⟨y, other, agree⟩ := corresponds pos pos rfl s x t ended
  obtain rfl : x = y := Alignment.agree_identity_iff.mp agree
  exact other

theorem enter_prolongs
    (alike : ∀ p, Matcher.Corresponds (prolonging Store) (.identity src) (enter p)
      fun _ => enter' p) (g : Grammar) :
    Matcher.Corresponds (prolonging Store) (.identity src)
      (Matcher.thenRun do return enter (← g.parser))
      fun _ => Matcher.thenRun do return enter' (← g.parser) := by
  intro i j place
  simp only [Matcher.thenRun, bind_assoc, pure_bind]
  refine (prolonging Store).bind (prolonging_same g.parser) fun p _ same => ?_
  exact same ▸ alike p i j place

theorem lazy_prolongs (alike : ∀ p, Matcher.Corresponds (prolonging Store) (.identity src) (enter p)
      fun _ => enter' p) (cell : Nat) (g : Grammar) :
    Matcher.Corresponds (prolonging Store) (.identity src) (Matcher.lazy cell g.parser enter)
      fun _ => Matcher.lazy cell g.parser enter' := by
  intro i j place
  refine (prolonging Store).bind (prolonging_same Action.state) fun s _ same => ?_
  obtain rfl := same
  cases s.target? cell with
  | some p => exact alike p i j place
  | none =>
      refine (prolonging Store).bind (prolonging_same g.parser) fun p _ same => ?_
      obtain rfl := same
      exact (prolonging Store).bind (prolonging_same _) fun _ _ _ => alike p i j place

theorem memoize_prolongs (cell : Nat) (trace : Bool) (name? : Option Text)
    (inner : Matcher.Corresponds (prolonging Store) (.identity src) p fun _ => q) :
    Matcher.Corresponds (prolonging Store) (.identity src) (Matcher.memoize cell trace name? p)
      fun _ => Matcher.memoize cell trace name? q := by
  intro i j place
  obtain rfl := place
  refine (prolonging Store).bind (prolonging_same Action.state) fun s _ same => ?_
  obtain rfl := same
  cases s.outcomeAt? cell i with
  | some r => exact fun _ x _ ran => ⟨x, ran, Alignment.agree_identity_iff.mpr rfl⟩
  | none =>
      refine (prolonging Store).bind (inner i i rfl) fun r _ related => ?_
      obtain rfl := Alignment.outcomes_identity related
      exact fun _ x _ ran => ⟨x, ran, Alignment.agree_identity_iff.mpr rfl⟩

theorem named_prolongs (label : Text) (trace : Bool)
    (inner : Matcher.Corresponds (prolonging Store) (.identity src) p fun _ => q) :
    Matcher.Corresponds (prolonging Store) (.identity src) (Matcher.named label trace p)
      fun _ => Matcher.named label trace q := by
  intro i j place
  have relabelled := Matcher.relabel_corresponds label inner i j place
  obtain rfl := place
  cases trace with
  | false => exact relabelled
  | true => exact (prolonging Store).bind (prolonging_same _) fun _ _ _ => relabelled

theorem probe_prolongs (event : Text)
    (inner : Matcher.Corresponds (prolonging Store) (.identity src) p fun _ => q) :
    Matcher.Corresponds (prolonging Store) (.identity src) (Matcher.probe event p)
      fun _ => Matcher.probe event q := by
  intro i j place
  obtain rfl := place
  exact (prolonging Store).bind (prolonging_same _) fun _ _ _ => inner i i rfl

theorem Parser.run_prolongs {m n : Nat} (more : m ≤ n) (p : Parser) :
    Matcher.Corresponds (prolonging Store) (.identity src) (p.run m) fun _ => p.run n := by
  induction m using Nat.strongRecOn generalizing n p with
  | ind m ih =>
      have alike (p : Parser) : Matcher.Corresponds (prolonging Store) (.identity src)
          (Parser.late Parser.run m p) fun _ => Parser.late Parser.run n p := by
        cases m with
        | zero => exact fun _ _ _ => (prolonging Store).exhausted _
        | succ m =>
            obtain ⟨n, rfl⟩ : ∃ k, n = k + 1 := ⟨n - 1, by omega⟩
            exact ih m (Nat.lt_succ_self m) (Nat.le_of_succ_le_succ more) p
      simp only [Parser.run_eq_matcher]
      refine Interpretation.Corresponds.matcher ?_ p.all_true
      exact {
        fuel := fun _ => more
        label := fun text => ⟨text, fun _ => rfl, rfl⟩
        call := fun f v => prolonging_same (f.run v)
        regex := fun _ => Matcher.regex_corresponds_identity _
        custom := fun _ => Matcher.custom_corresponds_identity _
        enter := fun _ fn _ v => enter_prolongs alike (fn v)
        memoize := fun _ inner => memoize_prolongs _ _ _ inner
        lazy := fun _ => lazy_prolongs alike _ _
        named := fun label trace _ _ inner => named_prolongs label trace inner
        probe := fun event _ _ inner => probe_prolongs event inner }

theorem Parser.late_prolongs {m n : Nat} (more : m ≤ n) (p : Parser) :
    Matcher.Corresponds (prolonging Store) (.identity src) (Parser.late Parser.run m p)
      fun _ => Parser.late Parser.run n p := by
  cases m with
  | zero => exact fun _ _ _ => (prolonging Store).exhausted _
  | succ m =>
      obtain ⟨n, rfl⟩ : ∃ k, n = k + 1 := ⟨n - 1, by omega⟩
      exact Parser.run_prolongs (Nat.le_of_succ_le_succ more) p

end

namespace Parser

variable {p : Parser} {src : Text} {pos : Int} {s t u : Store} {x y : Except Fault Outcome}

theorem run_mono {m n : Nat} (more : m ≤ n) (ended : (p.run m src pos).run s = some (x, t)) :
    (p.run n src pos).run s = some (x, t) :=
  (run_prolongs more p).prolongs ended

/-- Run from a store, it answers so and leaves the second store behind, given enough fuel. -/
def Ends (p : Parser) (src : Text) (pos : Int) (s : Store) (x : Except Fault Outcome) (t : Store) :
    Prop :=
  ∃ fuel, (p.run fuel src pos).run s = some (x, t)

theorem Ends.unique (first : p.Ends src pos s x t) (second : p.Ends src pos s y u) :
    x = y ∧ t = u := by
  obtain ⟨m, first⟩ := first
  obtain ⟨n, second⟩ := second
  have left := run_mono (Nat.le_max_left m n) first
  have right := run_mono (Nat.le_max_right m n) second
  cases left.symm.trans right
  exact ⟨rfl, rfl⟩

end Parser

end Descent
