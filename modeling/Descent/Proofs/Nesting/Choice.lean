import Descent.Proofs.Conduct.Session
import Descent.Proofs.Nesting.Basic

/-!
Choices within choices. What an inner choice expects is rid of repetitions before the outer one sees
it, and again there. Main statement: however alternatives are bracketed, they are tried in order
from one position, and only their order shows.
-/

namespace Descent

namespace Matcher

variable {ι σ : Type}

/-- Does not leave the states of which `I` holds. -/
def Preserves (I : σ → Prop) (p : Matcher σ) (src : Text) : Prop :=
  ∀ ⦃pos : Int⦄ ⦃s t : σ⦄ ⦃x : Except Fault Outcome⦄, I s → (p src pos).run s = some (x, t) → I t

/-- Does not leave the states of which `I` holds, and its failures from there are well formed. -/
structure Forms (I : σ → Prop) (p : Matcher σ) (src : Text) : Prop where
  preserves : p.Preserves I src
  wellFormed : ∀ ⦃pos : Int⦄ ⦃s t : σ⦄ ⦃f : Failure⦄, I s →
    (p src pos).run s = some (.ok (.failure f), t) → f.WellFormed

section

variable (family : ι → Matcher σ) (src : Text) (pos : Int)

/-- All fail, one after the other, and `labels` is what they expect, in order. -/
inductive Refused : List ι → σ → List Text → σ → Prop
  | nil (s : σ) : Refused [] s [] s
  | cons {i : ι} {is : List ι} {s t u : σ} {f : Failure} {labels : List Text}
      (failed : (family i src pos).run s = some (.ok (.failure f), t))
      (more : Refused is t labels u) :
      Refused (i :: is) s (f.expected ++ labels) u

/-- The first alternative that does not fail answers. `runs` holds those that are run, which are the
ones up to it. -/
inductive Decided : List ι → σ → Except Fault Outcome → σ → List ι → Prop
  | here {i : ι} {is : List ι} {s t : σ} {x : Except Fault Outcome}
      (answered : (family i src pos).run s = some (x, t)) (decides : ∀ f, x ≠ .ok (.failure f)) :
      Decided (i :: is) s x t [i]
  | later {i : ι} {is runs : List ι} {s t u : σ} {f : Failure} {x : Except Fault Outcome}
      (failed : (family i src pos).run s = some (.ok (.failure f), t))
      (more : Decided is t x u runs) :
      Decided (i :: is) s x u (i :: runs)

end

variable {family : ι → Matcher σ} {p q : Matcher σ} {ps rest rest' : List (Matcher σ)} {src : Text}
  {pos : Int} {s t : σ} {x : Except Fault Outcome} {f : Failure} {labels labels' : List Text}
  {is runs : List ι} {I : σ → Prop}

/-! One alternative after the other. -/

theorem alternatives_run_answered (answered : (p src pos).run s = some (x, t))
    (decides : ∀ f, x ≠ .ok (.failure f)) :
    (alternatives src pos (p :: ps) labels).run s = some (x, t) := by
  refine Action.run_bind_unchanged answered fun r equal => ?_
  cases r with
  | success r => rfl
  | failure f => exact absurd equal (decides f)

theorem alternatives_run_failed (failed : (p src pos).run s = some (.ok (.failure f), t)) :
    (alternatives src pos (p :: ps) labels).run s =
      (alternatives src pos ps (labels ++ f.expected)).run t := by
  rw [alternatives, Action.run_bind, failed]

theorem alternatives_run_endless (endless : (p src pos).run s = none) :
    (alternatives src pos (p :: ps) labels).run s = none := by
  rw [alternatives, Action.run_bind, endless]

/-- How often a label was expected so far does not show. -/
theorem alternatives_congr (same : unique labels = unique labels') :
    (alternatives src pos ps labels : Action σ Outcome) = alternatives src pos ps labels' := by
  induction ps generalizing labels labels' with
  | nil => rw [alternatives, alternatives, Failure.ofLabels, Failure.ofLabels, same]
  | cons p ps ih =>
      rw [alternatives, alternatives]
      refine bind_congr fun r => ?_
      cases r with
      | success r => rfl
      | failure f => exact ih (unique_append_congr_left same f.expected)

theorem alternatives_run_behind (forms : p.Forms I src) (known : I s)
    (same : ∀ labels t, I t →
      (alternatives src pos rest labels).run t = (alternatives src pos rest' labels).run t) :
    (alternatives src pos (p :: rest) labels).run s =
      (alternatives src pos (p :: rest') labels).run s := by
  rw [alternatives, alternatives]
  refine Action.run_bind_congr fun r t ran => ?_
  cases r with
  | success r => rfl
  | failure f => exact same _ t (forms.preserves known ran)

theorem alternatives_run_head (same : (p src pos).run s = (q src pos).run t) :
    (alternatives src pos (p :: rest) labels).run s =
      (alternatives src pos (q :: rest) labels).run t := by
  rw [alternatives, alternatives, Action.run_bind, Action.run_bind, same]

/-! A choice among the alternatives. -/

theorem alternatives_forms (each : ∀ p ∈ ps, p.Forms I src) (labels : List Text) :
    Forms I (fun src pos => alternatives src pos ps labels) src := by
  induction ps generalizing labels with
  | nil =>
      have ended {pos : Int} {s t : σ} {x : Except Fault Outcome}
          (ran : (alternatives src pos [] labels : Action σ Outcome).run s = some (x, t)) :
          t = s ∧ ∀ f, x = .ok (.failure f) → f.WellFormed := by
        rw [alternatives] at ran
        cases made : Failure.ofLabels labels pos with
        | error e =>
            rw [made] at ran
            cases ran
            exact ⟨rfl, nofun⟩
        | ok f =>
            rw [made] at ran
            cases ran
            refine ⟨rfl, fun g equal => ?_⟩
            cases equal
            exact (Failure.ofLabels_ensures labels pos f made).1
      exact {
        preserves := fun pos s t x known ran => (ended ran).1 ▸ known
        wellFormed := fun pos s t f known ran => (ended ran).2 f rfl }
  | cons p ps ih =>
      obtain ⟨here, later⟩ := List.forall_mem_cons.mp each
      have ended {pos : Int} {s t : σ} {x : Except Fault Outcome} (known : I s)
          (ran : (alternatives src pos (p :: ps) labels).run s = some (x, t)) :
          I t ∧ ∀ f, x = .ok (.failure f) → f.WellFormed := by
        rcases Action.run_bind_eq_some.mp ran with ⟨e, failed, rfl⟩ | ⟨r, u, answered, continued⟩
        · exact ⟨here.preserves known failed, nofun⟩
        · have kept := here.preserves known answered
          cases r with
          | success r =>
              cases continued
              exact ⟨kept, nofun⟩
          | failure f =>
              refine ⟨(ih later _).preserves kept continued, fun g equal => ?_⟩
              subst equal
              exact (ih later _).wellFormed kept continued
      exact {
        preserves := fun pos s t x known ran => (ended known ran).1
        wellFormed := fun pos s t f known ran => (ended known ran).2 f rfl }

theorem alternatives_run_refused (expecting : labels ≠ []) :
    (alternatives src pos [] labels : Action σ Outcome).run s =
      some (.ok (.failure ⟨unique labels, pos⟩), s) := by
  rw [alternatives, Failure.ofLabels]
  cases listed : unique labels with
  | nil => exact absurd (unique_eq_nil_iff.mp listed) expecting
  | cons label others => rfl

theorem alternatives_inner {inner : List Text} (each : ∀ p ∈ ps, p.Forms I src) (known : I s)
    (expecting : inner ≠ [] ∨ ps ≠ []) :
    (alternatives src pos ((fun src pos => alternatives src pos ps inner) :: rest) labels).run s =
      (alternatives src pos (ps ++ rest) (labels ++ inner)).run s := by
  induction ps generalizing inner s with
  | nil =>
      have expecting : inner ≠ [] := expecting.resolve_right (absurd rfl)
      rw [alternatives_run_failed (alternatives_run_refused expecting), List.nil_append,
        alternatives_congr (unique_append_unique labels inner)]
  | cons p ps ih =>
      obtain ⟨here, later⟩ := List.forall_mem_cons.mp each
      rw [List.cons_append]
      cases ran : (p src pos).run s with
      | none =>
          rw [alternatives_run_endless ran]
          exact alternatives_run_endless (alternatives_run_endless ran)
      | some result =>
          obtain ⟨x, t⟩ := result
          by_cases failed : ∃ f, x = .ok (.failure f)
          · obtain ⟨f, rfl⟩ := failed
            have nonempty := (here.wellFormed known ran).nonempty
            rw [alternatives_run_failed ran, List.append_assoc,
              ← ih later (here.preserves known ran)
                (.inl (List.append_ne_nil_of_right_ne_nil _ nonempty))]
            exact alternatives_run_head (alternatives_run_failed ran)
          · have decides (f : Failure) : x ≠ .ok (.failure f) := fun equal => failed ⟨f, equal⟩
            rw [alternatives_run_answered ran decides]
            exact alternatives_run_answered (alternatives_run_answered ran decides) decides

/-! Choices within choices. -/

variable {tree other : Nesting ι}

theorem fold_alt_forms (formed : ∀ i ∈ tree.leaves, (family i).Forms I src) :
    (tree.fold alt family).Forms I src := by
  induction tree using Nesting.induction with
  | leaf i => exact formed i List.mem_cons_self
  | node t ts ih =>
      rw [Nesting.fold_node]
      refine alternatives_forms (fun p member => ?_) []
      obtain ⟨u, part, rfl⟩ := List.mem_map.mp member
      refine ih u part fun i leaf => formed i ?_
      rw [Nesting.leaves_node]
      exact List.mem_flatMap.mpr ⟨u, part, leaf⟩

/-- One after the other, choices among the alternatives give way to what they choose from. -/
theorem alternatives_folds {trees : List (Nesting ι)}
    (formed : ∀ i ∈ trees.flatMap Nesting.leaves, (family i).Forms I src) (known : I s)
    (each : ∀ tree ∈ trees, ∀ {rest labels s}, (∀ i ∈ tree.leaves, (family i).Forms I src) → I s →
      (alternatives src pos (tree.fold alt family :: rest) labels).run s =
        (alternatives src pos (tree.leaves.map family ++ rest) labels).run s) :
    (alternatives src pos (trees.map (Nesting.fold alt family) ++ rest) labels).run s =
      (alternatives src pos ((trees.flatMap Nesting.leaves).map family ++ rest) labels).run s := by
  induction trees generalizing labels s with
  | nil => rfl
  | cons tree trees ih =>
      obtain ⟨here, later⟩ := List.forall_mem_cons.mp each
      rw [List.flatMap_cons, List.forall_mem_append] at formed
      obtain ⟨first, others⟩ := formed
      rw [List.flatMap_cons, List.map_append, List.append_assoc, List.map_cons, List.cons_append,
        ← here first known]
      exact alternatives_run_behind (fold_alt_forms first) known fun labels t kept =>
        ih others kept later

theorem alternatives_fold (formed : ∀ i ∈ tree.leaves, (family i).Forms I src) (known : I s) :
    (alternatives src pos (tree.fold alt family :: rest) labels).run s =
      (alternatives src pos (tree.leaves.map family ++ rest) labels).run s := by
  induction tree using Nesting.induction generalizing rest labels s with
  | leaf i => rfl
  | node t ts ih =>
      rw [Nesting.leaves_node] at formed ⊢
      have parts : ∀ p ∈ (t :: ts).map (Nesting.fold alt family), p.Forms I src := by
        intro p member
        obtain ⟨u, part, rfl⟩ := List.mem_map.mp member
        exact fold_alt_forms fun i leaf => formed i (List.mem_flatMap.mpr ⟨u, part, leaf⟩)
      rw [Nesting.fold_node]
      refine (alternatives_inner parts known (.inr (List.cons_ne_nil _ _))).trans ?_
      rw [List.append_nil]
      exact alternatives_folds formed known fun tree part _ _ _ => ih tree part

/-- Only the order of the leaves shows. -/
theorem fold_alt_run (bracketed : tree.Bracketed)
    (formed : ∀ i ∈ tree.leaves, (family i).Forms I src) (known : I s) (pos : Int) :
    (tree.fold alt family src pos).run s = (alt (tree.leaves.map family) src pos).run s := by
  cases tree with
  | leaf i => exact bracketed.elim
  | node t ts =>
      rw [Nesting.leaves_node] at formed ⊢
      rw [Nesting.fold_node, alt, alt]
      have whole :
          (alternatives src pos ((t :: ts).map (Nesting.fold alt family) ++ []) []).run s = _ :=
        alternatives_folds formed known fun _ _ _ _ _ => alternatives_fold
      rwa [List.append_nil, List.append_nil] at whole

/-! What comes of a choice. -/

theorem Refused.alternatives (refused : Refused family src pos is s labels t) (before : List Text) :
    (alternatives src pos (is.map family ++ rest) before).run s =
      (alternatives src pos rest (before ++ labels)).run t := by
  induction refused generalizing before with
  | nil s => rw [List.append_nil, List.map_nil, List.nil_append]
  | cons failed more ih =>
      rw [List.map_cons, List.cons_append, alternatives_run_failed failed, ih, List.append_assoc]

theorem Refused.expecting (refused : Refused family src pos is s labels t)
    (formed : ∀ i ∈ is, (family i).Forms I src) (known : I s) (nonempty : is ≠ []) :
    labels ≠ [] := by
  cases refused with
  | nil s => exact absurd rfl nonempty
  | cons failed more =>
      have here := formed _ List.mem_cons_self
      exact List.append_ne_nil_of_left_ne_nil (here.wellFormed known failed).nonempty _

theorem refused_of_alternatives {before : List Text}
    (ran : (alternatives src pos (is.map family) before).run s = some (x, t)) :
    (∃ labels u, Refused family src pos is s labels u ∧
      (alternatives src pos [] (before ++ labels) : Action σ Outcome).run u = some (x, t)) ∨
    ∃ runs, Decided family src pos is s x t runs := by
  induction is generalizing before s with
  | nil => exact .inl ⟨[], s, .nil s, by rwa [List.append_nil]⟩
  | cons i is ih =>
      rw [List.map_cons] at ran
      cases first : (family i src pos).run s with
      | none => cases (alternatives_run_endless first).symm.trans ran
      | some result =>
          obtain ⟨y, u⟩ := result
          by_cases failed : ∃ f, y = .ok (.failure f)
          · obtain ⟨f, rfl⟩ := failed
            rw [alternatives_run_failed first] at ran
            rcases ih ran with ⟨labels, w, refused, ended⟩ | ⟨runs, decided⟩
            · exact .inl ⟨_, w, .cons first refused, by rwa [← List.append_assoc]⟩
            · exact .inr ⟨_, .later first decided⟩
          · have decides (f : Failure) : y ≠ .ok (.failure f) := fun equal => failed ⟨f, equal⟩
            cases (alternatives_run_answered first decides).symm.trans ran
            exact .inr ⟨_, .here first decides⟩

theorem Refused.alt_run (refused : Refused family src pos is s labels t) (expecting : labels ≠ []) :
    (alt (is.map family) src pos).run s = some (.ok (.failure ⟨unique labels, pos⟩), t) := by
  have ran : (Matcher.alternatives src pos (is.map family ++ []) []).run s = _ :=
    refused.alternatives []
  rw [List.append_nil] at ran
  exact ran.trans (alternatives_run_refused expecting)

theorem Decided.alternatives (decided : Decided family src pos is s x t runs) (before : List Text) :
    (alternatives src pos (is.map family) before).run s = some (x, t) := by
  induction decided generalizing before with
  | here answered decides => exact alternatives_run_answered answered decides
  | later failed more ih => exact (alternatives_run_failed failed).trans (ih _)

theorem alt_run_iff (formed : ∀ i ∈ is, (family i).Forms I src) (known : I s) (nonempty : is ≠ []) :
    (alt (is.map family) src pos).run s = some (x, t) ↔
      (∃ labels, Refused family src pos is s labels t ∧ x = .ok (.failure ⟨unique labels, pos⟩)) ∨
        ∃ runs, Decided family src pos is s x t runs := by
  constructor
  · intro ran
    rcases refused_of_alternatives ran with ⟨labels, u, refused, ended⟩ | decided
    · cases (alternatives_run_refused (refused.expecting formed known nonempty)).symm.trans ended
      exact .inl ⟨labels, refused, rfl⟩
    · exact .inr decided
  · rintro (⟨labels, refused, rfl⟩ | ⟨runs, decided⟩)
    · exact refused.alt_run (refused.expecting formed known nonempty)
    · exact decided.alternatives []

/-! With a record of what is run. -/

theorem Refused.noted (refused : Refused family src pos is s labels t) (log : List (ι × Int)) :
    Refused (fun i => (family i).noted i) src pos is (s, log) labels
      (t, log ++ is.map (·, pos)) := by
  induction refused generalizing log with
  | nil s =>
      rw [List.map_nil, List.append_nil]
      exact .nil _
  | cons failed more ih =>
      rw [List.map_cons, List.append_cons]
      exact .cons (run_noted failed log) (ih _)

theorem Decided.noted (decided : Decided family src pos is s x t runs) (log : List (ι × Int)) :
    Decided (fun i => (family i).noted i) src pos is (s, log) x
      (t, log ++ runs.map (·, pos)) runs := by
  induction decided generalizing log with
  | here answered decides => exact .here (run_noted answered log) decides
  | later failed more ih =>
      rw [List.map_cons, List.append_cons]
      exact .later (run_noted failed log) (ih _)

theorem Forms.noted {i : ι} (forms : p.Forms I src) :
    (p.noted i).Forms (fun known : σ × List (ι × Int) => I known.1) src where
  preserves _ _ _ _ known ran := forms.preserves known (run_noted_eq_some.mp ran).1
  wellFormed _ _ _ _ known ran := forms.wellFormed known (run_noted_eq_some.mp ran).1

/-- `I` may be anything that is known of the states. -/
theorem nested_choice (bracketed : tree.Bracketed)
    (formed : ∀ i ∈ tree.leaves, (family i).Forms I src) (known : I s) (pos : Int) :
    (∀ x t, (tree.fold alt family src pos).run s = some (x, t) ↔
      (∃ labels, Refused family src pos tree.leaves s labels t ∧
        x = .ok (.failure ⟨unique labels, pos⟩)) ∨
        ∃ runs, Decided family src pos tree.leaves s x t runs) ∧
    (∀ labels t log, Refused family src pos tree.leaves s labels t →
      (tree.fold alt (fun i => (family i).noted i) src pos).run (s, log) =
        some (.ok (.failure ⟨unique labels, pos⟩), t, log ++ tree.leaves.map (·, pos))) ∧
    (∀ x t runs log, Decided family src pos tree.leaves s x t runs →
      (tree.fold alt (fun i => (family i).noted i) src pos).run (s, log) =
        some (x, t, log ++ runs.map (·, pos))) ∧
    (∀ other : Nesting ι, other.Bracketed → other.leaves = tree.leaves →
      (other.fold alt family src pos).run s = (tree.fold alt family src pos).run s) ∧
    (alt (tree.leaves.map family) src pos).run s = (tree.fold alt family src pos).run s ∧
    ∀ i j is, tree.leaves = i :: j :: is →
      ((j :: is).foldl (fun p k => alt [p, family k]) (family i) src pos).run s =
        (tree.fold alt family src pos).run s := by
  have flat := fold_alt_run bracketed formed known pos
  have recorded (log : List (ι × Int)) := fold_alt_run (s := (s, log)) bracketed
    (fun i leaf => (formed i leaf).noted (i := i)) known pos
  have regrouped (other : Nesting ι) (around : other.Bracketed)
    (same : other.leaves = tree.leaves) :
      (other.fold alt family src pos).run s = (tree.fold alt family src pos).run s := by
    rw [flat, fold_alt_run around (same ▸ formed) known pos, same]
  refine ⟨fun x t => ?_, fun labels t log refused => ?_, fun x t runs log decided => ?_, regrouped,
    flat.symm, fun i j is leaves => ?_⟩
  · rw [flat]
    exact alt_run_iff formed known tree.leaves_ne_nil
  · rw [recorded log]
    exact (refused.noted log).alt_run (refused.expecting formed known tree.leaves_ne_nil)
  · rw [recorded log]
    exact (decided.noted log).alternatives []
  · rw [← Nesting.fold_leftward]
    exact regrouped _ (Nesting.bracketed_leftward i j is)
      (leaves ▸ Nesting.leaves_leftward i (j :: is))

end Matcher

/-! The same of parsers that are built. -/

namespace Parser

theorem run_alt (fuel : Nat) (ps : List Parser) :
    run fuel (.alt ps) = Matcher.alt (ps.map (run fuel)) := by
  cases fuel with
  | zero => rw [run, runWith, runAllWith_eq_map]
  | succ fuel => rw [run, runWith, runAllWith_eq_map]

theorem run_fold_alt (fuel : Nat) (tree : Nesting Parser) :
    run fuel (tree.fold .alt id) = tree.fold Matcher.alt (run fuel) :=
  Nesting.apply_fold (run_alt fuel) id tree

/-- In sessions all parsers form their failures well. -/
theorem run_forms (fuel : Nat) {p : Parser} (orderly : p.All Conduct.loose.Orderly) (src : Text) :
    (p.run fuel).Forms Conduct.loose.Sound src := by
  have holds := run_keeps fuel orderly src True.intro
  exact {
    preserves := fun pos s t x sound ran => (holds pos s sound x t ran).1
    wellFormed := fun pos s t f sound ran => by
      cases (holds pos s sound _ t ran).2.2.1 _ rfl with
      | failure wellFormed _ => exact wellFormed }

end Parser

namespace Matcher

private def choosing : Nesting Parser :=
  .node (.node (.leaf (.char 'a')) [.leaf (.char 'b')])
    [.leaf (.memoize 0 false (.alt [.char 'b', .char 'c']))]

/-- A memory is among the alternatives, and one label is expected twice. -/
theorem nested_choice_remembered :
    let failure : Failure := ⟨['a', 'b', 'c'].map fun c => Text.inQuotes [c], 0⟩
    let remembered : Failure := ⟨['b', 'c'].map fun c => Text.inQuotes [c], 0⟩
    let after : Store := { Store.empty with outcomes := [((0, 0), .failure remembered)] }
    (∀ p ∈ choosing.leaves, (p.run 1).Forms Conduct.loose.Sound ['d']) ∧
      (Parser.run 1 (choosing.fold .alt id) ['d'] 0).run .empty =
        some (.ok (.failure failure), after) ∧
      (Parser.run 1 (.alt choosing.leaves) ['d'] 0).run .empty =
        some (.ok (.failure failure), after) := by
  intro failure remembered after
  have single (c : CodePoint) : (Parser.char c).All Conduct.loose.Orderly :=
    .intro True.intro (List.forall_mem_nil _)
  have pair {p q : Parser} (first : p.All Conduct.loose.Orderly)
    (second : q.All Conduct.loose.Orderly) :
      ∀ r ∈ [p, q], r.All Conduct.loose.Orderly :=
    List.forall_mem_cons.mpr ⟨first, List.forall_mem_singleton.mpr second⟩
  have memory : (Parser.memoize 0 false (.alt [.char 'b', .char 'c'])).All Conduct.loose.Orderly :=
    .intro True.intro (List.forall_mem_singleton.mpr
      (.intro (List.cons_ne_nil _ _) (pair (single 'b') (single 'c'))))
  have orderly : ∀ p ∈ choosing.leaves, p.All Conduct.loose.Orderly :=
    List.forall_mem_cons.mpr ⟨single 'a', pair (single 'b') memory⟩
  have formed (p : Parser) (leaf : p ∈ choosing.leaves) := Parser.run_forms 1 (orderly p leaf) ['d']
  have bracketed : choosing.Bracketed := True.intro
  obtain ⟨-, -, -, -, flat, -⟩ := nested_choice bracketed formed Conduct.Sound.empty 0
  rw [Parser.run_fold_alt, Parser.run_alt, ← flat]
  exact ⟨formed, rfl, rfl⟩

end Matcher

end Descent
