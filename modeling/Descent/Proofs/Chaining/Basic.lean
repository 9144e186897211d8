import Descent.Proofs.Correspondence.Matchers

/-!
Matchers that depend on what was matched before. Chains of continuations may be cut and joined
anywhere, and functions on values and sequences are special chains.
-/

namespace Descent

namespace Matcher

variable {σ : Type}

/-! Going on from an outcome. -/

theorem continueWith_failure (src : Text) (fs : List (Value → Action σ (Matcher σ)))
    (reason : Failure) :
    continueWith src fs (.failure reason) = pure (.failure reason) := by
  cases fs <;> rfl

theorem continueWith_append (src : Text) (fs gs : List (Value → Action σ (Matcher σ)))
    (r : Outcome) :
    continueWith src (fs ++ gs) r = continueWith src fs r >>= continueWith src gs := by
  induction fs generalizing r with
  | nil => rfl
  | cons f fs ih =>
      cases r with
      | failure reason => exact (continueWith_failure src gs reason).symm
      | success r =>
          rw [List.cons_append, continueWith, continueWith, bind_assoc]
          refine bind_congr fun next => ?_
          rw [bind_assoc]
          exact bind_congr fun r' => ih r'

/-! Chains. -/

theorem andThen_append (p : Matcher σ) (fs gs : List (Value → Action σ (Matcher σ))) :
    andThen p (fs ++ gs) = andThen (andThen p fs) gs := by
  funext src pos
  rw [andThen, andThen, andThen, bind_assoc]
  exact bind_congr fun r => continueWith_append src fs gs r

theorem andThen_nil (p : Matcher σ) : andThen p [] = p := by
  funext src pos
  exact bind_pure (p src pos)

theorem andThen_cons (p : Matcher σ) (f : Value → Action σ (Matcher σ))
    (gs : List (Value → Action σ (Matcher σ))) :
    andThen p (f :: gs) = andThen p [fun v => do return andThen (← f v) gs] := by
  funext src pos
  refine bind_congr fun r => ?_
  cases r with
  | failure reason => rfl
  | success r => simp only [continueWith, andThen, bind_assoc, pure_bind, bind_pure]

theorem andThen_succeed (v : Value) (f : Value → Action σ (Matcher σ)) :
    andThen (succeed v) [f] = thenRun (f v) := by
  funext src pos
  simp only [andThen, succeed, thenRun, pure_bind, Outcome.matched, continueWith, bind_pure]

theorem andThen_pure_succeed (p : Matcher σ) : andThen p [fun v => return succeed v] = p := by
  funext src pos
  refine Eq.trans (bind_congr fun r => ?_) (bind_pure (p src pos))
  cases r with
  | failure reason => rfl
  | success r => rfl

theorem map_eq_andThen (p : Matcher σ) (g : Value → Action σ Value) :
    map p g none = andThen p [fun v => do return succeed (← g v)] := by
  funext src pos
  refine bind_congr fun r => ?_
  cases r with
  | failure reason => rfl
  | success r =>
      simp only [continueWith, bind_assoc, pure_bind, bind_pure, if_true]
      rfl

theorem seq_eq_andThen (p q : Matcher σ) :
    seq [p, q] = andThen p [fun v => return map q (fun w => return .tuple [v, w]) none] := by
  funext src pos
  refine bind_congr fun r => ?_
  cases r with
  | failure reason => rfl
  | success r =>
      simp only [continueWith, stages, map, pure_bind, bind_pure, if_true]
      refine bind_congr fun r' => ?_
      cases r' with
      | failure reason => rfl
      | success r' => rfl

/-! Runs of a chain. -/

section

variable {p : Matcher σ} {f : Value → Action σ (Matcher σ)}
  {fs gs : List (Value → Action σ (Matcher σ))}
  {src : Text} {pos : Int} {s t : σ} {x : Except Fault Outcome} {r : Success}

theorem andThen_run_answered (answered : (p src pos).run s = some (x, t))
    (decides : ∀ r, x ≠ .ok (.success r)) :
    (andThen p gs src pos).run s = some (x, t) := by
  refine Action.run_bind_unchanged answered fun r equal => ?_
  cases r with
  | success r => exact absurd equal (decides r)
  | failure reason => exact continueWith_failure src gs reason

theorem andThen_run_matched (matched : (andThen p fs src pos).run s = some (.ok (.success r), t)) :
    (andThen p (fs ++ f :: gs) src pos).run s =
      (andThen (thenRun (f r.value)) gs src r.pos).run t := by
  rw [andThen_append, andThen, Action.run_bind, matched]
  dsimp only
  rw [continueWith, andThen, thenRun, bind_assoc]

end

end Matcher

end Descent
