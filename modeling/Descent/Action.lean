import Descent.Fault

/-!
Computations over a state. A computation answers, stops with a fault, or runs out of fuel. A fault
leaves the state as it was when the fault arose.
-/

namespace Descent

/-- A computation over states in `σ`. No result at all means that the fuel ran out. -/
def Action (σ α : Type) : Type :=
  σ → Option (Except Fault α × σ)

namespace Action

variable {σ α β : Type}

def run (m : Action σ α) (s : σ) : Option (Except Fault α × σ) :=
  m s

@[ext] theorem ext {m n : Action σ α} (same : ∀ s, m.run s = n.run s) : m = n :=
  funext same

instance : Monad (Action σ) where
  pure a := fun s => some (.ok a, s)
  bind m f := fun s =>
    match m.run s with
    | some (.ok a, t) => (f a).run t
    | some (.error e, t) => some (.error e, t)
    | none => none

@[simp] theorem run_pure (a : α) (s : σ) : (pure a : Action σ α).run s = some (.ok a, s) :=
  rfl

theorem run_bind (m : Action σ α) (f : α → Action σ β) (s : σ) :
    (m >>= f).run s =
      match m.run s with
      | some (.ok a, t) => (f a).run t
      | some (.error e, t) => some (.error e, t)
      | none => none :=
  rfl

instance : LawfulMonad (Action σ) :=
  LawfulMonad.mk' (Action σ)
    (fun m => by
      refine Action.ext fun s => ?_
      change (m >>= pure).run s = m.run s
      rw [run_bind]
      rcases m.run s with _ | ⟨_ | _, _⟩ <;> rfl)
    (fun _ _ => rfl)
    (fun m f g => by
      refine Action.ext fun s => ?_
      simp only [run_bind]
      rcases m.run s with _ | ⟨_ | _, _⟩ <;> rfl)

theorem run_map (f : α → β) (m : Action σ α) (s : σ) :
    (f <$> m).run s = (m.run s).map fun (r, t) => (r.map f, t) := by
  rw [map_eq_pure_bind, run_bind]
  rcases m.run s with _ | ⟨_ | _, _⟩ <;> rfl

def raise (e : Fault) : Action σ α :=
  fun s => some (.error e, s)

def exhausted : Action σ α :=
  fun _ => none

def ofExcept : Except Fault α → Action σ α
  | .ok a => pure a
  | .error e => raise e

instance : MonadLift (Except Fault) (Action σ) := ⟨ofExcept⟩

def state : Action σ σ :=
  fun s => some (.ok s, s)

def modify (f : σ → σ) : Action σ Unit :=
  fun s => some (.ok (), f s)

@[simp] theorem run_raise (e : Fault) (s : σ) : (raise e : Action σ α).run s = some (.error e, s) :=
  rfl

@[simp] theorem run_exhausted (s : σ) : (exhausted : Action σ α).run s = none :=
  rfl

@[simp] theorem run_ofExcept_ok (a : α) (s : σ) :
    (ofExcept (.ok a) : Action σ α).run s = some (.ok a, s) :=
  rfl

@[simp] theorem run_ofExcept_error (e : Fault) (s : σ) :
    (ofExcept (.error e) : Action σ α).run s = some (.error e, s) :=
  rfl

@[simp] theorem run_state (s : σ) : (state : Action σ σ).run s = some (.ok s, s) :=
  rfl

@[simp] theorem run_modify (f : σ → σ) (s : σ) : (modify f).run s = some (.ok (), f s) :=
  rfl

end Action

end Descent
