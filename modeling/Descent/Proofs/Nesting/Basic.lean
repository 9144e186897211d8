import Descent.Matcher.Basic

/-!
Nestings: parts in brackets within brackets, and what is made of them bracket by bracket. Also
records of which parts are run, and from where.
-/

namespace Descent

/-- Parts in brackets within brackets. No brackets are empty. -/
inductive Nesting (α : Type) where
  | leaf (a : α)
  | node (first : Nesting α) (others : List (Nesting α))

namespace Nesting

variable {α β : Type}

mutual

/-- Joins what is made of the parts, from the innermost brackets outwards. -/
def fold (join : List β → β) (make : α → β) : Nesting α → β
  | .leaf a => make a
  | .node t ts => join (t.fold join make :: foldAll join make ts)

def foldAll (join : List β → β) (make : α → β) : List (Nesting α) → List β
  | [] => []
  | t :: ts => t.fold join make :: foldAll join make ts

end

theorem foldAll_eq_map (join : List β → β) (make : α → β) (ts : List (Nesting α)) :
    foldAll join make ts = ts.map (fold join make) := by
  induction ts with
  | nil => rfl
  | cons t ts ih => rw [foldAll, ih, List.map_cons]

theorem fold_node (join : List β → β) (make : α → β) (t : Nesting α) (ts : List (Nesting α)) :
    (node t ts).fold join make = join ((t :: ts).map (fold join make)) := by
  rw [fold, foldAll_eq_map, List.map_cons]

/-- The parts from left to right. -/
def leaves : Nesting α → List α :=
  fold List.flatten fun a => [a]

@[simp] theorem leaves_leaf (a : α) : (leaf a).leaves = [a] := rfl

@[simp] theorem leaves_node (t : Nesting α) (ts : List (Nesting α)) :
    (node t ts).leaves = (t :: ts).flatMap leaves :=
  fold_node _ _ t ts

mutual

theorem induction {motive : Nesting α → Prop} (leaf : ∀ a, motive (.leaf a))
    (node : ∀ t ts, (∀ u ∈ t :: ts, motive u) → motive (.node t ts)) : ∀ t, motive t
  | .leaf a => leaf a
  | .node t ts => node t ts
      (List.forall_mem_cons.mpr ⟨induction leaf node t, inductionAll leaf node ts⟩)

theorem inductionAll {motive : Nesting α → Prop} (leaf : ∀ a, motive (.leaf a))
    (node : ∀ t ts, (∀ u ∈ t :: ts, motive u) → motive (.node t ts)) :
    ∀ ts : List (Nesting α), ∀ t ∈ ts, motive t
  | t :: _, _, .head _ => induction leaf node t
  | _ :: ts, _, .tail _ member => inductionAll leaf node ts _ member

end

theorem leaves_ne_nil (t : Nesting α) : t.leaves ≠ [] := by
  induction t using induction with
  | leaf a => exact List.cons_ne_nil a []
  | node t ts ih =>
      rw [leaves_node, List.flatMap_cons]
      exact List.append_ne_nil_of_left_ne_nil (ih t List.mem_cons_self) _

/-- Whether there are brackets around the whole. -/
def Bracketed : Nesting α → Prop
  | .leaf _ => False
  | .node _ _ => True

/-- Parts in one pair of brackets. -/
def flat (a : α) (as : List α) : Nesting α :=
  .node (.leaf a) (as.map .leaf)

/-- Parts that are joined two at a time, from the left. -/
def leftward (a : α) (as : List α) : Nesting α :=
  as.foldl (fun t b => .node t [.leaf b]) (.leaf a)

theorem leaves_leftward (a : α) (as : List α) : (leftward a as).leaves = a :: as := by
  have grows (t : Nesting α) :
      (as.foldl (fun t b => node t [leaf b]) t).leaves = t.leaves ++ as := by
    induction as generalizing t with
    | nil => exact (List.append_nil _).symm
    | cons b as ih => simp [ih]
  exact grows (leaf a)

/-- A function that goes through every join goes through to the parts. -/
theorem apply_fold {γ : Type} {join : List β → β} {join' : List γ → γ} {h : β → γ}
    (through : ∀ bs, h (join bs) = join' (bs.map h)) (make : α → β) (t : Nesting α) :
    h (t.fold join make) = t.fold join' fun a => h (make a) := by
  induction t using induction with
  | leaf a => rfl
  | node t ts ih =>
      rw [fold_node, fold_node, through, List.map_map]
      exact congrArg join' (List.map_congr_left ih)

theorem fold_leftward (join : List β → β) (make : α → β) (a : α) (as : List α) :
    (leftward a as).fold join make = as.foldl (fun b a => join [b, make a]) (make a) := by
  have joins (t : Nesting α) : (as.foldl (fun t b => node t [leaf b]) t).fold join make =
      as.foldl (fun b a => join [b, make a]) (t.fold join make) := by
    induction as generalizing t with
    | nil => rfl
    | cons b as ih => exact ih (node t [leaf b])
  exact joins (leaf a)

theorem bracketed_leftward (a b : α) (as : List α) : (leftward a (b :: as)).Bracketed := by
  have stays (t : Nesting α) (bracketed : t.Bracketed) :
      (as.foldl (fun t b => node t [leaf b]) t).Bracketed := by
    induction as generalizing t with
    | nil => exact bracketed
    | cons c as ih => exact ih (node t [leaf c]) True.intro
  exact stays (node (leaf a) [leaf b]) True.intro

end Nesting

namespace Matcher

variable {ι σ : Type} {p : Matcher σ} {src : Text} {pos : Int} {s t : σ} {x : Except Fault Outcome}
  {log log' : List (ι × Int)}

/-- Does the same, and puts on record which part it is and from where it is run. -/
def noted (i : ι) (p : Matcher σ) : Matcher (σ × List (ι × Int)) := fun src pos => fun (s, log) =>
  ((p src pos).run s).map fun (x, t) => (x, t, log ++ [(i, pos)])

theorem run_noted_eq_some {i : ι} : (p.noted i src pos).run (s, log) = some (x, t, log') ↔
    (p src pos).run s = some (x, t) ∧ log' = log ++ [(i, pos)] := by
  change ((p src pos).run s).map _ = _ ↔ _
  rcases (p src pos).run s with _ | ⟨y, u⟩
  · simp
  · simp [and_assoc, eq_comm]

theorem run_noted {i : ι} (ran : (p src pos).run s = some (x, t)) (log : List (ι × Int)) :
    (p.noted i src pos).run (s, log) = some (x, t, log ++ [(i, pos)]) :=
  run_noted_eq_some.mpr ⟨ran, rfl⟩

end Matcher

end Descent
