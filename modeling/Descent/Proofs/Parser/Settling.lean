import Descent.Proofs.Parser.Fragment

/-!
Planning while names are still being given. Main statement: what could be planned stays as it is
when more names are given.
-/

namespace Descent

/-- If the first result is there, then the second is the same, and it has a property. -/
def Settles {α : Type} (P : α → Prop) (x y : Except Fault α) : Prop :=
  ∀ a, x = .ok a → y = .ok a ∧ P a

namespace Settles

variable {α β : Type} {P : α → Prop} {Q : β → Prop} {x y : Except Fault α}

theorem pure {a : α} (holds : P a) : Settles P (Pure.pure a) (Pure.pure a) := by
  intro b equal
  cases equal
  exact ⟨rfl, holds⟩

theorem error (e : Fault) : Settles P (.error e) y := nofun

theorem bind {f g : α → Except Fault β} (first : Settles P x y)
    (next : ∀ a, y = .ok a → P a → Settles Q (f a) (g a)) : Settles Q (x >>= f) (y >>= g) := by
  intro b equal
  cases x with
  | error e => cases equal
  | ok a =>
      obtain ⟨rfl, holds⟩ := first a rfl
      exact next a rfl holds b equal

theorem same (x : Except Fault α) : Settles (fun _ => True) x x :=
  fun _ equal => ⟨equal, True.intro⟩

end Settles

namespace Grammar

variable {before names : Names}

theorem planAll_settles {gs : List Grammar}
    (parts : ∀ g ∈ gs, Settles (fun _ => True) (g.plan before) (g.plan names)) :
    Settles (fun _ => True) (planAll before gs) (planAll names gs) := by
  induction gs with
  | nil => exact .same _
  | cons g gs ih =>
      refine (parts g (by simp)).bind fun a _ _ => ?_
      exact (ih fun h member => parts h (by simp [member])).bind fun as _ _ => .same _

theorem plan_settles (given : ∀ name a, before name = some a → names name = some a) (g : Grammar) :
    Settles (fun _ => True) (g.plan before) (g.plan names) := by
  induction g using Grammar.induction with
  | step g ih =>
      cases g with
      | ref name =>
          simp only [plan]
          cases found : before name with
          | none => exact .error _
          | some a =>
              rw [given name a found]
              exact .same _
      | noting event g => exact ih g .noting
      | seq gs =>
          exact (planAll_settles fun g member => ih g (.seq member)).bind fun _ _ _ => .same _
      | alt gs =>
          exact (planAll_settles fun g member => ih g (.alt member)).bind fun _ _ _ => .same _
      | copies g count => exact (ih g .copies).bind fun _ _ _ => .same _
      | map g fn validate => exact (ih g .map).bind fun _ _ _ => .same _
      | many g => exact (ih g .many).bind fun _ _ _ => .same _
      | many1 g => exact (ih g .many1).bind fun _ _ _ => .same _
      | between left right g =>
          exact (ih left .betweenLeft).bind fun _ _ _ => (ih right .betweenRight).bind
            fun _ _ _ => (ih g .between).bind fun _ _ _ => .same _
      | upTo stop g =>
          exact (ih stop .upToStop).bind fun _ _ _ => (ih g .upTo).bind fun _ _ _ => .same _
      | not g => exact (ih g .not).bind fun _ _ _ => .same _
      | except exclusion g =>
          exact (ih exclusion .exceptExclusion).bind fun _ _ _ => (ih g .except).bind
            fun _ _ _ => .same _
      | peek g => exact (ih g .peek).bind fun _ _ _ => .same _
      | eof g => exact (ih g .eof).bind fun _ _ _ => .same _
      | sepBy separator item =>
          exact (ih separator .sepBySeparator).bind fun _ _ _ => (ih item .sepBy).bind
            fun _ _ _ => .same _
      | andThen g fns => exact (ih g .andThen).bind fun _ _ _ => .same _
      | memoize g => exact (ih g .memoize).bind fun _ _ _ => .same _
      | named label g => exact (ih g .named).bind fun _ _ _ => .same _
      | probe event g => exact (ih g .probe).bind fun _ _ _ => .same _
      | _ => exact .same _

theorem planned_settles (given : ∀ name a, before name = some a → names name = some a)
    (g : Grammar) :
    Settles (fun _ => True) (g.planned before) (g.planned names) :=
  (g.plan_settles given).bind fun _ _ _ => .same _

end Grammar

end Descent
