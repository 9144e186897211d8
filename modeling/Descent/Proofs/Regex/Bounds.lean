import Descent.Regex.Basic

/-!
Where a match of a regular expression may end. Main statement: a match ends between the offset where
it began and the end of the text.
-/

namespace Descent

namespace Regex

def Cursor.Within (low length : Nat) (c : Cursor) : Prop :=
  low ≤ c.pos ∧ c.pos + c.after.length = length

namespace Cursor.Within

variable {low length : Nat} {c d : Cursor}

theorem step? (within : c.Within low length) {test : CodePoint → Bool}
    (stepped : c.step? test = some d) :
    d.Within low length := by
  obtain ⟨above, rest⟩ := within
  unfold Cursor.step? at stepped
  split at stepped
  · cases stepped
  · rename_i first others equal
    split at stepped
    · cases stepped
      rw [equal, List.length_cons] at rest
      exact ⟨Nat.le_succ_of_le above, show c.pos + 1 + others.length = length by omega⟩
    · cases stepped

theorem past? (within : c.Within low length) {casing : Casing} {t : Text}
    (passed : c.past? casing t = some d) : d.Within low length := by
  induction t generalizing c with
  | nil =>
      cases passed
      exact within
  | cons first t ih =>
      simp only [Cursor.past?] at passed
      split at passed
      · rename_i e stepped
        exact ih (within.step? stepped) passed
      · cases passed

end Cursor.Within

/-- Wherever the continuation accepts, it ends within the bounds if it began within them. -/
def Stays (low length : Nat) (k : Continuation) : Prop :=
  ∀ c d, c.Within low length → k c = some d → d.Within low length

variable {low length : Nat} {k : Continuation}

theorem stays_accept : Stays low length some := by
  intro c d within accepted
  cases accepted
  exact within

private theorem stays_orElse {x : Option Cursor} {y : Unit → Option Cursor} {d : Cursor}
    (first : x = some d → d.Within low length) (second : y () = some d → d.Within low length)
    (accepted : x.orElse y = some d) : d.Within low length := by
  cases x with
  | some e => exact first accepted
  | none => exact second accepted

theorem times_stays {body : Continuation → Continuation}
    (bodyStays : ∀ k, Stays low length k → Stays low length (body k)) (count : Nat)
    (stays : Stays low length k) : Stays low length (times body count k) := by
  induction count with
  | zero => exact stays
  | succ count ih => exact bodyStays _ ih

theorem loop_stays {body : Continuation → Continuation}
    (bodyStays : ∀ k, Stays low length k → Stays low length (body k)) (greedy : Bool)
    (stays : Stays low length k) (fuel : Nat) (most last : Option Nat) :
    Stays low length (loop body greedy k fuel most last) := by
  induction fuel generalizing most last with
  | zero => exact stays
  | succ fuel ih =>
      intro c d within accepted
      have stop := stays c d within
      have again := bodyStays _ (ih (most.map (· - 1)) (some c.pos)) c d within
      simp only [loop] at accepted
      split at accepted
      · exact stop accepted
      · split at accepted
        · exact stays_orElse again stop accepted
        · exact stays_orElse stop again accepted

private theorem stays_around {x : Option Cursor} {negated : Bool} (stays : Stays low length k)
    {c d : Cursor} (within : c.Within low length)
    (accepted : (match x with
      | some e => if negated then none else k { c with groups := e.groups }
      | none => if negated then k c else none) = some d) : d.Within low length := by
  cases x with
  | some e =>
      cases negated with
      | false => exact stays { c with groups := e.groups } d within accepted
      | true => cases accepted
  | none =>
      cases negated with
      | false => cases accepted
      | true => exact stays c d within accepted

theorem Node.run_stays (node : Node) (stays : Stays low length k) :
    Stays low length (node.run k) := by
  induction node generalizing k with
  | empty => exact stays
  | any lineFeeds =>
      intro c d within accepted
      obtain ⟨e, stepped, continued⟩ := Option.bind_eq_some_iff.mp accepted
      exact stays e d (within.step? stepped) continued
  | set casing s =>
      intro c d within accepted
      obtain ⟨e, stepped, continued⟩ := Option.bind_eq_some_iff.mp accepted
      exact stays e d (within.step? stepped) continued
  | anchor a =>
      intro c d within accepted
      simp only [run] at accepted
      split at accepted
      · exact stays c d within accepted
      · cases accepted
  | seq first second ihFirst ihSecond => exact ihFirst (ihSecond stays)
  | alt left right ihLeft ihRight =>
      intro c d within accepted
      exact stays_orElse (ihLeft stays c d within) (ihRight stays c d within) accepted
  | repetition body least most greedy ih =>
      have bodyStays : ∀ k, Stays low length k → Stays low length (body.run k) := fun _ => ih
      apply times_stays bodyStays least
      intro c d within accepted
      exact loop_stays bodyStays greedy stays _ _ _ c d within accepted
  | group index body ih =>
      intro c d within accepted
      -- What follows the group is a continuation of its own, which records the group first.
      refine ih (fun e d within accepted => ?_) c d within accepted
      exact stays (c.capture index e) d within accepted
  | reference casing index =>
      intro c d within accepted
      simp only [run] at accepted
      split at accepted
      · obtain ⟨e, passed, continued⟩ := Option.bind_eq_some_iff.mp accepted
        exact stays e d (within.past? passed) continued
      · cases accepted
  -- Looking around runs the body for its groups only, so nothing is needed of it.
  | ahead negated body => exact fun c d within accepted => stays_around stays within accepted
  | behind negated width body => exact fun c d within accepted => stays_around stays within accepted
  | atomic body ih =>
      intro c d within accepted
      obtain ⟨e, matched, continued⟩ := Option.bind_eq_some_iff.mp accepted
      exact stays e d (ih stays_accept c e within matched) continued
  | conditional index yes no ihYes ihNo =>
      intro c d within accepted
      simp only [run] at accepted
      split at accepted
      · exact ihYes stays c d within accepted
      · exact ihNo stays c d within accepted

end Regex

theorem Regex.endOf?_bounds (r : Regex) {t : Text} {offset stop : Nat} (inside : offset ≤ t.length)
    (found : r.endOf? t offset = some stop) : offset ≤ stop ∧ stop ≤ t.length := by
  obtain ⟨c, accepted, rfl⟩ := Option.map_eq_some_iff.mp found
  have start : (Regex.Cursor.ofText t offset).Within offset t.length :=
    ⟨Nat.le_refl offset, by simp only [Regex.Cursor.ofText, List.length_drop]; omega⟩
  obtain ⟨above, rest⟩ :=
    Regex.Node.run_stays r.node Regex.stays_accept _ c start accepted
  exact ⟨above, by omega⟩

end Descent
