import Descent.Proofs.Session.Reservation

/-!
Grammars that refer to themselves late. Main statement: a name that stands for a parser that is
built late has the answers of the grammar that it is built from, also where that refers to the name.
-/

namespace Descent

section

variable {names : Names} {src : Text} {cell : Nat} {g : Grammar} {pos : Int}
  {x : Except Fault Outcome}

theorem Parser.meaning_lazy (names : Names) (fuel cell : Nat) (g : Grammar) :
    (Parser.lazy cell g).meaning names (fuel + 1) = g.meaning names fuel :=
  rfl

theorem Parser.means_lazy_iff :
    (Parser.lazy cell g).Means names src pos x ↔ g.Means names src pos x := by
  constructor
  · rintro ⟨fuel, ended⟩
    refine ⟨fuel, ?_⟩
    rw [← Parser.meaning_lazy names fuel cell]
    exact Parser.meaning_mono (Nat.le_succ fuel) ended
  · rintro ⟨fuel, ended⟩
    exact ⟨fuel + 1, ended⟩

end

namespace Store

/-- All that is in reach of the parser in the end is reserved for one text. -/
theorem answers_late_iff {rs : List Request} {u : Store} {name : Text} {cell : Nat} {g : Grammar}
    {src : Text} (named : u.named? name = some (.parser (.lazy cell g)))
    (reserves : empty.Reserves src (u.reach (.lazy cell g)) rs u) (pos : Int)
    (x : Except Fault Answer) :
    u.Answers (.run (.ref name) src pos) x ↔ u.Answers (.run g src pos) x := by
  obtain ⟨names, later, consistent, placed⟩ := reserves.consistent_reach named
  have allowed := (Parser.all_iff.mp placed).1.2.2
  rw [consistent.answers_ref_iff True.intro placed named, consistent.answers_iff True.intro allowed]
  simp only [Parser.means_lazy_iff]

/-- Without memories nothing has to be reserved, but names have to stand for the same throughout. -/
theorem answers_late_iff_of_unmemoized {rs : List Request} {u : Store} {name : Text} {cell : Nat}
    {g : Grammar} (leads : empty.Leads rs u) (named : u.named? name = some (.parser (.lazy cell g)))
    (unmemoized : ¬ u.Memoizes (.lazy cell g))
    (once : ∀ other, u.Needs (.lazy cell g) other →
      (rs.filterMap Request.defined?).count other ≤ 1) (src : Text) (pos : Int)
    (x : Except Fault Answer) :
    u.Answers (.run (.ref name) src pos) x ↔ u.Answers (.run g src pos) x := by
  obtain ⟨later, -, owned, reserves⟩ := leads.reserves .empty
  refine answers_late_iff named (reserves (u.reach (.lazy cell g)) src ?_ (fun _ _ _ => rfl) once)
    pos x
  intro cell' trace p reaches owner
  obtain ⟨q, uses, other⟩ := owned.owner_of_reaches (owned.named named) reaches
  cases owner.symm.trans other
  exact unmemoized ⟨cell', trace, p, uses⟩

end Store

end Descent
