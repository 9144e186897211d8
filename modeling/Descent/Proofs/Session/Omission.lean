import Descent.Proofs.Parser.Omission
import Descent.Proofs.Session.Preparation

/-!
Sessions with something left out of every grammar. Main statement: after the requests without it,
names stand for what they stand for after the requests, without it.
-/

namespace Descent

namespace Request

def without (o : Omission) : Request → Request
  | .define name g => .define name (g.without o)
  | .run g src pos => .run (g.without o) src pos
  | .parse g src full => .parse (g.without o) src full
  | .inspect g => .inspect (g.without o)
  | .setDebug on => .setDebug on
  | .takeEvents => .takeEvents

/-- If the request defines something, then a parser. -/
def DefinesParser : Request → Prop
  | .define _ g => g.IsParser
  | _ => True

end Request

namespace Names

variable {o : Omission} {names : Names}

theorem names_without (areParsers : names.AreParsers) {r : Request}
    (wraps : r.Defines (Grammar.WrapsParser o)) :
    (r.without o).names (names.without o) = (r.names names).without o := by
  cases r with
  | define name g =>
      simp only [Request.without, Request.names, Grammar.plan_without areParsers wraps]
      cases g.plan names with
      | error e => rfl
      | ok a =>
          funext other
          change (if other = name then _ else _) = Option.map _ (if other = name then _ else _)
          split <;> rfl
  | _ => rfl

theorem namesAfter_without (areParsers : names.AreParsers) {rs : List Request}
    (define : ∀ r ∈ rs, r.DefinesParser) (wrap : ∀ r ∈ rs, r.Defines (Grammar.WrapsParser o)) :
    Request.namesAfter (names.without o) (rs.map (Request.without o)) =
        (Request.namesAfter names rs).without o ∧
      (Request.namesAfter names rs).AreParsers := by
  induction rs generalizing names with
  | nil => exact ⟨rfl, areParsers⟩
  | cons r rs ih =>
      have later : (r.names names).AreParsers := by
        apply Names.All.afterRequest areParsers
        intro name g equal
        subst equal
        exact Grammar.plan_isParser areParsers (define (.define name g) (by simp))
      simp only [List.map_cons, Request.namesAfter, names_without areParsers (wrap r (by simp))]
      exact ih later (fun q member => define q (by simp [member]))
        fun q member => wrap q (by simp [member])

end Names

end Descent
