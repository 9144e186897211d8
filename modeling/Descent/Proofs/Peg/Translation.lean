import Descent.Proofs.Parser.Planning
import Descent.Proofs.Peg.Basic
import Descent.Proofs.Session.Preparation

/-!
Grammars as parsing expressions. Some grammars are parsing expressions in disguise: memory, names of
their own and functions on values make no difference to where they match. Main statement: such a
grammar can always be planned.
-/

namespace Descent

def Callback.passes (test : Callback Bool) (c : CodePoint) : Bool :=
  match test.call (.text [c]) with
  | .ok passed => passed
  | .error _ => false

namespace Grammar

mutual

/-- The parsing expression of a grammar. What is no parsing expression counts as failure. -/
def peg : Grammar → Peg
  | .value (.text t) => .string t
  | .ref name => .rule name
  | .noting _ g => peg g
  | .char [c] => .test (· == c)
  | .string t => .string t
  | .satisfy test _ => .test test.passes
  | .whitespaces => .spaces
  | .succeed _ => .empty
  | .fail _ => .fail
  | .seq gs => .sequence (pegAll gs)
  | .alt gs => .firstOf (pegAll gs)
  | .map g _ _ => peg g
  | .many g => .star (peg g)
  | .many1 g => .many1 (peg g)
  | .between left right g => .sequence [peg left, peg g, peg right]
  | .upTo stop g => .upTo (peg stop) (peg g)
  | .not g => .not (peg g)
  | .except exclusion g => .except (peg exclusion) (peg g)
  | .peek g => .ahead (peg g)
  | .eof g => .eof (peg g)
  | .sepBy separator item => .sepBy (peg separator) (peg item)
  | .memoize g => peg g
  | .lazy g => peg g
  | .named _ g => peg g
  | .probe _ g => peg g
  | .value _ | .faulty _ | .char _ | .regex _ _ | .custom _ | .copies _ _ | .andThen _ _ => .fail

def pegAll : List Grammar → List Peg
  | [] => []
  | g :: gs => peg g :: pegAll gs

end

theorem pegAll_eq_map (gs : List Grammar) : pegAll gs = gs.map peg := by
  induction gs with
  | nil => rfl
  | cons g gs ih => rw [pegAll, ih, List.map_cons]

/-- A parsing expression at the top. Names that are used are known, and functions do not fault:
`yields` says which values a grammar may come to on the text. -/
def IsPeg (src : Text) (known : Text → Prop) (yields : Grammar → Value → Prop) : Grammar → Prop
  | .value (.text _) => True
  | .ref name => known name
  | .char t => t.length = 1
  | .satisfy test _ => ∀ c ∈ src, ∃ passed, test.call (.text [c]) = .ok passed
  | .seq gs | .alt gs => gs ≠ []
  | .map g fn validate => validate = none ∧ ∀ v, yields g v → ∃ w, fn.call v = .ok w
  | .not g => ∀ v, yields g v → ∃ t, v.display = .ok t
  | .except exclusion _ => ∀ v, yields exclusion v → ∃ t, v.display = .ok t
  | .noting _ _ | .string _ | .whitespaces | .succeed _ | .fail _ | .many _ | .many1 _
  | .between _ _ _ | .upTo _ _ | .peek _ | .eof _ | .sepBy _ _ | .memoize _ | .lazy _
  | .named _ _ | .probe _ _ => True
  | .value _ | .faulty _ | .regex _ _ | .custom _ | .copies _ _ | .andThen _ _ => False

variable {src : Text} {known : Text → Prop} {yields : Grammar → Value → Prop} {names : Names}

theorem plan_isPeg (parsers : ∀ name, known name → ∃ p, names name = some (.parser p)) {g : Grammar}
    (isPeg : g.All (IsPeg src known yields)) : ∃ p, g.plan names = .ok (.parser p) := by
  induction isPeg with
  | @intro g here parts ih =>
      cases g with
      | value v =>
          cases v with
          | text t => exact ⟨_, rfl⟩
          | _ => exact here.elim
      | ref name =>
          obtain ⟨p, found⟩ := parsers name here
          exact ⟨p, by simp only [plan, found]; rfl⟩
      | noting event g => exact ih g .noting
      | char t =>
          obtain ⟨c, rfl⟩ := List.length_eq_one_iff.mp here
          exact ⟨_, rfl⟩
      | seq gs => exact planned_members here (fun g member => ih g (.seq member)) Parser.seq
      | alt gs => exact planned_members here (fun g member => ih g (.alt member)) Parser.alt
      | map g fn validate => exact planned_part (ih g .map) _
      | many g => exact planned_part (ih g .many) _
      | many1 g => exact planned_part (ih g .many1) _
      | between left right g =>
          obtain ⟨p, first⟩ := ih left .betweenLeft
          obtain ⟨q, last⟩ := ih right .betweenRight
          obtain ⟨r, middle⟩ := ih g .between
          exact ⟨.map (.seq [p, r, q]) (.silent (Value.item 1)) none, by
            simp only [plan, first, last, middle]; rfl⟩
      | upTo stop g => exact planned_pair (ih stop .upToStop) (ih g .upTo) _
      | not g => exact planned_part (ih g .not) _
      | except exclusion g => exact planned_pair (ih exclusion .exceptExclusion) (ih g .except) _
      | peek g => exact planned_part (ih g .peek) _
      | eof g => exact planned_part (ih g .eof) _
      | sepBy separator item =>
          obtain ⟨p, first⟩ := ih separator .sepBySeparator
          obtain ⟨q, second⟩ := ih item .sepBy
          exact ⟨.sepBy p q, by simp only [plan, first, second]; rfl⟩
      | memoize g => exact planned_part (ih g .memoize) id
      | named label g => exact planned_part (ih g .named) _
      | probe event g => exact planned_part (ih g .probe) _
      | string _ | satisfy _ _ | whitespaces | succeed _ | fail _ | lazy _ => exact ⟨_, rfl⟩
      | faulty _ | regex _ _ | custom _ | copies _ _ | andThen _ _ => exact here.elim

end Grammar

end Descent
