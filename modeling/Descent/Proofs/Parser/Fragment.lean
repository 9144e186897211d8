import Descent.Proofs.Parser.Plan

/-!
Fragments. A test on grammars carries over to the parsers that are planned from grammars that pass
it throughout: what a parser still holds of its grammar passes the test.
-/

namespace Descent

/-- If there is a result, then it has a property. -/
def Ensures {α : Type} (P : α → Prop) (x : Except Fault α) : Prop :=
  ∀ a, x = .ok a → P a

namespace Ensures

variable {α β : Type} {P : α → Prop} {Q : β → Prop}

theorem pure {a : α} (holds : P a) : Ensures P (Pure.pure a) := by
  intro b equal
  cases equal
  exact holds

theorem error (e : Fault) : Ensures P (.error e) := nofun

theorem bind {x : Except Fault α} {f : α → Except Fault β} (first : Ensures P x)
    (next : ∀ a, P a → Ensures Q (f a)) : Ensures Q (x >>= f) := by
  intro b equal
  cases x with
  | error e => cases equal
  | ok a => exact next a (first a rfl) b equal

theorem trivial (x : Except Fault α) : Ensures (fun _ => True) x :=
  fun _ _ => True.intro

theorem and {Q : α → Prop} {x : Except Fault α} (first : Ensures P x) (second : Ensures Q x) :
    Ensures (fun a => P a ∧ Q a) x :=
  fun a equal => ⟨first a equal, second a equal⟩

end Ensures

namespace Parser

/-- What a parser holds of its grammar passes a test. -/
def Passes (test : Grammar → Prop) : Parser → Prop
  | .regex r => ∃ flags pattern, test (.regex flags pattern) ∧ Regex.read flags pattern = .ok r
  | .custom verdict => test (.custom verdict)
  | .lazy _ g => g.All test
  | .andThen _ fns => ∀ fn ∈ fns, ∀ v, (fn v).All test
  | _ => True

end Parser

namespace Argument

def Passes (test : Grammar → Prop) : Argument → Prop
  | .parser p => p.All (Parser.Passes test)
  | .other _ => True

variable {test : Grammar → Prop}

theorem Passes.toParser {a : Argument} (passes : a.Passes test) :
    Ensures (Parser.All (Parser.Passes test)) a.toParser := by
  cases a with
  | parser p => exact .pure passes
  | other v => exact (Ensures.trivial v.describe).bind fun shown _ => .error _

theorem toParsers_ensures {P : Parser → Prop} {as : List Argument}
    (each : ∀ a ∈ as, Ensures P a.toParser) : Ensures (fun ps => ∀ p ∈ ps, P p) (toParsers as) := by
  induction as with
  | nil => exact .pure (by simp)
  | cons a as ih =>
      refine (each a (by simp)).bind fun p here => ?_
      refine (ih fun b member => each b (by simp [member])).bind fun ps rest => .pure ?_
      simpa using And.intro here rest

theorem toParsers_length (as : List Argument) :
    Ensures (fun ps => ps.length = as.length) (toParsers as) := by
  induction as with
  | nil => exact .pure rfl
  | cons a as ih =>
      refine (Ensures.trivial _).bind fun p _ => ih.bind fun ps length => .pure ?_
      simp [length]

end Argument

namespace Grammar

variable {test : Grammar → Prop} {names : Names}

theorem planAll_ensures {P : Argument → Prop} {gs : List Grammar}
    (parts : ∀ g ∈ gs, Ensures P (g.plan names)) :
    Ensures (fun as => ∀ a ∈ as, P a) (planAll names gs) := by
  induction gs with
  | nil => exact .pure (by simp)
  | cons g gs ih =>
      refine (parts g (by simp)).bind fun a here => ?_
      refine (ih fun h member => parts h (by simp [member])).bind fun as rest => .pure ?_
      simpa using And.intro here rest

private theorem all_of_parts {p : Parser} (parts : ∀ q ∈ p.parts, q.All (Parser.Passes test))
    (here : p.Passes test) : p.All (Parser.Passes test) :=
  .intro here parts

private theorem all_of_leaf {p : Parser} (leaf : p.parts = []) (here : p.Passes test) :
    p.All (Parser.Passes test) :=
  all_of_parts (by simp [leaf]) here

private theorem passes_of_part {x : Except Fault Argument} (part : Ensures (Argument.Passes test) x)
    {f : Parser → Parser}
    (whole : ∀ p, p.All (Parser.Passes test) → (f p).All (Parser.Passes test)) :
    Ensures (Argument.Passes test) (do return .parser (f (← (← x).toParser))) :=
  part.bind fun _ here => here.toParser.bind fun p passes => .pure (whole p passes)

theorem plan_passes (known : names.All (Argument.Passes test)) {g : Grammar}
    (all : g.All test) : Ensures (Argument.Passes test) (g.plan names) := by
  induction all with
  | @intro g here parts ih =>
      cases g with
      | value v =>
          cases v with
          | text t => exact .pure (all_of_leaf rfl True.intro)
          | _ => exact .pure True.intro
      | ref name =>
          simp only [plan]
          cases found : names name with
          | none => exact .error _
          | some a => exact .pure (known name a found)
      | noting event g => exact ih g .noting
      | faulty e => exact .error e
      | char t =>
          simp only [plan]
          split
          · exact .pure (all_of_leaf rfl True.intro)
          · exact .error _
      | string t => exact .pure (all_of_leaf rfl True.intro)
      | regex flags pattern =>
          intro a equal
          simp only [plan] at equal
          cases read : Regex.read flags pattern with
          | error e => rw [read] at equal; cases equal
          | ok r =>
              rw [read] at equal
              cases equal
              exact all_of_leaf rfl ⟨flags, pattern, here, read⟩
      | satisfy test' label => exact .pure (all_of_leaf rfl True.intro)
      | whitespaces => exact .pure (all_of_leaf rfl True.intro)
      | succeed v => exact .pure (all_of_leaf rfl True.intro)
      | fail message => exact .pure (all_of_leaf rfl True.intro)
      | custom verdict => exact .pure (all_of_leaf rfl here)
      | seq gs =>
          refine (planAll_ensures fun g member => ih g (.seq member)).bind fun as each => ?_
          split
          · exact .error _
          · exact (Argument.toParsers_ensures fun a member => (each a member).toParser).bind
              fun ps passes => .pure (all_of_parts passes True.intro)
      | alt gs =>
          refine (planAll_ensures fun g member => ih g (.alt member)).bind fun as each => ?_
          split
          · exact .error _
          · exact (Argument.toParsers_ensures fun a member => (each a member).toParser).bind
              fun ps passes => .pure (all_of_parts passes True.intro)
      | copies g count =>
          refine (ih g .copies).bind fun a part => (Ensures.trivial count).bind fun n _ => ?_
          split
          · exact .error _
          · refine part.toParser.bind fun p passes =>
              .pure (all_of_parts (fun q member => ?_) True.intro)
            rw [List.eq_of_mem_replicate member]
            exact passes
      | map g fn validate =>
          exact passes_of_part (ih g .map)
            fun p passes => all_of_parts (by simpa [Parser.parts]) True.intro
      | many g =>
          exact passes_of_part (ih g .many)
            fun p passes => all_of_parts (by simpa [Parser.parts]) True.intro
      | many1 g =>
          exact passes_of_part (ih g .many1)
            fun p passes => all_of_parts (by simpa [Parser.parts]) True.intro
      | between left right g =>
          refine (ih left .betweenLeft).bind fun l lead => (ih right .betweenRight).bind
            fun r trail =>
            (ih g .between).bind fun a inner => ?_
          refine lead.toParser.bind fun first lead => inner.toParser.bind fun middle inner =>
            trail.toParser.bind fun last trail => .pure (all_of_parts ?_ True.intro)
          have sequence : (Parser.seq [first, middle, last]).All (Parser.Passes test) :=
            all_of_parts (by simp [Parser.parts, lead, inner, trail]) True.intro
          simpa [Parser.parts]
      | upTo stop g =>
          refine (ih stop .upToStop).bind fun s ends => (ih g .upTo).bind fun a inner => ?_
          refine ends.toParser.bind fun q ends => inner.toParser.bind
            fun p inner => .pure (all_of_parts ?_ True.intro)
          simp [Parser.parts, ends, inner]
      | not g =>
          exact passes_of_part (ih g .not)
            fun p passes => all_of_parts (by simpa [Parser.parts]) True.intro
      | except exclusion g =>
          refine (ih exclusion .exceptExclusion).bind fun x excluded => (ih g .except).bind
            fun a inner => ?_
          refine excluded.toParser.bind fun q excluded => inner.toParser.bind fun p inner =>
            .pure (all_of_parts ?_ True.intro)
          simp [Parser.parts, excluded, inner]
      | peek g =>
          exact passes_of_part (ih g .peek)
            fun p passes => all_of_parts (by simpa [Parser.parts]) True.intro
      | eof g =>
          exact passes_of_part (ih g .eof)
            fun p passes => all_of_parts (by simpa [Parser.parts]) True.intro
      | sepBy separator item =>
          refine (ih separator .sepBySeparator).bind fun s between => (ih item .sepBy).bind
            fun a inner => ?_
          refine inner.toParser.bind fun p inner => between.toParser.bind fun q between =>
            .pure (all_of_parts ?_ True.intro)
          simp [Parser.parts, between, inner]
      | andThen g fns =>
          apply passes_of_part (ih g .andThen)
          intro p passes
          split
          · exact passes
          · exact all_of_parts (by simpa [Parser.parts])
              fun fn member v => parts _ (.andThenNext member v)
      | memoize g => exact passes_of_part (ih g .memoize) fun p passes => passes
      | lazy g => exact .pure (all_of_leaf rfl (parts g .lazy))
      | named label g =>
          exact passes_of_part (ih g .named)
            fun p passes => all_of_parts (by simpa [Parser.parts]) True.intro
      | probe event g =>
          exact passes_of_part (ih g .probe)
            fun p passes => all_of_parts (by simpa [Parser.parts]) True.intro

theorem planned_passes (known : names.All (Argument.Passes test)) {g : Grammar}
    (all : g.All test) : Ensures (Parser.All (Parser.Passes test)) (g.planned names) :=
  (plan_passes known all).bind fun _ passes => passes.toParser

end Grammar

end Descent
