import Descent.Proofs.Meaning.Basic

/-!
Grammars with something left out: the memory, or the labels. Main statement: planning a grammar
without it gives what planning the grammar gives, without it.
-/

namespace Descent

/-- What may be left out of a grammar. -/
inductive Omission where
  | memory
  /-- The names of grammars, and what tests and failing grammars say that they expect. -/
  | labels

def Omission.label : Omission → Text → Text
  | .memory, label => label
  | .labels, _ => []

namespace Grammar

mutual

/-- A grammar without its memory or without its labels. -/
def without (o : Omission) : Grammar → Grammar
  | .value v => .value v
  | .ref name => .ref name
  | .noting event g => .noting event (without o g)
  | .faulty e => .faulty e
  | .char t => .char t
  | .string t => .string t
  | .regex flags pattern => .regex flags pattern
  | .satisfy test label => .satisfy test (o.label label)
  | .whitespaces => .whitespaces
  | .succeed v => .succeed v
  | .fail message => .fail (o.label message)
  | .custom verdict => .custom verdict
  | .seq gs => .seq (withoutAll o gs)
  | .alt gs => .alt (withoutAll o gs)
  | .copies g count => .copies (without o g) count
  | .map g fn validate => .map (without o g) fn validate
  | .many g => .many (without o g)
  | .many1 g => .many1 (without o g)
  | .between left right g => .between (without o left) (without o right) (without o g)
  | .upTo stop g => .upTo (without o stop) (without o g)
  | .not g => .not (without o g)
  | .except exclusion g => .except (without o exclusion) (without o g)
  | .peek g => .peek (without o g)
  | .eof g => .eof (without o g)
  | .sepBy separator item => .sepBy (without o separator) (without o item)
  | .andThen g fns => .andThen (without o g) (withoutNext o fns)
  | .memoize g => match o with
    | .memory => without o g
    | .labels => .memoize (without o g)
  | .lazy g => .lazy (without o g)
  | .named label g => match o with
    | .memory => .named label (without o g)
    | .labels => without o g
  | .probe event g => .probe event (without o g)

def withoutAll (o : Omission) : List Grammar → List Grammar
  | [] => []
  | g :: gs => without o g :: withoutAll o gs

def withoutNext (o : Omission) : List (Value → Grammar) → List (Value → Grammar)
  | [] => []
  | fn :: fns => (fun v => without o (fn v)) :: withoutNext o fns

end

theorem withoutAll_eq_map (o : Omission) (gs : List Grammar) :
    withoutAll o gs = gs.map (without o) := by
  induction gs with
  | nil => rfl
  | cons g gs ih => rw [withoutAll, ih, List.map_cons]

theorem withoutNext_eq_map (o : Omission) (fns : List (Value → Grammar)) :
    withoutNext o fns = fns.map fun fn v => (fn v).without o := by
  induction fns with
  | nil => rfl
  | cons fn fns ih => rw [withoutNext, ih, List.map_cons]

/-- Gives a parser if it can be built at all, provided that names stand for parsers. -/
def IsParser : Grammar → Prop
  | .value (.text _) => True
  | .value _ => False
  | .noting _ g => g.IsParser
  | _ => True

/-- If what is left out goes around another grammar, then that gives a parser. -/
def WrapsParser (o : Omission) : Grammar → Prop
  | .memoize g => o = .memory → g.IsParser
  | .named _ g => o = .labels → g.IsParser
  | _ => True

end Grammar

namespace Parser

mutual

/-- A parser without its memory or without its labels. -/
def without (o : Omission) : Parser → Parser
  | .char c => .char c
  | .string t => .string t
  | .regex r => .regex r
  | .satisfy test label => .satisfy test (o.label label)
  | .whitespaces => .whitespaces
  | .succeed v => .succeed v
  | .fail message => .fail (o.label message)
  | .custom verdict => .custom verdict
  | .seq ps => .seq (withoutAll o ps)
  | .alt ps => .alt (withoutAll o ps)
  | .map p fn validate => .map (without o p) fn validate
  | .many p => .many (without o p)
  | .many1 p => .many1 (without o p)
  | .upTo stop p => .upTo (without o stop) (without o p)
  | .not p => .not (without o p)
  | .except exclusion p => .except (without o exclusion) (without o p)
  | .peek p => .peek (without o p)
  | .eof p => .eof (without o p)
  | .sepBy separator item => .sepBy (without o separator) (without o item)
  | .andThen p fns => .andThen (without o p) (fns.map fun fn v => (fn v).without o)
  | .memoize cell trace p => match o with
    | .memory => without o p
    | .labels => .memoize cell trace (without o p)
  | .lazy cell g => .lazy cell (g.without o)
  | .named label trace p => match o with
    | .memory => .named label trace (without o p)
    | .labels => without o p
  | .probe event p => .probe event (without o p)

def withoutAll (o : Omission) : List Parser → List Parser
  | [] => []
  | p :: ps => without o p :: withoutAll o ps

end

theorem withoutAll_eq_map (o : Omission) (ps : List Parser) :
    withoutAll o ps = ps.map (without o) := by
  induction ps with
  | nil => rfl
  | cons p ps ih => rw [withoutAll, ih, List.map_cons]

end Parser

namespace Argument

def without (o : Omission) : Argument → Argument
  | .parser p => .parser (p.without o)
  | .other v => .other v

variable (o : Omission)

@[simp] theorem without_ofParser (p : Parser) :
    (Argument.parser p).without o = .parser (p.without o) :=
  rfl

@[simp] theorem toParser_without (a : Argument) :
    (a.without o).toParser = Parser.without o <$> a.toParser := by
  cases a with
  | parser p => rfl
  | other v =>
      simp only [without, toParser]
      cases v.describe <;> rfl

theorem toParsers_without (as : List Argument) :
    toParsers (as.map (without o)) = List.map (Parser.without o) <$> toParsers as := by
  induction as with
  | nil => rfl
  | cons a as ih =>
      simp only [List.map_cons, toParsers, toParser_without, ih, map_bind, bind_map_left, map_pure]

end Argument

def Names.without (o : Omission) (names : Names) : Names :=
  fun name => (names name).map (Argument.without o)

/-- Names stand for parsers only. -/
def Names.AreParsers (names : Names) : Prop :=
  names.All fun a => ∃ p, a = .parser p

namespace Grammar

variable {o : Omission} {names : Names}

theorem planAll_without {gs : List Grammar}
    (parts : ∀ g ∈ gs, (g.without o).plan (names.without o) = Argument.without o <$> g.plan names) :
    planAll (names.without o) (gs.map (without o)) = List.map (Argument.without o) <$>
      planAll names gs := by
  induction gs with
  | nil => rfl
  | cons g gs ih =>
      have rest := ih fun h member => parts h (by simp [member])
      simp only [List.map_cons, planAll, parts g (by simp), rest, map_bind, bind_map_left, map_pure]

private def GivesParser (x : Except Fault Argument) : Prop :=
  Ensures (fun a => ∃ p, a = .parser p) x

private theorem givesParser_of_bind {α : Type} {x : Except Fault α} {f : α → Except Fault Argument}
    (next : ∀ a, GivesParser (f a)) : GivesParser (x >>= f) :=
  (Ensures.trivial x).bind fun a _ => next a

private theorem givesParser_pure (p : Parser) : GivesParser (pure (.parser p)) :=
  .pure ⟨p, rfl⟩

theorem plan_isParser (areParsers : names.AreParsers) {g : Grammar} (isParser : g.IsParser) :
    Ensures (fun a => ∃ p, a = .parser p) (g.plan names) := by
  induction g using Grammar.induction with
  | step g ih =>
      cases g with
      | value v =>
          cases v with
          | text t => exact givesParser_pure _
          | _ => exact isParser.elim
      | ref name =>
          simp only [plan]
          cases found : names name with
          | none => exact .error _
          | some a => exact .pure (areParsers name a found)
      | noting event g => exact ih g .noting isParser
      | faulty e => exact .error e
      | char t =>
          simp only [plan]
          split
          · exact givesParser_pure _
          · exact .error _
      | regex flags pattern => exact givesParser_of_bind fun _ => givesParser_pure _
      | seq gs | alt gs =>
          apply givesParser_of_bind
          intro as
          split
          · exact .error _
          · exact givesParser_of_bind fun _ => givesParser_pure _
      | copies g count =>
          refine givesParser_of_bind fun a => givesParser_of_bind fun n => ?_
          split
          · exact .error _
          · exact givesParser_of_bind fun _ => givesParser_pure _
      | between left right g =>
          refine givesParser_of_bind fun _ => givesParser_of_bind fun _ =>
            givesParser_of_bind fun _ => ?_
          exact givesParser_of_bind fun _ => givesParser_of_bind fun _ =>
            givesParser_of_bind fun _ => givesParser_pure _
      | upTo _ _ | except _ _ | sepBy _ _ =>
          refine givesParser_of_bind fun _ => givesParser_of_bind fun _ => ?_
          exact givesParser_of_bind fun _ => givesParser_of_bind fun _ => givesParser_pure _
      | map g _ _ | many g | many1 g | not g | peek g | eof g | andThen g _ | memoize g | named _ g
      | probe _ g =>
          exact givesParser_of_bind fun _ => givesParser_of_bind fun _ => givesParser_pure _
      | _ => exact givesParser_pure _

private theorem without_of_wrapped {x : Except Fault Argument} (isParser : GivesParser x)
    {f : Parser → Parser} (same : ∀ p, (f p).without o = p.without o) :
    Argument.without o <$> x =
      Argument.without o <$>
        (do return Argument.parser (f (← (← x).toParser)) : Except Fault Argument) := by
  cases x with
  | error e => rfl
  | ok a =>
      obtain ⟨p, rfl⟩ := isParser a rfl
      change Except.ok (Argument.parser (p.without o)) =
        Except.ok (Argument.parser ((f p).without o))
      rw [same]

private theorem without_of_part {x y : Except Fault Argument}
    (part : y = Argument.without o <$> x) {f h : Parser → Parser}
    (whole : ∀ p, (f p).without o = h (p.without o)) :
    (do return Argument.parser (h (← (← y).toParser))) =
      Argument.without o <$>
        (do return Argument.parser (f (← (← x).toParser)) : Except Fault Argument) := by
  simp [part, whole]

private theorem without_of_members (as : List Argument) {f : List Parser → Parser}
    (whole : ∀ ps, (f ps).without o = f (ps.map (Parser.without o))) :
    (if (as.map (Argument.without o)).isEmpty then .error .parserRequired
      else do return Argument.parser (f (← Argument.toParsers (as.map (Argument.without o))))) =
      Argument.without o <$> (if as.isEmpty then .error .parserRequired
        else do return Argument.parser (f (← Argument.toParsers as)) : Except Fault Argument) := by
  simp only [List.isEmpty_map, Argument.toParsers_without, bind_map_left]
  split
  · rfl
  · simp only [map_bind, map_pure, Argument.without_ofParser, whole]

theorem plan_without (areParsers : names.AreParsers) {g : Grammar}
    (wraps : g.All (WrapsParser o)) :
    (g.without o).plan (names.without o) = Argument.without o <$> g.plan names := by
  induction wraps with
  | @intro g here parts ih =>
      cases g with
      | value v => cases v <;> rfl
      | ref name =>
          simp only [without, plan, Names.without]
          cases names name <;> rfl
      | noting event g => exact ih g .noting
      | char t =>
          simp only [without, plan]
          split <;> rfl
      | regex flags pattern =>
          simp only [without, plan, map_bind, map_pure, Argument.without_ofParser, Parser.without]
      | seq gs =>
          have members := planAll_without fun g member => ih g (.seq member)
          simp only [without, withoutAll_eq_map, plan, members, bind_map_left, map_bind]
          refine bind_congr fun as => without_of_members as fun ps => ?_
          rw [Parser.without, Parser.withoutAll_eq_map]
      | alt gs =>
          have members := planAll_without fun g member => ih g (.alt member)
          simp only [without, withoutAll_eq_map, plan, members, bind_map_left, map_bind]
          refine bind_congr fun as => without_of_members as fun ps => ?_
          rw [Parser.without, Parser.withoutAll_eq_map]
      | copies g count =>
          simp only [without, plan, ih g .copies, bind_map_left, map_bind]
          refine bind_congr fun a => bind_congr fun n => ?_
          split
          · rfl
          · simp [Parser.without, Parser.withoutAll_eq_map]
      | map g fn validate => exact without_of_part (ih g .map) fun _ => rfl
      | many g => exact without_of_part (ih g .many) fun _ => rfl
      | many1 g => exact without_of_part (ih g .many1) fun _ => rfl
      | between left right g =>
          simp [without, plan, ih left .betweenLeft, ih right .betweenRight, ih g .between,
            Parser.without, Parser.withoutAll]
      | upTo stop g =>
          simp [without, plan, ih stop .upToStop, ih g .upTo, Parser.without]
      | not g => exact without_of_part (ih g .not) fun _ => rfl
      | except exclusion g =>
          simp [without, plan, ih exclusion .exceptExclusion, ih g .except, Parser.without]
      | peek g => exact without_of_part (ih g .peek) fun _ => rfl
      | eof g => exact without_of_part (ih g .eof) fun _ => rfl
      | sepBy separator item =>
          simp [without, plan, ih separator .sepBySeparator, ih item .sepBy, Parser.without]
      | andThen g fns =>
          simp only [without, withoutNext_eq_map, plan, List.isEmpty_map]
          apply without_of_part (ih g .andThen)
          intro p
          split <;> rfl
      -- What goes around a value that is no parser is a fault, and the value alone is none.
      | memoize g =>
          cases o with
          | memory =>
              simp only [without, plan, ih g .memoize]
              exact without_of_wrapped (plan_isParser areParsers (here rfl)) fun _ => rfl
          | labels => exact without_of_part (ih g .memoize) fun _ => rfl
      | named label g =>
          cases o with
          | memory => exact without_of_part (ih g .named) fun _ => rfl
          | labels =>
              simp only [without, plan, ih g .named]
              exact without_of_wrapped (plan_isParser areParsers (here rfl)) fun _ => rfl
      | probe event g => exact without_of_part (ih g .probe) fun _ => rfl
      | _ => rfl

theorem planned_without (areParsers : names.AreParsers) {g : Grammar}
    (wraps : g.All (WrapsParser o)) :
    (g.without o).planned (names.without o) = Parser.without o <$> g.planned names := by
  simp [planned, plan_without areParsers wraps]

end Grammar

end Descent
