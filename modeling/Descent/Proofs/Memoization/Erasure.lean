import Descent.Proofs.Parser.Omission

/-!
Grammars without memoization. Main statements: planning a grammar without memoization gives what
planning the grammar gives, and that means the same.
-/

namespace Descent

namespace Grammar

mutual

/-- A grammar in which every memoized grammar is replaced by the grammar itself. -/
def unmemoized : Grammar → Grammar
  | .value v => .value v
  | .ref name => .ref name
  | .noting event g => .noting event (unmemoized g)
  | .faulty e => .faulty e
  | .char t => .char t
  | .string t => .string t
  | .regex flags pattern => .regex flags pattern
  | .satisfy test label => .satisfy test label
  | .whitespaces => .whitespaces
  | .succeed v => .succeed v
  | .fail message => .fail message
  | .custom verdict => .custom verdict
  | .seq gs => .seq (unmemoizedAll gs)
  | .alt gs => .alt (unmemoizedAll gs)
  | .copies g count => .copies (unmemoized g) count
  | .map g fn validate => .map (unmemoized g) fn validate
  | .many g => .many (unmemoized g)
  | .many1 g => .many1 (unmemoized g)
  | .between left right g => .between (unmemoized left) (unmemoized right) (unmemoized g)
  | .upTo stop g => .upTo (unmemoized stop) (unmemoized g)
  | .not g => .not (unmemoized g)
  | .except exclusion g => .except (unmemoized exclusion) (unmemoized g)
  | .peek g => .peek (unmemoized g)
  | .eof g => .eof (unmemoized g)
  | .sepBy separator item => .sepBy (unmemoized separator) (unmemoized item)
  | .andThen g fns => .andThen (unmemoized g) (unmemoizedNext fns)
  | .memoize g => unmemoized g
  | .lazy g => .lazy (unmemoized g)
  | .named label g => .named label (unmemoized g)
  | .probe event g => .probe event (unmemoized g)

def unmemoizedAll : List Grammar → List Grammar
  | [] => []
  | g :: gs => unmemoized g :: unmemoizedAll gs

def unmemoizedNext : List (Value → Grammar) → List (Value → Grammar)
  | [] => []
  | fn :: fns => (fun v => unmemoized (fn v)) :: unmemoizedNext fns

end

theorem unmemoizedAll_eq_map (gs : List Grammar) : unmemoizedAll gs = gs.map unmemoized := by
  induction gs with
  | nil => rfl
  | cons g gs ih => rw [unmemoizedAll, ih, List.map_cons]

theorem unmemoizedNext_eq_map (fns : List (Value → Grammar)) :
    unmemoizedNext fns = fns.map fun fn v => (fn v).unmemoized := by
  induction fns with
  | nil => rfl
  | cons fn fns ih => rw [unmemoizedNext, ih, List.map_cons]

theorem unmemoized_eq_without (g : Grammar) : g.unmemoized = g.without .memory := by
  induction g using Grammar.induction with
  | step g ih =>
      cases g with
      | seq gs =>
          rw [unmemoized, without, unmemoizedAll_eq_map, withoutAll_eq_map]
          exact congrArg _ (List.map_congr_left fun g member => ih g (.seq member))
      | alt gs =>
          rw [unmemoized, without, unmemoizedAll_eq_map, withoutAll_eq_map]
          exact congrArg _ (List.map_congr_left fun g member => ih g (.alt member))
      | andThen g fns =>
          rw [unmemoized, without, unmemoizedNext_eq_map, withoutNext_eq_map, ih g .andThen]
          exact congrArg _ (List.map_congr_left fun fn member => funext fun v =>
            ih (fn v) (.andThenNext member v))
      | noting event g => rw [unmemoized, without, ih g .noting]
      | copies g count => rw [unmemoized, without, ih g .copies]
      | map g fn validate => rw [unmemoized, without, ih g .map]
      | many g => rw [unmemoized, without, ih g .many]
      | many1 g => rw [unmemoized, without, ih g .many1]
      | between left right g =>
          rw [unmemoized, without, ih left .betweenLeft, ih right .betweenRight, ih g .between]
      | upTo stop g => rw [unmemoized, without, ih stop .upToStop, ih g .upTo]
      | not g => rw [unmemoized, without, ih g .not]
      | except exclusion g => rw [unmemoized, without, ih exclusion .exceptExclusion, ih g .except]
      | peek g => rw [unmemoized, without, ih g .peek]
      | eof g => rw [unmemoized, without, ih g .eof]
      | sepBy separator item =>
          rw [unmemoized, without, ih separator .sepBySeparator, ih item .sepBy]
      | memoize g => exact ih g .memoize
      | lazy g => rw [unmemoized, without, ih g .lazy]
      | named label g => exact congrArg (named label) (ih g .named)
      | probe event g => rw [unmemoized, without, ih g .probe]
      | _ => rfl

/-- If the grammar memoizes something, then a parser. -/
def MemoizesParser : Grammar → Prop
  | .memoize g => g.IsParser
  | _ => True

end Grammar

namespace Parser

mutual

def unmemoized : Parser → Parser
  | .char c => .char c
  | .string t => .string t
  | .regex r => .regex r
  | .satisfy test label => .satisfy test label
  | .whitespaces => .whitespaces
  | .succeed v => .succeed v
  | .fail message => .fail message
  | .custom verdict => .custom verdict
  | .seq ps => .seq (unmemoizedAll ps)
  | .alt ps => .alt (unmemoizedAll ps)
  | .map p fn validate => .map (unmemoized p) fn validate
  | .many p => .many (unmemoized p)
  | .many1 p => .many1 (unmemoized p)
  | .upTo stop p => .upTo (unmemoized stop) (unmemoized p)
  | .not p => .not (unmemoized p)
  | .except exclusion p => .except (unmemoized exclusion) (unmemoized p)
  | .peek p => .peek (unmemoized p)
  | .eof p => .eof (unmemoized p)
  | .sepBy separator item => .sepBy (unmemoized separator) (unmemoized item)
  | .andThen p fns => .andThen (unmemoized p) (fns.map fun fn v => (fn v).unmemoized)
  | .memoize _ _ p => unmemoized p
  | .lazy cell g => .lazy cell g.unmemoized
  | .named label trace p => .named label trace (unmemoized p)
  | .probe event p => .probe event (unmemoized p)

def unmemoizedAll : List Parser → List Parser
  | [] => []
  | p :: ps => unmemoized p :: unmemoizedAll ps

end

theorem unmemoizedAll_eq_map (ps : List Parser) : unmemoizedAll ps = ps.map unmemoized := by
  induction ps with
  | nil => rfl
  | cons p ps ih => rw [unmemoizedAll, ih, List.map_cons]

theorem unmemoized_eq_without (p : Parser) : p.unmemoized = p.without .memory := by
  induction p using Parser.induction with
  | step p ih =>
      cases p with
      | seq ps | alt ps =>
          rw [unmemoized, without, unmemoizedAll_eq_map, withoutAll_eq_map]
          exact congrArg _ (List.map_congr_left ih)
      | _ =>
          simp only [parts, List.mem_cons, List.not_mem_nil, or_false, forall_eq_or_imp,
            forall_eq] at ih
          simp only [unmemoized, without, ih, Grammar.unmemoized_eq_without, Omission.label]

end Parser

namespace Argument

def unmemoized : Argument → Argument
  | .parser p => .parser p.unmemoized
  | .other v => .other v

theorem unmemoized_eq_without (a : Argument) : a.unmemoized = a.without .memory := by
  cases a with
  | parser p => exact congrArg Argument.parser p.unmemoized_eq_without
  | other v => rfl

end Argument

def Names.unmemoized (names : Names) : Names :=
  fun name => (names name).map Argument.unmemoized

theorem Names.unmemoized_eq_without (names : Names) : names.unmemoized = names.without .memory :=
  funext fun name => congrArg (Option.map · (names name)) (funext Argument.unmemoized_eq_without)

namespace Grammar

variable {names : Names} {g : Grammar}

theorem wraps_of_memoizes (memoizes : g.All MemoizesParser) : g.All (WrapsParser .memory) := by
  refine memoizes.mono fun h here => ?_
  cases h with
  | memoize h => exact fun _ => here
  | named label h => exact nofun
  | _ => exact True.intro

theorem planned_unmemoized (areParsers : names.AreParsers) (memoizes : g.All MemoizesParser) :
    g.unmemoized.planned names.unmemoized = Parser.unmemoized <$> g.planned names := by
  rw [g.unmemoized_eq_without, names.unmemoized_eq_without, funext Parser.unmemoized_eq_without]
  exact planned_without areParsers (wraps_of_memoizes memoizes)

end Grammar

section

variable {names : Names}

private theorem enter_unmemoized (areParsers : names.AreParsers)
    (known : names.All (Argument.Passes Grammar.MemoizesParser))
    {enter enter' : Parser → Matcher Unit}
    (same : ∀ p, p.All (Parser.Passes Grammar.MemoizesParser) → enter' p.unmemoized = enter p)
    {g : Grammar} (memoizes : g.All Grammar.MemoizesParser) :
    (do return enter' (← g.unmemoized.planned names.unmemoized) : Action Unit (Matcher Unit)) =
      do return enter (← g.planned names) := by
  have passes := Grammar.planned_passes known memoizes
  rw [Grammar.planned_unmemoized areParsers memoizes]
  cases planned : g.planned names with
  | error e => rfl
  | ok p =>
      change (pure (enter' p.unmemoized) : Action Unit (Matcher Unit)) = pure (enter p)
      rw [same p (passes p planned)]

theorem Parser.meaning_unmemoized (areParsers : names.AreParsers)
    (known : names.All (Argument.Passes Grammar.MemoizesParser)) (n : Nat) {p : Parser}
    (passes : p.All (Parser.Passes Grammar.MemoizesParser)) :
    p.unmemoized.meaning names.unmemoized n = p.meaning names n := by
  induction n using Nat.strongRecOn generalizing p with
  | ind n ih =>
      have same (q : Parser) (passes : q.All (Parser.Passes Grammar.MemoizesParser)) :
          Parser.late (Parser.meaning names.unmemoized) n q.unmemoized =
            Parser.late (Parser.meaning names) n q := by
        cases n with
        | zero => rfl
        | succ n => exact ih n (Nat.lt_succ_self n) passes
      simp only [Parser.meaning_eq_matcher]
      induction passes with
      | @intro p here _ inner =>
          cases p with
          | seq ps | alt ps =>
              simp only [unmemoized, unmemoizedAll_eq_map, Interpretation.matcher,
                Interpretation.matchers_eq_map, List.map_map]
              congr 1
              exact List.map_congr_left inner
          | andThen p fns =>
              have first := inner p (by simp [Parser.parts])
              simp only [unmemoized, Interpretation.matcher, first, List.map_map]
              congr 1
              refine List.map_congr_left fun fn member => funext fun v => ?_
              exact enter_unmemoized areParsers known same (here fn member v)
          | lazy cell g =>
              exact congrArg Matcher.thenRun (enter_unmemoized areParsers known same here)
          | _ =>
              simp only [Parser.parts, List.mem_cons, List.not_mem_nil, or_false, forall_eq_or_imp,
                forall_eq] at inner
              simp only [unmemoized, Interpretation.matcher, inner] <;> rfl

end

end Descent
