import Descent.Proofs.Peg.Matchers
import Descent.Proofs.Peg.Translation
import Descent.Proofs.Session.Definitions
import Descent.Proofs.Parser.Settling

/-!
A grammar that is a parsing expression recognises it. The induction is on the fuel, then on the
order in which names were given, then on the grammar.
-/

namespace Descent

namespace Peg

section

variable {names before : Names} {rules : Text → Peg} {src : Text} {fuel : Nat} {known : Text → Prop}
  {yields : Grammar → Value → Prop}

def RecognisesWith (names : Names) (rules : Text → Peg) (src : Text) (fuel : Nat) (e : Peg)
    (a : Argument) :
    Prop :=
  ∃ p, a = .parser p ∧ Recognises rules src (p.meaning names fuel) e

/-- Names that stand for parsers that recognise their rules. -/
def Sound (names : Names) (rules : Text → Peg) (src : Text) (fuel : Nat) (before : Names) : Prop :=
  ∀ name a, before name = some a → RecognisesWith names rules src fuel (rules name) a

private abbrev interpretation (names : Names) (fuel : Nat) : Interpretation Unit :=
  .forgetful names (Parser.late (Parser.meaning names) fuel) fuel

private theorem settles_part {x y : Except Fault Argument} {e f : Peg}
    (part : Settles (RecognisesWith names rules src fuel e) x y) {h : Parser → Parser}
    (whole : ∀ p, y = .ok (.parser p) →
      Recognises rules src ((interpretation names fuel).matcher p) e →
      Recognises rules src ((interpretation names fuel).matcher (h p)) f) :
    Settles (RecognisesWith names rules src fuel f) (do return .parser (h (← (← x).toParser)))
      (do return .parser (h (← (← y).toParser))) := by
  apply part.bind
  intro a equal recognises
  obtain ⟨p, rfl, inner⟩ := recognises
  rw [Parser.meaning_eq_matcher] at inner
  refine .pure ⟨h p, rfl, ?_⟩
  rw [Parser.meaning_eq_matcher]
  exact whole p equal inner

private theorem settles_pair {x y x' y' : Except Fault Argument} {e e' f : Peg}
    (first : Settles (RecognisesWith names rules src fuel e) x y)
    (second : Settles (RecognisesWith names rules src fuel e') x' y') {h : Parser → Parser → Parser}
    (whole : ∀ p q, y = .ok (.parser p) →
      Recognises rules src ((interpretation names fuel).matcher p) e →
      Recognises rules src ((interpretation names fuel).matcher q) e' →
      Recognises rules src ((interpretation names fuel).matcher (h p q)) f) :
    Settles (RecognisesWith names rules src fuel f)
      (do
        let a ← x
        let b ← x'
        return .parser (h (← a.toParser) (← b.toParser)))
      (do
        let a ← y
        let b ← y'
        return .parser (h (← a.toParser) (← b.toParser))) := by
  refine first.bind fun a equal recognises => second.bind fun b _ recognises' => ?_
  obtain ⟨p, rfl, inner⟩ := recognises
  obtain ⟨q, rfl, inner'⟩ := recognises'
  rw [Parser.meaning_eq_matcher] at inner inner'
  refine .pure ⟨h p q, rfl, ?_⟩
  rw [Parser.meaning_eq_matcher]
  exact whole p q equal inner inner'

private theorem settles_planAll {gs : List Grammar}
    (parts : ∀ g ∈ gs,
      Settles (RecognisesWith names rules src fuel g.peg) (g.plan before) (g.plan names)) :
    Settles (fun as => ∃ ps : List Parser, as = ps.map .parser ∧
        List.Forall₂ (Recognises rules src) (ps.map (interpretation names fuel).matcher)
          (gs.map Grammar.peg))
      (Grammar.planAll before gs) (Grammar.planAll names gs) := by
  induction gs with
  | nil => exact .pure ⟨[], rfl, .nil⟩
  | cons g gs ih =>
      apply (parts g (by simp)).bind
      intro a _ here
      refine (ih fun h member => parts h (by simp [member])).bind fun as _ rest => ?_
      obtain ⟨p, rfl, inner⟩ := here
      obtain ⟨ps, rfl, others⟩ := rest
      rw [Parser.meaning_eq_matcher] at inner
      exact .pure ⟨p :: ps, rfl, .cons inner others⟩

private theorem settles_members {gs : List Grammar} {f : Peg}
    (parts : ∀ g ∈ gs,
      Settles (RecognisesWith names rules src fuel g.peg) (g.plan before) (g.plan names))
    {h : List Parser → Parser}
    (whole : ∀ ps : List Parser, ps ≠ [] →
      List.Forall₂ (Recognises rules src) (ps.map (interpretation names fuel).matcher)
        (gs.map Grammar.peg) →
      Recognises rules src ((interpretation names fuel).matcher (h ps)) f) :
    Settles (RecognisesWith names rules src fuel f)
      (do
        let arguments ← Grammar.planAll before gs
        if arguments.isEmpty then .error .parserRequired
        else return .parser (h (← Argument.toParsers arguments)))
      (do
        let arguments ← Grammar.planAll names gs
        if arguments.isEmpty then .error .parserRequired
        else return .parser (h (← Argument.toParsers arguments))) := by
  apply (settles_planAll parts).bind
  intro as _ each
  obtain ⟨ps, rfl, each⟩ := each
  split
  · exact .error _
  · rename_i filled
    rw [Grammar.toParsers_map]
    refine .pure ⟨h ps, rfl, ?_⟩
    rw [Parser.meaning_eq_matcher]
    exact whole ps (by simpa using filled) each

private theorem yields_of_run
    (yielded : ∀ g i s, i ≤ src.length → Grammar.Means names src g (i : Nat) (.ok (.success s)) →
      yields g s.value)
    {g : Grammar} {p : Parser} (planned : g.plan names = .ok (.parser p)) {i : Nat}
    (inside : i ≤ src.length) {s : Success}
    (run : ((interpretation names fuel).matcher p src i).run () = some (.ok (.success s), ())) :
    yields g s.value := by
  have asParser : g.planned names = .ok p := by
    rw [Grammar.planned, planned]
    rfl
  refine yielded g i s inside ((Grammar.means_iff_of_planned asParser).mpr ⟨fuel, ?_⟩)
  rw [Parser.meaning_eq_matcher]
  exact run

theorem settles_plan (given : ∀ name a, before name = some a → names name = some a)
    (sound : Sound names rules src fuel before)
    (yielded : ∀ g i s, i ≤ src.length → Grammar.Means names src g (i : Nat) (.ok (.success s)) →
      yields g s.value)
    (late : ∀ g : Grammar, g.All (Grammar.IsPeg src known yields) → Recognises rules src
      (Matcher.thenRun do return Parser.late (Parser.meaning names) fuel (← g.planned names)) g.peg)
    {g : Grammar} (isPeg : g.All (Grammar.IsPeg src known yields)) :
    Settles (RecognisesWith names rules src fuel g.peg) (g.plan before) (g.plan names) := by
  have leaf {p : Parser} {e : Peg}
      (recognises : Recognises rules src ((interpretation names fuel).matcher p) e) :
      Settles (RecognisesWith names rules src fuel e) (pure (.parser p)) (pure (.parser p)) := by
    refine .pure ⟨p, rfl, ?_⟩
    rw [Parser.meaning_eq_matcher]
    exact recognises
  induction isPeg with
  | @intro g here parts ih =>
      cases g with
      | value v =>
          cases v with
          | text t => exact leaf (string_recognises t)
          | _ => exact here.elim
      | ref name =>
          intro a equal
          simp only [Grammar.plan] at equal ⊢
          cases found : before name with
          | none =>
              rw [found] at equal
              cases equal
          | some b =>
              rw [found] at equal
              cases equal
              obtain ⟨p, rfl, recognises⟩ := sound name a found
              rw [given name _ found]
              exact ⟨rfl, p, rfl, fun i inside => (recognises i inside).mono fun r agrees =>
                agrees.rule⟩
      | noting event g => exact ih g .noting
      | char t =>
          obtain ⟨c, rfl⟩ := List.length_eq_one_iff.mp here
          exact leaf (char_recognises c)
      | string t => exact leaf (string_recognises t)
      | satisfy test label =>
          refine leaf (satisfy_recognises fun c member => ?_)
          obtain ⟨passed, called⟩ := here c member
          refine .ofExcept ⟨passed, called, ?_⟩
          simp only [Callback.passes, called]
      | whitespaces => exact leaf whitespaces_recognises
      | succeed v => exact leaf (succeed_recognises v)
      | fail message => exact leaf (fail_recognises message)
      | seq gs =>
          apply settles_members (fun g member => ih g (.seq member))
          intro ps _ each
          simp only [Grammar.peg, Grammar.pegAll_eq_map, Interpretation.matcher,
            Interpretation.matchers_eq_map]
          exact seq_recognises each
      | alt gs =>
          apply settles_members (fun g member => ih g (.alt member))
          intro ps some each
          simp only [Grammar.peg, Grammar.pegAll_eq_map, Interpretation.matcher,
            Interpretation.matchers_eq_map]
          exact alt_recognises each (by simpa using some)
      | map g fn validate =>
          obtain ⟨rfl, calls⟩ := here
          refine settles_part (ih g .map) fun p planned inner => map_recognises inner
            fun i inside s run => ?_
          obtain ⟨w, called⟩ := calls _ (yields_of_run yielded planned inside run)
          exact ⟨w, by rw [← called]; exact Action.run_ofExcept _ _⟩
      | many g => exact settles_part (ih g .many) fun p _ inner => many_recognises inner fuel
      | many1 g => exact settles_part (ih g .many1) fun p _ inner => many1_recognises inner fuel
      | between left right g =>
          simp only [Grammar.plan]
          refine (ih left .betweenLeft).bind fun _ _ lead => (ih right .betweenRight).bind
            fun _ _ trail =>
            (ih g .between).bind fun _ _ inner => ?_
          obtain ⟨p, rfl, lead⟩ := lead
          obtain ⟨q, rfl, trail⟩ := trail
          obtain ⟨r, rfl, inner⟩ := inner
          rw [Parser.meaning_eq_matcher] at lead trail inner
          have each :
              List.Forall₂ (Recognises rules src)
              ([p, r, q].map (interpretation names fuel).matcher)
              [left.peg, g.peg, right.peg] := .cons lead (.cons inner (.cons trail .nil))
          exact leaf (pick_recognises each (by decide) (by simp) fun _ => rfl)
      | upTo stop g =>
          exact settles_pair (ih stop .upToStop) (ih g .upTo) fun p q _ ends inner =>
            upTo_recognises ends inner fuel
      | not g =>
          exact settles_part (ih g .not) fun p planned inner => not_recognises inner
            fun i inside s run =>
            here _ (yields_of_run yielded planned inside run)
      | except exclusion g =>
          exact settles_pair (ih exclusion .exceptExclusion) (ih g .except)
            fun p q planned excluded inner =>
            except_recognises excluded inner fun i inside s run =>
              here _ (yields_of_run yielded planned inside run)
      | peek g => exact settles_part (ih g .peek) fun p _ inner => peek_recognises inner
      | eof g => exact settles_part (ih g .eof) fun p _ inner => eof_recognises inner
      | sepBy separator item =>
          simp only [Grammar.plan]
          refine (ih separator .sepBySeparator).bind fun _ _ between => (ih item .sepBy).bind
            fun _ _ inner => ?_
          obtain ⟨p, rfl, between⟩ := between
          obtain ⟨q, rfl, inner⟩ := inner
          rw [Parser.meaning_eq_matcher] at between inner
          exact leaf (sepBy_recognises between inner fuel)
      | memoize g => exact settles_part (ih g .memoize) fun p _ inner => inner
      | lazy g => exact leaf (late g (parts g .lazy))
      | named label g =>
          exact settles_part (ih g .named)
            fun p _ inner => relabel_recognises label inner
      | probe event g => exact settles_part (ih g .probe) fun p _ inner => inner
      | faulty _ | regex _ _ | custom _ | copies _ _ | andThen _ _ => exact here.elim

end

end Peg

namespace Request

/-- The rules that requests define. -/
def rules (rs : List Request) : Text → Peg :=
  fun name => (((definitions rs).lookup name).map Grammar.peg).getD .fail

theorem rules_of_definition {rs : List Request} (once : ((definitions rs).map Prod.fst).Nodup)
    {d : Text × Grammar} (member : d ∈ definitions rs) : rules rs d.1 = d.2.peg := by
  rw [rules, lookup_definitions once member]
  rfl

end Request

namespace Peg

section

variable {names : Names} {rules : Text → Peg} {src : Text} {fuel : Nat} {known : Text → Prop}
  {yields : Grammar → Value → Prop}

theorem sound_namesAfter
    (yielded : ∀ g i s, i ≤ src.length → Grammar.Means names src g (i : Nat) (.ok (.success s)) →
      yields g s.value)
    (late : ∀ g : Grammar, g.All (Grammar.IsPeg src known yields) → Recognises rules src
      (Matcher.thenRun do return Parser.late (Parser.meaning names) fuel (← g.planned names)) g.peg)
    {rs : List Request} {before : Names} (once : ((Request.definitions rs).map Prod.fst).Nodup)
    (fresh : ∀ d ∈ Request.definitions rs, before d.1 = none)
    (ruled : ∀ d ∈ Request.definitions rs, rules d.1 = d.2.peg)
    (define : ∀ r ∈ rs, r.Defines (Grammar.IsPeg src known yields))
    (final : Request.namesAfter before rs = names) (sound : Sound names rules src fuel before) :
    Sound names rules src fuel names := by
  refine Request.namesAfter_forall once fresh final
    (fun earlier given known d member a planned => ?_) sound
  rw [ruled d member]
  have defines := define _ (Request.mem_of_definition member)
  exact (settles_plan given known yielded late defines a planned).2

theorem meaning_recognises (parsers : ∀ name, known name → ∃ p, names name = some (.parser p))
    (yielded : ∀ g i s, i ≤ src.length → Grammar.Means names src g (i : Nat) (.ok (.success s)) →
      yields g s.value)
    {rs : List Request} (once : ((Request.definitions rs).map Prod.fst).Nodup)
    (ruled : ∀ d ∈ Request.definitions rs, rules d.1 = d.2.peg)
    (define : ∀ r ∈ rs, r.Defines (Grammar.IsPeg src known yields))
    (final : Request.namesAfter .empty rs = names) (fuel : Nat) {g : Grammar}
    (isPeg : g.All (Grammar.IsPeg src known yields)) :
    Recognises rules src (g.meaning names fuel) g.peg := by
  induction fuel using Nat.strongRecOn generalizing g with
  | ind fuel ih =>
      -- What is built late runs with less fuel. What names stand for does not, and is taken in the
      -- order in which the names were given.
      have late : ∀ g : Grammar, g.All (Grammar.IsPeg src known yields) → Recognises rules src
          (Matcher.thenRun do return Parser.late (Parser.meaning names) fuel (← g.planned names))
          g.peg := by
        intro g isPeg
        cases fuel with
        | zero =>
            obtain ⟨p, planned⟩ := Grammar.plan_isPeg parsers isPeg
            intro i inside
            simp only [Matcher.thenRun, Grammar.planned, planned]
            exact .exhausted
        | succ fuel => exact ih fuel (Nat.lt_succ_self fuel) isPeg
      have sound := sound_namesAfter yielded late once (fun _ _ => rfl) ruled define final
        (fun _ _ found => by cases found)
      obtain ⟨p, planned⟩ := Grammar.plan_isPeg parsers isPeg
      obtain ⟨-, _, ⟨⟩, recognises⟩ :=
        settles_plan (fun _ _ found => found) sound yielded late isPeg _ planned
      have asParser : g.planned names = .ok p := by
        rw [Grammar.planned, planned]
        rfl
      rwa [Grammar.meaning_of_planned asParser]

end

end Peg

end Descent
