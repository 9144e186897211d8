import Descent.Proofs.Contract.Rules
import Descent.Proofs.Session.Runs

/-!
Nothing is lost and nothing is matched twice. The texts in a value, read from left to right, spell
what was matched. Main statement: grammars that do not touch values spell what they match, whatever
was run on the text before.
-/

namespace Descent

namespace Value

mutual

/-- The texts in a value, one after the other. -/
def spelling : Value → Text
  | .text t => t
  | .list vs | .tuple vs => spellingAll vs
  | .none | .bool _ | .int _ | .float _ => []

def spellingAll : List Value → Text
  | [] => []
  | v :: vs => spelling v ++ spellingAll vs

end

end Value

/-- The value spells the text that it was matched with. -/
def Spec.spelled (src : Text) : Spec :=
  fun i j v => v.spelling = src.slice i j

theorem Rounds.spelling {src : Text} {i j : Nat} {vs : List Value}
    (rounds : Rounds src (.spelled src) i j vs) (inside : i ≤ src.length) :
    Value.spellingAll vs = src.slice i j := by
  induction vs generalizing i with
  | nil =>
      cases rounds
      exact (Text.slice_self src _).symm
  | cons v vs ih =>
      cases rounds with
      | cons onward within first rest =>
          obtain ⟨further, stop⟩ := Path.bounds rest within
          rw [Value.spellingAll, ih rest within, show v.spelling = _ from first]
          exact Text.slice_append_slice onward further stop

namespace Spec

variable {src : Text} {i j : Nat} {v : Value}

theorem spelled_of_row (onward : i ≤ j) (inside : j ≤ src.length)
    (row : Spec.row src (.spelled src) i j v) : Spec.spelled src i j v := by
  obtain ⟨vs, rfl, rounds⟩ := row
  exact rounds.spelling (Nat.le_trans onward inside)

theorem spelled_of_list (onward : i ≤ j) (inside : j ≤ src.length)
    (list : Spec.list src (.spelled src) i j v) : Spec.spelled src i j v := by
  obtain ⟨vs, rfl, rounds⟩ := list
  exact rounds.spelling (Nat.le_trans onward inside)

theorem spelled_of_chain (onward : i ≤ j) (inside : j ≤ src.length)
    (chain : Spec.chain src (.spelled src) (.spelled src) i j v) : Spec.spelled src i j v := by
  obtain ⟨k, w, vs, rfl, first, within, here, rounds⟩ := chain
  exact (Rounds.cons first within here rounds).spelling (Nat.le_trans onward inside)

end Spec

namespace Grammar

/-- Keeps every value that it matches, and adds no text of its own. -/
def KeepsText : Grammar → Prop
  | .succeed v => v.spelling = []
  | .custom _ | .map _ _ _ | .between _ _ _ | .peek _ | .sepBy _ _ | .andThen _ _ => False
  | _ => True

theorem meets_spelled {src : Text} {names before : Names} {fuel : Nat}
    (late : ∀ g : Grammar, g.All KeepsText → Setting.MeetsMatcher ⟨.faulting, src, names, fuel⟩
      (.spelled src) (Setting.late ⟨.faulting, src, names, fuel⟩ g))
    (known : before.All (Setting.MeetsArgument ⟨.faulting, src, names, fuel⟩ (.spelled src)))
    {g : Grammar} (keeps : g.All KeepsText) :
    Setting.Meets ⟨.faulting, src, names, fuel⟩ before (.spelled src) g := by
  have shown (v : Value) :
      Guarantee.faulting.Holds (Action.ofExcept (Matcher.unwanted v)) fun _ => True :=
    Guarantee.faulting_ofExcept fun _ _ => True.intro
  have nothing (i : Nat) : Spec.spelled src i i .none :=
    (Text.slice_self src i).symm
  have standing {t : Text} (i : Nat) (inside : i ≤ src.length) (stands : t <+: src.drop i) :
      Spec.spelled src i (i + t.length) (.text t) :=
    (Text.slice_of_prefix inside stands).symm
  induction keeps with
  | @intro g here parts ih =>
      cases g with
      | value v =>
          cases v with
          | text t => exact .text standing
          | _ => exact .pure True.intro
      | ref name => exact .ref (known name)
      | noting event g => exact .noting event (ih g .noting)
      | faulty e => exact .error e
      | char t => exact .char fun i c seen => (Text.slice_of_getElem? seen).symm
      | string t => exact .string standing
      | regex flags pattern => exact .regex fun _ _ _ _ => rfl
      | satisfy test label =>
          refine .satisfy fun i c seen => Guarantee.faulting_ofExcept fun _ _ _ => ?_
          exact (Text.slice_of_getElem? seen).symm
      | whitespaces => exact .whitespaces fun _ _ _ _ => rfl
      | succeed v => exact .succeed fun i => here.trans (nothing i)
      | fail message => exact .fail message
      | seq gs =>
          exact (Setting.Meets.row fun g member => ih g (.seq member)).mono
            fun _ _ _ => Spec.spelled_of_row
      | alt gs => exact .alt fun g member => ih g (.alt member)
      | copies g count =>
          exact (Setting.Meets.copies (ih g .copies)).mono fun _ _ _ => Spec.spelled_of_row
      | many g => exact (Setting.Meets.many (ih g .many)).mono fun _ _ _ => Spec.spelled_of_list
      | many1 g => exact (Setting.Meets.many1 (ih g .many1)).mono fun _ _ _ => Spec.spelled_of_chain
      | upTo stop g =>
          exact (Setting.Meets.upTo (ih stop .upToStop) (ih g .upTo)).mono
            fun _ _ _ => Spec.spelled_of_list
      | not g => exact .not (ih g .not) (fun _ _ v _ => shown v) nothing
      | except exclusion g =>
          exact .except (ih exclusion .exceptExclusion) (fun _ _ v _ => shown v) (ih g .except)
      | eof g => exact .eof (ih g .eof)
      | memoize g => exact .memoize (ih g .memoize)
      | lazy g => exact .lazy (late g (parts g .lazy))
      | named label g => exact .named label (ih g .named)
      | probe event g => exact .probe event (ih g .probe)
      | custom _ | map _ _ _ | between _ _ _ | peek _ | sepBy _ _ | andThen _ _ => exact here.elim

end Grammar

namespace Store

/-- A run that matches spells what it matches: the texts in its value, one after the other, are the
text from where it began to where it ended. -/
theorem answer_spelling {rs runs : List Request} {s t : Store} {src : Text} {g : Grammar}
    {pos : Int} (prepare : ∀ r ∈ rs, r.Prepares) (define : ∀ r ∈ rs, r.Defines Grammar.KeepsText)
    (prepared : empty.Leads rs s) (on : ∀ r ∈ runs, r.On src) (ran : s.Leads runs t)
    (keeps : g.All Grammar.KeepsText) (nonneg : 0 ≤ pos) (inside : pos ≤ src.length) {v : Value}
    {stop : Int} (answered : t.Answers (.run g src pos) (.ok (.outcome (.matched v stop)))) :
    v.spelling = src.slice pos stop := by
  obtain ⟨fuel, ended⟩ :=
    (answers_map_iff_means prepare prepared on ran (x := .ok (.matched v stop))).mp answered
  have spelled :
      (g.meaning (Request.namesAfter .empty rs) fuel).Meets .faulting src (.spelled src) := by
    refine Grammar.meaning_meets (fun _ _ _ => Guarantee.faulting_ofExcept)
      (fun fuel late g keeps => ?_) fuel keeps
    exact Grammar.meets_spelled late (Names.all_empty.afterRequests
      (fun _ _ known keeps => Grammar.meets_spelled late known keeps) define) keeps
  lift pos to Nat using nonneg
  cases spelled pos (by omega) _ ended with
  | matched _ _ value => exact value

/-- Round brackets around things of the kind, some `a`, or whatever comes before a semicolon. -/
private def nested : Grammar :=
  .memoize (.alt [
    .seq [.char ['('], .many (.lazy (.ref ['n'])), .optional (.char [';']), .char [')']],
    .many1 (.char ['a']),
    .upTo (.char [';']) (.except (.char [')']) .anyChar)])

private def things : Text :=
  ['(', '(', 'a', 'a', ')', 'b', ';', ')']

private theorem nested_keepsText : nested.All Grammar.KeepsText := by
  simp [nested, Grammar.optional, Grammar.anyChar, Grammar.codePoint, Grammar.KeepsText,
    Value.spelling]

theorem answer_spelling_nested :
    ∃ s t v, empty.Leads [.define ['n'] nested] s ∧ s.Leads [.run (.ref ['n']) things 1] t ∧
      t.Answers (.run (.ref ['n']) things 0) (.ok (.outcome (.matched v 8))) ∧
      v.spelling = things.slice 0 8 := by
  let s := (empty.performAll 0 [.define ['n'] nested]).getD empty
  let t := (s.performAll 8 [.run (.ref ['n']) things 1]).getD s
  have prepared : empty.Leads [.define ['n'] nested] s := leads_of_performAll 0 rfl
  have ran : s.Leads [.run (.ref ['n']) things 1] t := leads_of_performAll 8 rfl
  have answered : t.Answers (.run (.ref ['n']) things 0) (.ok (.outcome (.matched _ 8))) :=
    ⟨8, _, rfl⟩
  have name : (Grammar.ref ['n']).All Grammar.KeepsText := Grammar.all_ref.mpr True.intro
  refine ⟨s, t, _, prepared, ran, answered, ?_⟩
  refine answer_spelling ?_ ?_ prepared ?_ ran name (by decide) (by decide) answered
  · simp [Request.Prepares]
  · intro r member
    obtain rfl := List.mem_singleton.mp member
    exact nested_keepsText
  · simp [Request.On]

end Store

end Descent
