import Descent.Proofs.Session.Omission
import Descent.Proofs.Session.Runs
import Descent.Proofs.Memoization.Erasure

/-!
Memoization is transparent: what a session answers does not depend on what is memoized, whatever has
been run on the same text before.
-/

namespace Descent

def Request.unmemoized : Request → Request
  | .define name g => .define name g.unmemoized
  | .run g src pos => .run g.unmemoized src pos
  | .parse g src full => .parse g.unmemoized src full
  | .inspect g => .inspect g.unmemoized
  | .setDebug on => .setDebug on
  | .takeEvents => .takeEvents

theorem Request.unmemoized_eq_without (r : Request) : r.unmemoized = r.without .memory := by
  cases r <;> simp only [unmemoized, without, Grammar.unmemoized_eq_without]

theorem Request.prepares_unmemoized {r : Request} (prepares : r.Prepares) :
    r.unmemoized.Prepares := by
  cases r <;> exact prepares

theorem Names.namesAfter_unmemoized {names : Names} (areParsers : names.AreParsers)
    {rs : List Request} (define : ∀ r ∈ rs, r.DefinesParser)
    (memoize : ∀ r ∈ rs, r.Defines Grammar.MemoizesParser) :
    Request.namesAfter names.unmemoized (rs.map Request.unmemoized) =
        (Request.namesAfter names rs).unmemoized ∧
      (Request.namesAfter names rs).AreParsers := by
  simp only [Names.unmemoized_eq_without, funext Request.unmemoized_eq_without]
  refine namesAfter_without areParsers define fun r member => ?_
  have memoizes := memoize r member
  cases r with
  | define name g => exact Grammar.wraps_of_memoizes memoizes
  | _ => exact True.intro

theorem Grammar.means_unmemoized_iff {names : Names} (areParsers : names.AreParsers)
    (known : names.All (Argument.Passes Grammar.MemoizesParser)) {g : Grammar}
    (memoizes : g.All Grammar.MemoizesParser) {src : Text} {pos : Int} {x : Except Fault Outcome} :
    g.unmemoized.Means names.unmemoized src pos x ↔ g.Means names src pos x := by
  have alike := Grammar.planned_unmemoized areParsers memoizes
  cases planned : g.planned names with
  | error e =>
      rw [planned] at alike
      rw [Grammar.means_iff_of_fault planned, Grammar.means_iff_of_fault alike]
  | ok p =>
      rw [planned] at alike
      rw [Grammar.means_iff_of_planned planned, Grammar.means_iff_of_planned alike]
      have passes := Grammar.planned_passes known memoizes p planned
      simp only [Parser.Means, Parser.meaning_unmemoized areParsers known _ passes]

namespace Store

/-- After any requests on a text, a run on it is answered as it is from a fresh start by the same
grammar in a session that memoizes nothing. -/
theorem answers_unmemoized_iff {rs runs : List Request} {fresh s t : Store} {src : Text}
    {g : Grammar} (prepare : ∀ r ∈ rs, r.Prepares) (define : ∀ r ∈ rs, r.DefinesParser)
    (memoize : ∀ r ∈ rs, r.Defines Grammar.MemoizesParser) (prepared : empty.Leads rs s)
    (preparedWithout : empty.Leads (rs.map Request.unmemoized) fresh) (on : ∀ r ∈ runs, r.On src)
    (ran : s.Leads runs t) (memoizes : g.All Grammar.MemoizesParser) (pos : Int)
    (x : Except Fault Answer) :
    fresh.Answers (.run g.unmemoized src pos) x ↔ t.Answers (.run g src pos) x := by
  have prepareWithout : ∀ r ∈ rs.map Request.unmemoized, r.Prepares := by
    intro r member
    obtain ⟨q, original, rfl⟩ := List.mem_map.mp member
    exact Request.prepares_unmemoized (prepare q original)
  obtain ⟨same, areParsers⟩ := Names.namesAfter_unmemoized Names.all_empty define memoize
  have known := Names.all_empty.namesAfter memoize
  rw [answers_iff_means prepare prepared on ran,
    answers_iff_means prepareWithout preparedWithout (by simp) (.nil fresh),
    show Names.empty = Names.empty.unmemoized from rfl, same]
  simp only [Grammar.means_unmemoized_iff areParsers known memoizes]
  rfl

/-- As many `a` as there are, and a `b`. Every `a` leads to a use of the memory further on. -/
private def nesting : Grammar :=
  .memoize (.alt [.seq [.char ['a'], .lazy (.ref ['n'])], .char ['b']])

private theorem nesting_memoizes : nesting.All Grammar.MemoizesParser := by
  simp [nesting, Grammar.MemoizesParser, Grammar.IsParser]

theorem answers_unmemoized_nesting :
    ∃ s t, empty.Leads [.define ['n'] nesting] s ∧
      s.Leads [.run (.ref ['n']) ['a', 'a', 'b'] 0, .run (.seq []) ['a', 'a', 'b'] 1] t ∧
      t.Answers (.run (.ref ['n']) ['a', 'a', 'b'] 1)
        (.ok (.outcome (.matched (.tuple [.text ['a'], .text ['b']]) 3))) := by
  let s := (empty.performAll 0 [.define ['n'] nesting]).getD empty
  let t := (s.performAll 5
    [.run (.ref ['n']) ['a', 'a', 'b'] 0, .run (.seq []) ['a', 'a', 'b'] 1]).getD s
  have prepared : empty.Leads [.define ['n'] nesting] s := leads_of_performAll 0 rfl
  have without : empty.Leads [.define ['n'] nesting.unmemoized] _ := leads_of_performAll 0 rfl
  have ran : s.Leads [.run (.ref ['n']) ['a', 'a', 'b'] 0, .run (.seq []) ['a', 'a', 'b'] 1] t :=
    leads_of_performAll 5 rfl
  have name : (Grammar.ref ['n']).All Grammar.MemoizesParser := Grammar.all_ref.mpr True.intro
  refine ⟨s, t, prepared, ran,
    (answers_unmemoized_iff ?_ ?_ ?_ prepared without ?_ ran name 1 _).mp ⟨5, _, rfl⟩⟩
  · simp [Request.Prepares]
  · intro r member
    obtain rfl := List.mem_singleton.mp member
    exact True.intro
  · intro r member
    obtain rfl := List.mem_singleton.mp member
    exact nesting_memoizes
  · simp [Request.On]

end Store

end Descent
