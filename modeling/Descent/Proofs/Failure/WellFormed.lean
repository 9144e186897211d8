import Descent.Proofs.Conduct.Session
import Descent.Proofs.Failure.Careful

/-!
Failures are well formed, and nobody but a user makes one that is not. Main statement: in a session
of any requests every failure that is answered or remembered expects something, and nothing twice;
and the fault of expecting nothing comes from functions that users bring along.
-/

namespace Descent

/-- No run misses an expectation. -/
def Conduct.expecting : Conduct where
  __ := loose
  Allows := Fault.Ordinary
  ordinary := id

namespace Grammar

theorem Careful.permitted {g : Grammar} (careful : g.Careful) :
    Conduct.expecting.Permits g := by
  cases g with
  | custom verdict =>
      exact {
        faults := fun _ pos => (careful _ pos).1
        success := fun _ _ => True.intro
        failure := fun _ stated =>
          ⟨True.intro, fun none => absurd (none ▸ stated) ((careful _ _).2 _)⟩ }
  | faulty e | satisfy test label | copies g count | map g fn validate => exact careful
  | _ => exact True.intro

end Grammar

namespace Store

theorem failures_wellFormed :
    (∀ (rs : List Request) (s : Store), empty.Leads rs s →
      (∀ entry ∈ s.outcomes, ∀ f, entry.2 = .failure f → f.WellFormed) ∧
      (∀ g src pos f, s.Answers (.run g src pos) (.ok (.outcome (.failure f))) → f.WellFormed) ∧
      ∀ g src full e, s.Answers (.parse g src full) (.ok (.parsed (.error e))) →
        e.expected ≠ [] ∧ e.expected.Nodup) ∧
    (∀ (rs : List Request) (s : Store) (r : Request), empty.Leads rs s →
      (∀ q ∈ rs, q.All Grammar.Careful) → r.All Grammar.Careful →
      ¬ s.Answers r (.error .expectationRequired)) ∧
    ∀ g : Grammar, g.General → g.All Grammar.Careful := by
  refine ⟨fun rs s led => ?_, fun rs s r led each careful answers => ?_,
    fun _ => Grammar.general_careful⟩
  · have free := Conduct.loose_open
    have formed {pos : Int} {f : Failure} (fits : Conduct.loose.Fits pos (.failure f)) :
        f.WellFormed := by
      cases fits with
      | failure wellFormed _ => exact wellFormed
    obtain ⟨sound, -⟩ := Conduct.Sound.empty.leads (fun r _ => free.request r) led
    refine ⟨fun entry member f same => ?_, fun g src pos f answers => ?_,
      fun g src full e answers => ?_⟩
    · have fits := sound.outcomes entry member
      rw [same] at fits
      exact formed fits
    · exact formed ((sound.answers (free.request _) answers).1 _ rfl)
    · obtain ⟨f, fits, rfl⟩ := (sound.answers (free.request _) answers).1 _ rfl
      exact ⟨(formed fits).nonempty, (formed fits).nodup⟩
  · let C := Conduct.expecting
    have keeps {q : Request} (careful : q.All Grammar.Careful) : q.All C.Permits ∧
      q.Reads C.Reads :=
      ⟨careful.mono fun _ => Grammar.Careful.permitted, by cases q <;> exact True.intro⟩
    obtain ⟨sound, -⟩ := Conduct.Sound.empty.leads (fun q member => keeps (each q member)) led
    exact (sound.answers (keeps careful) answers).2 _ rfl rfl

/-- A memory around a choice whose first alternative states the same label twice. -/
private def repeating : Grammar :=
  .memoize (.alt [.custom fun _ pos => .ok (.failure [['a'], ['b'], ['a']] pos),
    .named ['b'] (.seq [.lazy (.char ['c']), .whitespaces])])

theorem failures_wellFormed_repeating :
    ∃ s f, empty.Leads [.define ['p'] repeating, .run (.ref ['p']) ['x'] 0] s ∧
      s.outcomes = [((1, 0), .failure f)] ∧ f.WellFormed ∧
        f.expected = ([['a'], ['b']] : List Text) ∧
      (∀ e, s.Answers (.parse (.ref ['p']) ['x'] true) (.ok (.parsed (.error e))) →
        e.expected ≠ [] ∧ e.expected.Nodup) ∧
      ¬ s.Answers (.parse (.ref ['p']) ['x'] true) (.error .expectationRequired) := by
  let rs : List Request := [.define ['p'] repeating, .run (.ref ['p']) ['x'] 0]
  let s := (empty.performAll 5 rs).getD empty
  have led : empty.Leads rs s := leads_of_performAll 5 rfl
  have answers : s.Answers (.run (.ref ['p']) ['x'] 0) (.ok (.outcome (.failure _))) := ⟨5, _, rfl⟩
  have stated (v : Verdict) : Faults Fault.Ordinary (.ok v) := .ok v
  have careful : repeating.All Grammar.Careful := by simp [repeating, Grammar.Careful, stated]
  obtain ⟨formed, kept, -⟩ := failures_wellFormed
  have name : (Grammar.ref ['p']).All Grammar.Careful := Grammar.all_ref.mpr True.intro
  have each : ∀ q ∈ rs, q.All Grammar.Careful := by simp [rs, Request.All, careful, name]
  refine ⟨s, _, led, rfl, (formed rs s led).2.1 _ _ _ _ answers, rfl, (formed rs s led).2.2 _ _ _,
    ?_⟩
  exact kept rs s _ led each name

end Store

end Descent
