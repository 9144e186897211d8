import Descent.Proofs.Peg.Recognition
import Descent.Proofs.Session.Runs

/-!
Sessions of grammars that are parsing expressions. Main statement: such a grammar recognises exactly
what its parsing expression derives, whatever was run on the text before.
-/

namespace Descent

namespace Grammar

variable {names : Names}

theorem Means.seq_tuple {src : Text} {gs : List Grammar} {pos : Int} {r : Success}
    (means : (Grammar.seq gs).Means names src pos (.ok (.success r))) :
    ∃ vs, r.value = .tuple vs ∧ vs.length = gs.length := by
  obtain ⟨p, planned, fuel, ended⟩ := means_ok_iff.mp means
  obtain ⟨-, ps, each, rfl⟩ := planned_seq.mp planned
  rw [Parser.meaning_eq_matcher] at ended
  obtain ⟨vs, tuple, size⟩ := Peg.stages_tuple ended
  refine ⟨vs, tuple, ?_⟩
  rw [size, Interpretation.matchers_eq_map, List.length_map, each.length_eq, List.length_nil,
    Nat.zero_add]

end Grammar

namespace Store

variable {rs : List Request} {s : Store} {src : Text}

/-- Keeping one member of a sequence never faults; so a prefix that is skipped, and blanks that are,
leave a parsing expression one. -/
theorem isPeg_pick (prepare : ∀ r ∈ rs, r.Prepares) (prepared : empty.Leads rs s)
    {gs : List Grammar} {index : Int} (nonneg : 0 ≤ index) (lt : index < gs.length) :
    (Grammar.pick index (.seq gs)).IsPeg src s.Knows (s.Yields src) := by
  refine ⟨rfl, fun v yields => ?_⟩
  obtain ⟨i, j, _, means⟩ := yields.means prepare prepared
  obtain ⟨vs, rfl, length⟩ := means.seq_tuple
  exact Peg.item_tuple nonneg (by omega)

/-- A run of a grammar that is a parsing expression, whenever it ends, answers as the expression
derives: it matches up to a position exactly if that is derived, and fails exactly if that is
derived. -/
theorem answers_iff_derives {rs runs : List Request} {s t : Store} {src : Text} {g : Grammar}
    {i : Nat} (prepare : ∀ r ∈ rs, r.Prepares)
    (once : ((Request.definitions rs).map Prod.fst).Nodup) (prepared : empty.Leads rs s)
    (define : ∀ r ∈ rs, r.Defines (Grammar.IsPeg src s.Knows (s.Yields src)))
    (on : ∀ r ∈ runs, r.On src) (ran : s.Leads runs t)
    (isPeg : g.All (Grammar.IsPeg src s.Knows (s.Yields src))) (inside : i ≤ src.length)
    {x : Except Fault Answer} (answered : t.Answers (.run g src i) x) :
    (∃ r, x = .ok (.outcome r)) ∧
      (∀ j : Int, (∃ v, x = .ok (.outcome (.matched v j))) ↔
        ∃ k : Nat, j = k ∧ g.peg.Derives (Request.rules rs) src i (some k)) ∧
      ((∃ f, x = .ok (.outcome (.failure f))) ↔ g.peg.Derives (Request.rules rs) src i none) := by
  obtain ⟨y, ⟨fuel, ended⟩, rfl⟩ := (answers_iff_means prepare prepared on ran).mp answered
  obtain ⟨r, rfl, agrees⟩ := Peg.meaning_recognises
    (fun _ knows => knows.namesAfter prepare prepared)
    (fun _ _ _ => yields_of_means prepare prepared) once
    (fun d member => Request.rules_of_definition once member) define rfl fuel isPeg i inside y ended
  cases agrees with
  | @matched v j derives =>
      refine ⟨⟨_, rfl⟩, fun k => ⟨?_, ?_⟩, ?_, ?_⟩
      · intro matched
        obtain ⟨w, equal⟩ := matched
        cases equal
        exact ⟨j, rfl, derives⟩
      · intro derived
        obtain ⟨k, rfl, other⟩ := derived
        cases derives.unique other
        exact ⟨v, rfl⟩
      · intro failed
        obtain ⟨f, equal⟩ := failed
        cases equal
      · intro none
        cases derives.unique none
  | failed nonempty derives =>
      refine ⟨⟨_, rfl⟩, fun k => ⟨?_, ?_⟩, ?_, ?_⟩
      · intro matched
        obtain ⟨w, equal⟩ := matched
        cases equal
      · intro derived
        obtain ⟨k, rfl, other⟩ := derived
        cases derives.unique other
      · exact fun _ => derives
      · exact fun _ => ⟨_, rfl⟩

private theorem yields_char (prepare : ∀ r ∈ rs, r.Prepares) (prepared : empty.Leads rs s)
    {c : CodePoint} {v : Value} (yields : s.Yields src (.char [c]) v) : ∃ t, v = .text t := by
  obtain ⟨i, j, _, fuel, ended⟩ := yields.means prepare prepared
  rw [Grammar.meaning_of_planned (p := .char c) rfl, Parser.meaning_eq_matcher] at ended
  rcases Action.run_bind_eq_some.mp ended with ⟨e, _, ⟨⟩⟩ | ⟨seen, _, _, continued⟩
  cases seen with
  | none => cases continued
  | some d =>
      change (if d == c then _ else _ : Action Unit Outcome).run () = _ at continued
      split at continued
      · cases continued
        exact ⟨[d], rfl⟩
      · cases continued

/-- Some `a` in round brackets, to any depth. -/
private def rounded : Grammar :=
  .memoize (.alt [.between (.char ['(']) (.char [')']) (.lazy (.ref ['n'])), .many1 (.char ['a'])])

/-- No closing bracket, and then brackets up to the end. -/
private def opened : Grammar :=
  .after (.not (.char [')'])) (.eof (.ref ['n']))

private def brackets : Text :=
  ['(', '(', 'a', ')', ')']

private theorem rounded_isPeg {known : Text → Prop} {yields : Grammar → Value → Prop}
    (knows : known ['n']) :
    rounded.All (Grammar.IsPeg src known yields) := by
  simp [rounded, Grammar.IsPeg, knows]

private theorem opened_isPeg (prepare : ∀ r ∈ rs, r.Prepares) (prepared : empty.Leads rs s)
    (knows : s.Knows ['n']) : opened.All (Grammar.IsPeg src s.Knows (s.Yields src)) := by
  have shown (v : Value) (yields : s.Yields src (.char [')']) v) : ∃ t, v.display = .ok t := by
    obtain ⟨t, rfl⟩ := yields_char prepare prepared yields
    exact ⟨t, rfl⟩
  have picked : Grammar.IsPeg src s.Knows (s.Yields src) opened :=
    isPeg_pick prepare prepared (by decide) (by simp)
  refine Grammar.all_map.mpr ⟨picked, ?_⟩
  simpa [Grammar.IsPeg, knows] using shown

theorem answers_iff_derives_opened :
    ∃ s t, empty.Leads [.define ['n'] rounded] s ∧ s.Leads [.run (.ref ['n']) brackets 1] t ∧
      t.Answers (.run opened brackets (0 : Nat))
        (.ok (.outcome (.matched (.list [.text ['a']]) 5))) ∧
      opened.peg.Derives (Request.rules [.define ['n'] rounded]) brackets 0 (some 5) := by
  let s := (empty.performAll 0 [.define ['n'] rounded]).getD empty
  let t := (s.performAll 5 [.run (.ref ['n']) brackets 1]).getD s
  have prepare : ∀ r ∈ [Request.define ['n'] rounded], r.Prepares := by simp [Request.Prepares]
  have prepared : empty.Leads [.define ['n'] rounded] s := leads_of_performAll 0 rfl
  have ran : s.Leads [.run (.ref ['n']) brackets 1] t := leads_of_performAll 5 rfl
  have answered : t.Answers (.run opened brackets (0 : Nat))
      (.ok (.outcome (.matched (.list [.text ['a']]) 5))) := ⟨5, _, rfl⟩
  have knows : s.Knows ['n'] := ⟨_, rfl⟩
  have once : ((Request.definitions [.define ['n'] rounded]).map Prod.fst).Nodup := by
    simp [Request.definitions, Request.definition?]
  have define : ∀ r ∈ [Request.define ['n'] rounded],
      r.Defines (Grammar.IsPeg brackets s.Knows (s.Yields brackets)) := by
    intro r member
    obtain rfl := List.mem_singleton.mp member
    exact rounded_isPeg knows
  obtain ⟨-, matched, -⟩ :=
    answers_iff_derives prepare once prepared define (by simp [Request.On]) ran
    (opened_isPeg prepare prepared knows) (Nat.zero_le _) answered
  obtain ⟨k, equal, derives⟩ := (matched 5).mp ⟨_, rfl⟩
  obtain rfl : 5 = k := Int.ofNat_inj.mp equal
  exact ⟨s, t, prepared, ran, answered, derives⟩

end Store

end Descent
