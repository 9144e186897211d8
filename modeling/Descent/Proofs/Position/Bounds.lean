import Descent.Proofs.Session.Runs
import Descent.Proofs.Regex.Bounds
import Descent.Proofs.Text.Inside

/-!
Matching moves forwards and stays within the text. A text is aligned with itself from a position up
to its end; since what is aligned stays aligned, no parser answers with a position outside, except
one that was written by hand.
-/

namespace Descent

def Outcome.pos : Outcome → Int
  | .success r => r.pos
  | .failure f => f.pos

/-- Not a function that states its own verdict. -/
def Grammar.NotCustom : Grammar → Prop
  | .custom _ => False
  | _ => True

def Alignment.onward (src : Text) {low : Int} (nonneg : 0 ≤ low) : Alignment src src where
  toLikeness := .same
  Place i j := i = j ∧ low ≤ j ∧ j ≤ src.length
  remaining place := by rw [place.1]
  lookAt place := by rw [place.1]
  succ place found := by
    have := Text.lt_length_of_lookAt found
    omega
  standsAt _ place := by rw [place.1]
  skip place stands := by
    have := Text.add_length_le_of_standsAt (Int.le_trans nonneg place.2.1) stands
    omega
  slice first second := by rw [first.1, second.1]

namespace Alignment

variable {src : Text} {low : Int} {nonneg : 0 ≤ low}

theorem outcomes_onward {r s : Outcome} (related : (onward src nonneg).Outcomes r s) :
    r = s ∧ low ≤ s.pos ∧ s.pos ≤ src.length := by
  cases related with
  | success place =>
      obtain ⟨rfl, bounds⟩ := place
      exact ⟨rfl, bounds⟩
  | failure alike place =>
      obtain rfl := alike
      obtain ⟨rfl, bounds⟩ := place
      exact ⟨rfl, bounds⟩

theorem regex_onward {ι σ τ : Type} {K : Correspondence ι σ τ} (r : Regex) :
    Matcher.Corresponds K (onward src nonneg) (Matcher.regex r) fun _ => Matcher.regex r := by
  intro i _ place
  obtain ⟨rfl, above, inside⟩ := place
  have start : min i.toNat src.length = i.toNat := by omega
  unfold Matcher.regex
  cases found : r.endOf? src (min i.toNat src.length) with
  | none =>
      simp only [found]
      exact K.pure (.failure rfl ⟨rfl, above, inside⟩)
  | some stop =>
      have bounds := r.endOf?_bounds (Nat.min_le_right _ _) found
      simp only [found]
      exact K.pure (.success ⟨rfl, by omega, by omega⟩)

end Alignment

theorem Grammar.Means.bounds {names : Names} (known : names.All (Argument.Passes Grammar.NotCustom))
    {src : Text} {g : Grammar} (notCustom : g.All Grammar.NotCustom) {pos : Int} (nonneg : 0 ≤ pos)
    (inside : pos ≤ src.length) {r : Outcome} (means : g.Means names src pos (.ok r)) :
    pos ≤ r.pos ∧ r.pos ≤ src.length := by
  obtain ⟨y, _, agree⟩ := Grammar.Means.corresponds (A := .onward src nonneg) (.fragment known)
    (fun _ => Alignment.regex_onward _) (fun allowed => allowed.elim) notCustom
    ⟨rfl, Int.le_refl pos, inside⟩ means
  cases agree with
  | ok related =>
      obtain ⟨rfl, bounds⟩ := Alignment.outcomes_onward related
      exact bounds

namespace Store

/-- A run that starts within a text answers with a position that is not before its start and not
past the end, whatever was run on the text before. -/
theorem answer_pos_bounds {rs runs : List Request} {s t : Store} {src : Text} {g : Grammar}
    {pos : Int} (prepare : ∀ r ∈ rs, r.Prepares) (define : ∀ r ∈ rs, r.Defines Grammar.NotCustom)
    (prepared : empty.Leads rs s) (on : ∀ r ∈ runs, r.On src) (ran : s.Leads runs t)
    (notCustom : g.All Grammar.NotCustom) (nonneg : 0 ≤ pos) (inside : pos ≤ src.length)
    {r : Outcome} (answered : t.Answers (.run g src pos) (.ok (.outcome r))) :
    pos ≤ r.pos ∧ r.pos ≤ src.length := by
  have means := (answers_map_iff_means prepare prepared on ran (x := .ok r)).mp answered
  exact means.bounds (Names.all_empty.namesAfter define) notCustom nonneg inside

/-- Blanks in brackets, to any depth. -/
private def bracketed : Grammar :=
  .memoize (.alt [
    .seq [.char ['('], .lazy (.ref ['p']), .char [')']],
    .regex ⟨false, false, false⟩ [' ', '*']])

private theorem bracketed_notCustom : bracketed.All Grammar.NotCustom := by
  simp [bracketed, Grammar.NotCustom]

theorem answer_pos_bounds_bracketed :
    ∃ s t r, empty.Leads [.define ['p'] bracketed] s ∧
      s.Leads [.run (.ref ['p']) ['(', '(', ' ', ')'] 2] t ∧
      t.Answers (.run (.ref ['p']) ['(', '(', ' ', ')'] 1) (.ok (.outcome r)) ∧
      1 ≤ r.pos ∧ r.pos ≤ 4 := by
  let s := (empty.performAll 0 [.define ['p'] bracketed]).getD empty
  let t := (s.performAll 5 [.run (.ref ['p']) ['(', '(', ' ', ')'] 2]).getD s
  have prepared : empty.Leads [.define ['p'] bracketed] s := leads_of_performAll 0 rfl
  have ran : s.Leads [.run (.ref ['p']) ['(', '(', ' ', ')'] 2] t := leads_of_performAll 5 rfl
  have answered : t.Answers (.run (.ref ['p']) ['(', '(', ' ', ')'] 1) (.ok (.outcome _)) :=
    ⟨5, _, rfl⟩
  have name : (Grammar.ref ['p']).All Grammar.NotCustom := Grammar.all_ref.mpr True.intro
  refine ⟨s, t, _, prepared, ran, answered, ?_⟩
  refine answer_pos_bounds ?_ ?_ prepared ?_ ran name (by decide) (by decide) answered
  · simp [Request.Prepares]
  · intro r member
    obtain rfl := List.mem_singleton.mp member
    exact bracketed_notCustom
  · simp [Request.On]

end Store

end Descent
