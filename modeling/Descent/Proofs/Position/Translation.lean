import Descent.Proofs.Session.Runs

/-!
Matching does not look behind its start. A text is aligned with the same text behind any other one;
so a parser answers there as it does on the text alone, with its positions moved.
-/

namespace Descent

def Outcome.shift (distance : Int) : Outcome → Outcome
  | .success r => .success (r.withPos (r.pos + distance))
  | .failure f => .failure { f with pos := f.pos + distance }

/-- Neither a regular expression, which may look behind, nor a function that states its own
verdict. -/
def Grammar.Relocatable : Grammar → Prop
  | .regex _ _ | .custom _ => False
  | _ => True

namespace Text

variable (lead t : Text) {pos : Int}

theorem lookAt_append (nonneg : 0 ≤ pos) :
    (lead ++ t).lookAt (pos + lead.length) = t.lookAt pos := by
  have index : (pos + lead.length).toNat = lead.length + pos.toNat := by omega
  have seen : (lead ++ t).at? (pos + lead.length) = t.at? pos := by
    unfold at?
    rw [if_pos (by omega), if_pos nonneg, index, List.getElem?_append_right (by omega)]
    congr 1
    omega
  have inside : pos + lead.length < (lead ++ t).length ↔ pos < t.length := by
    simp only [List.length_append]
    omega
  unfold lookAt
  simp only [inside, seen]

theorem bound_append (nonneg : 0 ≤ pos) :
    (lead ++ t).bound (pos + lead.length) = lead.length + t.bound pos := by
  unfold bound
  rw [if_neg (by omega), if_neg (by omega), List.length_append]
  omega

theorem standsAt_append (part : Text) (nonneg : 0 ≤ pos) :
    (lead ++ t).standsAt part (pos + lead.length) = t.standsAt part pos := by
  have inside : pos + lead.length ≤ (lead ++ t).length ↔ pos ≤ t.length := by
    simp only [List.length_append]
    omega
  unfold standsAt
  rw [bound_append lead t nonneg, List.drop_length_add_append, decide_eq_decide.mpr inside]

theorem slice_append {start stop : Int} (first : 0 ≤ start) (second : 0 ≤ stop) :
    (lead ++ t).slice (start + lead.length) (stop + lead.length) = t.slice start stop := by
  unfold slice
  rw [bound_append lead t first, bound_append lead t second, List.take_length_add_append,
    List.drop_length_add_append]

end Text

def Alignment.behind (lead t : Text) : Alignment (lead ++ t) t where
  toLikeness := .same
  Place i j := i = j + lead.length ∧ 0 ≤ j
  remaining place := by
    rw [place.1, List.length_append]
    omega
  lookAt place := by rw [place.1, Text.lookAt_append lead t place.2]
  succ place _ := by omega
  standsAt part place := by rw [place.1, Text.standsAt_append lead t part place.2]
  skip place _ := by omega
  slice first second := by rw [first.1, second.1, Text.slice_append lead t first.2 second.2]

namespace Alignment

variable {lead t : Text}

theorem outcomes_behind {r s : Outcome} (related : (behind lead t).Outcomes r s) :
    r = s.shift lead.length := by
  cases related with
  | success place => rw [place.1]; rfl
  | failure alike place => rw [place.1, show _ = _ from alike]; rfl

theorem outcomes_symm {src dst : Text} {A : Alignment src dst} {r s : Outcome}
    (related : A.symm.Outcomes r s) : A.Outcomes s r := by
  cases related with
  | success place => exact .success place
  | failure alike place => exact .failure alike place

end Alignment

namespace Outcome

theorem shift_injective (distance : Int) {r s : Outcome}
    (same : r.shift distance = s.shift distance) :
    r = s := by
  rcases r with ⟨v, i⟩ | ⟨labels, i⟩ <;> rcases s with ⟨w, j⟩ | ⟨others, j⟩
  · simp only [shift, Success.withPos, Outcome.success.injEq, Success.mk.injEq] at same
    obtain ⟨rfl, moved⟩ := same
    obtain rfl : i = j := by omega
    rfl
  · cases same
  · cases same
  · simp only [shift, Outcome.failure.injEq, Failure.mk.injEq] at same
    obtain ⟨rfl, moved⟩ := same
    obtain rfl : i = j := by omega
    rfl

end Outcome

theorem Grammar.means_append_iff {names : Names}
    (known : names.All (Argument.Passes Grammar.Relocatable)) {g : Grammar}
    (relocatable : g.All Grammar.Relocatable) (lead t : Text) {pos : Int} (nonneg : 0 ≤ pos)
    {x : Except Fault Outcome} :
    g.Means names (lead ++ t) (pos + lead.length) (x.map (Outcome.shift lead.length)) ↔
      g.Means names t pos x := by
  have closed := Closed.fragment known
  have noRegex {r : Regex} (passes : (Parser.regex r).Passes Grammar.Relocatable) : False := by
    obtain ⟨flags, pattern, allowed, _⟩ := passes
    exact allowed
  constructor
  · intro means
    obtain ⟨y, there, agree⟩ := means.corresponds (A := .behind lead t) closed
      (fun passes => (noRegex passes).elim) (fun passes => passes.elim) relocatable ⟨rfl, nonneg⟩
    have same : x = y := by
      rcases x with e | r
      · cases agree
        rfl
      · cases agree with
        | ok related =>
            exact congrArg Except.ok
              (Outcome.shift_injective _ (Alignment.outcomes_behind related))
    rwa [same]
  · intro means
    obtain ⟨y, there, agree⟩ := means.corresponds (A := (Alignment.behind lead t).symm) closed
      (fun passes => (noRegex passes).elim) (fun passes => passes.elim) relocatable ⟨rfl, nonneg⟩
    have same : y = x.map (Outcome.shift lead.length) := by
      cases agree with
      | error e => rfl
      | ok related =>
          exact congrArg Except.ok (Alignment.outcomes_behind (Alignment.outcomes_symm related))
    rwa [← same]

namespace Store

/-- A run behind a text is answered as the run on what follows the text, with the position moved.
Either may come after other runs on its own text. -/
theorem answers_append_iff {rs before after : List Request} {s u v : Store} {g : Grammar}
    {lead t : Text} {pos : Int} (prepare : ∀ r ∈ rs, r.Prepares)
    (define : ∀ r ∈ rs, r.Defines Grammar.Relocatable) (prepared : empty.Leads rs s)
    (onWhole : ∀ r ∈ before, r.On (lead ++ t)) (ranWhole : s.Leads before u)
    (onRest : ∀ r ∈ after, r.On t) (ranRest : s.Leads after v)
    (relocatable : g.All Grammar.Relocatable) (nonneg : 0 ≤ pos) (x : Except Fault Outcome) :
    u.Answers (.run g (lead ++ t) (pos + lead.length))
        (x.map fun r => .outcome (r.shift lead.length)) ↔
      v.Answers (.run g t pos) (x.map Answer.outcome) := by
  have same : (x.map fun r => Answer.outcome (r.shift lead.length)) =
      (x.map (Outcome.shift lead.length)).map Answer.outcome := by
    cases x <;> rfl
  rw [same, answers_map_iff_means prepare prepared onWhole ranWhole,
    answers_map_iff_means prepare prepared onRest ranRest]
  exact Grammar.means_append_iff (Names.all_empty.namesAfter define) relocatable lead t nonneg

/-- Blanks, `a` with commas between, and a colon at the end of the text. -/
private def listed : Grammar :=
  .seq [.whitespaces, .sepBy (.char [',']) (.memoize (.char ['a'])), .eof (.lazy (.ref ['c']))]

private theorem listed_relocatable : listed.All Grammar.Relocatable := by
  simp [listed, Grammar.Relocatable]

private def lead : Text :=
  [')', ':']

private def items : Text :=
  [' ', 'a', ',', 'a', ':']

theorem answers_append_listed :
    ∃ s u, empty.Leads [.define ['c'] (.char [':'])] s ∧ s.Leads [.run listed (lead ++ items) 0] u ∧
      u.Answers (.run listed (lead ++ items) (0 + 2)) (.ok (.outcome (.matched
        (.tuple [.text [' '], .list [.text ['a'], .text ['a']], .text [':']]) (5 + 2)))) := by
  let s := (empty.performAll 0 [.define ['c'] (.char [':'])]).getD empty
  let u := (s.performAll 5 [.run listed (lead ++ items) 0]).getD s
  have prepared : empty.Leads [.define ['c'] (.char [':'])] s := leads_of_performAll 0 rfl
  have ran : s.Leads [.run listed (lead ++ items) 0] u := leads_of_performAll 5 rfl
  let found : Outcome :=
    .matched (.tuple [.text [' '], .list [.text ['a'], .text ['a']], .text [':']]) 5
  have alone : s.Answers (.run listed items 0) (.ok (.outcome found)) := ⟨5, _, rfl⟩
  refine ⟨s, u, prepared, ran, (answers_append_iff ?_ ?_ prepared ?_ ran ?_ (.nil s)
    listed_relocatable (Int.le_refl 0) (.ok found)).mpr alone⟩
  · simp [Request.Prepares]
  · intro r member
    obtain rfl := List.mem_singleton.mp member
    exact Grammar.all_char.mpr True.intro
  · simp [Request.On]
  · simp

end Store

end Descent
