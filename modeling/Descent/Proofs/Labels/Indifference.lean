import Descent.Proofs.Parser.Omission

/-!
Labels decide nothing. What a grammar expects is compared only in so far as it expects something; so
a parser answers alike whether its labels are kept or blanked out. Main statement: a grammar without
its labels means the same, up to what is expected.
-/

namespace Descent

/-- An outcome without what it expects. -/
def Outcome.unlabelled : Outcome → Outcome
  | .success r => .success r
  | .failure f => .failure ⟨[], f.pos⟩

/-- Whatever is expected counts as the same, as long as something is. -/
def Likeness.blind : Likeness where
  Alike ls ms := ls ≠ [] ∧ ms ≠ []
  alike_single label := ⟨by simp, by simp⟩
  alike_append first second := ⟨by simp [first.1], by simp [first.2]⟩
  alike_unique both := by
    obtain ⟨first, second⟩ := both
    have filled {ls : List Text} (some : ls ≠ []) : unique ls ≠ [] := by
      cases ls with
      | nil => exact (some rfl).elim
      | cons l ls => exact List.cons_ne_nil _ _
    exact ⟨⟨filled first, filled second⟩, by simp [filled first, filled second]⟩

namespace Alignment

variable {src : Text}

/-- The text aligned with itself, no matter what is expected. -/
def blind (src : Text) : Alignment src src :=
  { identity src with toLikeness := .blind }

theorem outcomes_blind {r s : Outcome} (related : (blind src).Outcomes r s) :
    r.unlabelled = s.unlabelled := by
  cases related with
  | success place => rw [show _ = _ from place]
  | failure alike place => rw [Outcome.unlabelled, Outcome.unlabelled, show _ = _ from place]

end Alignment

namespace Matcher

variable {ι σ τ : Type} {K : Correspondence ι σ τ} {src : Text}

/-- Fails under a label of its own, if labels are kept. -/
def relabelIf (keep : Bool) (label : Text) (p : Matcher σ) : Matcher σ :=
  if keep then relabel label p else p

private def relabelled (keep : Bool) (label : Text) (pos : Int) : Outcome → Outcome
  | .success r => .success r
  | .failure f => .failure ⟨if keep ∧ f.pos = pos then [label] else f.expected, f.pos⟩

private theorem relabelIf_eq (keep : Bool) (label : Text) (p : Matcher σ) (pos : Int) :
    relabelIf keep label p src pos = do return relabelled keep label pos (← p src pos) := by
  cases keep with
  | false =>
      have same : relabelled false label pos = id := by
        funext r
        cases r <;> simp [relabelled]
      simp only [same, id, bind_pure]
      rfl
  | true =>
      refine bind_congr fun r => ?_
      cases r with
      | success r => rfl
      | failure f =>
          by_cases stays : f.pos = pos
          · simp [relabelled, stays, Outcome.failed, Failure.single]
          · simp [relabelled, stays]

theorem relabelIf_corresponds (keep keep' : Bool) (label : Text) {p : Matcher σ} {q : ι → Matcher τ}
    (inner : Corresponds K (.blind src) p q) :
    Corresponds K (.blind src) (relabelIf keep label p) fun x => relabelIf keep' label (q x) := by
  intro i j place
  simp only [relabelIf_eq]
  apply K.bind (inner i j place)
  intro r s related
  cases related with
  | success place => exact K.pure (.success place)
  | @failure labels others k l alike place =>
      have filled {ls : List Text} (some : ls ≠ []) (change : Prop) [Decidable change] :
          (if change then [label] else ls) ≠ [] := by
        split
        · simp
        · exact some
      exact K.pure (.failure ⟨filled alike.1 _, filled alike.2 _⟩ place)

end Matcher

/-- Nothing is remembered, and labels are kept or blanked out. -/
def Interpretation.labelled (keep : Bool) (names : Names) (enter : Parser → Matcher Unit)
    (fuel : Nat) :
    Interpretation Unit where
  fuel := fuel
  label text := if keep then text else []
  call f v := Action.ofExcept (f.call v)
  enter g := do return enter (← g.planned names)
  memoize _ _ _ p := p
  lazy _ g := Matcher.thenRun do return enter (← g.planned names)
  named label _ p := Matcher.relabelIf keep label p
  probe _ p := p

/-- What a parser means as it is, or without its labels. -/
def Parser.seen (keep : Bool) (names : Names) (fuel : Nat) (p : Parser) : Matcher Unit :=
  if keep then p.meaning names fuel else (p.without .labels).meaning (names.without .labels) fuel

section

variable {names : Names} {src : Text}

private theorem enter_without (areParsers : names.AreParsers) (fuel : Nat) {g : Grammar}
    (wraps : g.All (Grammar.WrapsParser .labels)) :
    (do
      let p ← (g.without .labels).planned (names.without .labels)
      return Parser.late (Parser.meaning (names.without .labels)) fuel p :
      Action Unit (Matcher Unit)) =
      do return Parser.late (Parser.seen false names) fuel (← g.planned names) := by
  rw [Grammar.planned_without areParsers wraps]
  cases g.planned names with
  | error e => rfl
  | ok p => cases fuel <;> rfl

/-- Blanking out labels is the same as leaving them out. -/
theorem Parser.seen_eq_matcher (keep : Bool) (areParsers : names.AreParsers) (fuel : Nat)
    {p : Parser} (passes : p.All (Parser.Passes (Grammar.WrapsParser .labels))) :
    p.seen keep names fuel =
      (Interpretation.labelled keep names (Parser.late (Parser.seen keep names) fuel) fuel).matcher
        p := by
  cases keep with
  | true => exact Parser.meaning_eq_matcher names fuel p
  | false =>
      refine (Parser.meaning_eq_matcher _ fuel _).trans ?_
      -- Leaving out labels commutes with planning, so what is built late is the same parser twice.
      induction passes with
      | @intro p here _ ih =>
          cases p with
          | seq ps | alt ps =>
              simp only [without, withoutAll_eq_map, Interpretation.matcher,
                Interpretation.matchers_eq_map, List.map_map]
              congr 1
              exact List.map_congr_left ih
          | andThen p fns =>
              have first := ih p (by simp [Parser.parts])
              simp only [without, Interpretation.matcher, first, List.map_map]
              congr 1
              refine List.map_congr_left fun fn member => funext fun v => ?_
              exact enter_without areParsers fuel (here fn member v)
          | lazy cell g => exact congrArg Matcher.thenRun (enter_without areParsers fuel here)
          | _ =>
              simp only [Parser.parts, List.mem_cons, List.not_mem_nil, or_false, forall_eq_or_imp,
                forall_eq] at ih
              simp only [without, Interpretation.matcher, ih] <;> rfl

theorem Parser.seen_corresponds (keep keep' : Bool) (areParsers : names.AreParsers)
    (known : names.All (Argument.Passes (Grammar.WrapsParser .labels))) (fuel : Nat) {p : Parser}
    (passes : p.All (Parser.Passes (Grammar.WrapsParser .labels))) :
    Matcher.Corresponds .refinement (.blind src) (p.seen keep names fuel)
      fun _ => p.seen keep' names fuel := by
  have closed := Closed.fragment known
  -- What is built late is run with one unit of fuel less, whether labels are kept or not.
  induction fuel using Nat.strongRecOn generalizing p with
  | ind fuel ih =>
      have alike : ∀ p, p.All (Parser.Passes (Grammar.WrapsParser .labels)) →
          Matcher.Corresponds .refinement (.blind src) (Parser.late (Parser.seen keep names) fuel p)
            fun _ => Parser.late (Parser.seen keep' names) fuel p := by
        intro p passes i j place
        cases fuel with
        | zero => exact Correspondence.refinement.exhausted _
        | succ fuel => exact ih fuel (Nat.lt_succ_self fuel) passes i j place
      simp only [Parser.seen_eq_matcher _ areParsers fuel passes]
      refine Interpretation.Corresponds.matcher ?_ passes
      exact {
        fuel := fun _ => Nat.le_refl fuel
        label := fun text => ⟨_, fun _ => rfl, by simp, by simp⟩
        call := fun f v => Correspondence.refinement.ofExcept (agree_eq_iff.mpr rfl)
        regex := fun _ => Matcher.regex_corresponds_of_eq (fun _ _ same => same) (fun _ => rfl) _
        custom := fun _ => Matcher.custom_corresponds_of_eq (fun _ _ same => same) (fun _ => rfl) _
        enter := fun allowed fn member v =>
          enter_corresponds closed alike (closed.next allowed fn member v)
        memoize := fun _ inner => inner
        lazy := fun allowed => enter_corresponds closed alike (closed.lazy allowed)
        named := fun label _ _ _ inner => Matcher.relabelIf_corresponds keep keep' label inner
        probe := fun _ _ _ inner => inner }

private theorem ends_alike (keep keep' : Bool) (areParsers : names.AreParsers)
    (known : names.All (Argument.Passes (Grammar.WrapsParser .labels))) {p : Parser}
    (passes : p.All (Parser.Passes (Grammar.WrapsParser .labels))) {fuel : Nat} {pos : Int}
    {x : Except Fault Outcome} (ended : (p.seen keep names fuel src pos).run () = some (x, ())) :
    ∃ y, (p.seen keep' names fuel src pos).run () = some (y, ()) ∧
      x.map Outcome.unlabelled = y.map Outcome.unlabelled := by
  obtain ⟨y, other, agree⟩ :=
    Parser.seen_corresponds keep keep' areParsers known fuel passes pos pos rfl x ended
  refine ⟨y, other, ?_⟩
  cases agree with
  | error e => rfl
  | ok related => exact congrArg Except.ok (Alignment.outcomes_blind related)

/-- A grammar without its labels means the same, up to what is expected. -/
theorem Grammar.means_without_labels_iff (areParsers : names.AreParsers)
    (known : names.All (Argument.Passes (Grammar.WrapsParser .labels))) {g : Grammar}
    (wraps : g.All (Grammar.WrapsParser .labels)) {pos : Int} {z : Except Fault Outcome} :
    (∃ x, (g.without .labels).Means (names.without .labels) src pos x ∧
        x.map Outcome.unlabelled = z) ↔
      ∃ x, g.Means names src pos x ∧ x.map Outcome.unlabelled = z := by
  have alike := Grammar.planned_without areParsers wraps
  cases planned : g.planned names with
  | error e =>
      rw [planned] at alike
      simp only [Grammar.means_iff_of_fault planned, Grammar.means_iff_of_fault alike]
  | ok p =>
      rw [planned] at alike
      have passes := Grammar.planned_passes known wraps p planned
      simp only [Grammar.means_iff_of_planned planned, Grammar.means_iff_of_planned alike]
      constructor
      · intro meant
        obtain ⟨x, ⟨fuel, ended⟩, rfl⟩ := meant
        obtain ⟨y, other, same⟩ :=
          ends_alike false true areParsers known passes ended
        exact ⟨y, ⟨fuel, other⟩, same.symm⟩
      · intro meant
        obtain ⟨x, ⟨fuel, ended⟩, rfl⟩ := meant
        obtain ⟨y, other, same⟩ :=
          ends_alike true false areParsers known passes ended
        exact ⟨y, ⟨fuel, other⟩, same.symm⟩

end

end Descent
