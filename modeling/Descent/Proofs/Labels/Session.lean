import Descent.Proofs.Labels.Indifference
import Descent.Proofs.Session.Omission
import Descent.Proofs.Session.Runs

/-!
Expectations are for readers only. Main statement: sessions that differ in nothing but labels answer
alike, but for what a failure expects.
-/

namespace Descent

/-- An answer to a run without what is expected. -/
def Answer.unlabelled : Answer → Answer
  | .outcome r => .outcome r.unlabelled
  | a => a

namespace Store

/-- A request over a store is answered so, but for what a failure expects. -/
def AnswersUnlabelled (s : Store) (r : Request) (z : Except Fault Answer) : Prop :=
  ∃ x, s.Answers r x ∧ x.map Answer.unlabelled = z

private theorem answersUnlabelled_iff {rs runs : List Request} {s t : Store} {src : Text}
    {g : Grammar} {pos : Int} {z : Except Fault Answer} (prepare : ∀ r ∈ rs, r.Prepares)
    (define : ∀ r ∈ rs, r.DefinesParser) (wrap : ∀ r ∈ rs, r.Defines (Grammar.WrapsParser .labels))
    (prepared : empty.Leads rs s) (on : ∀ r ∈ runs, r.On src) (ran : s.Leads runs t)
    (wraps : g.All (Grammar.WrapsParser .labels)) :
    t.AnswersUnlabelled (.run g src pos) z ↔
      ∃ x, (∃ y, (g.without .labels).Means
          (Request.namesAfter .empty (rs.map (Request.without .labels))) src pos y ∧
          y.map Outcome.unlabelled = x) ∧ x.map Answer.outcome = z := by
  obtain ⟨names, areParsers⟩ := Names.namesAfter_without Names.all_empty define wrap
  have outcomes (y : Except Fault Outcome) : (y.map Answer.outcome).map Answer.unlabelled =
      (y.map Outcome.unlabelled).map Answer.outcome := by
    cases y <;> rfl
  rw [show Names.empty = Names.empty.without .labels from rfl, names]
  simp only [Grammar.means_without_labels_iff areParsers (Names.all_empty.namesAfter wrap) wraps,
    AnswersUnlabelled, answers_iff_means prepare prepared on ran]
  constructor
  · intro answered
    obtain ⟨_, ⟨y, means, rfl⟩, same⟩ := answered
    exact ⟨_, ⟨y, means, rfl⟩, (outcomes y).symm.trans same⟩
  · intro meant
    obtain ⟨_, ⟨y, means, rfl⟩, same⟩ := meant
    exact ⟨_, ⟨y, means, rfl⟩, (outcomes y).trans same⟩

/-- In sessions that are the same without their labels, grammars that are the same without theirs
answer with the same value and position, or fail at the same position, or stop with the same fault,
whatever was run on the text before. -/
theorem answers_relabelled_iff {rs rs' runs runs' : List Request} {s s' t t' : Store} {src : Text}
    {g g' : Grammar} (prepare : ∀ r ∈ rs, r.Prepares) (prepare' : ∀ r ∈ rs', r.Prepares)
    (define : ∀ r ∈ rs, r.DefinesParser) (define' : ∀ r ∈ rs', r.DefinesParser)
    (wrap : ∀ r ∈ rs, r.Defines (Grammar.WrapsParser .labels))
    (wrap' : ∀ r ∈ rs', r.Defines (Grammar.WrapsParser .labels))
    (prepared : empty.Leads rs s) (prepared' : empty.Leads rs' s')
    (sameNames : rs.map (Request.without .labels) = rs'.map (Request.without .labels))
    (on : ∀ r ∈ runs, r.On src) (on' : ∀ r ∈ runs', r.On src) (ran : s.Leads runs t)
    (ran' : s'.Leads runs' t') (wraps : g.All (Grammar.WrapsParser .labels))
    (wraps' : g'.All (Grammar.WrapsParser .labels)) (same : g.without .labels = g'.without .labels)
    (pos : Int) (z : Except Fault Answer) :
    t.AnswersUnlabelled (.run g src pos) z ↔ t'.AnswersUnlabelled (.run g' src pos) z := by
  rw [answersUnlabelled_iff prepare define wrap prepared on ran wraps,
    answersUnlabelled_iff prepare' define' wrap' prepared' on' ran' wraps', sameNames, same]

/-- Brackets around brackets, and a `b` inside. What is expected are the given labels. -/
private def layers (inside hint : Text) : Grammar :=
  .memoize (.alt [.seq [.char ['('], .lazy (.ref ['n']), .char [')']],
    .codePoint (fun c => c == 'b') inside, .fail hint])

private def layersNamed : Grammar :=
  .named ['n'] (layers ['b'] ['c'])

/-- One more bracket around the brackets. -/
private def wrapped : Grammar :=
  .seq [.char ['('], .ref ['n']]

private def unclosed : Text :=
  ['(', '(', 'b']

private theorem layers_wraps (inside hint : Text) :
    (layers inside hint).All (Grammar.WrapsParser .labels) := by
  simp [layers, Grammar.codePoint, Grammar.WrapsParser]

private theorem layersNamed_wraps : layersNamed.All (Grammar.WrapsParser .labels) :=
  Grammar.all_named.mpr ⟨fun _ => True.intro, layers_wraps _ _⟩

private theorem wrapped_wraps : wrapped.All (Grammar.WrapsParser .labels) := by
  simp [wrapped, Grammar.WrapsParser]

theorem answers_relabelled_layers :
    ∃ s s' t t', empty.Leads [.define ['n'] layersNamed] s ∧
      empty.Leads [.define ['n'] (layers ['d'] [])] s' ∧
      s.Leads [.run (.ref ['n']) unclosed 1] t ∧ s'.Leads [.parse wrapped unclosed true] t' ∧
      t.Answers (.run wrapped unclosed 0) (.ok (.outcome (.failure ⟨[['n']], 1⟩))) ∧
      t'.AnswersUnlabelled (.run (.named ['m'] wrapped) unclosed 0)
        (.ok (.outcome (.failure ⟨[], 1⟩))) := by
  let s := (empty.performAll 0 [.define ['n'] layersNamed]).getD empty
  let s' := (empty.performAll 0 [.define ['n'] (layers ['d'] [])]).getD empty
  let t := (s.performAll 5 [.run (.ref ['n']) unclosed 1]).getD s
  let t' := (s'.performAll 5 [.parse wrapped unclosed true]).getD s'
  have prepared : empty.Leads [.define ['n'] layersNamed] s := leads_of_performAll 0 rfl
  have prepared' : empty.Leads [.define ['n'] (layers ['d'] [])] s' := leads_of_performAll 0 rfl
  have ran : s.Leads [.run (.ref ['n']) unclosed 1] t := leads_of_performAll 5 rfl
  have ran' : s'.Leads [.parse wrapped unclosed true] t' := leads_of_performAll 5 rfl
  have answered : t.Answers (.run wrapped unclosed 0) (.ok (.outcome (.failure ⟨[['n']], 1⟩))) :=
    ⟨5, _, rfl⟩
  have wraps : (Grammar.named ['m'] wrapped).All (Grammar.WrapsParser .labels) :=
    Grammar.all_named.mpr ⟨fun _ => True.intro, wrapped_wraps⟩
  refine ⟨s, s', t, t', prepared, prepared', ran, ran', answered,
    (answers_relabelled_iff ?_ ?_ ?_ ?_ ?_ ?_ prepared prepared' rfl ?_ ?_ ran ran' wrapped_wraps
      wraps rfl 0 _).mp ⟨_, answered, rfl⟩⟩
  · simp [Request.Prepares]
  · simp [Request.Prepares]
  · simp [Request.DefinesParser, layersNamed, Grammar.IsParser]
  · simp [Request.DefinesParser, layers, Grammar.IsParser]
  · simp [Request.Defines, layersNamed_wraps]
  · simp [Request.Defines, layers_wraps]
  · simp [Request.On]
  · simp [Request.On]

end Store

end Descent
