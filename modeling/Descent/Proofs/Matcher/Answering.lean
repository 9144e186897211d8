import Descent.Matcher.Choice
import Descent.Matcher.Repetition
import Descent.Matcher.Lookahead
import Descent.Parser.Run
import Descent.Proofs.Text.Inside

/-!
What matchers answer, step by step. Where the parts of a matcher answer at once, without a look at
the state, so does the whole; each lemma takes one part away.
-/

namespace Descent.Matcher

variable {σ : Type} {src rest t : Text} {i : Nat} {pos : Int}

/-! Matchers that look at the text themselves. -/

/-- One code point that passes a test. -/
def codePoint (test : CodePoint → Bool) (label : Text) : Matcher σ :=
  satisfy label fun c => pure (test c)

theorem codePoint_seen {test : CodePoint → Bool} {c : CodePoint} (label : Text)
    (seen : src[i]? = some c) (passes : test c = true) :
    codePoint test label src i =
      (pure (.matched (.text [c]) (i + 1 : Nat)) : Action σ Outcome) := by
  unfold codePoint satisfy
  rw [src.lookAt_eq, seen]
  change (if test c then _ else _) = _
  rw [if_pos passes]
  rfl

theorem codePoint_refused {test : CodePoint → Bool} (label : Text)
    (refused : ∀ c, src[i]? = some c → test c = false) :
    codePoint test label src i = (pure (.failed label i) : Action σ Outcome) := by
  unfold codePoint satisfy
  rw [src.lookAt_eq]
  cases seen : src[i]? with
  | none => rfl
  | some c =>
      change (if test c then _ else _) = _
      rw [refused c seen]
      rfl

theorem codePoint_matched {test : CodePoint → Bool} {c : CodePoint} (label : Text)
    (remains : src.Remains i (c :: rest)) (passes : test c = true) :
    codePoint test label src i = (pure (.matched (.text [c]) (i + 1 : Nat)) : Action σ Outcome) :=
  codePoint_seen label remains.getElem? passes

theorem codePoint_failed {test : CodePoint → Bool} (label : Text) (remains : src.Remains i rest)
    (refused : ∀ c, rest.head? = some c → test c = false) :
    codePoint test label src i = (pure (.failed label i) : Action σ Outcome) := by
  refine codePoint_refused label fun c seen => refused c ?_
  rwa [← remains.getElem?]

theorem string_matched (remains : src.Remains i rest) (stands : t <+: rest) :
    string t src i = (pure (.matched (.text t) (i + t.length : Nat)) : Action σ Outcome) :=
  if_pos (remains.standsAt_iff.mpr stands)

theorem string_failed (remains : src.Remains i rest) (differs : ¬ t <+: rest) :
    string t src i = (pure (.failed (Text.inQuotes t) i) : Action σ Outcome) :=
  if_neg (mt remains.standsAt_iff.mp differs)

theorem string_stands (filled : t ≠ []) (stands : t <+: src.drop i) :
    string t src i = (pure (.matched (.text t) (i + t.length : Nat)) : Action σ Outcome) :=
  if_pos ((Text.standsAt_iff_of_ne_nil filled src i).mpr stands)

theorem string_differs (filled : t ≠ []) (differs : ¬ t <+: src.drop i) :
    string t src i = (pure (.failed (Text.inQuotes t) i) : Action σ Outcome) :=
  if_neg (mt (Text.standsAt_iff_of_ne_nil filled src i).mp differs)

/-! Sequences and choices. -/

variable {p q : Matcher σ} {ps : List (Matcher σ)} {v w : Value} {values : List Value}
  {labels : List Text} {stop : Int} {f : Failure}

theorem stages_matched (first : p src pos = pure (.matched v stop)) :
    stages src (p :: ps) values pos = stages src ps (v :: values) stop := by
  rw [stages, first, pure_bind]
  rfl

theorem stages_failed (first : p src pos = pure (.failure f)) :
    stages src (p :: ps) values pos = pure (.failure f) := by
  rw [stages, first, pure_bind]

theorem alternatives_matched (first : p src pos = pure (.matched v stop)) :
    alternatives src pos (p :: ps) labels = pure (.matched v stop) := by
  rw [alternatives, first, pure_bind]
  rfl

theorem alternatives_failed (first : p src pos = pure (.failure f)) :
    alternatives src pos (p :: ps) labels = alternatives src pos ps (labels ++ f.expected) := by
  rw [alternatives, first, pure_bind]

theorem map_matched (inner : p src pos = pure (.matched v stop)) {fn : Value → Action σ Value}
    (called : fn v = pure w) : map p fn none src pos = pure (.matched w stop) := by
  unfold map
  rw [inner, pure_bind]
  change fn v >>= _ = _
  rw [called]
  rfl

theorem map_failed (inner : p src pos = pure (.failure f)) (fn : Value → Action σ Value) :
    map p fn none src pos = pure (.failure f) := by
  unfold map
  rw [inner, pure_bind]

theorem pick_matched {index : Int} {vs : List Value}
    (inner : p src pos = pure (.matched (.tuple vs) stop))
    (found : Value.item index (.tuple vs) = .ok w) :
    pick index p src pos = pure (.matched w stop) :=
  map_matched inner (by rw [found]; rfl)

theorem pick_failed (inner : p src pos = pure (.failure f)) (index : Int) :
    pick index p src pos = pure (.failure f) :=
  map_failed inner _

theorem after_eq (lead p : Matcher σ) (src : Text) (pos : Int) : after lead p src pos = (do
    match ← lead src pos with
    | .success r => p src r.pos
    | .failure f => return .failure f) := by
  unfold after pick map
  rw [seq, stages, bind_assoc]
  refine bind_congr fun r => ?_
  cases r with
  | failure f => rfl
  | success r =>
      dsimp only
      rw [stages, bind_assoc]
      conv => rhs; rw [← bind_pure (p src r.pos)]
      refine bind_congr fun r' => ?_
      cases r' with
      | failure f => rfl
      | success r' => rfl

/-- The matched lead does not show in the outcome. -/
theorem after_onward (lead : p src pos = pure (.matched v stop)) :
    after p q src pos = q src stop := by
  rw [after_eq, lead, pure_bind]
  rfl

theorem optional_eq (p : Matcher σ) (src : Text) (pos : Int) : optional p src pos = (do
    match ← p src pos with
    | .success r => return .success r
    | .failure _ => return .matched .none pos) := by
  unfold optional alt
  rw [alternatives]
  refine bind_congr fun r => ?_
  cases r with
  | failure f => rfl
  | success r => rfl

/-! Repetition. -/

theorem repeatFrom_next {fuel : Nat} (round : p src pos = pure (.matched v stop))
    (moved : stop ≠ pos) :
    repeatFrom p src (fuel + 1) values pos = repeatFrom p src fuel (v :: values) stop := by
  rw [repeatFrom, round, pure_bind]
  exact if_neg moved

theorem repeatFrom_failed {fuel : Nat} (round : p src pos = pure (.failure f)) :
    repeatFrom p src (fuel + 1) values pos = pure (.matched (.list values.reverse) pos) := by
  rw [repeatFrom, round, pure_bind]

/-! Looking ahead. -/

theorem except_matched (excluded : q src pos = pure (.matched (.text t) stop)) :
    except q p src pos = pure (.failed (Text.ofString "not " ++ Text.inQuotes t) pos) := by
  unfold except
  rw [excluded, pure_bind]
  rfl

theorem except_failed (allowed : q src pos = pure (.failure f)) :
    except q p src pos = p src pos := by
  unfold except
  rw [allowed, pure_bind]

/-! Failures. What they expect decides nothing, but that they expect something does. -/

/-- Comes to a failure at once. -/
def Fails (m : Action σ Outcome) : Prop :=
  ∃ label labels stop, m = pure (.failure ⟨label :: labels, stop⟩)

namespace Fails

theorem single (label : Text) (pos : Int) : Fails (pure (.failed label pos) : Action σ Outcome) :=
  ⟨label, [], pos, rfl⟩

theorem of_eq {m n : Action σ Outcome} (fails : Fails n) (same : m = n) : Fails m :=
  same ▸ fails

theorem stages (first : Fails (p src pos)) (ps : List (Matcher σ)) (values : List Value) :
    Fails (Matcher.stages src (p :: ps) values pos) := by
  obtain ⟨label, labels, stop, failed⟩ := first
  exact ⟨label, labels, stop, stages_failed failed⟩

theorem map (inner : Fails (p src pos)) (fn : Value → Action σ Value) :
    Fails (Matcher.map p fn none src pos) := by
  obtain ⟨label, labels, stop, failed⟩ := inner
  exact ⟨label, labels, stop, map_failed failed fn⟩

theorem pick (inner : Fails (p src pos)) (index : Int) : Fails (Matcher.pick index p src pos) :=
  inner.map _

theorem alternatives_here (each : ∀ p ∈ ps, Fails (p src pos)) (label : Text) (labels : List Text) :
    ∃ more, alternatives src pos ps (label :: labels) = pure (.failure ⟨label :: more, pos⟩) := by
  induction ps generalizing labels with
  | nil => exact ⟨_, rfl⟩
  | cons p ps ih =>
      obtain ⟨here, later⟩ := List.forall_mem_cons.mp each
      obtain ⟨_, _, _, failed⟩ := here
      rw [alternatives_failed failed]
      exact ih later _

/-- A choice fails where it is tried, wherever its alternatives do. -/
theorem alt_here (first : Fails (p src pos)) (later : ∀ p ∈ ps, Fails (p src pos)) :
    ∃ label labels, Matcher.alt (p :: ps) src pos = pure (.failure ⟨label :: labels, pos⟩) := by
  obtain ⟨label, labels, stop, failed⟩ := first
  rw [Matcher.alt, alternatives_failed failed]
  exact ⟨label, alternatives_here later label labels⟩

theorem alt (first : Fails (p src pos)) (later : ∀ p ∈ ps, Fails (p src pos)) :
    Fails (Matcher.alt (p :: ps) src pos) := by
  obtain ⟨label, labels, failed⟩ := first.alt_here later
  exact ⟨label, labels, pos, failed⟩

end Fails

/-! Parsing a text from its start. -/

theorem parse_matched {p : Matcher Store} {full : Bool} (inner : p src 0 = pure (.matched v stop))
    (reaches : full = true → stop = src.length) : parse full p src = pure (.ok v) := by
  have ended : (if full then eof p else p) src 0 = pure (.matched v stop) := by
    cases full with
    | false => exact inner
    | true =>
        rw [if_pos rfl, eof, inner, pure_bind]
        exact if_pos (reaches rfl)
  rw [parse, ended, pure_bind]
  rfl

end Descent.Matcher
