import Descent.Proofs.Conduct.Basic

/-!
Matchers that keep to a conduct. Each way to put matchers together keeps to it if the parts do.
-/

namespace Descent.Matcher

variable {C : Conduct} {src : Text} {pos : Int}

/-! Matchers that look at the text themselves. -/

theorem satisfy_keeps (label : Text) {test : CodePoint → Action Store Bool}
    (called : ∀ c, C.Holds (test c) fun _ => True) : C.Keeps (satisfy label test) := by
  intro src reads pos
  refine (Conduct.Holds.library (src.lookAt_faults pos)).bind fun seen found => ?_
  cases seen with
  | none => exact .pure (.single label pos)
  | some c =>
      refine (called c).bind fun passes _ => ?_
      split
      · exact .pure (.matched _ (C.next reads found))
      · exact .pure (.single label pos)

theorem char_keeps (c : CodePoint) : C.Keeps (char c) :=
  satisfy_keeps _ fun _ => .pure True.intro

theorem string_keeps (t : Text) : C.Keeps (string t) := by
  intro src reads pos
  unfold string
  split
  next stands => exact .pure (.matched _ (C.skip reads stands))
  next => exact .pure (.single _ pos)

theorem regex_keeps (r : Regex) : C.Keeps (regex r) := by
  intro src reads pos
  unfold regex
  cases found : r.endOf? src (min pos.toNat src.length) with
  | none =>
      simp only [found]
      exact .pure (.single _ pos)
  | some stop =>
      simp only [found]
      exact .pure (.matched _ (C.find reads found))

theorem blanksEnd_reaches (reads : C.Reads src) (left : Nat) (pos : Int) :
    Ensures (C.Reaches pos) (blanksEnd src left pos) := by
  induction left generalizing pos with
  | zero => exact .pure (C.here pos)
  | succ left ih =>
      intro stop equal
      unfold blanksEnd at equal
      cases seen : src.lookAt pos with
      | error e => rw [seen] at equal; cases equal
      | ok found =>
          rw [seen] at equal
          cases found with
          | none => cases equal; exact C.here pos
          | some c =>
              change (if c.isBlank then _ else _) = _ at equal
              split at equal
              · exact C.onward (C.next reads seen) (ih (pos + 1) stop equal)
              · cases equal
                exact C.here pos

theorem whitespaces_keeps : C.Keeps whitespaces := by
  intro src reads pos
  have ended :
      C.Holds (Action.ofExcept (blanksEnd src (src.length - pos).toNat pos)) (C.Reaches pos) :=
    .ofExcept (blanksEnd_reaches reads _ pos)
      ((blanksEnd_faults src _ pos).mono fun _ => C.ordinary)
  exact ended.bind fun stop reach => .pure (.matched _ reach)

theorem succeed_keeps (v : Value) : C.Keeps (succeed v) :=
  fun _ _ pos => .pure (.matched v (C.here pos))

theorem fail_keeps (message : Text) : C.Keeps (fail message) :=
  fun _ _ pos => .pure (.single message pos)

theorem custom_keeps {verdict : Text → Int → Except Fault Verdict} (states : C.States verdict) :
    C.Keeps (custom verdict) := by
  intro src reads pos
  have stated : C.Holds (Action.ofExcept (verdict src pos)) fun v => verdict src pos = .ok v :=
    .ofExcept (fun _ equal => equal) (states.faults reads pos)
  refine stated.bind fun v equal => ?_
  cases v with
  | success value stop => exact .pure (.matched value (states.success reads equal))
  | failure labels stop =>
      obtain ⟨reach, missing⟩ := states.failure reads equal
      refine .ofExcept ?_ ?_
      · refine (Failure.ofLabels_ensures labels stop).bind fun f made => .pure ?_
        exact .failure made.1 (made.2 ▸ reach)
      · refine .bind ((Failure.ofLabels_faults labels stop).mono fun e why => ?_) fun _ => .pure _
        rw [why.2]
        exact missing why.1

/-! Sequences, functions on values and choices. -/

theorem continueWith_holds (reads : C.Reads src) {fns : List (Value → Action Store (Matcher Store))}
    (each : ∀ fn ∈ fns, ∀ v, C.Holds (fn v) C.Keeps) {r : Outcome} (fits : C.Fits pos r) :
    C.Holds (continueWith src fns r) (C.Fits pos) := by
  induction fns generalizing r with
  | nil => exact .pure fits
  | cons fn fns ih =>
      cases r with
      | failure f => exact .pure fits
      | success r =>
          cases fits with
          | success reach =>
              refine (each fn (by simp) r.value).bind fun next keeps => ?_
              refine (keeps src reads r.pos).bind fun answer later => ?_
              exact ih (fun other member => each other (by simp [member])) (later.later reach)

theorem andThen_keeps {p : Matcher Store} {fns : List (Value → Action Store (Matcher Store))}
    (inner : C.Keeps p) (each : ∀ fn ∈ fns, ∀ v, C.Holds (fn v) C.Keeps) :
    C.Keeps (andThen p fns) :=
  fun src reads pos => (inner src reads pos).bind fun _ fits => continueWith_holds reads each fits

theorem stages_holds (reads : C.Reads src) {ps : List (Matcher Store)} (each : ∀ p ∈ ps, C.Keeps p)
    (values : List Value) {stop : Int} (reach : C.Reaches pos stop) :
    C.Holds (stages src ps values stop) (C.Fits pos) := by
  induction ps generalizing values stop with
  | nil => exact .pure (.matched _ reach)
  | cons p ps ih =>
      refine (each p (by simp) src reads stop).bind fun r fits => ?_
      cases fits with
      | success further =>
          exact ih (fun q member => each q (by simp [member])) _ (C.onward reach further)
      | failure wellFormed further => exact .pure (.failure wellFormed (C.onward reach further))

theorem seq_keeps {ps : List (Matcher Store)} (each : ∀ p ∈ ps, C.Keeps p) : C.Keeps (seq ps) :=
  fun _ reads pos => stages_holds reads each [] (C.here pos)

theorem map_keeps {p : Matcher Store} {fn : Value → Action Store Value}
    {validate : Option (Value → Action Store Bool)} (inner : C.Keeps p)
    (called : ∀ v, C.Holds (fn v) fun _ => True)
    (tested : ∀ test ∈ validate, ∀ v, C.Holds (test v) fun _ => True) :
    C.Keeps (map p fn validate) := by
  intro src reads pos
  refine (inner src reads pos).bind fun r fits => ?_
  cases fits with
  | failure wellFormed reach => exact .pure (.failure wellFormed reach)
  | @success r reach =>
      have applied (valid : Bool) :
          C.Holds (if valid then do return .success (r.withValue (← fn r.value))
          else return .failed (Text.ofString "validated value") pos) (C.Fits pos) := by
        cases valid with
        | true => exact (called r.value).bind fun _ _ => .pure (.success reach)
        | false => exact .pure (.single _ pos)
      cases validate with
      | none => exact applied true
      | some test => exact (tested test rfl r.value).bind fun valid _ => applied valid

theorem after_keeps {lead p : Matcher Store} (first : C.Keeps lead) (second : C.Keeps p) :
    C.Keeps (after lead p) := by
  have row : C.Keeps (seq [lead, p]) := seq_keeps (by simp [first, second])
  have chosen (v : Value) : C.Holds (Action.ofExcept (v.item 1)) fun _ => True :=
    (Conduct.Holds.library (v.item_faults 1)).mono fun _ _ => True.intro
  unfold after pick
  exact map_keeps row chosen nofun

theorem alternatives_holds (reads : C.Reads src) {ps : List (Matcher Store)}
    (each : ∀ p ∈ ps, C.Keeps p) {labels : List Text} (expects : labels ≠ [] ∨ ps ≠ []) :
    C.Holds (alternatives src pos ps labels) (C.Fits pos) := by
  induction ps generalizing labels with
  | nil =>
      have some : labels ≠ [] := expects.resolve_right fun absurd => absurd rfl
      have made : C.Holds (Action.ofExcept (Failure.ofLabels labels pos)) fun f =>
          f.WellFormed ∧ f.pos = pos :=
        .ofExcept (Failure.ofLabels_ensures labels pos)
          ((Failure.ofLabels_faults labels pos).mono fun _ why => absurd why.1 some)
      exact made.bind fun f fits => .pure (.failure fits.1 (fits.2.symm ▸ C.here pos))
  | cons p ps ih =>
      refine (each p (by simp) src reads pos).bind fun r fits => ?_
      cases fits with
      | success reach => exact .pure (.success reach)
      | failure wellFormed _ =>
          -- What this alternative expected is expected from now on.
          exact ih (fun q member => each q (by simp [member]))
            (.inl (by simp [wellFormed.nonempty]))

theorem alt_keeps {ps : List (Matcher Store)} (some : ps ≠ []) (each : ∀ p ∈ ps, C.Keeps p) :
    C.Keeps (alt ps) :=
  fun _ reads _ => alternatives_holds reads each (.inr some)

/-! Repetition. -/

theorem repeatFrom_holds (reads : C.Reads src) {p : Matcher Store} (inner : C.Keeps p) (fuel : Nat)
    (values : List Value) {stop : Int} (reach : C.Reaches pos stop) :
    C.Holds (repeatFrom p src fuel values stop) (C.Fits pos) := by
  induction fuel generalizing values stop with
  | zero => exact .exhausted
  | succ fuel ih =>
      refine (inner src reads stop).bind fun r fits => ?_
      cases fits with
      | failure _ _ => exact .pure (.matched _ reach)
      | success further =>
          dsimp only
          split
          · exact .pure (.matched _ reach)
          · exact ih _ (C.onward reach further)

theorem many_keeps (fuel : Nat) {p : Matcher Store} (inner : C.Keeps p) : C.Keeps (many fuel p) :=
  fun _ reads pos => repeatFrom_holds reads inner fuel [] (C.here pos)

theorem chain_keeps (fuel : Nat) {first rest : Matcher Store} (lead : C.Keeps first)
    (others : C.Keeps rest) : C.Keeps (chain fuel first rest) := by
  intro src reads pos
  refine (lead src reads pos).bind fun r fits => ?_
  cases fits with
  | failure wellFormed reach => exact .pure (.failure wellFormed reach)
  | success reach => exact repeatFrom_holds reads others fuel _ reach

theorem upToFrom_holds (reads : C.Reads src) {mark p : Matcher Store} (ends : C.Keeps mark)
    (inner : C.Keeps p) (fuel : Nat) (values : List Value) {stop : Int}
    (reach : C.Reaches pos stop) :
    C.Holds (upToFrom mark p src fuel values stop) (C.Fits pos) := by
  induction fuel generalizing values stop with
  | zero => exact .exhausted
  | succ fuel ih =>
      refine (ends src reads stop).bind fun mark fits => ?_
      cases fits with
      | success _ => exact .pure (.matched _ reach)
      | failure _ _ =>
          refine (inner src reads stop).bind fun r fits => ?_
          cases fits with
          | failure wellFormed further => exact .pure (.failure wellFormed (C.onward reach further))
          | success further =>
              dsimp only
              split
              · exact .pure (.matched _ reach)
              · exact ih _ (C.onward reach further)

theorem upTo_keeps (fuel : Nat) {mark p : Matcher Store} (ends : C.Keeps mark) (inner : C.Keeps p) :
    C.Keeps (upTo fuel mark p) :=
  fun _ reads pos => upToFrom_holds reads ends inner fuel [] (C.here pos)

/-! Looking ahead. -/

private theorem unwanted_holds (v : Value) :
    C.Holds (do return Outcome.failed (← unwanted v) pos) (C.Fits pos) :=
  (Conduct.Holds.library (unwanted_faults v)).bind fun label _ => .pure (.single label pos)

theorem not_keeps {p : Matcher Store} (inner : C.Keeps p) : C.Keeps (not p) := by
  intro src reads pos
  refine (inner src reads pos).bind fun r fits => ?_
  cases fits with
  | success _ => exact unwanted_holds _
  | failure _ _ => exact .pure (.matched _ (C.here pos))

theorem except_keeps {exclusion p : Matcher Store} (excluded : C.Keeps exclusion)
    (inner : C.Keeps p) :
    C.Keeps (except exclusion p) := by
  intro src reads pos
  refine (excluded src reads pos).bind fun r fits => ?_
  cases fits with
  | success _ => exact unwanted_holds _
  | failure _ _ => exact inner src reads pos

theorem peek_keeps {p : Matcher Store} (inner : C.Keeps p) : C.Keeps (peek p) := by
  intro src reads pos
  refine (inner src reads pos).bind fun r fits => ?_
  cases fits with
  | success _ => exact .pure (.success (C.here pos))
  | failure wellFormed reach => exact .pure (.failure wellFormed reach)

theorem eof_keeps {p : Matcher Store} (inner : C.Keeps p) : C.Keeps (eof p) := by
  intro src reads pos
  refine (inner src reads pos).bind fun r fits => ?_
  cases fits with
  | failure wellFormed reach => exact .pure (.failure wellFormed reach)
  | @success r reach =>
      dsimp only
      split
      · exact .pure (.success reach)
      · exact .pure ((Conduct.Fits.single _ r.pos).later reach)

/-! Matchers that use the store. -/

theorem relabel_holds {p : Matcher Store} (inner : C.Holds (p src pos) (C.Fits pos))
    (label : Text) :
    C.Holds (relabel label p src pos) (C.Fits pos) := by
  refine inner.bind fun r fits => ?_
  cases fits with
  | success reach => exact .pure (.success reach)
  | failure wellFormed reach =>
      refine .pure ?_
      split
      · exact .single label pos
      · exact .failure wellFormed reach

theorem named_keeps (label : Text) (trace : Bool) {p : Matcher Store} (inner : C.Keeps p) :
    C.Keeps (named label trace p) := by
  intro src reads pos
  rw [named_eq]
  exact (Conduct.Holds.writeIf trace _).bind fun _ _ => relabel_holds (inner src reads pos) label

theorem memoize_keeps (cell : Nat) (trace : Bool) (name? : Option Text) {p : Matcher Store}
    (inner : C.Keeps p) : C.Keeps (memoize cell trace name? p) := by
  intro src reads pos s sound x t run
  have turns : C.Turns s t :=
    C.memoize (fun y u ran => (inner src reads pos s sound y u ran).2.1) run
  suffices answered : C.Sound t ∧ Ensures (C.Fits pos) x ∧ Faults C.Allows x from
    ⟨answered.1, turns, answered.2⟩
  rw [memoize_eq, Action.run_bind, Action.run_state] at run
  cases found : s.outcomeAt? cell pos with
  | some r =>
      simp only [found, Action.run_bind, Action.run_writeIf] at run
      cases run
      exact ⟨sound.congr rfl rfl rfl, .pure (sound.remembered found), .pure r⟩
  | none =>
      simp only [found] at run
      rcases Action.run_bind_eq_some.mp run with ⟨e, failed, rfl⟩ | ⟨r, u, answered, kept⟩
      · obtain ⟨left, -, -, faults⟩ := inner src reads pos s sound _ t failed
        exact ⟨left, .error e, .error (faults e rfl)⟩
      · obtain ⟨left, -, ensures, -⟩ := inner src reads pos s sound _ u answered
        cases kept
        exact ⟨left.remember cell (ensures r rfl), .pure (ensures r rfl), .pure r⟩

theorem probe_keeps (event : Text) {p : Matcher Store} (inner : C.Keeps p) :
    C.Keeps (probe event p) :=
  fun src reads pos => (Conduct.Holds.record _).bind fun _ _ => inner src reads pos

theorem lazy_keeps (cell : Nat) {factory : Action Store Parser} {run : Parser → Matcher Store}
    (built : C.Holds factory (Parser.All C.Orderly))
    (later : ∀ p, p.All C.Orderly → C.Keeps (run p)) :
    C.Keeps (lazy cell factory run) := by
  intro src reads pos
  refine Conduct.Holds.state.bind fun s sound => ?_
  cases found : s.target? cell with
  | some p => exact later p (sound.target found) src reads pos
  | none =>
      refine built.bind fun p orderly => .bind (.modify ?_ ?_)
        fun _ _ => later p orderly src reads pos
      · exact fun _ sound => sound.keepTarget cell orderly
      · exact fun _ => C.quiet (Nat.le_refl _) rfl

end Descent.Matcher
