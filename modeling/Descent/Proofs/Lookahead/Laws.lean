import Descent.Proofs.Labels.Indifference
import Descent.Proofs.Nesting.Factoring
import Descent.Proofs.Quoted.Matchers
import Descent.Proofs.Repetition.Until

/-!
The laws of looking ahead. A look ahead keeps the position and drops or keeps the value, so one look
ahead in another is as good as a single one, and what is excluded may as well be looked for first.
Main statement: each law is an equation, or one up to what is expected.
-/

namespace Descent

namespace Matcher

variable {σ : Type}

/-- What it has matched once it matches again, whatever the first run has left behind. -/
def Repeats (p : Matcher σ) (src : Text) (pos : Int) (s : σ) : Prop :=
  ∀ ⦃r : Success⦄ ⦃t : σ⦄, (p src pos).run s = some (.ok (.success r), t) →
    ∃ u, (p src pos).run t = some (.ok (.success r), u)

/-- Answers with the value twice. -/
def twice (p : Matcher σ) : Matcher σ :=
  map p (fun v => return .tuple [v, v]) none

/-! One look ahead in another. -/

theorem except_eq_after (x p : Matcher σ) : except x p = after (not x) p := by
  funext src pos
  rw [after_eq]
  unfold except not
  rw [bind_assoc]
  refine bind_congr fun r => ?_
  cases r with
  | failure f => rfl
  | success r => simp only [bind_assoc, pure_bind, Outcome.failed]

theorem not_peek (p : Matcher σ) : not (peek p) = not p := by
  funext src pos
  unfold not peek
  rw [bind_assoc]
  refine bind_congr fun r => ?_
  cases r with
  | failure f => rfl
  | success r => rfl

theorem peek_peek (p : Matcher σ) : peek (peek p) = peek p := by
  funext src pos
  unfold peek
  rw [bind_assoc]
  refine bind_congr fun r => ?_
  cases r with
  | failure f => rfl
  | success r => rfl

/-- Where `p` fails, no value is there that the outer look ahead could show. -/
theorem not_not_eq (p : Matcher σ) (src : Text) (pos : Int) : not (not p) src pos = (do
    match ← p src pos with
    | .success r => do
      let _ ← Action.ofExcept (unwanted r.value)
      return .matched .none pos
    | .failure _ => return .failed (Text.ofString "not 'None'") pos) := by
  unfold not
  rw [bind_assoc]
  refine bind_congr fun r => ?_
  cases r with
  | failure f => rfl
  | success r =>
      rw [bind_assoc]
      rfl

variable {p : Matcher σ} {src : Text} {pos : Int} {i : Nat} {s t u : σ} {x : Except Fault Outcome}
  {r : Success}

theorem not_not_run_eq_some
    (shows : ∀ r u, (p src pos).run s = some (.ok (.success r), u) →
      ∃ shown, r.value.display = .ok shown)
    {m : Success} : (not (not p) src pos).run s = some (.ok (.success m), t) ↔
      m = ⟨.none, pos⟩ ∧ ∃ r, (p src pos).run s = some (.ok (.success r), t) := by
  rw [not_not_eq]
  constructor
  · intro ran
    rcases Action.run_bind_eq_some.mp ran with ⟨e, -, ⟨⟩⟩ | ⟨outcome, u, first, continued⟩
    cases outcome with
    | failure f => cases continued
    | success r =>
        rcases Action.run_bind_eq_some.mp continued with ⟨e, -, ⟨⟩⟩ | ⟨label, w, labelled, ended⟩
        have same :=
          Option.some.inj ((Action.run_ofExcept (unwanted r.value) u).symm.trans labelled)
        obtain ⟨-, rfl⟩ := Prod.mk.inj same
        cases ended
        exact ⟨rfl, r, first⟩
  · rintro ⟨rfl, r, first⟩
    obtain ⟨shown, displayed⟩ := shows r t first
    have label : unwanted r.value = .ok (Text.ofString "not " ++ Text.inQuotes shown) := by
      rw [unwanted, displayed]
      rfl
    rw [Action.run_bind, first]
    dsimp only
    rw [label]
    rfl

/-! Looking ahead and then matching. -/

theorem peek_run_matched (matched : (p src pos).run s = some (.ok (.success r), t)) :
    (peek p src pos).run s = some (.ok (.matched r.value pos), t) := by
  unfold peek
  rw [Action.run_bind, matched]
  rfl

theorem peek_run_answered (answered : (p src pos).run s = some (x, t))
    (decides : ∀ r, x ≠ .ok (.success r)) :
    (peek p src pos).run s = some (x, t) := by
  refine Action.run_bind_unchanged answered fun r equal => ?_
  cases r with
  | success r => exact absurd equal (decides r)
  | failure f => rfl

theorem twice_run_matched (matched : (p src pos).run s = some (.ok (.success r), t)) :
    (twice p src pos).run s = some (.ok (.matched (.tuple [r.value, r.value]) r.pos), t) := by
  unfold twice map
  rw [Action.run_bind, matched]
  rfl

theorem twice_run_answered (answered : (p src pos).run s = some (x, t))
    (decides : ∀ r, x ≠ .ok (.success r)) :
    (twice p src pos).run s = some (x, t) := by
  refine Action.run_bind_unchanged answered fun r equal => ?_
  cases r with
  | success r => exact absurd equal (decides r)
  | failure f => rfl

theorem seq_peek_run_matched (ahead : (p src pos).run s = some (.ok (.success r), t))
    (again : (p src pos).run t = some (.ok (.success r), u)) :
    (seq [peek p, p] src pos).run s =
      some (.ok (.matched (.tuple [r.value, r.value]) r.pos), u) := by
  rw [seq_run_matched (peek_run_matched ahead), Action.run_map, again]
  rfl

theorem seq_peek_run_unmatched (unmatched : ∀ r t, (p src pos).run s ≠ some (.ok (.success r), t)) :
    (seq [peek p, p] src pos).run s = (twice p src pos).run s := by
  cases ran : (p src pos).run s with
  | none =>
      have ahead : (peek p src pos).run s = none := by
        unfold peek
        rw [Action.run_bind, ran]
      rw [seq, stages_run_endless ahead]
      unfold twice map
      rw [Action.run_bind, ran]
  | some result =>
      obtain ⟨x, t⟩ := result
      have decides (r : Success) : x ≠ .ok (.success r) := by
        rintro rfl
        exact unmatched r t ran
      rw [seq, stages_run_answered (peek_run_answered ran decides) decides,
        twice_run_answered ran decides]

/-- The second run may change the state further, but what it answers is what was seen ahead. -/
theorem seq_peek_run_iff (repeats : p.Repeats src pos s) :
    (∃ t, (seq [peek p, p] src pos).run s = some (x, t)) ↔
      ∃ t, (twice p src pos).run s = some (x, t) := by
  by_cases matched : ∃ r t, (p src pos).run s = some (.ok (.success r), t)
  · obtain ⟨r, t, ahead⟩ := matched
    obtain ⟨u, again⟩ := repeats ahead
    rw [seq_peek_run_matched ahead again, twice_run_matched ahead]
    simp
  · rw [seq_peek_run_unmatched fun r t ran => matched ⟨r, t, ran⟩]

theorem seq_peek_of_quiet (quiet : p.Quiet src) (pos : Int) :
    seq [peek p, p] src pos = twice p src pos := by
  refine Action.ext fun s => ?_
  by_cases matched : ∃ r t, (p src pos).run s = some (.ok (.success r), t)
  · obtain ⟨r, t, ahead⟩ := matched
    obtain rfl := quiet ahead
    rw [seq_peek_run_matched ahead ahead, twice_run_matched ahead]
  · exact seq_peek_run_unmatched fun r t ran => matched ⟨r, t, ran⟩

/-! The end of the text. -/

theorem not_anyChar_matched (remains : src.Remains i []) :
    not anyChar src i = (pure (.matched .none i) : Action σ Outcome) := by
  obtain ⟨_, _, _, ended⟩ : Fails (anyChar src i : Action σ Outcome) := anyChar_fails remains
  unfold not
  rw [ended, pure_bind]

theorem not_anyChar_failed {c : CodePoint} {rest : Text} (remains : src.Remains i (c :: rest)) :
    not anyChar src i =
      (pure (.failed (Text.ofString "not " ++ Text.inQuotes [c]) i) : Action σ Outcome) := by
  unfold not
  rw [anyChar_matched remains, pure_bind]
  rfl

theorem pick_first_eq (p q : Matcher σ) (src : Text) (pos : Int) : pick 0 (seq [p, q]) src pos = (do
    match ← p src pos with
    | .success r => do
      match ← q src r.pos with
      | .success next => return .matched r.value next.pos
      | .failure f => return .failure f
    | .failure f => return .failure f) := by
  unfold pick map
  rw [seq, stages, bind_assoc]
  refine bind_congr fun r => ?_
  cases r with
  | failure f => rfl
  | success r =>
      dsimp only
      rw [stages, bind_assoc]
      refine bind_congr fun next => ?_
      cases next with
      | failure f => rfl
      | success next => rfl

/-- Nothing follows where the text ends. -/
theorem eof_run_eq
    (inside : ∀ r t, (p src pos).run s = some (.ok (.success r), t) → 0 ≤ r.pos ∧
      r.pos ≤ src.length) :
    (Outcome.unlabelled <$> eof p src pos).run s =
      (Outcome.unlabelled <$> pick 0 (seq [p, not anyChar]) src pos).run s := by
  rw [pick_first_eq, eof, map_bind, map_bind]
  refine Action.run_bind_congr fun r t ran => ?_
  cases r with
  | failure f => rfl
  | success r =>
      obtain ⟨v, next⟩ := r
      obtain ⟨nonneg, within⟩ := inside _ t ran
      obtain ⟨i, rfl⟩ := Int.eq_ofNat_of_zero_le nonneg
      dsimp only at within ⊢
      have remains : src.Remains i (src.drop i) := ⟨by omega, rfl⟩
      cases rest : src.drop i with
      | nil =>
          have ended : (i : Int) = src.length := by
            have := List.drop_eq_nil_iff.mp rest
            omega
          rw [rest] at remains
          rw [not_anyChar_matched remains, if_pos ended]
          rfl
      | cons c more =>
          have short : (i : Int) ≠ src.length := by
            have := congrArg List.length rest
            rw [List.length_drop, List.length_cons] at this
            omega
          rw [rest] at remains
          rw [not_anyChar_failed remains, if_neg short]
          rfl

/-- Equal matchers answer the same from every state and leave the same one behind, so they run their
parts in the same order too. -/
theorem lookahead_laws (x p : Matcher σ) (src : Text) (pos : Int) :
    except x p = after (not x) p ∧
    (∀ s, (∀ r u, (p src pos).run s = some (.ok (.success r), u) →
      ∃ shown, r.value.display = .ok shown) →
      ∀ m t, (not (not p) src pos).run s = some (.ok (.success m), t) ↔
        m = ⟨.none, pos⟩ ∧ ∃ r, (p src pos).run s = some (.ok (.success r), t)) ∧
    not (peek p) = not p ∧
    peek (peek p) = peek p ∧
    (∀ s, p.Repeats src pos s → ∀ y,
      (∃ t, (seq [peek p, p] src pos).run s = some (y, t)) ↔
        ∃ t, (twice p src pos).run s = some (y, t)) ∧
    (p.Quiet src → seq [peek p, p] src pos = twice p src pos) ∧
    ∀ s, (∀ r t, (p src pos).run s = some (.ok (.success r), t) → 0 ≤ r.pos ∧ r.pos ≤ src.length) →
      (Outcome.unlabelled <$> eof p src pos).run s =
        (Outcome.unlabelled <$> pick 0 (seq [p, not anyChar]) src pos).run s :=
  ⟨except_eq_after x p, fun _ shows _ _ => not_not_run_eq_some shows, not_peek p, peek_peek p,
    fun _ repeats _ => seq_peek_run_iff repeats, fun quiet => seq_peek_of_quiet quiet pos,
    fun _ inside => eof_run_eq inside⟩

end Matcher

/-! The same of parsers that are built. -/

namespace Parser

theorem run_except (fuel : Nat) (x p : Parser) :
    run fuel (.except x p) = run fuel (.map (.seq [.not x, p]) (.silent (Value.item 1)) none) := by
  rw [run_after]
  cases fuel with
  | zero => exact Matcher.except_eq_after _ _
  | succ fuel => exact Matcher.except_eq_after _ _

theorem run_not_peek (fuel : Nat) (p : Parser) : run fuel (.not (.peek p)) = run fuel (.not p) := by
  cases fuel with
  | zero => exact Matcher.not_peek _
  | succ fuel => exact Matcher.not_peek _

theorem run_peek_peek (fuel : Nat) (p : Parser) :
    run fuel (.peek (.peek p)) = run fuel (.peek p) := by
  cases fuel with
  | zero => exact Matcher.peek_peek _
  | succ fuel => exact Matcher.peek_peek _

end Parser

namespace Matcher

/-- The first run is remembered, and the second one is answered from memory. -/
theorem lookahead_laws_remembered :
    let p : Matcher Store := Parser.run 3 (.memoize 0 false (.many (.char 'a')))
    let letters : Value := .list [.text ['a'], .text ['a']]
    let after : Store := { Store.empty with outcomes := [((0, 0), .matched letters 2)] }
    (not (not p) ['a', 'a', 'b'] 0).run .empty = some (.ok (.matched .none 0), after) ∧
      (∃ t, (seq [peek p, p] ['a', 'a', 'b'] 0).run .empty =
        some (.ok (.matched (.tuple [letters, letters]) 2), t)) ∧
      seq [peek (string ['a']), string ['a']] ['a'] 0 =
        (twice (string ['a']) ['a'] 0 : Action Store Outcome) ∧
      (Outcome.unlabelled <$> pick 0 (seq [p, not anyChar]) ['a', 'a', 'b'] 0).run .empty =
        some (.ok (.failure ⟨[], 2⟩), after) := by
  intro p letters after
  have first : (p ['a', 'a', 'b'] 0).run .empty = some (.ok (.matched letters 2), after) := rfl
  have again : (p ['a', 'a', 'b'] 0).run after = some (.ok (.matched letters 2), after) := rfl
  obtain ⟨-, doubly, -, -, repeated, -, ended⟩ := lookahead_laws p p ['a', 'a', 'b'] 0
  obtain ⟨-, -, -, -, -, quietly, -⟩ :=
    lookahead_laws (σ := Store) (char 'a') (string ['a']) ['a'] 0
  refine ⟨?_, ?_, ?_, ?_⟩
  · refine (doubly .empty ?_ _ after).mpr ⟨rfl, _, first⟩
    intro r u ran
    cases first.symm.trans ran
    exact ⟨_, rfl⟩
  · refine (repeated .empty ?_ _).mpr ⟨after, rfl⟩
    intro r t ran
    cases first.symm.trans ran
    exact ⟨after, again⟩
  · exact quietly (string_quiet _ _)
  · rw [← ended .empty]
    · rfl
    · intro r t ran
      cases first.symm.trans ran
      decide

end Matcher

end Descent
