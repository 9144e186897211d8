import Descent.Proofs.Contract.General
import Descent.Proofs.Lookahead.Laws
import Descent.Proofs.Matcher.Stretch

/-!
Skipping blanks. A token is a match with the blanks behind it, so what follows a token is no blank,
and a token of a token is nothing new. Main statement: blanks are skipped up to the end of their
stretch, which is where blanks taken one by one end too.
-/

namespace Descent

open Text

namespace Matcher

variable {σ : Type}

/-- Blanks one by one, put together again. -/
def blanks (fuel : Nat) (label : Text) : Matcher σ :=
  mapText (many fuel (codePoint CodePoint.isBlank label)) Value.join

variable {p : Matcher σ} {src : Text} {pos : Int} {s t : σ} {v : Value} {r : Success}
  {start stop fuel : Nat}

theorem blanks_eq (label : Text) (stretch : src.Stretch CodePoint.isBlank start stop)
    (enough : stop - start < fuel) :
    blanks fuel label src start =
      (pure (.matched (.text (src.slice start stop)) stop) : Action σ Outcome) :=
  mapText_matched ((codePoint_takes _ label src).many stretch enough)
    (Value.concatenate_singles false _)

theorem token_run_matched (matched : (p src pos).run s = some (.ok (.matched v start), t))
    (stretch : src.Stretch CodePoint.isBlank start stop) :
    (token p src pos).run s = some (.ok (.matched v stop), t) := by
  rw [token, pick_first_eq, Action.run_bind, matched]
  change (whitespaces src start >>= _).run t = _
  rw [whitespaces_eq stretch]
  rfl

theorem token_run_unmatched (unmatched : ∀ r t, (p src pos).run s ≠ some (.ok (.success r), t)) :
    (token p src pos).run s = (p src pos).run s := by
  rw [token, pick_first_eq]
  cases ran : (p src pos).run s with
  | none => rw [Action.run_bind, ran]
  | some result =>
      obtain ⟨x, t⟩ := result
      refine Action.run_bind_unchanged ran fun r answered => ?_
      cases r with
      | failure f => rfl
      | success r =>
          subst answered
          exact absurd ran (unmatched r t)

/-- A token ends where a stretch of blanks ends, wherever its match does. -/
theorem exists_token_run (nonneg : 0 ≤ r.pos)
    (matched : (p src pos).run s = some (.ok (.success r), t)) :
    ∃ stop : Nat, src.Stretch CodePoint.isBlank r.pos.toNat stop ∧
      (token p src pos).run s = some (.ok (.matched r.value stop), t) := by
  obtain ⟨v, next⟩ := r
  obtain ⟨start, rfl⟩ := Int.eq_ofNat_of_zero_le nonneg
  obtain ⟨stop, stretch⟩ := exists_stretch CodePoint.isBlank src start
  exact ⟨stop, stretch, token_run_matched matched stretch⟩

section

variable (nonneg : ∀ r t, (p src pos).run s = some (.ok (.success r), t) → 0 ≤ r.pos)
include nonneg

theorem token_token_run : (token (token p) src pos).run s = (token p src pos).run s := by
  by_cases matched : ∃ r t, (p src pos).run s = some (.ok (.success r), t)
  · obtain ⟨r, t, ran⟩ := matched
    obtain ⟨stop, stretch, once⟩ := exists_token_run (nonneg r t ran) ran
    -- The outer token starts to skip where a stretch has ended, and so skips nothing.
    rw [token_run_matched once stretch.behind, once]
  · have once := token_run_unmatched fun r t ran => matched ⟨r, t, ran⟩
    refine token_run_unmatched fun r t ran => matched ⟨r, t, ?_⟩
    rwa [once] at ran

theorem no_blank_behind_token (ended : (token p src pos).run s = some (.ok (.success r), t))
    {c : CodePoint} (seen : src.lookAt r.pos = .ok (some c)) : c.isBlank = false := by
  by_cases matched : ∃ r t, (p src pos).run s = some (.ok (.success r), t)
  · obtain ⟨m, u, ran⟩ := matched
    obtain ⟨stop, stretch, once⟩ := exists_token_run (nonneg m u ran) ran
    cases once.symm.trans ended
    rw [lookAt_eq] at seen
    exact stretch.ends (Except.ok.inj seen)
  · rw [token_run_unmatched fun r t ran => matched ⟨r, t, ran⟩] at ended
    exact absurd ⟨r, t, ended⟩ matched

end

/-- At the end of the text and past it there is nothing to skip. -/
theorem blanks_skipped (src : Text) :
    (∀ start : Nat, ∃ stop, src.Stretch CodePoint.isBlank start stop ∧
      (src.length ≤ start → stop = start) ∧
      whitespaces src start =
        (pure (.matched (.text (src.slice start stop)) stop) : Action σ Outcome) ∧
      ∀ fuel label, src.length - start < fuel →
        blanks fuel label src start = (whitespaces src start : Action σ Outcome)) ∧
    ∀ (p : Matcher σ) (pos : Int) (s : σ),
      (∀ r t, (p src pos).run s = some (.ok (.success r), t) → 0 ≤ r.pos) →
      (∀ r t, (p src pos).run s = some (.ok (.success r), t) →
        ∃ stop : Nat, src.Stretch CodePoint.isBlank r.pos.toNat stop ∧
          (token p src pos).run s = some (.ok (.matched r.value stop), t)) ∧
      ((∀ r t, (p src pos).run s ≠ some (.ok (.success r), t)) →
        (token p src pos).run s = (p src pos).run s) ∧
      (token (token p) src pos).run s = (token p src pos).run s ∧
      ∀ r t, (token p src pos).run s = some (.ok (.success r), t) →
        ∀ c, src.lookAt r.pos = .ok (some c) → c.isBlank = false := by
  constructor
  · intro start
    obtain ⟨stop, stretch⟩ := exists_stretch CodePoint.isBlank src start
    have few := stretch.sub_le
    refine ⟨stop, stretch, stretch.eq_of_length_le, whitespaces_eq stretch, fun fuel label enough =>
      ?_⟩
    rw [blanks_eq label stretch (by omega), whitespaces_eq stretch]
  · intro p pos s nonneg
    exact ⟨fun r t ran => exists_token_run (nonneg r t ran) ran, token_run_unmatched,
      token_token_run nonneg, fun _ _ ended _ => no_blank_behind_token nonneg ended⟩

/-- The second blank is one that does not separate words in source text. -/
theorem blanks_skipped_remembered :
    let p : Matcher Store := Parser.run 1 (.memoize 0 false (.char 'a'))
    let src : Text := ['a', ' ', '\u00a0', 'b']
    let after : Store := { Store.empty with outcomes := [((0, 0), .matched (.text ['a']) 1)] }
    blanks 4 [] src 1 = (pure (.matched (.text [' ', '\u00a0']) 3) : Action Store Outcome) ∧
      (token p src 0).run .empty = some (.ok (.matched (.text ['a']) 3), after) ∧
      (token (token p) src 0).run .empty = (token p src 0).run .empty ∧
      (∀ c, src.lookAt 3 = .ok (some c) → c.isBlank = false) ∧
      (token p src 1).run .empty = (p src 1).run .empty := by
  intro p src after
  have first : (p src 0).run .empty = some (.ok (.matched (.text ['a']) 1), after) := rfl
  have refused : (p src 1).run .empty = some (.ok (.failed (Text.inQuotes ['a']) 1),
    { Store.empty with outcomes := [((0, 1), .failed (Text.inQuotes ['a']) 1)] }) := rfl
  obtain ⟨skipped, tokens⟩ := blanks_skipped (σ := Store) src
  have nonneg (r : Success) (t : Store) (ran : (p src 0).run .empty = some (.ok (.success r), t)) :
      0 ≤ r.pos := by
    cases first.symm.trans ran
    decide
  have unmatched (r : Success) (t : Store) : (p src 1).run .empty ≠ some (.ok (.success r), t) :=
    fun ran => nomatch refused.symm.trans ran
  obtain ⟨-, -, again, followed⟩ := tokens p 0 .empty nonneg
  obtain ⟨-, failed, -⟩ := tokens p 1 .empty fun r t ran => absurd ran (unmatched r t)
  obtain ⟨stop, -, -, -, together⟩ := skipped 1
  exact ⟨together 4 [] (by decide), rfl, again, fun c => followed _ after rfl c, failed unmatched⟩

end Matcher

/-! The same of parsers that are built. -/

theorem Grammar.parser_token (g : Grammar) :
    g.token.parser = do
      return .map (.seq [← g.parser, .whitespaces]) (.silent (Value.item 0)) none := by
  simp only [parser, token, pick, build, buildAll, bind_assoc, pure_bind]
  refine bind_congr fun a => ?_
  cases a with
  | parser p => rfl
  | other v =>
      simp only [Argument.toParsers, Argument.toParser]
      cases v.describe <;> rfl

namespace Parser

theorem run_token (fuel : Nat) (p : Parser) :
    run fuel (.map (.seq [p, .whitespaces]) (.silent (Value.item 0)) none) =
      Matcher.token (run fuel p) := by
  cases fuel with
  | zero => rfl
  | succ fuel => rfl

end Parser

namespace Request

theorem perform_run_token (fuel : Nat) (g : Grammar) (src : Text) (pos : Int) :
    (run g.token src pos).perform fuel = do
      let p ← g.parser
      return .outcome (← Matcher.token (p.run fuel) src pos) := by
  simp only [perform, Grammar.parser_token, bind_assoc, pure_bind, Parser.run_token]

theorem perform_run_blanks (fuel : Nat) (label src : Text) (pos : Int) :
    (run (.mapText (.many (.codePoint CodePoint.isBlank label)) Value.join) src pos).perform fuel =
      do return .outcome (← Matcher.blanks fuel label src pos) := by
  cases fuel <;> rfl

end Request

end Descent
