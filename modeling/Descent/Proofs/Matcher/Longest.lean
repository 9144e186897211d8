import Descent.Proofs.Contract.General
import Descent.Proofs.Quoted.Matchers
import Descent.Proofs.Text.Longest

/-!
Matchers that read a language: they match the longest word of it that stands at their position, and
fail where none does. Main statements: a row of such matchers whose parts are joined reads the
product of their languages, and an ordered choice reads the sum, if no two of them can match in one
place.
-/

namespace Descent

open Text

namespace Matcher

variable {σ : Type}

def joined (p : Matcher σ) : Matcher σ :=
  mapText p Value.joinPresent

/-- Matches the longest word that there is, with a value that spells it. -/
inductive Scans (L : Language CodePoint) (rest : Text) (i : Nat) (m : Action σ Outcome) : Prop
  | matched {t : Text} {v : Value} (longest : Longest L rest t) (piece : v.IsPiece)
      (spelled : v.spelling = t)
      (answers : m = pure (.matched v (i + t.length : Nat)))
  | failed (absent : Absent L rest) (fails : Fails m)

def Reads (L : Language CodePoint) (fuel : Nat) (src : Text) (p : Matcher σ) : Prop :=
  ∀ i rest, src.Remains i rest → rest.length < fuel → Scans L rest i (p src i)

/-- Matchers that read languages, each of which stands apart from what is behind it. -/
inductive Row (fuel : Nat) (src : Text) : List (Matcher σ) → List (Language CodePoint) → Prop
  | nil : Row fuel src [] []
  | cons {p : Matcher σ} {ps : List (Matcher σ)} {L : Language CodePoint}
      {Ls : List (Language CodePoint)}
      (first : p.Reads L fuel src) (apart : Apart L Ls.prod) (others : Row fuel src ps Ls) :
      Row fuel src (p :: ps) (L :: Ls)

/-- Matchers that read languages, of which no two have words in one place. -/
inductive Choice (fuel : Nat) (src : Text) : List (Matcher σ) → List (Language CodePoint) → Prop
  | nil : Choice fuel src [] []
  | cons {p : Matcher σ} {ps : List (Matcher σ)} {L : Language CodePoint}
      {Ls : List (Language CodePoint)}
      (first : p.Reads L fuel src) (alone : Elsewhere L Ls.sum) (others : Choice fuel src ps Ls) :
      Choice fuel src (p :: ps) (L :: Ls)

variable {src rest : Text} {i fuel : Nat} {p : Matcher σ} {ps : List (Matcher σ)}
  {L : Language CodePoint}
  {Ls : List (Language CodePoint)}

theorem one_reads (c : CodePoint) (fuel : Nat) (src : Text) :
    (string (σ := σ) [c]).Reads {[c]} fuel src := by
  intro i rest remains few
  by_cases stands : [c] <+: rest
  · refine .matched (t := [c]) ⟨rfl, stands, ?_⟩ (.inr ⟨_, rfl⟩) rfl (string_matched remains stands)
    rintro u rfl -
    exact Nat.le_refl 1
  · refine .failed ?_ (string_fails remains stands)
    rintro u rfl
    exact stands

theorem optional_reads (reads : p.Reads L fuel src) : (optional p).Reads (L + 1) fuel src := by
  intro i rest remains few
  have optionally := optional_eq p src i
  cases reads i rest remains few with
  | matched longest piece spelled answers =>
      rw [answers, pure_bind] at optionally
      exact .matched longest.add_one piece spelled optionally
  | failed absent fails =>
      obtain ⟨label, labels, stop, failed⟩ := fails
      rw [failed, pure_bind] at optionally
      exact .matched (absent.add_longest (longest_one rest)) (.inl rfl) rfl optionally

theorem Row.stages (row : Row fuel src ps Ls) (remains : src.Remains i rest)
    (few : rest.length < fuel) (values : List Value) :
    (∃ t vs, Longest Ls.prod rest t ∧ (∀ v ∈ vs, v.IsPiece) ∧ Value.spellingAll vs = t ∧
      Matcher.stages src ps values i =
        pure (.matched (.tuple (values.reverse ++ vs)) (i + t.length : Nat))) ∨
    (Absent Ls.prod rest ∧ Fails (Matcher.stages src ps values i)) := by
  induction row generalizing i rest values with
  | nil =>
      refine .inl ⟨[], [], longest_one rest, nofun, rfl, ?_⟩
      rw [List.append_nil]
      rfl
  | cons first apart others ih =>
      rw [List.prod_cons]
      cases first i rest remains few with
      | failed absent fails => exact .inr ⟨absent.mul _, fails.stages _ _⟩
      | matched longest piece spelled answers =>
          obtain ⟨rest, rfl⟩ := longest.stands
          have fewer : rest.length < fuel := by
            rw [List.length_append] at few
            omega
          rw [stages_matched answers]
          rcases ih remains.skip fewer (_ :: values) with
            ⟨t, vs, next, pieces, spells, ran⟩ | ⟨absent, fails⟩
          · refine .inl
              ⟨_, _ :: vs, longest.mul next apart, List.forall_mem_cons.mpr ⟨piece, pieces⟩, ?_, ?_⟩
            · rw [Value.spellingAll, spelled, spells]
            · rw [ran, List.reverse_cons, List.append_assoc, List.singleton_append,
                List.length_append, Nat.add_assoc]
          · exact .inr ⟨longest.mul_absent absent apart, fails⟩

theorem Row.joined (row : Row fuel src ps Ls) : (joined (seq ps)).Reads Ls.prod fuel src := by
  intro i rest remains few
  rcases row.stages remains few [] with ⟨t, vs, longest, pieces, spells, ran⟩ | ⟨absent, fails⟩
  · have called : Value.joinPresent (.tuple vs) = .ok t := by
      rw [Value.joinPresent_tuple pieces, spells]
    exact .matched longest (.inr ⟨t, rfl⟩) rfl (mapText_matched ran called)
  · exact .failed absent (mapText_fails fails _)

theorem Choice.alternatives (choice : Choice fuel src ps Ls) (remains : src.Remains i rest)
    (few : rest.length < fuel) :
    (∃ t v, Longest Ls.sum rest t ∧ v.IsPiece ∧ v.spelling = t ∧
      ∀ labels, Matcher.alternatives src i ps labels = pure (.matched v (i + t.length : Nat))) ∨
    (Absent Ls.sum rest ∧ ∀ p ∈ ps, Fails (p src i)) := by
  induction choice with
  | nil => exact .inr ⟨absent_zero rest, nofun⟩
  | cons first alone others ih =>
      rw [List.sum_cons]
      cases first i rest remains few with
      | matched longest piece spelled answers =>
          exact .inl ⟨_, _, longest.add_absent (alone longest.mem longest.stands), piece, spelled,
            fun _ => alternatives_matched answers⟩
      | failed absent fails =>
          rcases ih with ⟨t, v, longest, piece, spelled, ran⟩ | ⟨none, fail⟩
          · obtain ⟨label, labels, stop, failed⟩ := fails
            refine .inl ⟨t, v, absent.add_longest longest, piece, spelled, fun before => ?_⟩
            rw [alternatives_failed failed, ran]
          · exact .inr ⟨absent.add none, List.forall_mem_cons.mpr ⟨fails, fail⟩⟩

theorem Choice.alt (choice : Choice fuel src (p :: ps) Ls) :
    (alt (p :: ps)).Reads Ls.sum fuel src := by
  intro i rest remains few
  rcases choice.alternatives remains few with ⟨t, v, longest, piece, spelled, ran⟩ | ⟨absent, fail⟩
  · exact .matched longest piece spelled (ran [])
  · obtain ⟨first, others⟩ := List.forall_mem_cons.mp fail
    exact .failed absent (first.alt others)

end Matcher

end Descent
