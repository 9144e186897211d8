import Descent.Proofs.Nesting.Factoring
import Descent.Proofs.Number.Matchers
import Descent.Proofs.Number.Words

/-!
Decimal numbers. Main statement: the grammar for them takes the longest word of their language that
there is, and where there is none it fails.
-/

namespace Descent

namespace Matcher

open Words Text

variable {σ : Type}

theorem sign_reads (fuel : Nat) (src : Text) : (sign (σ := σ)).Reads signs fuel src := by
  intro i rest remains few
  have answers := sign_eq (σ := σ) remains.inside
  have longest := longest_signs rest
  rw [← remains.getElem?] at longest
  exact .matched longest (Value.ofPiece_isPiece _) (Value.spelling_ofPiece _) answers

theorem digits_reads (fuel : Nat) (src : Text) :
    (digits fuel (σ := σ)).Reads Words.digits fuel src := by
  intro i rest remains few
  by_cases none : rest.takeWhile CodePoint.isDigit = []
  · exact .failed (absent_digits none) (.of_eq (.single _ _) (digits_failed remains none))
  · exact .matched (longest_digits none) (.inr ⟨_, rfl⟩) rfl
      (digits_matched remains none (Nat.le_of_lt few))

theorem fraction_reads (fuel : Nat) (src : Text) :
    (fraction fuel (σ := σ)).Reads fractions fuel src := by
  have row : Row fuel src [string (σ := σ) [CodePoint.ofChar '.'], digits fuel]
      [{[CodePoint.ofChar '.']}, Words.digits] :=
    .cons (one_reads _ fuel src) (apart_single _ _)
      (.cons (digits_reads fuel src) (apart_one _) .nil)
  have product : [{[CodePoint.ofChar '.']}, Words.digits].prod = fractions := by
    simp [fractions]
  exact product ▸ row.joined

theorem exponent_reads (fuel : Nat) (src : Text) :
    (exponent fuel (σ := σ)).Reads exponents fuel src := by
  have choice :
      Choice fuel src [string (σ := σ) [CodePoint.ofChar 'e'], string [CodePoint.ofChar 'E']]
      [{[CodePoint.ofChar 'e']}, {[CodePoint.ofChar 'E']}] :=
    .cons (one_reads _ fuel src) elsewhere_marks
      (.cons (one_reads _ fuel src) (elsewhere_zero _) .nil)
  have sum : [{[CodePoint.ofChar 'e']}, {[CodePoint.ofChar 'E']}].sum = marks := by
    simp [marks]
  have row : Row fuel src
      [alt [string (σ := σ) [CodePoint.ofChar 'e'], string [CodePoint.ofChar 'E']], sign,
        digits fuel] [marks, signs, Words.digits] :=
    .cons (sum ▸ choice.alt) (apart_marks _)
      (.cons (sign_reads fuel src) apart_signs_digits
        (.cons (digits_reads fuel src) (apart_one _) .nil))
  have product : [marks, signs, Words.digits].prod = exponents := by
    simp [exponents, mul_assoc]
  exact product ▸ row.joined

theorem unsignedFloat_reads (fuel : Nat) (src : Text) :
    (unsignedFloat fuel (σ := σ)).Reads unsignedFloats fuel src := by
  have whole := digits_reads (σ := σ) fuel src
  have power := exponent_reads (σ := σ) fuel src
  have noWhole :
      Row fuel src [fraction fuel, optional (exponent (σ := σ) fuel)] [fractions, exponents + 1] :=
    .cons (fraction_reads fuel src) apart_optional_exponents
      (.cons (optional_reads power) (apart_one _) .nil)
  have both : Row fuel src [digits fuel, fraction fuel, optional (exponent (σ := σ) fuel)]
      [Words.digits, fractions, exponents + 1] :=
    .cons whole (apart_fractions _) noWhole
  have noFraction : Row fuel src [digits fuel, exponent (σ := σ) fuel] [Words.digits, exponents] :=
    .cons whole (apart_exponents 1) (.cons power (apart_one _) .nil)
  have choice : Choice fuel src
      [joined (seq [digits fuel, fraction fuel, optional (exponent fuel)]),
        joined (seq [digits fuel, exponent fuel]),
          joined (seq [fraction fuel, optional (exponent (σ := σ) fuel)])]
      [[Words.digits, fractions, exponents + 1].prod, [Words.digits, exponents].prod,
        [fractions, exponents + 1].prod] := by
    refine .cons both.joined ?_
      (.cons noFraction.joined ?_ (.cons noWhole.joined (elsewhere_zero _) .nil))
    · exact (elsewhere_fractions _ 1).add ((elsewhere_wholes _ _).add (elsewhere_zero _))
    · exact (elsewhere_wholes _ _).add (elsewhere_zero _)
  have sum : [[Words.digits, fractions, exponents + 1].prod, [Words.digits, exponents].prod,
      [fractions, exponents + 1].prod].sum = unsignedFloats := by
    simp [unsignedFloats, mul_assoc, add_assoc]
  exact sum ▸ choice.alt

/-- The failure of the number is that of what is behind its sign. -/
theorem signedFloat_answers {src : Text} {pos fuel : Nat} (inside : pos ≤ src.length)
    (enough : src.length - pos < fuel) :
    (∃ t x, Longest floats (src.drop pos) t ∧ Binary64.read t = .ok x ∧
      signedFloat fuel src pos =
        (pure (.matched (.float x) (pos + t.length : Nat)) : Action Store Outcome)) ∨
    (Absent floats (src.drop pos) ∧ ∃ f : Failure, f.pos = (pos + (src.signAt pos).length : Nat) ∧
      unsignedFloat fuel src (pos + (src.signAt pos).length : Nat) =
        (pure (.failure f) : Action Store Outcome) ∧
      signedFloat fuel src pos = (pure (.failure f) : Action Store Outcome)) := by
  have remains : src.Remains pos (src.drop pos) := ⟨inside, rfl⟩
  have longestSign := longest_signs (src.drop pos)
  rw [← remains.getElem?] at longestSign
  change Longest signs _ (src.signAt pos) at longestSign
  obtain ⟨rest, left⟩ := longestSign.stands
  rw [← left] at longestSign remains ⊢
  have few : rest.length < fuel := by
    have lengths := congrArg List.length left
    rw [List.length_append, List.length_drop] at lengths
    omega
  have signed := sign_eq (σ := Store) inside
  cases unsignedFloat_reads (σ := Store) fuel src _ rest remains.skip few with
  | @matched t v longest piece spelled answers =>
      obtain ⟨x, read⟩ :=
        Binary64.read_append (Text.signAt_isSign src pos) (isDecimal_of_mem longest.mem)
      have row :
          seq [sign, unsignedFloat fuel] src pos =
          (pure (.matched (.tuple [.ofPiece (src.signAt pos), v])
          (pos + (src.signAt pos).length + t.length : Nat)) : Action Store Outcome) := by
        rw [seq, stages_matched signed, stages_matched answers]
        rfl
      have called : Grammar.readFloat (.tuple [.ofPiece (src.signAt pos), v]) = .ok (.float x) := by
        have joined := Value.joinPresent_ofPiece (src.signAt pos) piece
        rw [spelled] at joined
        rw [Grammar.readFloat, bind_of_ok joined, bind_of_ok read]
        rfl
      refine .inl ⟨_, x, longestSign.mul longest apart_signs, read, ?_⟩
      rw [List.length_append, ← Nat.add_assoc]
      exact map_matched row (by rw [called]; rfl)
  | failed absent fails =>
      obtain ⟨label, labels, stop, failed⟩ := fails
      refine .inr
        ⟨longestSign.mul_absent absent apart_signs, ⟨label :: labels, stop⟩, ?_, failed, ?_⟩
      · exact alternatives_fail_here (congrArg (fun m => m.run Store.empty) failed)
      · have row : seq [sign, unsignedFloat fuel] src pos =
            (pure (.failure ⟨label :: labels, stop⟩) : Action Store Outcome) := by
          rw [seq, stages_matched signed]
          exact stages_failed failed
        exact map_failed row _

end Matcher

namespace Grammar

open Words Text

theorem float_longest (src : Text) (pos fuel : Nat) (s : Store) (inside : pos ≤ src.length)
    (enough : src.length - pos < fuel) :
    let answers (r : Outcome) : Prop := ((Request.run float src pos).perform fuel).run s =
      some (.ok (.outcome r), s.tried (ofString "float") pos)
    ((∃ u ∈ floats, u <+: src.drop pos) → ∃ t x, Longest floats (src.drop pos) t ∧
      Binary64.read t = .ok x ∧ answers (.matched (.float x) (pos + t.length : Nat))) ∧
    (Absent floats (src.drop pos) →
      (src.signAt pos = [] → answers (.failed (ofString "float") pos)) ∧
      (src.signAt pos ≠ [] → ∃ f : Failure, f.pos = (pos + 1 : Nat) ∧ answers (.failure f) ∧
        ∀ s', ((Request.run unsignedFloat src (pos + 1 : Nat)).perform fuel).run s' =
          some (.ok (.outcome (.failure f)), s'))) := by
  intro answers
  rcases Matcher.signedFloat_answers inside enough with
    ⟨t, x, longest, read, ran⟩ | ⟨absent, f, here, body, ran⟩
  · refine ⟨fun _ => ⟨t, x, longest, read, Request.run_float (x := .ok _) ran s⟩, fun absent => ?_⟩
    exact absurd longest.stands (absent t longest.mem)
  · have named := Request.run_float (x := .ok _) ran s
    refine ⟨fun ⟨u, word, stands⟩ => absurd stands (absent u word),
      fun _ => ⟨fun unsigned => ?_, fun signed => ?_⟩⟩
    · have same : f.pos = pos := by
        rw [here, unsigned]
        rfl
      rw [Except.map, Outcome.renamed_here same] at named
      exact named
    · have single : (src.signAt pos).length = 1 := by
        rcases Text.signAt_isSign src pos with unsigned | ⟨c, found, -⟩
        · exact absurd unsigned signed
        · rw [found]
          rfl
      rw [single] at here body
      have later : f.pos ≠ pos := by omega
      rw [Except.map, Outcome.renamed_later later] at named
      exact ⟨f, here, named, Request.run_unsignedFloat (x := .ok _) body⟩

/-- The exponent without digits is left in place, and a sign alone is no number. -/
theorem float_longest_halfway :
    (∃ t x, Longest floats (ofString "-1.5e+") t ∧ Binary64.read t = .ok x ∧
      ((Request.run float (ofString "x-1.5e+") 1).perform 7).run .empty =
        some (.ok (.outcome (.matched (.float x) (1 + t.length : Nat))), .empty)) ∧
    (∃ f : Failure, f.pos = 1 ∧ ((Request.run float (ofString "+") 0).perform 2).run .empty =
      some (.ok (.outcome (.failure f)), .empty)) ∧
    ((Request.run float [] 0).perform 1).run .empty =
      some (.ok (.outcome (.failed (ofString "float") 0)), .empty) := by
  have none : Absent unsignedFloats [] := by
    intro u word stands
    obtain rfl := List.prefix_nil.mp stands
    exact nil_notMem_unsignedFloats word
  have word : ofString "-1.5" ∈ floats := by
    have whole : ofString "1" ∈ Words.digits := ⟨by decide, by decide⟩
    have tenths : ofString "5" ∈ Words.digits := ⟨by decide, by decide⟩
    have point : ofString "." ∈ ({[CodePoint.ofChar '.']} : Language CodePoint) := rfl
    have fraction : ofString ".5" ∈ fractions := Language.append_mem_mul point tenths
    refine Language.append_mem_mul (show ofString "-" ∈ signs from .inr ⟨_, rfl, by decide⟩) ?_
    exact .inl (.inl (Language.append_mem_mul (Language.append_mem_mul whole fraction) (.inr rfl)))
  refine ⟨?_, ?_, ?_⟩
  · exact (float_longest (ofString "x-1.5e+") 1 7 .empty (by decide) (by decide)).1
      ⟨ofString "-1.5", word, ⟨ofString "e+", rfl⟩⟩
  · have sign : Longest signs (ofString "+" ++ []) (ofString "+") := longest_signs (ofString "+")
    have absent := sign.mul_absent none apart_signs
    obtain ⟨f, here, answers, -⟩ :=
      ((float_longest (ofString "+") 0 2 .empty (by decide) (by decide)).2 absent).2 (by decide)
    exact ⟨f, here, answers⟩
  · have sign : Longest signs ([] ++ []) [] := longest_signs []
    have absent := sign.mul_absent none apart_signs
    exact ((float_longest [] 0 1 .empty (by decide) (by decide)).2 absent).1 rfl

end Grammar

end Descent
