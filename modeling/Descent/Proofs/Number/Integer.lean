import Mathlib.Data.List.Induction
import Mathlib.Data.Nat.Digits.Defs
import Descent.Proofs.Number.Matchers

/-!
Whole numbers. What the grammar for them answers is said by what stands at the position: a sign that
may be missing, and all digits in a row behind it. Main statement: it answers so, and a whole number
that is written in decimal is read back whatever stands around it.
-/

namespace Descent

namespace Text

/-- The number that decimal digits denote. -/
def decimalValue (ds : Text) : Nat :=
  Nat.ofDigits 10 (ds.reverse.map fun c => c.val - 0x30)

/-- What there is to say of a whole number at a position. Without a sign, a missing digit is a
missing number; more digits than may be read are a fault. -/
def integerAt (src : Text) (pos : Nat) : Except Fault Outcome :=
  let s := src.signAt pos
  let ds : Text := (src.drop (pos + s.length)).takeWhile CodePoint.isDigit
  if ds = [] then
    .ok (if s = [] then .failed (ofString "integer") pos else .failed (ofString "digit")
      (pos + 1 : Nat))
  else if ds.length ≤ 4300 then
    .ok (.matched (.int (if s = [CodePoint.ofChar '-'] then -ds.decimalValue else ds.decimalValue))
      (pos + s.length + ds.length : Nat))
  else .error .badNumber

end Text

namespace Numeral

variable {s ds : Text}

theorem value_eq_decimalValue (digits : ∀ c ∈ ds, c.isDigit = true) :
    value 10 ds = ds.decimalValue := by
  induction ds using List.reverseRecOn with
  | nil => rfl
  | append_singleton ds c ih =>
      obtain ⟨before, last⟩ := List.forall_mem_append.mp digits
      have digit : c.digitValue? = some (c.val - 0x30) :=
        if_pos (last c (List.mem_singleton_self c))
      have appended : value 10 (ds ++ [c]) = 10 * value 10 ds + (c.val - 0x30) := by
        rw [value, List.foldl_append, List.foldl_cons, digit]
        rfl
      rw [appended, ih before, Text.decimalValue, Text.decimalValue, List.reverse_concat,
        List.map_cons, Nat.ofDigits_cons, Nat.add_comm]

theorem splitSign_digits (sign : s.IsSign) (digits : ds.IsDigits) :
    splitSign (s ++ ds) = (decide (s = [CodePoint.ofChar '-']), ds) := by
  rcases sign with rfl | ⟨c, rfl, signed⟩
  · obtain ⟨d, ds, rfl⟩ := List.exists_cons_of_ne_nil digits.1
    have unsigned := CodePoint.isSign_of_isDigit (digits.2 d List.mem_cons_self)
    obtain ⟨plus, minus⟩ : d ≠ '+' ∧ d ≠ '-' := by simpa [CodePoint.isSign] using unsigned
    simp [splitSign, plus, minus]
  · rcases CodePoint.isSign_iff.mp signed with rfl | rfl <;> rfl

theorem read_signed (sign : s.IsSign) (digits : ds.IsDigits) :
    read (s ++ ds) = if ds.length ≤ 4300 then
      .ok (if s = [CodePoint.ofChar '-'] then -ds.decimalValue else ds.decimalValue) else .error
        .badNumber := by
  have filled : ds.isEmpty = false := by simpa using digits.1
  have all := List.all_eq_true.mpr digits.2
  unfold read
  rw [splitSign_digits sign digits]
  dsimp only
  by_cases short : ds.length ≤ 4300
  · have fits : decide (ds.length ≤ digitLimit) = true := decide_eq_true short
    simp [filled, all, fits, short, value_eq_decimalValue digits.2, signed]
  · have exceeds : decide (ds.length ≤ digitLimit) = false := decide_eq_false short
    simp [exceeds, short]

end Numeral

namespace Matcher

variable {σ : Type} {src : Text} {pos fuel : Nat}

theorem signedDigits_failed (fuel : Nat) (inside : pos ≤ src.length)
    (none : (src.drop (pos + (src.signAt pos).length)).takeWhile CodePoint.isDigit = []) :
    signedDigits fuel src pos =
      (pure (.failed (Text.ofString "digit") (pos + (src.signAt pos).length : Nat)) :
        Action σ Outcome) := by
  have start : src.Remains (pos + (src.signAt pos).length) _ := ⟨Text.signAt_inside inside, rfl⟩
  have row : seq [sign, digits fuel] src pos =
      (pure (.failed (Text.ofString "digit") (pos + (src.signAt pos).length : Nat)) :
        Action σ Outcome) := by
    rw [seq, stages_matched (sign_eq inside)]
    exact stages_failed (digits_failed start none)
  exact map_failed row _

theorem signedDigits_read (inside : pos ≤ src.length) (enough : src.length - pos < fuel)
    (some : (src.drop (pos + (src.signAt pos).length)).takeWhile CodePoint.isDigit ≠ []) :
    let ds := (src.drop (pos + (src.signAt pos).length)).takeWhile CodePoint.isDigit
    signedDigits fuel src pos = (Action.ofExcept ((Numeral.read (src.signAt pos ++ ds)).map
      fun z => .matched (.int z) (pos + (src.signAt pos).length + ds.length : Nat)) :
        Action σ Outcome) := by
  intro ds
  have start : src.Remains (pos + (src.signAt pos).length) _ := ⟨Text.signAt_inside inside, rfl⟩
  have fits : (src.drop (pos + (src.signAt pos).length)).length ≤ fuel := by
    rw [List.length_drop]
    omega
  have row : seq [sign, digits fuel] src pos =
      (pure (.matched (.tuple [.ofPiece (src.signAt pos), .text ds])
        (pos + (src.signAt pos).length + ds.length : Nat)) : Action σ Outcome) := by
    rw [seq, stages_matched (sign_eq inside), stages_matched (digits_matched start some fits)]
    rfl
  have joined :=
    Value.joinPresent_ofPiece (src.signAt pos) (.inr ⟨ds, rfl⟩ : (Value.text ds).IsPiece)
  rw [Value.spelling] at joined
  rw [signedDigits, map_onward row, Grammar.readInteger, bind_of_ok joined]
  cases Numeral.read (src.signAt pos ++ ds) <;> rfl

end Matcher

namespace Grammar

theorem run_integer {src : Text} {pos fuel : Nat} (inside : pos ≤ src.length)
    (enough : src.length - pos < fuel) (s : Store) :
    ((Request.run integer src pos).perform fuel).run s =
      some ((src.integerAt pos).map .outcome, s.tried (Text.ofString "integer") pos) := by
  unfold Text.integerAt
  dsimp only
  split
  next none =>
    have failed := Matcher.signedDigits_failed (σ := Store) fuel inside none
    rw [Request.run_integer (x := .ok _) failed]
    refine congrArg (fun r => some (Except.ok (Answer.outcome r), _)) ?_
    rcases Text.signAt_isSign src pos with unsigned | ⟨c, found, -⟩
    · rw [unsigned, if_pos rfl]
      exact Outcome.renamed_here rfl _
    · rw [found, if_neg (List.cons_ne_nil c [])]
      refine Outcome.renamed_later (fun same => ?_) _
      have later : ((pos + 1 : Nat) : Int) = pos := same
      omega
  next some =>
    have digits :
        Text.IsDigits ((src.drop (pos + (src.signAt pos).length)).takeWhile CodePoint.isDigit) :=
      ⟨some, List.all_eq_true.mp List.all_takeWhile⟩
    rw [Request.run_integer (Matcher.signedDigits_read inside enough some),
      Numeral.read_signed (Text.signAt_isSign src pos) digits]
    split <;> rfl

end Grammar

namespace Text

variable {src s ds after : Text} {pos : Nat}

theorem signAt_eq (remains : src.Remains pos (s ++ ds ++ after)) (sign : s.IsSign)
    (digits : ds.IsDigits) :
    src.signAt pos = s := by
  rw [signAt, remains.getElem?]
  rcases sign with rfl | ⟨c, rfl, signed⟩
  · obtain ⟨d, ds, rfl⟩ := List.exists_cons_of_ne_nil digits.1
    have unsigned := CodePoint.isSign_of_isDigit (digits.2 d List.mem_cons_self)
    rw [List.nil_append, List.cons_append, List.head?_cons,
      Option.filter_some_neg (by simp [unsigned])]
    rfl
  · rw [List.singleton_append, List.cons_append, List.head?_cons, Option.filter_some_pos signed]
    rfl

theorem integerAt_eq (remains : src.Remains pos (s ++ ds ++ after)) (sign : s.IsSign)
    (digits : ds.IsDigits) (short : ds.length ≤ 4300)
    (ends : ∀ c, after.head? = some c → c.isDigit = false) :
    src.integerAt pos =
      .ok (.matched
        (.int (if s = [CodePoint.ofChar '-'] then -ds.decimalValue else ds.decimalValue))
        (pos + s.length + ds.length : Nat)) := by
  have behind : src.Remains (pos + s.length) (ds ++ after) := by
    rw [List.append_assoc] at remains
    exact remains.skip
  have taken : (src.drop (pos + s.length)).takeWhile CodePoint.isDigit = ds := by
    rw [behind.drop]
    exact (Binary64.span_digits_append digits.2 ends).1
  unfold integerAt
  rw [signAt_eq remains sign digits]
  dsimp only
  rw [taken, if_neg digits.1, if_pos short]

end Text

theorem CodePoint.isDigit_ofChar (c : Char) : (ofChar c).isDigit = c.isDigit :=
  rfl

namespace Numeral

theorem digits_isDigits (n : Nat) : (digits 10 n).IsDigits := by
  constructor
  · exact fun none => Nat.toDigits_ne_nil (List.map_eq_nil_iff.mp none)
  · intro c member
    obtain ⟨d, found, rfl⟩ := List.mem_map.mp member
    rw [CodePoint.isDigit_ofChar]
    exact Nat.isDigit_of_mem_toDigits (by decide) (by decide) found

theorem decimalValue_digits (n : Nat) : (digits 10 n).decimalValue = n := by
  rw [← value_eq_decimalValue (digits_isDigits n).2]
  calc value 10 (digits 10 n)
    _ = Nat.ofDigitChars 10 (Nat.toDigits 10 n) 0 := by
      rw [Nat.ofDigitChars_eq_foldl, value, digits, List.foldl_map]
      refine List.foldl_ext _ _ 0 fun sum c member => ?_
      have digit : (CodePoint.ofChar c).isDigit = true := by
        rw [CodePoint.isDigit_ofChar]
        exact Nat.isDigit_of_mem_toDigits (by decide) (by decide) member
      rw [CodePoint.digitValue?, if_pos digit]
      rfl
    _ = n := Nat.ofDigitChars_ten_toDigits

/-- A whole number in decimal is its digits, behind a minus if it is below zero. -/
theorem decimal_eq (z : Int) : ∃ s : Text, s.IsSign ∧ decimal z = s ++ digits 10 z.natAbs ∧
    (if s = [CodePoint.ofChar '-'] then -(z.natAbs : Int) else z.natAbs) = z := by
  unfold decimal
  by_cases negative : z < 0
  · refine ⟨[CodePoint.ofChar '-'], .inr ⟨_, rfl, by decide⟩, if_pos negative, ?_⟩
    rw [if_pos rfl]
    omega
  · refine ⟨[], .inl rfl, if_neg negative, ?_⟩
    rw [if_neg nofun]
    omega

end Numeral

namespace Grammar

/-- Whatever stands for a whole number at a position, and from whatever store. -/
theorem integer_answers :
    (∀ (src : Text) (pos fuel : Nat) (s : Store), pos ≤ src.length → src.length - pos < fuel →
      ((Request.run integer src pos).perform fuel).run s =
        some ((src.integerAt pos).map .outcome, s.tried (Text.ofString "integer") pos)) ∧
    ∀ (z : Int) (before after : Text) (fuel : Nat) (s : Store),
      (Numeral.digits 10 z.natAbs).length ≤ 4300 → (∀ c, after.head? = some c → c.isDigit = false) →
      (Numeral.decimal z ++ after).length < fuel →
      ((Request.run integer (before ++ (Numeral.decimal z ++ after)) before.length).perform
        fuel).run s =
        some (.ok (.outcome (.matched (.int z) (before.length + (Numeral.decimal z).length : Nat))),
          s.tried (Text.ofString "integer") before.length) := by
  refine ⟨fun src pos fuel s inside enough => run_integer inside enough s, ?_⟩
  intro z before after fuel s short ends enough
  obtain ⟨sign, isSign, written, value⟩ := Numeral.decimal_eq z
  have digits := Numeral.digits_isDigits z.natAbs
  have remains := Text.Remains.behind before (Numeral.decimal z ++ after)
  rw [run_integer remains.inside (by simpa using enough)]
  rw [written] at remains ⊢
  rw [Text.integerAt_eq remains isSign digits short ends, Numeral.decimalValue_digits, value,
    List.length_append, Nat.add_assoc]
  rfl

/-- Zeros in front of a number count for nothing. -/
theorem integer_answers_padded :
    ((Request.run integer (Text.ofString "x+007y") 1).perform 6).run .empty =
      some (.ok (.outcome (.matched (.int 7) 5)), .empty) ∧
    ((Request.run integer (Text.ofString "00-120!") 2).perform 6).run .empty =
      some (.ok (.outcome (.matched (.int (-120)) 6)), .empty) := by
  obtain ⟨answers, reads⟩ := integer_answers
  constructor
  · have found : (Text.ofString "x+007y").integerAt 1 = .ok (.matched (.int 7) 5) := rfl
    exact (answers (Text.ofString "x+007y") 1 6 .empty (by decide) (by decide)).trans
      (by rw [found]; rfl)
  · have written : Text.ofString "00-120!" =
        Text.ofString "00" ++ (Numeral.decimal (-120) ++ Text.ofString "!") := by decide
    rw [written]
    exact reads (-120) (Text.ofString "00") (Text.ofString "!") 6 .empty (by decide)
      (fun c first => by cases first; decide) (by decide)

end Grammar

end Descent
