import Descent.Proofs.Number.Reading
import Descent.Proofs.Text.Longest

/-!
The words that numbers are made of, as languages: what they begin with, what they are lengthened by,
and which of them stand in one place.
-/

namespace Descent.Words

open Text

def signs : Language CodePoint :=
  {t | IsSign t}

def digits : Language CodePoint :=
  {t | IsDigits t}

def fractions : Language CodePoint :=
  {[CodePoint.ofChar '.']} * digits

/-- What an exponent begins with. -/
def marks : Language CodePoint :=
  {[CodePoint.ofChar 'e']} + {[CodePoint.ofChar 'E']}

def exponents : Language CodePoint :=
  marks * signs * digits

/-- Digits with a fraction, an exponent or both, or a fraction without digits before it. -/
def unsignedFloats : Language CodePoint :=
  digits * fractions * (exponents + 1) + digits * exponents + fractions * (exponents + 1)

def floats : Language CodePoint :=
  signs * unsignedFloats

variable {rest u : Text} {L : Language CodePoint} {c : CodePoint}

/-! The longest ones. -/

theorem longest_signs (rest : Text) :
    Longest signs rest (rest.head?.filter CodePoint.isSign).toList := by
  have short (u : Text) (word : u ∈ signs) : u.length ≤ 1 := by
    rcases word with rfl | ⟨c, rfl, -⟩
    · exact Nat.zero_le 1
    · exact Nat.le_refl 1
  cases rest with
  | nil => exact ⟨.inl rfl, List.nil_prefix, fun u _ stands => stands.length_le⟩
  | cons c rest =>
      rw [List.head?_cons]
      cases signed : c.isSign with
      | true =>
          rw [Option.filter_some_pos signed]
          exact ⟨.inr ⟨c, rfl, signed⟩, ⟨rest, rfl⟩, fun u word _ => short u word⟩
      | false =>
          rw [Option.filter_some_neg (by simp [signed])]
          refine ⟨.inl rfl, List.nil_prefix, fun u word stands => ?_⟩
          rcases word with rfl | ⟨d, rfl, isSign⟩
          · exact Nat.le_refl 0
          · obtain ⟨rfl, -⟩ := List.cons_prefix_cons.mp stands
            cases signed.symm.trans isSign

theorem longest_digits (some : rest.takeWhile CodePoint.isDigit ≠ []) :
    Longest digits rest (rest.takeWhile CodePoint.isDigit) where
  mem := ⟨some, List.all_eq_true.mp List.all_takeWhile⟩
  stands := List.takeWhile_prefix _
  bound u word stands := by
    obtain ⟨more, rfl⟩ := stands
    rw [List.takeWhile_append_of_pos word.2, List.length_append]
    exact Nat.le_add_right _ _

theorem absent_digits (none : rest.takeWhile CodePoint.isDigit = []) : Absent digits rest := by
  rintro u word ⟨more, rfl⟩
  rw [List.takeWhile_append_of_pos word.2] at none
  exact word.1 (List.append_eq_nil_iff.mp none).1

/-! What words begin with. -/

def Sign (c : CodePoint) : Prop :=
  c.isSign = true

def Digit (c : CodePoint) : Prop :=
  c.isDigit = true

def Point (c : CodePoint) : Prop :=
  c = CodePoint.ofChar '.'

def Mark (c : CodePoint) : Prop :=
  c = CodePoint.ofChar 'e' ∨ c = CodePoint.ofChar 'E'

theorem Digit.not_point (digit : Digit c) : ¬ Point c := by
  rintro rfl
  exact absurd digit (by unfold Digit; decide)

theorem Digit.not_mark (digit : Digit c) : ¬ Mark c := by
  rintro (rfl | rfl) <;> exact absurd digit (by unfold Digit; decide)

theorem Point.not_mark (point : Point c) : ¬ Mark c := by
  obtain rfl := point
  rintro (same | same) <;> exact absurd same (by decide)

theorem Sign.not_digit (sign : Sign c) : ¬ Digit c := by
  intro digit
  cases sign.symm.trans (CodePoint.isSign_of_isDigit digit)

theorem Sign.not_point (sign : Sign c) : ¬ Point c := by
  rintro rfl
  exact absurd sign (by unfold Sign; decide)

theorem nil_notMem_single (c : CodePoint) : [] ∉ ({[c]} : Language CodePoint) :=
  fun word => List.cons_ne_nil c [] (Eq.symm word)

theorem nil_notMem_digits : [] ∉ digits :=
  fun word => word.1 rfl

theorem nil_notMem_fractions : [] ∉ fractions :=
  nil_notMem_mul (nil_notMem_single _) digits

theorem nil_notMem_marks : [] ∉ marks := by
  rintro (word | word)
  · exact nil_notMem_single _ word
  · exact nil_notMem_single _ word

theorem nil_notMem_exponents : [] ∉ exponents :=
  nil_notMem_mul (nil_notMem_mul nil_notMem_marks signs) digits

theorem nil_notMem_unsignedFloats : [] ∉ unsignedFloats := by
  rintro ((both | noFraction) | noWhole)
  · exact nil_notMem_mul (nil_notMem_mul nil_notMem_digits _) _ both
  · exact nil_notMem_mul nil_notMem_digits _ noFraction
  · exact nil_notMem_mul nil_notMem_fractions _ noWhole

theorem begins_digits : Begins Digit digits :=
  fun _ _ word => word.2 _ List.mem_cons_self

theorem begins_fractions : Begins Point fractions :=
  (begins_single _).mul (nil_notMem_single _) digits

theorem begins_exponents : Begins Mark exponents := by
  have begins : Begins Mark marks :=
    ((begins_single _).mono fun _ => .inl).add ((begins_single _).mono fun _ => .inr)
  exact (begins.mul nil_notMem_marks signs).mul (nil_notMem_mul nil_notMem_marks signs) digits

theorem begins_unsignedFloats : Begins (fun c => Digit c ∨ Point c) unsignedFloats := by
  have whole : Begins (fun c => Digit c ∨ Point c) digits := begins_digits.mono fun _ => .inl
  have point : Begins (fun c => Digit c ∨ Point c) fractions := begins_fractions.mono fun _ => .inr
  have both :=
    (whole.mul nil_notMem_digits fractions).mul (nil_notMem_mul nil_notMem_digits fractions)
    (exponents + 1)
  exact (both.add (whole.mul nil_notMem_digits exponents)).add
    (point.mul nil_notMem_fractions (exponents + 1))

/-! What words are lengthened by, and what may therefore stand behind them. -/

theorem lengthens_signs : Lengthens Sign signs := by
  intro a c x shorter longer
  rcases longer with none | ⟨d, single, signed⟩
  · exact absurd none (List.append_ne_nil_of_right_ne_nil a (List.cons_ne_nil c x))
  · cases a with
    | nil =>
        obtain ⟨rfl, -⟩ := List.cons.inj single
        exact signed
    | cons b a =>
        obtain ⟨-, none⟩ := List.cons.inj single
        exact absurd none (List.append_ne_nil_of_right_ne_nil a (List.cons_ne_nil c x))

theorem lengthens_digits : Lengthens Digit digits :=
  fun _ _ _ _ longer => longer.2 _ (List.mem_append_right _ List.mem_cons_self)

theorem lengthens_fractions : Lengthens Digit fractions := by
  intro a c x shorter longer
  obtain ⟨_, rfl, ds, isDigits, rfl⟩ := Language.mem_mul.mp shorter
  obtain ⟨_, rfl, es, isLonger, same⟩ := Language.mem_mul.mp longer
  rw [List.append_assoc, List.append_right_inj] at same
  exact lengthens_digits isDigits (show ds ++ c :: x ∈ digits from same ▸ isLonger)

theorem apart_signs_digits : Apart signs (digits * 1) :=
  lengthens_signs.apart (begins_digits.mul nil_notMem_digits 1) fun _ => Sign.not_digit

theorem apart_signs : Apart signs unsignedFloats :=
  lengthens_signs.apart begins_unsignedFloats fun _ sign begins =>
    begins.elim sign.not_digit sign.not_point

theorem apart_marks (M : Language CodePoint) : Apart marks M := by
  refine apart_of_length (n := 1) ?_ M
  rintro u (rfl | rfl) <;> rfl

theorem apart_fractions (M : Language CodePoint) : Apart digits (fractions * M) :=
  lengthens_digits.apart (begins_fractions.mul nil_notMem_fractions M) fun _ => Digit.not_point

theorem apart_exponents (M : Language CodePoint) : Apart digits (exponents * M) :=
  lengthens_digits.apart (begins_exponents.mul nil_notMem_exponents M) fun _ => Digit.not_mark

theorem apart_optional_exponents : Apart fractions ((exponents + 1) * 1) :=
  lengthens_fractions.apart ((begins_exponents.add begins_one).mul_of_both begins_one)
    fun _ => Digit.not_mark

/-! Words that never stand in one place. -/

theorem elsewhere_marks : Elsewhere {[CodePoint.ofChar 'e']} ({[CodePoint.ofChar 'E']} + 0) := by
  refine Elsewhere.add ?_ (elsewhere_zero _)
  refine (begins_single _).elsewhere (nil_notMem_single _) (begins_single _)
    (nil_notMem_single _) ?_
  rintro c rfl same
  exact absurd same (by decide)

theorem elsewhere_wholes (M N : Language CodePoint) : Elsewhere (digits * M) (fractions * N) :=
  (begins_digits.mul nil_notMem_digits M).elsewhere (nil_notMem_mul nil_notMem_digits M)
    (begins_fractions.mul nil_notMem_fractions N) (nil_notMem_mul nil_notMem_fractions N)
      fun _ => Digit.not_point

theorem elsewhere_fractions (M N : Language CodePoint) :
    Elsewhere (digits * (fractions * M)) (digits * (exponents * N)) := by
  have behind : Elsewhere (fractions * M) (exponents * N) :=
    (begins_fractions.mul nil_notMem_fractions M).elsewhere (nil_notMem_mul nil_notMem_fractions M)
      (begins_exponents.mul nil_notMem_exponents N) (nil_notMem_mul nil_notMem_exponents N)
        fun _ => Point.not_mark
  exact behind.mul (apart_fractions M) (apart_exponents N)

/-! What words are read as. -/

theorem isFraction_of_mem (word : u ∈ fractions) : u.IsFraction := by
  obtain ⟨_, rfl, ds, isDigits, rfl⟩ := Language.mem_mul.mp word
  exact ⟨ds, rfl, isDigits⟩

theorem isExponent_of_mem (word : u ∈ exponents) : u.IsExponent := by
  obtain ⟨_, before, ds, isDigits, rfl⟩ := Language.mem_mul.mp word
  obtain ⟨_, mark, s, isSign, rfl⟩ := Language.mem_mul.mp before
  rcases mark with rfl | rfl
  · exact ⟨_, s, ds, rfl, .inl rfl, isSign, isDigits⟩
  · exact ⟨_, s, ds, rfl, .inr rfl, isSign, isDigits⟩

theorem isDecimal_of_mem (word : u ∈ unsignedFloats) : u.IsDecimal := by
  have optional {x : Text} (word : x ∈ exponents + 1) : x = [] ∨ x.IsExponent :=
    word.symm.imp (fun none => Language.mem_one _ |>.mp none) isExponent_of_mem
  rcases word with (both | noFraction) | noWhole
  · obtain ⟨_, before, x, power, rfl⟩ := Language.mem_mul.mp both
    obtain ⟨ds, isDigits, f, point, rfl⟩ := Language.mem_mul.mp before
    exact ⟨ds, f, x, List.append_assoc ds f x, isDigits.2, .inr (isFraction_of_mem point),
      optional power, .inl isDigits.1⟩
  · obtain ⟨ds, isDigits, x, power, rfl⟩ := Language.mem_mul.mp noFraction
    exact ⟨ds, [], x, rfl, isDigits.2, .inl rfl, .inr (isExponent_of_mem power), .inl isDigits.1⟩
  · obtain ⟨f, point, x, power, rfl⟩ := Language.mem_mul.mp noWhole
    exact ⟨[], f, x, rfl, nofun, .inr (isFraction_of_mem point), optional power,
      .inr fun none => nil_notMem_fractions (none ▸ point)⟩

end Descent.Words
