import Mathlib.Algebra.Group.Nat.Defs
import Descent.Grammar.General

/-!
Reading numbers. The texts of whole numbers and of decimal numbers are described as the grammars for
them put them together. Main statements: a text so described is read without a fault.
-/

namespace Descent

namespace Text

/-- A sign that may be missing. -/
def IsSign (t : Text) : Prop :=
  t = [] ∨ ∃ c, t = [c] ∧ c.isSign = true

def IsDigits (t : Text) : Prop :=
  t ≠ [] ∧ ∀ c ∈ t, c.isDigit = true

/-- A point and digits. -/
def IsFraction (t : Text) : Prop :=
  ∃ ds, t = CodePoint.ofChar '.' :: ds ∧ IsDigits ds

/-- An `e` in either case, a sign that may be missing, and digits. -/
def IsExponent (t : Text) : Prop :=
  ∃ c s ds, t = c :: (s ++ ds) ∧ (c = CodePoint.ofChar 'e' ∨ c = CodePoint.ofChar 'E') ∧
    IsSign s ∧ IsDigits ds

/-- Digits, a fraction and an exponent, of which each may be missing, but not both the digits and
the fraction. -/
def IsDecimal (t : Text) : Prop :=
  ∃ whole fraction exponent, t = whole ++ (fraction ++ exponent) ∧ (∀ c ∈ whole, c.isDigit = true) ∧
    (fraction = [] ∨ IsFraction fraction) ∧ (exponent = [] ∨ IsExponent exponent) ∧
    (whole ≠ [] ∨ fraction ≠ [])

end Text

namespace CodePoint

/-- What the texts of numbers are made of: digits, signs, points and exponents. -/
def IsNumeral (c : CodePoint) : Prop :=
  c.isDigit = true ∨ c.isSign = true ∨ c = ofChar '.' ∨ c = ofChar 'e' ∨ c = ofChar 'E'

variable {c : CodePoint}

theorem isDigit_iff : c.isDigit = true ↔ 0x30 ≤ c.val ∧ c.val ≤ 0x39 := by
  simp [isDigit, isWithin]

theorem isSign_iff : c.isSign = true ↔ c = ofChar '+' ∨ c = ofChar '-' := by
  simp [isSign]

theorem isSign_of_isDigit (digit : c.isDigit = true) : c.isSign = false := by
  rw [← Bool.not_eq_true, isSign_iff]
  rintro (rfl | rfl) <;> exact absurd digit (by decide)

theorem digitValue?_of_isHexDigit (hex : c.isHexDigit = true) :
    ∃ d < 16, c.digitValue? = some d := by
  simp only [isHexDigit, isWithin, Bool.or_eq_true, Bool.and_eq_true, decide_eq_true_eq,
    isDigit_iff] at hex
  unfold digitValue?
  split
  · rename_i digit
    exact ⟨_, by have := isDigit_iff.mp digit; omega, rfl⟩
  · rename_i notDigit
    rw [isDigit_iff] at notDigit
    simp only [isUpperLetter, isLowerLetter, isWithin, Bool.and_eq_true, decide_eq_true_eq]
    split
    · exact ⟨_, by omega, rfl⟩
    · rw [if_pos (by omega)]
      exact ⟨_, by omega, rfl⟩

theorem IsNumeral.plain (numeral : c.IsNumeral) : c.isBlank = false ∧ c ≠ ofChar '_' := by
  rcases numeral with digit | sign | rfl | rfl | rfl
  · obtain ⟨low, high⟩ := isDigit_iff.mp digit
    constructor
    · simp only [isBlank, isWithin, Bool.or_eq_false_iff, Bool.and_eq_false_iff,
        decide_eq_false_iff_not, beq_eq_false_iff_ne]
      omega
    · rintro rfl
      exact absurd high (by decide)
  · rcases isSign_iff.mp sign with rfl | rfl
    all_goals decide
  all_goals decide

end CodePoint

namespace Numeral

theorem splitSign_append {s t : Text} (sign : s.IsSign) (apart : ∀ c ∈ t.head?, c.isSign = false) :
    ∃ negative, splitSign (s ++ t) = (negative, t) := by
  rcases sign with rfl | ⟨c, rfl, sign⟩
  · cases t with
    | nil => exact ⟨false, rfl⟩
    | cons d t =>
        obtain ⟨plus, minus⟩ : d ≠ '+' ∧ d ≠ '-' := by
          simpa [CodePoint.isSign] using apart d rfl
        exact ⟨false, by simp [splitSign, plus, minus]⟩
  · rcases CodePoint.isSign_iff.mp sign with rfl | rfl
    · exact ⟨false, rfl⟩
    · exact ⟨true, rfl⟩

theorem splitSign_append_digits {s ds : Text} (sign : s.IsSign) (digits : ds.IsDigits) :
    ∃ negative, splitSign (s ++ ds) = (negative, ds) := by
  refine splitSign_append sign fun c first => ?_
  exact CodePoint.isSign_of_isDigit (digits.2 c (List.mem_of_mem_head? first))

/-- Digits behind a sign that may be missing are read as a whole number, unless they are too
many. -/
theorem read_append {s ds : Text} (sign : s.IsSign) (digits : ds.IsDigits)
    (short : ds.length ≤ digitLimit) :
    ∃ z, read (s ++ ds) = .ok z := by
  obtain ⟨negative, split⟩ := splitSign_append_digits sign digits
  obtain ⟨some, all⟩ := digits
  have filled : ds.isEmpty = false := by simpa using some
  exact ⟨_, by simp only [read, split, filled, List.all_eq_true.mpr all, decide_eq_true short]; rfl⟩

theorem value_lt {base : Nat} {ds : Text} (digits : ∀ c ∈ ds, ∃ d < base, c.digitValue? = some d) :
    value base ds < base ^ ds.length := by
  -- With `n` read before, as the fold carries it along.
  have bound (n : Nat) :
      ds.foldl (fun n c => base * n + c.digitValue?.getD 0) n < base ^ ds.length * (n + 1) := by
    induction ds generalizing n with
    | nil => simp
    | cons c ds ih =>
        obtain ⟨⟨d, lt, isDigit⟩, rest⟩ := List.forall_mem_cons.mp digits
        refine Nat.lt_of_lt_of_le (ih rest _) ?_
        have step : base * n + d + 1 ≤ base * (n + 1) := by
          rw [Nat.mul_add, Nat.mul_one]
          omega
        simp only [isDigit, Option.getD_some, List.length_cons, Nat.pow_succ, Nat.mul_assoc]
        exact Nat.mul_le_mul_left _ step
  simpa [value] using bound 0

/-- Four hexadecimal digits are the number of a code point. -/
theorem ofNat?_of_hex {ds : Text} (four : ds.length = 4) (digits : ∀ c ∈ ds, c.isHexDigit = true) :
    ∃ c, CodePoint.ofNat? (value 16 ds) = some c := by
  have lt := value_lt fun c member => CodePoint.digitValue?_of_isHexDigit (digits c member)
  rw [four] at lt
  exact ⟨⟨value 16 ds, by omega⟩, dif_pos (by omega)⟩

end Numeral

namespace Binary64

theorem readExponent?_isSome {t : Text} (exponent : t = [] ∨ t.IsExponent) :
    (readExponent? t).isSome := by
  rcases exponent with rfl | ⟨c, s, ds, rfl, letter, sign, digits⟩
  · rfl
  · obtain ⟨negative, split⟩ := Numeral.splitSign_append_digits sign digits
    obtain ⟨some, all⟩ := digits
    have filled : ds.isEmpty = false := by simpa using some
    have isLetter : (c = 'e' || c = 'E') = true := by simpa using letter
    simp [readExponent?, split, filled, List.all_eq_true.mpr all, isLetter]

theorem span_digits_append {whole rest : Text} (digits : ∀ c ∈ whole, c.isDigit = true)
    (stops : ∀ c ∈ rest.head?, c.isDigit = false) :
    (whole ++ rest).takeWhile CodePoint.isDigit = whole ∧
      (whole ++ rest).dropWhile CodePoint.isDigit = rest := by
  rw [List.takeWhile_append_of_pos digits, List.dropWhile_append_of_pos digits]
  cases rest with
  | nil => simp
  | cons c rest => simp [stops c rfl]

private theorem head_of_exponent {t : Text} (exponent : t = [] ∨ t.IsExponent) :
    ∀ c ∈ t.head?, c.isDigit = false ∧ c ≠ CodePoint.ofChar '.' := by
  rcases exponent with rfl | ⟨c, s, ds, rfl, letter, _, _⟩
  · simp
  · intro d first
    obtain rfl : c = d := by simpa using first
    rcases letter with rfl | rfl <;> decide

theorem splitFraction_append {fraction rest : Text} (point : fraction = [] ∨ fraction.IsFraction)
    (exponent : rest = [] ∨ rest.IsExponent) :
    splitFraction (fraction ++ rest) = (fraction.tail, rest) := by
  have stops := head_of_exponent exponent
  rcases point with rfl | ⟨ds, rfl, _, digits⟩
  · cases rest with
    | nil => rfl
    | cons c rest => simp [splitFraction, (stops c rfl).2]
  · obtain ⟨taken, left⟩ := span_digits_append digits fun c first => (stops c first).1
    simp [splitFraction, taken, left]

theorem readDecimal?_isSome {t : Text} (decimal : t.IsDecimal) : (readDecimal? t).isSome := by
  obtain ⟨whole, fraction, exponent, rfl, digits, point, tail, some⟩ := decimal
  -- The digits end where the fraction begins, or the exponent where there is no fraction.
  have stops : ∀ c ∈ (fraction ++ exponent).head?, c.isDigit = false := by
    rcases point with rfl | ⟨ds, rfl, _⟩
    · exact fun c first => (head_of_exponent tail c first).1
    · simp
      decide
  obtain ⟨taken, left⟩ := span_digits_append digits stops
  have filled : (whole.isEmpty && fraction.tail.isEmpty) = false := by
    rcases point with rfl | ⟨ds, rfl, other, _⟩
    · simpa using some
    · simp [other]
  simp [readDecimal?, taken, left, splitFraction_append point tail, filled,
    readExponent?_isSome tail]

theorem readUnsigned?_isSome {t : Text} (decimal : t.IsDecimal) : (readUnsigned? t).isSome := by
  simp only [readUnsigned?]
  split
  · rfl
  · split
    · rfl
    · rw [Option.isSome_map, readDecimal?_isSome decimal]

theorem underscoresJoinDigits_of_none {t : Text} (none : CodePoint.ofChar '_' ∉ t)
    (digitBefore : Bool) :
    underscoresJoinDigits digitBefore t = true := by
  induction t generalizing digitBefore with
  | nil => rfl
  | cons c t ih =>
      simp only [List.mem_cons, not_or] at none
      simp only [underscoresJoinDigits, if_neg (Ne.symm none.1), ih none.2]

theorem trimBlanks_of_none {t : Text} (none : ∀ c ∈ t, c.isBlank = false) : trimBlanks t = t := by
  have keeps {u : Text} (none : ∀ c ∈ u, c.isBlank = false) :
      u.dropWhile CodePoint.isBlank = u := by
    cases u with
    | nil => rfl
    | cons c u => simp [none c (by simp)]
  rw [trimBlanks, keeps none, keeps (by simpa using none), List.reverse_reverse]

private theorem numeral_of_sign {s : Text} (sign : s.IsSign) : ∀ c ∈ s, c.IsNumeral := by
  rcases sign with rfl | ⟨c, rfl, here⟩
  · simp
  · exact List.forall_mem_singleton.mpr (.inr (.inl here))

private theorem numeral_of_decimal {t : Text} (decimal : t.IsDecimal) : ∀ c ∈ t, c.IsNumeral := by
  obtain ⟨whole, fraction, exponent, rfl, digits, point, tail, _⟩ := decimal
  intro c member
  rw [List.mem_append, List.mem_append] at member
  rcases member with here | here | here
  · exact .inl (digits c here)
  · rcases point with rfl | ⟨ds, rfl, _, digits⟩
    · cases here
    · rcases List.mem_cons.mp here with rfl | here
      · exact .inr (.inr (.inl rfl))
      · exact .inl (digits c here)
  · rcases tail with rfl | ⟨d, s, ds, rfl, letter, sign, _, digits⟩
    · cases here
    · rcases List.mem_cons.mp here with rfl | here
      · exact .inr (.inr (.inr letter))
      · rcases List.mem_append.mp here with here | here
        · exact numeral_of_sign sign c here
        · exact .inl (digits c here)

private theorem head_of_decimal {t : Text} (decimal : t.IsDecimal) :
    ∀ c ∈ t.head?, c.isSign = false := by
  obtain ⟨whole, fraction, exponent, rfl, digits, point, _, some⟩ := decimal
  cases whole with
  | cons d whole =>
      intro c first
      obtain rfl : d = c := by simpa using first
      exact CodePoint.isSign_of_isDigit (digits d (by simp))
  | nil =>
      rcases point with rfl | ⟨ds, rfl, _⟩
      · simp at some
      · intro c first
        obtain rfl : CodePoint.ofChar '.' = c := by simpa using first
        decide

/-- A decimal number behind a sign that may be missing is read, however many digits it has. -/
theorem read_append {s t : Text} (sign : s.IsSign) (decimal : t.IsDecimal) :
    ∃ x, read (s ++ t) = .ok x := by
  have plain : ∀ c ∈ s ++ t, c.isBlank = false ∧ c ≠ CodePoint.ofChar '_' := by
    intro c member
    rcases List.mem_append.mp member with here | here
    · exact (numeral_of_sign sign c here).plain
    · exact (numeral_of_decimal decimal c here).plain
  have trimmed := trimBlanks_of_none fun c member => (plain c member).1
  have joined := underscoresJoinDigits_of_none (fun member => (plain _ member).2 rfl) false
  have kept : (s ++ t).filter (· ≠ CodePoint.ofChar '_') = s ++ t :=
    List.filter_eq_self.mpr fun c member => by simpa using (plain c member).2
  obtain ⟨negative, split⟩ := Numeral.splitSign_append sign (head_of_decimal decimal)
  obtain ⟨bits, unsigned⟩ := Option.isSome_iff_exists.mp (readUnsigned?_isSome decimal)
  exact ⟨_, by simp only [read, trimmed, joined, kept, split, unsigned]; rfl⟩

end Binary64

end Descent
