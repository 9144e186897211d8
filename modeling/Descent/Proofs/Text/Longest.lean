import Mathlib.Computability.Language
import Descent.Text.Basic

/-!
The longest word of a language that a text begins with. Main statements: where what lengthens a word
of one language is not how the words of another one begin, the longest words of both, one behind the
other, are the longest word of the product; and where two languages have no words in one place, the
longest word of either is the longest one of the sum.
-/

namespace Descent.Text

variable {L M N : Language CodePoint} {rest a b t : Text}

structure Longest (L : Language CodePoint) (rest t : Text) : Prop where
  mem : t ∈ L
  stands : t <+: rest
  bound : ∀ u ∈ L, u <+: rest → u.length ≤ t.length

/-- The text begins with no word of the language. -/
def Absent (L : Language CodePoint) (rest : Text) : Prop :=
  ∀ u ∈ L, ¬ u <+: rest

/-- Where a word of the first language goes on, no word of the second one begins. -/
def Apart (L M : Language CodePoint) : Prop :=
  ∀ ⦃a c x⦄, a ∈ L → a ++ c :: x ∈ L → ∀ y, c :: y ∉ M

/-- No text begins with words of both languages. -/
def Elsewhere (L M : Language CodePoint) : Prop :=
  ∀ ⦃rest u⦄, u ∈ L → u <+: rest → Absent M rest

/-! Words of a product. -/

/-- With the longest word of the first language taken away, a word of the second one is left, and
nothing longer is to be had. -/
theorem Longest.behind {u : Text} (longest : Longest L (a ++ rest) a) (apart : Apart L M)
    (word : u ∈ L * M) (stands : u <+: a ++ rest) :
    ∃ b ∈ M, b <+: rest ∧ u.length ≤ a.length + b.length := by
  obtain ⟨first, isFirst, second, isSecond, rfl⟩ := Language.mem_mul.mp word
  have begins : first <+: a ++ rest := (List.prefix_append first second).trans stands
  have shorter := longest.bound first isFirst begins
  obtain ⟨x, rfl⟩ := List.prefix_of_prefix_length_le begins longest.stands shorter
  rw [List.append_assoc, List.prefix_append_right_inj] at stands
  cases x with
  | nil => exact ⟨second, isSecond, stands, by simp⟩
  | cons c x =>
      cases second with
      | nil => exact ⟨[], isSecond, List.nil_prefix, by simp⟩
      | cons d second =>
          obtain ⟨rfl, -⟩ := List.cons_prefix_cons.mp stands
          exact absurd isSecond (apart isFirst longest.mem second)

theorem Longest.mul (first : Longest L (a ++ rest) a) (second : Longest M rest b)
    (apart : Apart L M) :
    Longest (L * M) (a ++ rest) (a ++ b) where
  mem := Language.append_mem_mul first.mem second.mem
  stands := (List.prefix_append_right_inj a).mpr second.stands
  bound u word stands := by
    obtain ⟨c, isWord, begins, bound⟩ := first.behind apart word stands
    have shorter := second.bound c isWord begins
    rw [List.length_append]
    omega

theorem Longest.mul_absent (first : Longest L (a ++ rest) a) (absent : Absent M rest)
    (apart : Apart L M) :
    Absent (L * M) (a ++ rest) := by
  intro u word stands
  obtain ⟨b, isWord, begins, -⟩ := first.behind apart word stands
  exact absent b isWord begins

theorem Absent.mul (absent : Absent L rest) (M : Language CodePoint) : Absent (L * M) rest := by
  intro u word stands
  obtain ⟨first, isFirst, second, -, rfl⟩ := Language.mem_mul.mp word
  exact absent first isFirst ((List.prefix_append first second).trans stands)

theorem longest_one (rest : Text) : Longest 1 rest [] where
  mem := Language.nil_mem_one
  stands := List.nil_prefix
  bound u word _ := by rw [Language.mem_one u |>.mp word]

/-! What words begin with, and what they are lengthened by. -/

def Begins (P : CodePoint → Prop) (L : Language CodePoint) : Prop :=
  ∀ ⦃c x⦄, c :: x ∈ L → P c

def Lengthens (P : CodePoint → Prop) (L : Language CodePoint) : Prop :=
  ∀ ⦃a c x⦄, a ∈ L → a ++ c :: x ∈ L → P c

section

variable {P Q : CodePoint → Prop}

theorem Lengthens.apart (lengthens : Lengthens P L) (begins : Begins Q M)
    (differ : ∀ c, P c → ¬ Q c) :
    Apart L M :=
  fun _ c _ shorter longer _ word => differ c (lengthens shorter longer) (begins word)

theorem apart_of_length {n : Nat} (length : ∀ u ∈ L, u.length = n) (M : Language CodePoint) :
    Apart L M := by
  intro a c x shorter longer
  have same := (length _ shorter).trans (length _ longer).symm
  rw [List.length_append, List.length_cons] at same
  omega

theorem apart_single (c : CodePoint) (M : Language CodePoint) : Apart {[c]} M := by
  refine apart_of_length (n := 1) ?_ M
  rintro u rfl
  rfl

theorem apart_one (L : Language CodePoint) : Apart L 1 :=
  fun _ c _ _ _ y word => absurd (Language.mem_one _ |>.mp word) (List.cons_ne_nil c y)

theorem Begins.mono (begins : Begins P L) (weaker : ∀ c, P c → Q c) : Begins Q L :=
  fun c _ word => weaker c (begins word)

theorem begins_one : Begins P 1 :=
  fun c x word => absurd (Language.mem_one _ |>.mp word) (List.cons_ne_nil c x)

theorem begins_single (c : CodePoint) : Begins (· = c) {[c]} := by
  rintro d x word
  exact (List.cons.inj word).1

theorem Begins.add (here : Begins P L) (there : Begins P M) : Begins P (L + M) := by
  rintro c x (word | word)
  · exact here word
  · exact there word

theorem Begins.mul (first : Begins P L) (some : [] ∉ L) (M : Language CodePoint) :
    Begins P (L * M) := by
  intro c x word
  obtain ⟨u, isFirst, v, -, same⟩ := Language.mem_mul.mp word
  cases u with
  | nil => exact absurd isFirst some
  | cons d u =>
      obtain ⟨rfl, -⟩ := List.cons.inj same
      exact first isFirst

theorem Begins.mul_of_both (first : Begins P L) (second : Begins P M) : Begins P (L * M) := by
  intro c x word
  obtain ⟨u, isFirst, v, isSecond, same⟩ := Language.mem_mul.mp word
  cases u with
  | nil => exact second (show c :: x ∈ M from same ▸ isSecond)
  | cons d u =>
      obtain ⟨rfl, -⟩ := List.cons.inj same
      exact first isFirst

theorem nil_notMem_mul (some : [] ∉ L) (M : Language CodePoint) : [] ∉ L * M := by
  intro word
  obtain ⟨u, isFirst, v, -, same⟩ := Language.mem_mul.mp word
  exact some ((List.append_eq_nil_iff.mp same).1 ▸ isFirst)

end

/-! Words of a sum. -/

theorem absent_zero (rest : Text) : Absent 0 rest :=
  fun u word => absurd word (Language.notMem_zero u)

theorem Longest.add_absent (longest : Longest L rest t) (absent : Absent M rest) :
    Longest (L + M) rest t where
  mem := .inl longest.mem
  stands := longest.stands
  bound u word stands := by
    rcases word with here | there
    · exact longest.bound u here stands
    · exact absurd stands (absent u there)

theorem Absent.add_longest (absent : Absent L rest) (longest : Longest M rest t) :
    Longest (L + M) rest t := by
  rw [add_comm]
  exact longest.add_absent absent

theorem Absent.add (here : Absent L rest) (there : Absent M rest) : Absent (L + M) rest := by
  rintro u (word | word)
  · exact here u word
  · exact there u word

theorem elsewhere_zero (L : Language CodePoint) : Elsewhere L 0 :=
  fun rest _ _ _ => absent_zero rest

theorem Elsewhere.add (here : Elsewhere L M) (there : Elsewhere L N) : Elsewhere L (M + N) :=
  fun _ _ word stands => (here word stands).add (there word stands)

theorem Begins.elsewhere {P Q : CodePoint → Prop} (here : Begins P L) (some : [] ∉ L)
    (there : Begins Q M) (other : [] ∉ M) (differ : ∀ c, P c → ¬ Q c) : Elsewhere L M := by
  intro rest u word stands v isOther begins
  cases u with
  | nil => exact some word
  | cons c u =>
      cases v with
      | nil => exact other isOther
      | cons d v =>
          obtain ⟨more, rfl⟩ := stands
          obtain ⟨rfl, -⟩ := List.cons_prefix_cons.mp begins
          exact differ d (here word) (there isOther)

/-- Behind a common first part it is the second parts that decide, as no first part is lengthened by
them. -/
theorem Elsewhere.mul (second : Elsewhere M N) (apart : Apart L M) (apart' : Apart L N) :
    Elsewhere (L * M) (L * N) := by
  intro rest u word stands v isOther begins
  obtain ⟨a, first, m, isM, rfl⟩ := Language.mem_mul.mp word
  obtain ⟨b, first', n, isN, rfl⟩ := Language.mem_mul.mp isOther
  -- A first part does not go on where a second part begins, and no second part is empty.
  have same {a b m : Text} {K : Language CodePoint} (isFirst : a ∈ L) (isLonger : b ∈ L)
      (isSecond : m ∈ K) (some : m ≠ []) (apart : Apart L K) (shorter : a <+: b)
      (stands : a ++ m <+: rest) (begins : b <+: rest) :
      a = b := by
    obtain ⟨x, rfl⟩ := shorter
    obtain ⟨more, rfl⟩ := begins
    rw [List.append_assoc, List.prefix_append_right_inj] at stands
    cases x with
    | nil => rw [List.append_nil]
    | cons c x =>
        obtain ⟨d, m, rfl⟩ := List.exists_cons_of_ne_nil some
        obtain ⟨rfl, -⟩ := List.cons_prefix_cons.mp stands
        exact absurd isSecond (apart isFirst isLonger m)
  have someM : m ≠ [] := fun none => second isM (none ▸ List.nil_prefix) n isN List.prefix_rfl
  have someN : n ≠ [] := fun none => second isM List.prefix_rfl n isN (none ▸ List.nil_prefix)
  have beginsA := (List.prefix_append a m).trans stands
  have beginsB := (List.prefix_append b n).trans begins
  obtain rfl : a = b := by
    rcases List.prefix_or_prefix_of_prefix beginsA beginsB with shorter | shorter
    · exact same first first' isM someM apart shorter stands beginsB
    · exact (same first' first isN someN apart' shorter begins beginsA).symm
  obtain ⟨more, rfl⟩ := beginsA
  rw [List.prefix_append_right_inj] at stands begins
  exact second isM stands n isN begins

/-- The empty word is longer than none. -/
theorem Longest.add_one (longest : Longest L rest t) : Longest (L + 1) rest t where
  mem := .inl longest.mem
  stands := longest.stands
  bound u word stands := by
    rcases word with here | empty
    · exact longest.bound u here stands
    · rw [Language.mem_one u |>.mp empty]
      exact Nat.zero_le _

end Descent.Text
