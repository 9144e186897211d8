import Descent.Text.Position

/-!
Positions within a text: what is seen there, and how slices between them fit together.
-/

namespace Descent.Text

section

variable {src : Text} {pos : Int}

theorem lt_length_of_lookAt {c : CodePoint} (found : src.lookAt pos = .ok (some c)) :
    pos < src.length := by
  unfold lookAt at found
  split at found
  · assumption
  · cases found

theorem bound_of_inside (nonneg : 0 ≤ pos) (inside : pos ≤ src.length) :
    src.bound pos = pos.toNat := by
  unfold bound
  rw [if_neg (by omega)]
  omega

theorem add_length_le_of_standsAt {part : Text} (nonneg : 0 ≤ pos)
    (stands : src.standsAt part pos = true) :
    pos + part.length ≤ src.length := by
  obtain ⟨inside, fits⟩ : pos ≤ src.length ∧ part.isPrefixOf (src.drop (src.bound pos)) = true := by
    simpa [standsAt] using stands
  have shorter := (List.isPrefixOf_iff_prefix.mp fits).length_le
  rw [bound_of_inside nonneg inside, List.length_drop] at shorter
  omega

end

variable {src : Text} {i j k : Nat}

theorem lookAt_eq (src : Text) (i : Nat) : src.lookAt i = .ok src[i]? := by
  unfold lookAt at?
  by_cases lt : i < src.length
  · rw [if_pos (by omega), if_pos (by omega), Int.toNat_natCast, List.getElem?_eq_getElem lt]
  · rw [if_neg (by omega), List.getElem?_eq_none (by omega)]

theorem standsAt_iff (inside : i ≤ src.length) {t : Text} :
    src.standsAt t i = true ↔ t <+: src.drop i := by
  have bound : src.bound i = i := by
    rw [bound_of_inside (by omega) (by omega), Int.toNat_natCast]
  simp [standsAt, bound, inside]

/-- A text that is not empty stands nowhere past the end. -/
theorem standsAt_iff_of_ne_nil {t : Text} (filled : t ≠ []) (src : Text) (i : Nat) :
    src.standsAt t i = true ↔ t <+: src.drop i := by
  by_cases inside : i ≤ src.length
  · exact standsAt_iff inside
  · have past : ¬ (i : Int) ≤ src.length := by omega
    rw [List.drop_eq_nil_of_le (by omega), List.prefix_nil]
    simp [standsAt, past, filled]

theorem getElem?_of_drop {c : CodePoint} {rest : Text} (left : src.drop i = c :: rest) :
    src[i]? = some c := by
  rw [← List.head?_drop, left]
  rfl

theorem drop_succ_of_drop {c : CodePoint} {rest : Text} (left : src.drop i = c :: rest) :
    src.drop (i + 1) = rest := by
  rw [← List.tail_drop, left]
  rfl

theorem slice_eq (onward : i ≤ j) (inside : j ≤ src.length) :
    src.slice i j = (src.take j).drop i := by
  unfold slice
  rw [bound_of_inside (by omega) (by omega), bound_of_inside (by omega) (by omega)]
  simp only [Int.toNat_natCast]

/-- A slice that starts within a text, wherever it stops. -/
theorem slice_eq_take_drop (src : Text) (inside : i ≤ src.length) :
    src.slice i j = (src.drop i).take (j - i) := by
  rw [slice, bound_of_inside (by omega) (by omega), Int.toNat_natCast, List.drop_take]
  unfold bound
  rw [if_neg (by omega), Int.toNat_natCast, List.take_eq_take_iff, List.length_drop]
  omega

theorem getElem?_slice (src : Text) (inside : i ≤ src.length) (within : i + k < j) :
    (src.slice i j)[k]? = src[i + k]? := by
  rw [slice, bound_of_inside (by omega) (by omega), Int.toNat_natCast, List.getElem?_drop]
  unfold bound
  rw [if_neg (by omega), Int.toNat_natCast, List.getElem?_take]
  split
  · rfl
  · exact (List.getElem?_eq_none (by omega)).symm

theorem slice_self (src : Text) (pos : Int) : src.slice pos pos = [] :=
  List.drop_eq_nil_of_le (List.length_take_le _ _)

theorem length_slice_le (src : Text) (start stop : Int) :
    (src.slice start stop).length ≤ src.length := by
  rw [slice, List.length_drop, List.length_take]
  omega

/-- Slices that meet make up the slice over both. -/
theorem slice_append_slice (first : i ≤ k) (second : k ≤ j) (inside : j ≤ src.length) :
    src.slice i k ++ src.slice k j = src.slice i j := by
  rw [slice_eq first (by omega), slice_eq second inside, slice_eq (by omega) inside]
  have split : src.take j = src.take k ++ (src.take j).drop k := by
    conv => lhs; rw [← List.take_append_drop k (src.take j), List.take_take, Nat.min_eq_left second]
  have short : i ≤ (src.take k).length := by
    rw [List.length_take]
    omega
  conv => rhs; rw [split, List.drop_append_of_le_length short]

theorem slice_of_prefix {t : Text} (inside : i ≤ src.length) (stands : t <+: src.drop i) :
    src.slice i (i + t.length : Nat) = t := by
  have fits := stands.length_le
  rw [List.length_drop] at fits
  rw [slice_eq (by omega) (by omega), List.drop_take]
  simpa using (List.prefix_iff_eq_take.mp stands).symm

theorem slice_of_getElem? {c : CodePoint} (seen : src[i]? = some c) :
    src.slice i (i + 1 : Nat) = [c] := by
  obtain ⟨lt, rfl⟩ := List.getElem?_eq_some_iff.mp seen
  apply slice_of_prefix (t := [src[i]]) (Nat.le_of_lt lt)
  rw [List.drop_eq_getElem_cons lt]
  exact ⟨_, rfl⟩

/-- What is left of a text from a position on. -/
structure Remains (src : Text) (i : Nat) (rest : Text) : Prop where
  inside : i ≤ src.length
  drop : src.drop i = rest

namespace Remains

variable {t rest : Text} {c : CodePoint}

theorem behind (before rest : Text) : (before ++ rest).Remains before.length rest where
  inside := by simp
  drop := by simp

theorem skip (remains : src.Remains i (t ++ rest)) : src.Remains (i + t.length) rest where
  inside := by
    have lengths := congrArg List.length remains.drop
    have inside := remains.inside
    rw [List.length_drop, List.length_append] at lengths
    omega
  drop := by
    rw [← List.drop_drop, remains.drop, List.drop_left]

theorem next (remains : src.Remains i (c :: rest)) : src.Remains (i + 1) rest :=
  skip (t := [c]) remains

theorem getElem? (remains : src.Remains i rest) : src[i]? = rest.head? := by
  rw [← remains.drop, List.head?_drop]

theorem standsAt_iff (remains : src.Remains i rest) : src.standsAt t i = true ↔ t <+: rest := by
  rw [Text.standsAt_iff remains.inside, remains.drop]

end Remains

end Descent.Text
