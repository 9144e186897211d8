import Mathlib.Algebra.GroupWithZero.Nat
import Mathlib.Data.List.Basic
import Descent.Proofs.Text.Lines

/-!
Positions by line and column. A text is cut at its line feeds alone; a place is the index of a piece
and an offset into it. Main statements: line and column of a position are a place at that position,
and places come in the order of their positions, by piece first.
-/

namespace Descent.Text

/-- A text, cut at its line feeds. -/
def pieces (t : Text) : List Text :=
  t.splitOnP isLineFeed

/-- Where a piece begins: the pieces before it count with the line feed behind each. -/
def pieceStart (t : Text) (index : Nat) : Nat :=
  ((t.pieces.take index).map fun piece => piece.length + 1).sum

/-- The place at an offset into a piece, which may be right behind its end, is that position. -/
structure LiesAt (t : Text) (index offset pos : Nat) : Prop where
  within : ∃ piece, t.pieces[index]? = some piece ∧ offset ≤ piece.length
  pos_eq : t.pieceStart index + offset = pos

variable {c : CodePoint} {t piece : Text} {index : Nat}

theorem pieces_lineFeed (feed : isLineFeed c = true) : pieces (c :: t) = [] :: pieces t := by
  rw [pieces, List.splitOnP_cons_eq_if_modifyHead, if_pos feed, pieces]

theorem pieces_within (within : isLineFeed c = false) :
    ∃ first rest, pieces t = first :: rest ∧ pieces (c :: t) = (c :: first) :: rest := by
  obtain ⟨first, rest, cut⟩ := List.exists_cons_of_ne_nil (List.splitOnP_ne_nil isLineFeed t)
  refine ⟨first, rest, cut, ?_⟩
  rw [pieces, List.splitOnP_cons_eq_if_modifyHead, if_neg (by simp [within]), cut,
    List.modifyHead_cons]

theorem pieceStart_zero (t : Text) : t.pieceStart 0 = 0 :=
  rfl

theorem pieceStart_lineFeed (feed : isLineFeed c = true) (index : Nat) :
    pieceStart (c :: t) (index + 1) = t.pieceStart index + 1 := by
  simp [pieceStart, pieces_lineFeed feed, Nat.add_comm]

theorem pieceStart_within (within : isLineFeed c = false) (index : Nat) :
    pieceStart (c :: t) (index + 1) = t.pieceStart (index + 1) + 1 := by
  obtain ⟨first, rest, cut, longer⟩ := pieces_within (t := t) within
  simp only [pieceStart, cut, longer, List.take_succ_cons, List.map_cons, List.sum_cons,
    List.length_cons]
  omega

theorem pieceStart_succ (found : t.pieces[index]? = some piece) :
    t.pieceStart (index + 1) = t.pieceStart index + piece.length + 1 := by
  simp [pieceStart, List.take_add_one, found, Nat.add_assoc]

theorem pieceStart_mono {i j : Nat} (le : i ≤ j) : t.pieceStart i ≤ t.pieceStart j := by
  induction le with
  | refl => exact Nat.le_refl _
  | @step j _ ih =>
      refine Nat.le_trans ih ?_
      cases found : t.pieces[j]? with
      | some piece => exact pieceStart_succ found ▸ by omega
      | none => simp [pieceStart, List.take_add_one, found]

namespace LiesAt

variable {i j a b p q : Nat}

/-- A place in an earlier piece is before every place in a later one. -/
theorem lt_of_lt (first : t.LiesAt i a p) (second : t.LiesAt j b q) (earlier : i < j) : p < q := by
  obtain ⟨piece, found, within⟩ := first.within
  calc p = t.pieceStart i + a := first.pos_eq.symm
    _ < t.pieceStart (i + 1) := by rw [pieceStart_succ found]; omega
    _ ≤ t.pieceStart j := pieceStart_mono earlier
    _ ≤ t.pieceStart j + b := Nat.le_add_right _ _
    _ = q := second.pos_eq

theorem lt_iff (first : t.LiesAt i a p) (second : t.LiesAt j b q) :
    p < q ↔ i < j ∨ i = j ∧ a < b := by
  have here := first.pos_eq
  have there := second.pos_eq
  rcases Nat.lt_trichotomy i j with earlier | rfl | later
  · have := lt_of_lt first second earlier
    omega
  · omega
  · have := lt_of_lt second first later
    omega

end LiesAt

/-! Line and column. -/

theorem backToLineFeed_within (within : isLineFeed c = false) (t : Text) (pos : Nat) :
    backToLineFeed [c] t pos =
      if (t.take pos).countP isLineFeed = 0 then (t.take pos).reverse ++ [c] else backToLineFeed
        [] t pos := by
  unfold backToLineFeed
  rw [List.append_nil, List.takeWhile_append]
  by_cases unbroken : (t.take pos).countP isLineFeed = 0
  · have whole : ((t.take pos).reverse.takeWhile fun c => !isLineFeed c) =
      (t.take pos).reverse := by
      refine List.takeWhile_eq_self_iff.mpr fun d member => ?_
      simpa using List.countP_eq_zero.mp unbroken d (List.mem_reverse.mp member)
    rw [if_pos unbroken, whole, if_pos rfl, List.takeWhile_cons_of_pos (by simp [within]),
      List.takeWhile_nil]
  · rw [if_neg unbroken, if_neg]
    intro whole
    have self :=
      (List.takeWhile_prefix (l := (t.take pos).reverse) fun c => !isLineFeed c).eq_of_length whole
    refine unbroken (List.countP_eq_zero.mpr fun d member => ?_)
    simpa using List.takeWhile_eq_self_iff.mp self d (List.mem_reverse.mpr member)

theorem liesAt_lineFeeds {pos : Nat} (inside : pos ≤ t.length) :
    t.LiesAt ((t.take pos).countP isLineFeed) (backToLineFeed [] t pos).length pos := by
  induction t generalizing pos with
  | nil =>
      obtain rfl := Nat.le_zero.mp inside
      exact ⟨⟨[], rfl, Nat.le_refl 0⟩, rfl⟩
  | cons c t ih =>
      cases pos with
      | zero =>
          obtain ⟨first, rest, cut⟩ :=
            List.exists_cons_of_ne_nil (List.splitOnP_ne_nil isLineFeed (c :: t))
          exact ⟨⟨first, by rw [pieces, cut]; rfl, Nat.zero_le _⟩, rfl⟩
      | succ pos =>
          obtain ⟨⟨piece, found, within⟩, pos_eq⟩ := ih (Nat.le_of_succ_le_succ inside)
          rw [List.take_succ_cons, backToLineFeed_succ]
          cases feed : isLineFeed c with
          | true =>
              rw [List.countP_cons_of_pos feed, backToLineFeed_lineFeed feed]
              refine ⟨⟨piece, by rw [pieces_lineFeed feed, List.getElem?_cons_succ, found], within⟩,
                ?_⟩
              rw [pieceStart_lineFeed feed]
              omega
          | false =>
              obtain ⟨first, rest, cut, longer⟩ := pieces_within (t := t) feed
              rw [List.countP_cons_of_neg (by simp [feed]), backToLineFeed_within feed]
              -- The code point belongs to the first piece, which is the one that the position is on
              -- or not.
              cases index : (t.take pos).countP isLineFeed with
              | zero =>
                  rw [index, cut, List.getElem?_cons_zero, Option.some_inj] at found
                  rw [index, pieceStart_zero, Nat.zero_add] at pos_eq
                  have first : (t.take pos).length = pos :=
                    List.length_take_of_le (Nat.le_of_succ_le_succ inside)
                  rw [if_pos rfl, List.length_append, List.length_reverse, first]
                  refine ⟨⟨c :: piece, by rw [longer, found]; rfl, ?_⟩,
                    by rw [pieceStart_zero]; simp⟩
                  simp only [List.length_cons, List.length_nil]
                  omega
              | succ index' =>
                  rw [index] at found pos_eq
                  rw [if_neg (Nat.succ_ne_zero _)]
                  refine ⟨⟨piece, ?_, within⟩, ?_⟩
                  · rw [longer, List.getElem?_cons_succ, ← found, cut, List.getElem?_cons_succ]
                  · rw [pieceStart_within feed]
                    omega

/-- Line and column count from one. -/
theorem liesAt_column {pos : Nat} (inside : pos ≤ t.length) :
    ∃ offset : Nat, t.column pos = offset + 1 ∧ t.LiesAt (t.lineNumber pos - 1) offset pos := by
  refine ⟨_, column_eq inside, ?_⟩
  rw [lineNumber_eq inside, Nat.add_sub_cancel]
  exact liesAt_lineFeeds inside

end Descent.Text
