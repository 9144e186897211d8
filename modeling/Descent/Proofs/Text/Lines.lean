import Mathlib.Data.List.TakeWhile
import Descent.Text.Line
import Descent.Proofs.Text.Inside

/-!
Lines around positions. Where every break of a text has a line feed in it, the two counts of lines
agree: the line with the number of a position goes from the line feed before the position to the
break after it.
-/

namespace Descent.Text

/-- All line breaks are line feeds, or carriage returns with a line feed behind them. -/
def BreaksAtLineFeeds (t : Text) : Prop :=
  ∀ i, (lt : i < t.length) → endsLine t[i] = true →
    isLineFeed t[i] = true ∨ t[i].val = 0x0D ∧ t[i + 1]?.any isLineFeed = true

instance (t : Text) : Decidable t.BreaksAtLineFeeds :=
  inferInstanceAs (Decidable (∀ i, (lt : i < t.length) → _ → _))

variable {c d : CodePoint} {line t rest text : Text} {pos : Nat}

theorem endsLine_of_isLineFeed (feed : isLineFeed c = true) : endsLine c = true := by
  simp only [isLineFeed, beq_iff_eq] at feed
  simp [endsLine, CodePoint.isWithin, feed]

namespace BreaksAtLineFeeds

theorem tail (breaks : BreaksAtLineFeeds (c :: t)) : t.BreaksAtLineFeeds :=
  fun i lt => breaks (i + 1) (Nat.succ_lt_succ lt)

theorem head (breaks : BreaksAtLineFeeds (c :: t)) (ends : endsLine c = true) :
    isLineFeed c = true ∨ c.val = 0x0D ∧ ∃ d rest, t = d :: rest ∧ isLineFeed d = true := by
  refine (breaks 0 (Nat.zero_lt_succ _) ends).imp_right fun followed => ⟨followed.1, ?_⟩
  cases t with
  | nil => cases followed.2
  | cons d rest => exact ⟨d, rest, rfl, followed.2⟩

end BreaksAtLineFeeds

/-! Lines, one code point at a time. -/

theorem linesFrom_within (within : endsLine c = false) :
    linesFrom line (c :: t) = linesFrom (c :: line) t := by
  cases t with
  | nil => simp [linesFrom, within]
  | cons d rest => simp [linesFrom, within]

theorem linesFrom_lineFeed (feed : isLineFeed c = true) :
    linesFrom line (c :: t) = line.reverse :: linesFrom [] t := by
  have ends := endsLine_of_isLineFeed feed
  cases t with
  | nil => simp [linesFrom, ends]
  | cons d rest =>
      have notReturn : c.val ≠ 0x0D := by
        simp only [isLineFeed, beq_iff_eq] at feed
        omega
      simp [linesFrom, ends, notReturn]

theorem linesFrom_return (carriage : c.val = 0x0D) (feed : isLineFeed d = true) :
    linesFrom line (c :: d :: rest) = linesFrom line (d :: rest) := by
  have ends : endsLine c = true := by simp [endsLine, CodePoint.isWithin, carriage]
  rw [linesFrom_lineFeed feed]
  simp only [isLineFeed] at feed
  simp [linesFrom, ends, carriage, feed]

/-- What stands between a position and the line feed before it, nearest first. Before the text
stands `line`, nearest first too. -/
def backToLineFeed (line t : Text) (pos : Nat) : Text :=
  ((t.take pos).reverse ++ line).takeWhile fun c => !isLineFeed c

theorem backToLineFeed_start (noFeed : ∀ c ∈ line, isLineFeed c = false) (start : t.take pos = []) :
    backToLineFeed line t pos = line := by
  rw [backToLineFeed, start]
  exact List.takeWhile_eq_self_iff.mpr fun c member => by simp [noFeed c member]

theorem backToLineFeed_succ :
    backToLineFeed line (c :: t) (pos + 1) = backToLineFeed (c :: line) t pos := by
  simp [backToLineFeed]

theorem backToLineFeed_lineFeed (feed : isLineFeed c = true) :
    backToLineFeed (c :: line) t pos = backToLineFeed [] t pos := by
  unfold backToLineFeed
  induction (t.take pos).reverse with
  | nil => simp [feed]
  | cons d before ih => simp only [List.cons_append, List.takeWhile_cons, ih]

theorem backToLineFeed_return (feed : isLineFeed d = true) :
    backToLineFeed (c :: line) (d :: rest) (pos + 1) = backToLineFeed line (d :: rest)
      (pos + 1) := by
  rw [backToLineFeed_succ, backToLineFeed_succ, backToLineFeed_lineFeed feed,
    backToLineFeed_lineFeed feed]

/-- The first line ends at the first break. -/
theorem linesFrom_first (found : (linesFrom line t)[0]? = some text) :
    text = line.reverse ++ t.takeWhile fun c => !endsLine c := by
  induction t generalizing line with
  | nil =>
      rw [linesFrom] at found
      split at found <;> cases found
      simp
  | cons c t ih =>
      by_cases ends : endsLine c = true
      · have here : text = line.reverse := by
          cases t with
          | nil => simpa [linesFrom, ends] using found.symm
          | cons d rest =>
              rw [linesFrom, if_pos ends] at found
              split at found <;> exact (Option.some.inj found).symm
        simp [here, ends]
      · rw [linesFrom_within (by simpa using ends)] at found
        simpa [ends] using ih found

/-- The line with a position's number, if it reaches the position. -/
theorem linesFrom_at (noFeed : ∀ c ∈ line, isLineFeed c = false) (breaks : t.BreaksAtLineFeeds)
    (found : (linesFrom line t)[(t.take pos).countP isLineFeed]? = some text)
    (reaches : (backToLineFeed line t pos).length ≤ text.length) :
    text = (backToLineFeed line t pos).reverse ++ (t.drop pos).takeWhile fun c => !endsLine c := by
  induction t generalizing line pos with
  | nil =>
      rw [backToLineFeed_start noFeed List.take_nil, List.drop_nil]
      exact linesFrom_first (by simpa using found)
  | cons c t ih =>
      cases pos with
      | zero =>
          rw [backToLineFeed_start noFeed rfl]
          exact linesFrom_first found
      | succ pos =>
          rw [backToLineFeed_succ] at reaches ⊢
          rw [List.take_succ_cons] at found
          cases ends : endsLine c with
          | false =>
              have inLine : isLineFeed c = false := by
                simpa [ends] using mt (endsLine_of_isLineFeed (c := c))
              rw [linesFrom_within ends, List.countP_cons_of_neg (by simp [inLine])] at found
              exact ih (by simpa [inLine] using noFeed) breaks.tail found reaches
          | true =>
              rcases breaks.head ends with feed | ⟨carriage, d, rest, rfl, feed⟩
              · rw [backToLineFeed_lineFeed feed] at reaches ⊢
                rw [linesFrom_lineFeed feed, List.countP_cons_of_pos feed] at found
                exact ih (by simp) breaks.tail found reaches
              · have inLine : isLineFeed c = false := by simp [isLineFeed, carriage]
                rw [linesFrom_return carriage feed,
                  List.countP_cons_of_neg (by simp [inLine])] at found
                cases pos with
                | zero =>
                    -- The line ends before the carriage return, so it does not reach the line feed.
                    have here := linesFrom_first found
                    rw [backToLineFeed_start (by simpa [inLine] using noFeed) rfl, here,
                      List.takeWhile_cons_of_neg (by simp [endsLine_of_isLineFeed feed]),
                        List.append_nil,
                      List.length_cons, List.length_reverse] at reaches
                    exact absurd reaches (Nat.not_succ_le_self _)
                | succ pos =>
                    rw [backToLineFeed_return feed] at reaches ⊢
                    exact ih noFeed breaks.tail found reaches

theorem linesFrom_ne_nil (line : Text) (some : t ≠ []) : linesFrom line t ≠ [] := by
  induction t generalizing line with
  | nil => exact absurd rfl some
  | cons c t ih =>
      cases t with
      | nil => rw [linesFrom]; split <;> exact List.cons_ne_nil _ _
      | cons d rest =>
          rw [linesFrom]
          split
          · split <;> exact List.cons_ne_nil _ _
          · exact ih _ (List.cons_ne_nil d rest)

/-- In any text, a position within it has no more line feeds before it than there are lines. -/
theorem lineFeeds_lt_lines (line : Text) (inside : pos < t.length) :
    (t.take pos).countP isLineFeed < (linesFrom line t).length := by
  induction t generalizing line pos with
  | nil => cases inside
  | cons c t ih =>
      cases pos with
      | zero => exact List.length_pos_iff.mpr (linesFrom_ne_nil line (List.cons_ne_nil c t))
      | succ pos =>
          have further (line : Text) := ih line (Nat.lt_of_succ_lt_succ inside)
          rw [List.take_succ_cons]
          cases feed : isLineFeed c with
          | true =>
              rw [List.countP_cons_of_pos feed, linesFrom_lineFeed feed, List.length_cons]
              exact Nat.succ_lt_succ (further [])
          | false =>
              rw [List.countP_cons_of_neg (by simp [feed])]
              cases ends : endsLine c with
              | false => exact linesFrom_within ends ▸ further (c :: line)
              | true =>
                  cases t with
                  | nil => exact absurd inside (by simp)
                  | cons d rest =>
                      by_cases both : c.val = 0x0D ∧ isLineFeed d = true
                      · exact linesFrom_return both.1 both.2 ▸ further line
                      · have apart : (c.val == 0x0D && d.val == 0x0A) = false := by
                          simpa [isLineFeed] using both
                        rw [linesFrom, if_pos ends, apart]
                        exact Nat.lt_succ_of_lt (further [])

/-- The line of a position that is not on a break. -/
theorem linesFrom_around (noFeed : ∀ c ∈ line, isLineFeed c = false) (breaks : t.BreaksAtLineFeeds)
    (here : t[pos]? = some c) (inLine : endsLine c = false) :
    (linesFrom line t)[(t.take pos).countP isLineFeed]? =
      some ((backToLineFeed line t pos).reverse ++ (t.drop pos).takeWhile
        fun c => !endsLine c) := by
  induction t generalizing line pos with
  | nil => cases here
  | cons d t ih =>
      cases pos with
      | zero =>
          obtain ⟨first, others, lines⟩ :=
            List.exists_cons_of_ne_nil (linesFrom_ne_nil line (List.cons_ne_nil d t))
          have found : (linesFrom line (d :: t))[0]? = some first := by rw [lines]; rfl
          rw [backToLineFeed_start noFeed rfl, List.take_zero, List.countP_nil, found,
            linesFrom_first found]
          rfl
      | succ pos =>
          rw [List.getElem?_cons_succ] at here
          rw [backToLineFeed_succ, List.take_succ_cons, List.drop_succ_cons]
          cases ends : endsLine d with
          | false =>
              have plain : isLineFeed d = false := by
                simpa [ends] using mt (endsLine_of_isLineFeed (c := d))
              rw [linesFrom_within ends, List.countP_cons_of_neg (by simp [plain])]
              exact ih (by simpa [plain] using noFeed) breaks.tail here
          | true =>
              rcases breaks.head ends with feed | ⟨carriage, e, rest, rfl, feed⟩
              · rw [backToLineFeed_lineFeed feed, linesFrom_lineFeed feed,
                  List.countP_cons_of_pos feed, List.getElem?_cons_succ]
                exact ih (by simp) breaks.tail here
              · have plain : isLineFeed d = false := by simp [isLineFeed, carriage]
                rw [linesFrom_return carriage feed, List.countP_cons_of_neg (by simp [plain])]
                cases pos with
                | zero =>
                    -- The position would be on the line feed.
                    obtain rfl := Option.some.inj here
                    exact absurd (endsLine_of_isLineFeed feed) (by simp [inLine])
                | succ pos =>
                    rw [backToLineFeed_return feed]
                    exact ih noFeed breaks.tail here

theorem slice_start (inside : pos ≤ t.length) : t.slice 0 pos = t.take pos :=
  slice_eq (i := 0) (Nat.zero_le _) inside

theorem lineNumber_eq (inside : pos ≤ t.length) :
    t.lineNumber pos = (t.take pos).countP isLineFeed + 1 := by
  rw [lineNumber, slice_start inside]

theorem column_eq (inside : pos ≤ t.length) :
    t.column pos = (backToLineFeed [] t pos).length + 1 := by
  rw [column, lastLineFeed, slice_start inside, backToLineFeed, List.append_nil, List.length_take,
    Nat.min_eq_left inside]
  omega

/-- The line with a position's number, if it reaches the position. -/
theorem line_at (breaks : t.BreaksAtLineFeeds) (inside : pos ≤ t.length)
    (found : t.lines[t.lineNumber pos - 1]? = some text)
    (reaches : t.column pos ≤ text.length + 1) :
    text = (backToLineFeed [] t pos).reverse ++ (t.drop pos).takeWhile fun c => !endsLine c := by
  rw [lineNumber_eq inside, Nat.add_sub_cancel] at found
  rw [column_eq inside] at reaches
  exact linesFrom_at (by simp) breaks found (by omega)

theorem line_around (breaks : t.BreaksAtLineFeeds) (here : t[pos]? = some c)
    (inLine : endsLine c = false) :
    t.lines[t.lineNumber pos - 1]? =
      some ((backToLineFeed [] t pos).reverse ++ (t.drop pos).takeWhile fun c => !endsLine c) := by
  have inside : pos < t.length := (List.getElem?_eq_some_iff.mp here).1
  rw [lineNumber_eq (Nat.le_of_lt inside), Nat.add_sub_cancel]
  exact linesFrom_around (by simp) breaks here inLine

end Descent.Text
