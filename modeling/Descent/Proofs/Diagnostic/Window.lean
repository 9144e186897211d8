import Descent.Proofs.Diagnostic.Caret

/-!
The snippet of a note. Main statement: where every break of a text has a line feed in it, there is a
snippet exactly for the positions on a line, and it is a window of that line with the position in
it. In any text, the line of a note is looked up only where there is one.
-/

namespace Descent

namespace Text

/-- A text, taken apart around one of its lines: there is no break in the line, and one on either
side of it, if there is anything. -/
structure LineBetween (t front line back : Text) : Prop where
  text : t = front ++ line ++ back
  unbroken : ∀ c ∈ line, endsLine c = false
  front : ∀ c ∈ front.getLast?, endsLine c = true
  back : ∀ c ∈ back.head?, endsLine c = true

variable {c : CodePoint} {t : Text} {pos : Nat}

theorem exists_take_eq_append_backToLineFeed (t : Text) (pos : Nat) :
    ∃ front, t.take pos = front ++ (backToLineFeed [] t pos).reverse ∧
      ∀ c ∈ front.getLast?, isLineFeed c = true := by
  refine ⟨((t.take pos).reverse.dropWhile fun c => !isLineFeed c).reverse, ?_, fun c last => ?_⟩
  · rw [backToLineFeed, List.append_nil, ← List.reverse_append, List.takeWhile_append_dropWhile,
      List.reverse_reverse]
  · rw [List.getLast?_reverse, Option.mem_def] at last
    have stopped := List.head?_dropWhile_not (fun c => !isLineFeed c) (t.take pos).reverse
    rw [last] at stopped
    simpa using stopped

/-- Between a line feed and a position on a line there is no break: a carriage return would have its
line feed behind it. -/
theorem BreaksAtLineFeeds.unbroken_back (breaks : t.BreaksAtLineFeeds) (here : t[pos]? = some c)
    (inLine : endsLine c = false) : ∀ d ∈ backToLineFeed [] t pos, endsLine d = false := by
  obtain ⟨front, taken, -⟩ := exists_take_eq_append_backToLineFeed t pos
  have noFeed : ∀ d ∈ backToLineFeed [] t pos, isLineFeed d = false := by
    intro d member
    rw [backToLineFeed, List.append_nil] at member
    simpa using List.mem_takeWhile_imp member
  intro d member
  by_contra ends
  rw [Bool.not_eq_false] at ends
  obtain ⟨left, right, split⟩ := List.append_of_mem (List.mem_reverse.mpr member)
  have inside : pos < t.length := (List.getElem?_eq_some_iff.mp here).1
  have whole : t = front ++ left ++ d :: (right ++ t.drop pos) := by
    conv => lhs; rw [← List.take_append_drop pos t, taken, split]
    simp
  have found : t[(front ++ left).length]? = some d := by
    conv => lhs; rw [whole]
    simp
  obtain ⟨lt, at_eq⟩ := List.getElem?_eq_some_iff.mp found
  rcases breaks _ lt (by rw [at_eq]; exact ends) with feed | ⟨-, followed⟩
  · rw [at_eq, noFeed d member] at feed
    cases feed
  · have next : t[(front ++ left).length + 1]? = (right ++ t.drop pos).head? := by
      conv => lhs; rw [whole]
      rw [List.getElem?_append_right (by omega), Nat.add_sub_cancel_left, List.getElem?_cons_succ,
        List.head?_eq_getElem?]
    rw [next] at followed
    cases right with
    | nil =>
        rw [List.nil_append, List.head?_drop, here] at followed
        rw [endsLine_of_isLineFeed followed] at inLine
        cases inLine
    | cons e right =>
        have behind : e ∈ backToLineFeed [] t pos := List.mem_reverse.mp (by rw [split]; simp)
        cases (noFeed e behind).symm.trans followed

/-- The line of a position that is not on a break, with the text on either side of it. -/
theorem line_between (breaks : t.BreaksAtLineFeeds) (here : t[pos]? = some c)
    (inLine : endsLine c = false) :
    ∃ front after back, (t.drop pos).takeWhile (fun c => !endsLine c) = c :: after ∧
      front.length + (backToLineFeed [] t pos).length = pos ∧
      t.LineBetween front ((backToLineFeed [] t pos).reverse ++ c :: after) back := by
  obtain ⟨front, taken, feed⟩ := exists_take_eq_append_backToLineFeed t pos
  obtain ⟨inside, rfl⟩ := List.getElem?_eq_some_iff.mp here
  have rest : (t.drop pos).takeWhile (fun c => !endsLine c) =
      t[pos] :: (t.drop (pos + 1)).takeWhile fun c => !endsLine c := by
    rw [List.drop_eq_getElem_cons inside, List.takeWhile_cons_of_pos (by simp [inLine])]
  refine ⟨front, _, (t.drop pos).dropWhile fun c => !endsLine c, rest, ?_, ?_⟩
  · have lengths := congrArg List.length taken
    rw [List.length_append, List.length_reverse, List.length_take,
      Nat.min_eq_left (Nat.le_of_lt inside)]
      at lengths
    exact lengths.symm
  · rw [← rest]
    refine ⟨?_, fun d member => ?_, fun d last => endsLine_of_isLineFeed (feed d last),
      fun d first => ?_⟩
    · rw [← List.append_assoc, ← taken, List.append_assoc, List.takeWhile_append_dropWhile,
        List.take_append_drop]
    · rcases List.mem_append.mp member with behind | ahead
      · exact breaks.unbroken_back here inLine d (List.mem_reverse.mp behind)
      · simpa using List.mem_takeWhile_imp ahead
    · have stopped := List.head?_dropWhile_not (fun c => !endsLine c) (t.drop pos)
      rw [Option.mem_def.mp first] at stopped
      simpa using stopped

end Text

/-- A snippet is a window of its line, with the code point at the column in it. -/
theorem Snippet.around_window (before : Text) (c : CodePoint) (after : Text) :
    ∃ left right, before ++ c :: after = left ++
      (around (before ++ c :: after) (before.length + 1)).text ++ right ∧
      (around (before ++ c :: after) (before.length + 1)).text.length ≤ 40 ∧
      left.length ≤ before.length ∧
      before.length < left.length +
        (around (before ++ c :: after) (before.length + 1)).text.length := by
  by_cases near : before.length < 20
  · refine ⟨[], (before ++ c :: after).drop 40, ?_⟩
    rw [around, if_pos (by omega)]
    refine ⟨(List.take_append_drop 40 _).symm, List.length_take_le _ _, Nat.zero_le _, ?_⟩
    rw [List.length_nil, List.length_take, List.length_append, List.length_cons]
    omega
  · have start : (before.length + 1 - 20 : Int) = (before.length - 19 : Nat) := by omega
    have stop : (before.length + 1 + 20 : Int) = (before.length + 21 : Nat) := by omega
    have inside : before.length - 19 ≤ (before ++ c :: after).length := by
      rw [List.length_append]
      omega
    rw [around, if_neg (by omega), start, stop, Text.slice_eq_take_drop _ inside,
      show before.length + 21 - (before.length - 19) = 40 by omega]
    refine ⟨(before ++ c :: after).take (before.length - 19),
      ((before ++ c :: after).drop (before.length - 19)).drop 40, ?_, List.length_take_le _ _, ?_,
        ?_⟩
    · rw [List.append_assoc, List.take_append_drop, List.take_append_drop]
    · rw [List.length_take]
      omega
    · rw [List.length_take, List.length_take, List.length_drop, List.length_append,
        List.length_cons]
      omega

/-- The line of a text with an index, which is a fault where there is none. -/
def Text.lineAt (t : Text) (index : Nat) : Except Fault Text :=
  match t.lines[index]? with
  | some line => .ok line
  | none => .error .outOfRange

namespace Note

/-- The snippet of a line and column, with the line looked up only if there are so many. -/
def lookUpSnippet (src : Text) (line : Nat) (column : Int) : Except Fault (Option Snippet) :=
  if line - 1 < src.lines.length then do
    let text ← src.lineAt (line - 1)
    return if column ≤ text.length then some (Snippet.around text column) else none
  else
    return none

variable {src : Text} {pos : Nat} {c : CodePoint} {snippet : Snippet}

theorem ofPosition_min (src : Text) (pos : Nat) :
    ofPosition src pos = ofPosition src (min pos src.length : Nat) := by
  have position :
      min (pos : Int) src.length = min ((min pos src.length : Nat) : Int) src.length := by
    omega
  rw [ofPosition, position, ofPosition]

theorem ofPosition_snippet? (within : pos ≤ src.length) : (ofPosition src pos).snippet? =
    snippetAt? src (src.lineNumber pos) (src.column pos) := by
  have position : min (pos : Int) src.length = pos := by omega
  rw [ofPosition, position]

/-- On a line there is a snippet, a window of the line. -/
theorem snippet_of_inLine (breaks : src.BreaksAtLineFeeds) (here : src[pos]? = some c)
    (inLine : Text.endsLine c = false) :
    ∃ before after front back, front.length + before.length = pos ∧
      src.LineBetween front (before ++ c :: after) back ∧
      src.lines[(ofPosition src pos).line - 1]? = some (before ++ c :: after) ∧
      (ofPosition src pos).snippet? =
        some (Snippet.around (before ++ c :: after) (before.length + 1)) := by
  have within : pos ≤ src.length := Nat.le_of_lt (List.getElem?_eq_some_iff.mp here).1
  have position : min (pos : Int) src.length = pos := by omega
  obtain ⟨front, after, back, rest, length, between⟩ := Text.line_between breaks here inLine
  have line := Text.line_around breaks here inLine
  rw [rest] at line
  refine ⟨(Text.backToLineFeed [] src pos).reverse, after, front, back,
    by rw [List.length_reverse, length], between, ?_, ?_⟩
  · rw [ofPosition, position]
    exact line
  · rw [ofPosition_snippet? within]
    refine snippetAt?_eq_some.mpr ⟨_, line, ?_, ?_⟩
    · rw [Text.column_eq within, List.length_append, List.length_reverse, List.length_cons]
      omega
    · rw [Text.column_eq within, List.length_reverse]

/-- A position with a snippet is on a line. -/
theorem inLine_of_snippet (breaks : src.BreaksAtLineFeeds)
    (found : (ofPosition src pos).snippet? = some snippet) :
    ∃ c, src[pos]? = some c ∧ Text.endsLine c = false := by
  rw [ofPosition_min] at found
  obtain ⟨before, c, after, -, rest, -⟩ := snippet_at breaks (Nat.min_le_right _ _) found
  have first : (src.drop (min pos src.length)).head? = some c := by
    have head := congrArg List.head? rest
    rw [List.head?_takeWhile] at head
    exact (Option.filter_eq_some_iff.mp head).1
  have inLine : (!Text.endsLine c) = true :=
    List.mem_takeWhile_imp (l := src.drop (min pos src.length)) (rest ▸ List.mem_cons_self)
  rw [List.head?_drop] at first
  have inside : min pos src.length < src.length := (List.getElem?_eq_some_iff.mp first).1
  rw [show min pos src.length = pos by omega] at first
  exact ⟨c, first, by simpa using inLine⟩

/-- In any text the line of a position within it is there. -/
theorem line_lt (inside : pos < src.length) : (ofPosition src pos).line - 1 < src.lines.length := by
  have position : min (pos : Int) src.length = pos := by omega
  rw [ofPosition, position, Text.lineNumber_eq (Nat.le_of_lt inside), Nat.add_sub_cancel]
  exact Text.lineFeeds_lt_lines [] inside

theorem lookUpSnippet_eq (src : Text) (line : Nat) (column : Int) :
    lookUpSnippet src line column = .ok (snippetAt? src line column) := by
  rw [lookUpSnippet, Text.lineAt, snippetAt?]
  by_cases there : line - 1 < src.lines.length
  · rw [if_pos there, List.getElem?_eq_getElem there]
    rfl
  · rw [if_neg there, List.getElem?_eq_none (by omega)]
    rfl

theorem snippet_in_line :
    (∀ (src : Text) (pos : Nat), src.BreaksAtLineFeeds →
      let note := ofPosition src pos
      (note.snippet?.isSome ↔ ∃ c, src[pos]? = some c ∧ Text.endsLine c = false) ∧
      ∀ snippet, note.snippet? = some snippet →
        ∃ front left right back, src.LineBetween front (left ++ snippet.text ++ right) back ∧
          src.lines[note.line - 1]? = some (left ++ snippet.text ++ right) ∧
          snippet.text.length ≤ 40 ∧
          front.length + left.length ≤ pos ∧
            pos < front.length + left.length + snippet.text.length) ∧
    ∀ (src : Text) (pos : Nat),
      let note := ofPosition src pos
      lookUpSnippet src note.line note.column = .ok note.snippet? ∧
        (pos < src.length → note.line - 1 < src.lines.length) := by
  refine ⟨fun src pos breaks => ⟨⟨fun found => ?only, fun ⟨c, here, inLine⟩ => ?there⟩,
    fun snippet found => ?window⟩, fun src pos => ⟨lookUpSnippet_eq src _ _, line_lt⟩⟩
  case only =>
    obtain ⟨snippet, found⟩ := Option.isSome_iff_exists.mp found
    exact inLine_of_snippet breaks found
  case there =>
    obtain ⟨before, after, front, back, -, -, -, found⟩ := snippet_of_inLine breaks here inLine
    exact Option.isSome_iff_exists.mpr ⟨_, found⟩
  case window =>
    obtain ⟨c, here, inLine⟩ := inLine_of_snippet breaks found
    obtain ⟨before, after, front, back, length, between, line, shown⟩ :=
      snippet_of_inLine breaks here inLine
    obtain rfl := Option.some.inj (shown.symm.trans found)
    obtain ⟨left, right, split, short, starts, ends⟩ := Snippet.around_window before c after
    exact ⟨front, left, right, back, split ▸ between, split ▸ line, short, by omega, by omega⟩

/-- A position on a carriage return has no snippet, and one on the line behind it has that line. -/
theorem snippet_in_line_returns :
    let src := Text.ofString "ab\r\ncd"
    src.BreaksAtLineFeeds ∧ (ofPosition src 2).snippet? = none ∧ 5 < src.length ∧
      (ofPosition src 5).line - 1 < src.lines.length ∧
      ∃ front left right back, src.LineBetween front (left ++ Text.ofString "cd" ++ right) back ∧
        front.length + left.length ≤ 5 := by
  intro src
  have breaks : src.BreaksAtLineFeeds := by decide
  have inside : 5 < src.length := by decide
  obtain ⟨shown, lookedUp⟩ := snippet_in_line
  obtain ⟨onLine, -⟩ := shown src 2 breaks
  obtain ⟨front, left, right, back, between, -, -, starts, -⟩ :=
    (shown src 5 breaks).2 ⟨Text.ofString "cd", 1⟩ (by decide)
  refine ⟨breaks, ?_, inside, (lookedUp src 5).2 inside, front, left, right, back, between, starts⟩
  by_contra found
  obtain ⟨c, here, inLine⟩ := onLine.mp (Option.isSome_iff_ne_none.mpr found)
  obtain rfl := Option.some.inj here
  cases inLine

end Note

end Descent
