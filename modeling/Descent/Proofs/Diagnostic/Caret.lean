import Descent.Diagnostic
import Descent.Proofs.Text.Lines

/-!
The caret of a note. Main statement: it stands under the position up to column twenty, and one to
the right of it on the rest of a long line, where the part of the line that is shown begins one code
point late.
-/

namespace Descent

namespace Snippet

variable (before : Text) (c : CodePoint) (after : Text)

theorem around_near (near : before.length < 20) :
    (around (before ++ c :: after) (before.length + 1)).indent = before.length ∧
    (around (before ++ c :: after) (before.length + 1)).text[before.length]? = some c := by
  rw [around, if_pos (by omega)]
  refine ⟨by simp, ?_⟩
  rw [List.getElem?_take_of_lt (by omega)]
  simp

theorem around_far (far : 20 ≤ before.length) :
    (around (before ++ c :: after) (before.length + 1)).indent = 20 ∧
    (around (before ++ c :: after) (before.length + 1)).text[19]? = some c ∧
    (around (before ++ c :: after) (before.length + 1)).text[20]? = after.head? := by
  have start : (before.length + 1 - 20 : Int) = (before.length - 19 : Nat) := by omega
  have stop : (before.length + 1 + 20 : Int) = (before.length + 21 : Nat) := by omega
  have inside : before.length - 19 ≤ (before ++ c :: after).length := by
    rw [List.length_append]
    omega
  rw [around, if_neg (by omega), start, stop]
  refine ⟨rfl, ?_, ?_⟩
  · rw [Text.getElem?_slice _ inside (by omega),
      show before.length - 19 + 19 = before.length by omega]
    simp
  · rw [Text.getElem?_slice _ inside (by omega),
      show before.length - 19 + 20 = before.length + 1 by omega,
      List.getElem?_append_right (by omega), Nat.add_sub_cancel_left, List.getElem?_cons_succ,
      List.head?_eq_getElem?]

end Snippet

namespace Note

variable {src : Text} {pos : Nat} {snippet : Snippet}

theorem snippetAt?_eq_some {line : Nat} {column : Int} : snippetAt? src line column = some snippet ↔
    ∃ text, src.lines[line - 1]? = some text ∧ column ≤ text.length ∧
      Snippet.around text column = snippet := by
  simp [snippetAt?, Option.bind_eq_some_iff]

/-- A snippet is a part of the line that the position is on. -/
theorem snippet_at (breaks : src.BreaksAtLineFeeds) (within : pos ≤ src.length)
    (found : (ofPosition src pos).snippet? = some snippet) :
    ∃ before c after, (ofPosition src pos).column = before.length + 1 ∧
      (src.drop pos).takeWhile (fun c => !Text.endsLine c) = c :: after ∧
      snippet = Snippet.around (before ++ c :: after) (before.length + 1) := by
  have here : min (pos : Int) src.length = pos := by omega
  rw [ofPosition, here, Text.column_eq within] at found ⊢
  obtain ⟨text, line, reaches, rfl⟩ := snippetAt?_eq_some.mp found
  obtain rfl := Text.line_at breaks within line (by rw [Text.column_eq within]; omega)
  rw [List.length_append, List.length_reverse] at reaches
  obtain ⟨c, after, rest⟩ := List.exists_cons_of_length_pos
    (l := (src.drop pos).takeWhile fun c => !Text.endsLine c) (by omega)
  refine ⟨(Text.backToLineFeed [] src pos).reverse, c, after, ?_, rest, ?_⟩
  · rw [List.length_reverse]
  · rw [rest, List.length_reverse]

theorem caret_position (src : Text) (pos : Nat) (snippet : Snippet) (breaks : src.BreaksAtLineFeeds)
    (inside : pos < src.length) (found : (ofPosition src pos).snippet? = some snippet) :
    (∃ heading, (ofPosition src pos).render = heading ++ Text.ofString "\n" ++ (snippet.text ++
      Text.ofString "\n" ++ List.replicate snippet.indent (CodePoint.ofChar ' ') ++
        Text.ofString "^")) ∧
    ((ofPosition src pos).column ≤ 20 → snippet.text[snippet.indent]? = src[pos]?) ∧
    (20 < (ofPosition src pos).column →
      snippet.text[snippet.indent - 1]? = src[pos]? ∧
      snippet.text[snippet.indent]? = src[pos + 1]?.filter fun c => !Text.endsLine c) := by
  refine ⟨⟨_, by rw [render, found]; rfl⟩, ?_⟩
  obtain ⟨before, c, after, column, rest, rfl⟩ := snippet_at breaks (Nat.le_of_lt inside) found
  rw [List.drop_eq_getElem_cons inside, List.takeWhile_cons] at rest
  split at rest
  · obtain ⟨rfl, onward⟩ := List.cons.inj rest
    rw [column, List.getElem?_eq_getElem inside]
    constructor
    · intro near
      obtain ⟨indent, text⟩ := Snippet.around_near before src[pos] after (by omega)
      rw [indent, text]
    · intro far
      obtain ⟨indent, text, next⟩ := Snippet.around_far before src[pos] after (by omega)
      rw [indent, text, next, ← onward, List.head?_takeWhile, List.head?_drop]
      exact ⟨rfl, rfl⟩
  · cases rest

theorem caret_position_second_line :
    ∃ snippet, (Text.ofString "x\r\nabcdefghijklmnopqrstuvwxyz").BreaksAtLineFeeds ∧
      (ofPosition (Text.ofString "x\r\nabcdefghijklmnopqrstuvwxyz") 23).snippet? = some snippet ∧
      (ofPosition (Text.ofString "x\r\nabcdefghijklmnopqrstuvwxyz") 23).column = 21 ∧
      snippet.text[snippet.indent - 1]? = some (CodePoint.ofChar 'u') ∧
      snippet.text[snippet.indent]? = some (CodePoint.ofChar 'v') := by
  have breaks : (Text.ofString "x\r\nabcdefghijklmnopqrstuvwxyz").BreaksAtLineFeeds := by decide
  obtain ⟨-, -, far⟩ := caret_position _ 23 _ breaks (by decide) rfl
  exact ⟨_, breaks, rfl, rfl, far (by decide)⟩

/-- A caret beyond column twenty does not stand under the position. -/
theorem caret_off_position :
    ¬ ∀ (src : Text) (pos : Nat) (snippet : Snippet), src.BreaksAtLineFeeds → pos < src.length →
      (ofPosition src pos).snippet? = some snippet → snippet.text[snippet.indent]? = src[pos]? := by
  intro placed
  have claimed :=
    placed (Text.ofString "abcdefghijklmnopqrstuvwxyz") 20 _ (by decide) (by decide) rfl
  revert claimed
  decide

end Note

end Descent
