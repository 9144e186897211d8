import Mathlib.Data.Prod.Lex
import Descent.Diagnostic
import Descent.Proofs.Text.Columns

/-!
The line and the column of a note. Main statement: they say where the position is, in the text as it
is cut at its line feeds, so notes of different positions differ and come in the order of their
positions. Adding notes to an error report changes nothing else of it.
-/

namespace Descent

namespace Note

variable {src : Text} {pos : Nat}

theorem ofPosition_pos (src : Text) (pos : Nat) :
    (ofPosition src pos).pos = (min pos src.length : Nat) := by
  show min (pos : Int) src.length = _
  omega

/-- A note speaks of a place by its line and column, which count from one. -/
theorem liesAt (src : Text) (pos : Nat) : ∃ offset : Nat,
    1 ≤ (ofPosition src pos).line ∧ (ofPosition src pos).column = offset + 1 ∧
      src.LiesAt ((ofPosition src pos).line - 1) offset (min pos src.length) := by
  have here : min (pos : Int) src.length = (min pos src.length : Nat) := by omega
  obtain ⟨offset, column, lies⟩ := Text.liesAt_column (t := src) (Nat.min_le_right pos src.length)
  refine ⟨offset, Nat.succ_pos _, ?_, ?_⟩
  · rw [ofPosition, here, column]
  · rw [ofPosition, here]
    exact lies

/-- Notes come in the order of their positions, by line first. -/
theorem lt_iff {p q : Nat} (first : p ≤ src.length) (second : q ≤ src.length) :
    p < q ↔ (ofPosition src p).line < (ofPosition src q).line ∨
      (ofPosition src p).line = (ofPosition src q).line ∧
        (ofPosition src p).column < (ofPosition src q).column := by
  obtain ⟨a, line, column, lies⟩ := liesAt src p
  obtain ⟨b, line', column', lies'⟩ := liesAt src q
  rw [Nat.min_eq_left first] at lies
  rw [Nat.min_eq_left second] at lies'
  rw [lies.lt_iff lies', column, column']
  omega

theorem render_eq (n : Note) : n.render =
    Text.ofString "At position " ++ Numeral.decimal n.pos ++ Text.ofString " (line " ++
      Numeral.decimal n.line ++ Text.ofString ", column " ++ Numeral.decimal n.column ++
      Text.ofString ")" ++ n.snippet?.elim [] fun s => Text.ofString "\n" ++ s.render := by
  rw [render]
  cases n.snippet? with
  | none => exact (List.append_nil _).symm
  | some s => exact List.append_assoc _ _ _

end Note

theorem ParseError.foldl_appendNote (e : ParseError) (positions : List Int) :
    positions.foldl appendNote e =
      { e with notes := e.notes ++ positions.map (Note.ofPosition e.source) } := by
  induction positions generalizing e with
  | nil => simp
  | cons pos positions ih => simp [ih, appendNote]

namespace Note

theorem place_tells_position :
    (∀ (src : Text) (pos : Nat),
      let note := ofPosition src pos
      note.pos = (min pos src.length : Nat) ∧
      note.render = Text.ofString "At position " ++ Numeral.decimal note.pos ++
        Text.ofString " (line " ++
        Numeral.decimal note.line ++ Text.ofString ", column " ++ Numeral.decimal note.column ++
        Text.ofString ")" ++ (note.snippet?.elim [] fun s => Text.ofString "\n" ++ s.render) ∧
      1 ≤ note.line ∧ 1 ≤ note.column ∧
      ∃ piece, src.pieces[note.line - 1]? = some piece ∧ note.column - 1 ≤ piece.length ∧
        src.pieceStart (note.line - 1) + (note.column - 1) = note.pos) ∧
    (∀ (src : Text) (p q : Nat), p ≤ src.length → q ≤ src.length →
      let first := ofPosition src p
      let second := ofPosition src q
      (p ≠ q → (first.line, first.column) ≠ (second.line, second.column)) ∧
      (p < q ↔ toLex (first.line, first.column) < toLex (second.line, second.column))) ∧
    ∀ (e : ParseError) (positions : List Int),
      let report := positions.foldl ParseError.appendNote e
      report.pos = e.pos ∧ report.message = e.message ∧ report.source = e.source ∧
      report.expected = e.expected ∧
        report.notes = e.notes ++ positions.map (ofPosition e.source) := by
  refine ⟨fun src pos => ?place, fun src p q first second => ?order, fun e positions => ?added⟩
  case place =>
    obtain ⟨offset, line, column, ⟨piece, found, within⟩, pos_eq⟩ := liesAt src pos
    refine ⟨ofPosition_pos src pos, render_eq _, line, by omega, piece, found, by omega, ?_⟩
    rw [ofPosition_pos, column]
    omega
  case order =>
    have before := lt_iff first second
    have behind := lt_iff second first
    constructor
    · intro apart same
      obtain ⟨line, column⟩ := Prod.mk.inj same
      omega
    · rw [Prod.Lex.toLex_lt_toLex, before]
  case added =>
    rw [ParseError.foldl_appendNote]
    exact ⟨rfl, rfl, rfl, rfl, rfl⟩

/-- On a line feed, and at the end of a text whose last line is empty. -/
theorem place_tells_position_feeds :
    let src := Text.ofString "ab\ncdef\n"
    let first := ofPosition src 2
    let second := ofPosition src 8
    2 ≤ src.length ∧ 8 ≤ src.length ∧ (first.line, first.column) = (1, 3) ∧
      (second.line, second.column) = (3, 1) ∧
      toLex (first.line, first.column) < toLex (second.line, second.column) := by
  intro src first second
  have inside : 2 ≤ src.length ∧ 8 ≤ src.length := by decide
  obtain ⟨-, order, -⟩ := place_tells_position
  obtain ⟨-, before⟩ := order src 2 8 inside.1 inside.2
  exact ⟨inside.1, inside.2, by decide, by decide, before.mp (by decide)⟩

end Note

end Descent
