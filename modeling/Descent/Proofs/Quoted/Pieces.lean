import Descent.Proofs.Quoted.Scanner

/-!
Quoted strings, piece by piece. Each piece of the content is written in one of several ways and
means a text of its own. Main statement: what is read between the quotes is what the pieces mean,
and every text can be written so.
-/

namespace Descent

/-- Part of the content of a quoted string: how it is written, and what it means. -/
structure Piece where
  written : Text
  meant : Text

namespace Piece

/-- A code point that stands as it is, with or without an escape before it. -/
inductive Literal (quote escape : CodePoint) (escapes : Grammar.Escapes) : Piece → Prop
  | plain {c : CodePoint} (notQuote : c ≠ quote) (notEscape : c ≠ escape) :
      Literal quote escape escapes ⟨[c], [c]⟩
  | escaped {c : CodePoint} (noNumber : c ≠ 'u') (unknown : escapes.lookup [c] = none) :
      Literal quote escape escapes ⟨[escape, c], [c]⟩

/-- All the ways to write content. -/
inductive Legible (quote escape : CodePoint) (escapes : Grammar.Escapes) : Piece → Prop
  | literal {piece : Piece} (literal : piece.Literal quote escape escapes) :
      Legible quote escape escapes piece
  | replaced {c : CodePoint} {t : Text} (noNumber : c ≠ 'u')
      (known : escapes.lookup [c] = some t) : Legible quote escape escapes ⟨[escape, c], t⟩
  | numbered {a b c d code : CodePoint} {j k l m : Nat} (first : a.IsHex j) (second : b.IsHex k)
      (third : c.IsHex l) (fourth : d.IsHex m)
      (number : code.val = ((j * 16 + k) * 16 + l) * 16 + m) :
      Legible quote escape escapes ⟨[escape, 'u', a, b, c, d], [code]⟩

def writtenAll (pieces : List Piece) : Text :=
  pieces.flatMap written

def meantAll (pieces : List Piece) : Text :=
  pieces.flatMap meant

def enclosed (quote : CodePoint) (pieces : List Piece) : Text :=
  quote :: (writtenAll pieces ++ [quote])

variable {quote escape : CodePoint} {escapes : Grammar.Escapes} {piece : Piece}
  {pieces : List Piece}

theorem Legible.step? {src rest : Text} {i : Nat} (legible : piece.Legible quote escape escapes)
    (remains : src.Remains i (piece.written ++ rest)) :
    Quoting.step? ⟨[quote], [escape], escapes⟩ src i =
      some (piece.meant, i + piece.written.length) := by
  have behind {c : CodePoint} {rest : Text} (remains : src.Remains i ([escape] ++ c :: rest)) :=
    Quoting.step?_escape (q := ⟨[quote], [escape], escapes⟩) remains
  cases legible with
  | literal literal =>
      cases literal with
      | plain notQuote notEscape =>
          rw [Quoting.step?_plain remains (by simpa using notEscape.symm),
            if_neg (by simpa using notQuote.symm)]
          rfl
      | escaped noNumber unknown =>
          rw [behind remains, List.head?_cons, Option.bind_some, if_neg noNumber, unknown]
          rfl
  | replaced noNumber known =>
      rw [behind remains, List.head?_cons, Option.bind_some, if_neg noNumber, known]
      rfl
  | numbered first second third fourth number =>
      rw [behind remains, List.head?_cons, Option.bind_some, if_pos rfl]
      change Option.map _ (CodePoint.ofHex? [_, _, _, _]) = _
      rw [CodePoint.ofHex?_of_isHex first second third fourth number]
      rfl

/-- One step for each piece. The scan stops at the quote. -/
theorem scan_legible {src rest : Text} {i : Nat} (apart : quote ≠ escape)
    (legible : ∀ piece ∈ pieces, piece.Legible quote escape escapes)
    (remains : src.Remains i (writtenAll pieces ++ quote :: rest)) :
    Quoting.scan ⟨[quote], [escape], escapes⟩ src i =
      (pieces.map meant, i + (writtenAll pieces).length) := by
  induction pieces generalizing i with
  | nil =>
      refine Quoting.scan_stop ?_
      rw [Quoting.step?_plain remains (by simpa [writtenAll] using apart.symm),
        if_pos (by simp [writtenAll])]
  | cons piece pieces ih =>
      obtain ⟨here, later⟩ := List.forall_mem_cons.mp legible
      rw [writtenAll, List.flatMap_cons, List.append_assoc] at remains
      rw [Quoting.scan_next (here.step? remains), ih later remains.skip]
      simp [writtenAll, Nat.add_assoc]

end Piece

namespace Matcher

variable {σ : Type} {src rest : Text} {i : Nat} {quote escape : CodePoint}
  {escapes : Grammar.Escapes}

theorem quotedString_legible (apart : quote ≠ escape) {pieces : List Piece}
    (legible : ∀ piece ∈ pieces, piece.Legible quote escape escapes) {fuel : Nat}
    (enough : pieces.length < fuel)
    (remains : src.Remains i (Piece.enclosed quote pieces ++ rest)) :
    quotedString fuel [quote] [escape] escapes src i =
      (pure (.matched (.text (Piece.meantAll pieces))
        (i + (Piece.enclosed quote pieces).length : Nat)) :
        Action σ Outcome) := by
  have opened : src.Remains i (quote :: (Piece.writtenAll pieces ++ quote :: rest)) := by
    simpa [Piece.enclosed] using remains
  have content := Piece.scan_legible apart legible opened.next
  have closed := opened.next.skip
  have read : Quoting.read ⟨[quote], [escape], escapes⟩ src i =
      .matched (.text (Piece.meantAll pieces))
        (i + (Piece.enclosed quote pieces).length : Nat) := by
    have ends : i + (Piece.enclosed quote pieces).length = i + 1 +
      (Piece.writtenAll pieces).length + 1 := by
      simp only [Piece.enclosed, List.length_cons, List.length_append, List.length_nil]
      omega
    rw [Quoting.read, if_pos (by simp [opened.drop])]
    dsimp only [List.length_singleton]
    rw [content, if_pos (by simp [closed.drop]), ends, List.flatten_eq_flatMap, List.flatMap_map]
    rfl
  rw [← read]
  exact quotedString_read (q := ⟨[quote], [escape], escapes⟩) opened.inside
    (by simpa [content] using enough)

end Matcher

namespace Grammar

/-- The pieces that a text is usually written in: quotes and escapes stand behind an escape. -/
def literalPiece (c : CodePoint) : Piece :=
  ⟨if c = '"' ∨ c = '\\' then ['\\', c] else [c], [c]⟩

theorem literalPiece_literal (c : CodePoint) :
    (literalPiece c).Literal '"' '\\' generalEscapes := by
  unfold literalPiece
  split
  next special =>
    rcases special with rfl | rfl
    · exact .escaped (by decide) rfl
    · exact .escaped (by decide) rfl
  next plain =>
    rw [not_or] at plain
    exact .plain plain.1 plain.2

theorem meantAll_literalPiece (t : Text) : Piece.meantAll (t.map literalPiece) = t := by
  induction t with
  | nil => rfl
  | cons c t ih => rw [List.map_cons, Piece.meantAll, List.flatMap_cons, ← Piece.meantAll, ih]; rfl

theorem quotedString_reads_pieces :
    (∀ (quote escape : CodePoint) (escapes : Escapes) (pieces : List Piece), quote ≠ escape →
      (∀ piece ∈ pieces, piece.Legible quote escape escapes) →
      ∀ (before after : Text) (fuel : Nat) (s : Store), pieces.length < fuel →
        ((Request.run (quotedString [quote] [escape] escapes)
          (before ++ Piece.enclosed quote pieces ++ after) before.length).perform fuel).run s =
        some (.ok (.outcome (.matched (.text (Piece.meantAll pieces))
          (before ++ Piece.enclosed quote pieces).length)), s)) ∧
    ∀ t : Text, ∃ pieces : List Piece,
      (∀ piece ∈ pieces, piece.Literal '"' '\\' generalEscapes) ∧ Piece.meantAll pieces = t ∧
      ∀ (full : Bool) (fuel : Nat) (s : Store), pieces.length < fuel →
        ((Request.parse (quotedString ['"'] ['\\'] generalEscapes)
          (Piece.enclosed '"' pieces) full).perform fuel).run s =
        some (.ok (.parsed (.ok (.text t))), s) := by
  constructor
  · intro quote escape escapes pieces apart legible before after fuel s enough
    have remains := Text.Remains.behind before (Piece.enclosed quote pieces ++ after)
    rw [← List.append_assoc] at remains
    rw [Request.perform_run_quotedString, Matcher.quotedString_legible apart legible enough remains,
      List.length_append]
    rfl
  · intro t
    have literal : ∀ piece ∈ t.map literalPiece, piece.Literal '"' '\\' generalEscapes := by
      intro piece member
      obtain ⟨c, -, rfl⟩ := List.mem_map.mp member
      exact literalPiece_literal c
    refine ⟨t.map literalPiece, literal, meantAll_literalPiece t, fun full fuel s enough => ?_⟩
    have remains : (Piece.enclosed '"' (t.map literalPiece)).Remains 0
        (Piece.enclosed '"' (t.map literalPiece) ++ []) := ⟨Nat.zero_le _, by simp⟩
    have read := Matcher.quotedString_legible (σ := Store) (by decide)
      (fun piece member => .literal (literal piece member)) enough remains
    rw [meantAll_literalPiece] at read
    rw [Request.perform_parse_quotedString, Matcher.parse_matched read (by simp)]
    rfl

private def mixed : List Piece :=
  [⟨['\\', '"'], ['"']⟩, ⟨['\\', 'n'], ['\n']⟩,
    ⟨['\\', 'u', 'd', '8', '3', 'D'], [⟨0xD83D, by decide⟩]⟩, ⟨['7'], ['7']⟩]

theorem quotedString_reads_pieces_mixed :
    ((Request.run (quotedString ['"'] ['\\'] generalEscapes)
      (['x', '"', '\\', '"', '\\', 'n', '\\', 'u', 'd', '8', '3', 'D', '7', '"', '"']) 1).perform
        9).run .empty =
    some (.ok (.outcome (.matched (.text ['"', '\n', ⟨0xD83D, by decide⟩, '7']) 14)), .empty) := by
  have legible : ∀ piece ∈ mixed, piece.Legible '"' '\\' generalEscapes := by
    simp only [mixed, List.forall_mem_cons, List.not_mem_nil, false_implies, implies_true, and_true]
    refine ⟨.literal (.escaped (by decide) rfl), .replaced (by decide) rfl, ?_,
      .literal (.plain (by decide) (by decide))⟩
    exact .numbered (.lower (n := 3) (by decide) rfl) (.decimal (n := 8) (by decide) rfl)
      (.decimal (n := 3) (by decide) rfl) (.upper (n := 3) (by decide) rfl) rfl
  exact quotedString_reads_pieces.1 '"' '\\' generalEscapes mixed (by decide) legible ['x']
    ['"'] 9 .empty
    (by decide)

end Grammar

end Descent
