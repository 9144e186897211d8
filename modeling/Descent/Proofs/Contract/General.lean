import Descent.Proofs.Contract.Spelling
import Descent.Proofs.Number.Reading

/-!
Contracts of the grammars for numbers, names and quoted strings. What these grammars match comes in
pieces, texts that may be missing; joined, the pieces are a text of the form that is read.
-/

namespace Descent

theorem bind_of_ok {α β : Type} {x : Except Fault α} {a : α} (answered : x = .ok a)
    (f : α → Except Fault β) : (x >>= f) = f a := by
  rw [answered]
  rfl

namespace Value

/-- A text, or nothing where an optional text is missing. -/
def IsPiece (v : Value) : Prop :=
  v = .none ∨ ∃ t, v = .text t

theorem concatenate_pieces {vs : List Value} (pieces : ∀ v ∈ vs, v.IsPiece) :
    concatenate true vs = .ok (spellingAll vs) := by
  induction vs with
  | nil => rfl
  | cons v vs ih =>
      obtain ⟨here, rest⟩ := List.forall_mem_cons.mp pieces
      have joined := ih rest
      rcases here with rfl | ⟨t, rfl⟩
      · exact joined
      · exact bind_of_ok joined _

theorem joinPresent_tuple {vs : List Value} (pieces : ∀ v ∈ vs, v.IsPiece) :
    joinPresent (.tuple vs) = .ok (spellingAll vs) :=
  concatenate_pieces pieces

theorem joinPresent_list {vs : List Value} (pieces : ∀ v ∈ vs, v.IsPiece) :
    joinPresent (.list vs) = .ok (spellingAll vs) :=
  concatenate_pieces pieces

theorem concatenate_texts (skipMissing : Bool) (ts : List Text) :
    concatenate skipMissing (ts.map .text) = .ok ts.flatten := by
  induction ts with
  | nil => rfl
  | cons t ts ih => exact bind_of_ok ih _

theorem concatenate_singles (skipMissing : Bool) (t : Text) :
    concatenate skipMissing (t.map fun c => .text [c]) = .ok t := by
  have joined := concatenate_texts skipMissing (t.map fun c => [c])
  rw [List.map_map] at joined
  exact joined.trans (congrArg Except.ok (List.flatMap_singleton' t))

theorem joinPresent_texts (ts : List Text) : joinPresent (.list (ts.map .text)) = .ok ts.flatten :=
  concatenate_texts true ts

end Value

/-- Texts with a property. -/
def Spec.text (P : Text → Prop) : Spec :=
  fun _ _ v => ∃ t, v = .text t ∧ P t

/-- The text that was matched, with a property. -/
def Spec.copied (src : Text) (P : Text → Prop) : Spec :=
  fun i j v => ∃ t, v = .text t ∧ P t ∧ t = src.slice i j

/-- Texts that may be missing. One that is missing counts as empty. -/
def Spec.piece (P : Text → Prop) : Spec :=
  fun _ _ v => v.IsPiece ∧ P v.spelling

/-- Sequences whose members can be joined, each with a property of its own. -/
def Spec.pieces (Ps : List (Text → Prop)) : Spec :=
  fun _ _ v => ∃ ts, v.joinPresent = .ok ts.flatten ∧ List.Forall₂ (fun P t => P t) Ps ts

section

variable {src : Text} {P : Text → Prop} {i j : Nat} {v : Value} {vs : List Value}

theorem Spec.text_of_copied (copied : Spec.copied src P i j v) : Spec.text P i j v := by
  obtain ⟨t, rfl, holds, _⟩ := copied
  exact ⟨t, rfl, holds⟩

theorem Spec.spelled_of_copied (copied : Spec.copied src P i j v) : Spec.spelled src i j v := by
  obtain ⟨t, rfl, _, copy⟩ := copied
  exact copy

theorem Spec.piece_of_text (text : Spec.text P i j v) : Spec.piece P i j v := by
  obtain ⟨t, rfl, holds⟩ := text
  exact ⟨.inr ⟨t, rfl⟩, holds⟩

theorem Path.pieces {Ps : List (Text → Prop)} (path : Path src (Ps.map Spec.piece) i j vs) :
    (∀ v ∈ vs, v.IsPiece) ∧
      ∃ ts, Value.spellingAll vs = ts.flatten ∧ List.Forall₂ (fun P t => P t) Ps ts := by
  induction Ps generalizing i vs with
  | nil =>
      cases path
      exact ⟨by simp, [], rfl, .nil⟩
  | cons P Ps ih =>
      cases path with
      | cons _ _ first rest =>
          obtain ⟨piece, holds⟩ := first
          obtain ⟨pieces, ts, spells, each⟩ := ih rest
          refine ⟨List.forall_mem_cons.mpr ⟨piece, pieces⟩, _ :: ts, ?_, .cons holds each⟩
          rw [Value.spellingAll, spells, List.flatten_cons]

theorem Rounds.pieces {Q : CodePoint → Prop} (rounds : Rounds src (.text P) i j vs)
    (each : ∀ t, P t → ∀ c ∈ t, Q c) :
    (∀ v ∈ vs, v.IsPiece) ∧ ∀ c ∈ Value.spellingAll vs, Q c := by
  induction vs generalizing i with
  | nil => simp [Value.spellingAll]
  | cons v vs ih =>
      cases rounds with
      | cons _ _ first rest =>
          obtain ⟨t, rfl, here⟩ := first
          obtain ⟨pieces, later⟩ := ih rest
          refine ⟨List.forall_mem_cons.mpr ⟨.inr ⟨t, rfl⟩, pieces⟩, fun c member => ?_⟩
          rcases List.mem_append.mp member with head | tail
          · exact each t here c head
          · exact later c tail

end

namespace Setting.Meets

variable {C : Setting} {before : Names} {S T : Spec} {g : Grammar} {P Q : Text → Prop}

theorem piece_of_text (meets : C.Meets before (.text P) g) : C.Meets before (.piece P) g :=
  meets.mono fun _ _ _ _ _ => Spec.piece_of_text

theorem text_mono (meets : C.Meets before (.text P) g) (weaker : ∀ t, P t → Q t) :
    C.Meets before (.text Q) g := by
  refine meets.mono fun i j v _ _ text => ?_
  obtain ⟨t, rfl, holds⟩ := text
  exact ⟨t, rfl, weaker t holds⟩

theorem literal (t : Text) : C.Meets before (.text (· = t)) (.string t) :=
  .string fun _ _ _ => ⟨t, rfl, rfl⟩

theorem codePoint (test : CodePoint → Bool) (label : Text) :
    C.Meets before (.text fun t => ∃ c, t = [c] ∧ test c = true) (.codePoint test label) :=
  .satisfy fun _ c _ => C.guarantee.pure fun passed => ⟨[c], rfl, c, rfl, passed⟩

theorem optional (meets : C.Meets before (.text P) g) :
    C.Meets before (.piece fun t => t = [] ∨ P t) (.optional g) := by
  refine .alt fun h member => ?_
  rcases List.mem_cons.mp member with rfl | member
  · exact (meets.text_mono fun t holds => .inr holds).piece_of_text
  · obtain rfl := List.mem_singleton.mp member
    exact .succeed fun _ => ⟨.inl rfl, .inl rfl⟩

theorem text_of_copied (meets : C.Meets before (.copied C.src P) g) : C.Meets before (.text P) g :=
  meets.mono fun _ _ _ _ _ => Spec.text_of_copied

theorem mapText (meets : C.Meets before T g) {fn : Value → Except Fault Text}
    (calls : ∀ i j v, T i j v → ∃ t, fn v = .ok t ∧ S i j (.text t)) :
    C.Meets before S (.mapText g fn) := by
  refine .map meets (by simp) fun i j v here _ => C.guarantee.of_ok ?_
  obtain ⟨t, called, holds⟩ := calls i j v here
  exact ⟨.text t, bind_of_ok called _, holds⟩

theorem pieces {Ps : List (Text → Prop)} {gs : List Grammar}
    (members : List.Forall₂ (fun P => C.Meets before (.piece P)) Ps gs) :
    C.Meets before (.pieces Ps) (.seq gs) := by
  refine (seq (List.forall₂_map_left_iff.mpr members)).mono fun i j v _ _ tuple => ?_
  obtain ⟨vs, rfl, path⟩ := tuple
  obtain ⟨pieces, ts, spells, each⟩ := path.pieces
  exact ⟨ts, spells ▸ Value.joinPresent_tuple pieces, each⟩

theorem joined_seq {Ps : List (Text → Prop)} {gs : List Grammar}
    (members : List.Forall₂ (fun P => C.Meets before (.piece P)) Ps gs)
    (whole : ∀ ts, List.Forall₂ (fun P t => P t) Ps ts → P ts.flatten) :
    C.Meets before (.text P) (.joined (.seq gs)) := by
  refine (pieces members).mapText fun i j v here => ?_
  obtain ⟨ts, joined, each⟩ := here
  exact ⟨_, joined, _, rfl, whole ts each⟩

/-! Numbers. -/

theorem digit : C.Meets before (.copied C.src Text.IsDigits) .digit := by
  refine .satisfy fun i c seen => C.guarantee.pure fun isDigit => ?_
  exact ⟨[c], rfl, ⟨by simp, by simpa using isDigit⟩, (Text.slice_of_getElem? seen).symm⟩

theorem digits : C.Meets before (.copied C.src Text.IsDigits) .digits := by
  have content : C.Meets before (fun i j v => v.joinPresent = .ok v.spelling ∧
      v.spelling.IsDigits ∧ Spec.spelled C.src i j v) (.many1 .digit) := by
    refine (many1 digit).mono fun i j v onward inside chain => ?_
    obtain ⟨_, _, vs, rfl, further, within, first, rounds⟩ := chain
    have spelled := Rounds.cons further within first rounds
    obtain ⟨ds, rfl, ⟨some, here⟩, _⟩ := first
    obtain ⟨pieces, rest⟩ :=
      (rounds.mono fun _ _ _ => Spec.text_of_copied).pieces fun t digits => digits.2
    refine ⟨Value.joinPresent_list (List.forall_mem_cons.mpr ⟨.inr ⟨ds, rfl⟩, pieces⟩), ⟨?_, ?_⟩,
      ?_⟩
    · exact fun empty => some (List.append_eq_nil_iff.mp empty).1
    · exact fun c member => (List.mem_append.mp member).elim (here c) (rest c)
    · exact (spelled.mono fun _ _ _ => Spec.spelled_of_copied).spelling (Nat.le_trans onward inside)
  exact content.mapText fun i j v here => ⟨_, here.1, _, rfl, here.2⟩

theorem sign : C.Meets before (.piece Text.IsSign) .sign :=
  optional (codePoint CodePoint.isSign _)

theorem exponent : C.Meets before (.text Text.IsExponent) .exponent := by
  have letter : C.Meets before (.text fun t => t = Text.ofString "e" ∨ t = Text.ofString "E")
      (.alt [.string (Text.ofString "e"), .string (Text.ofString "E")]) :=
    .alt (List.forall_mem_cons.mpr ⟨(literal _).text_mono fun _ => .inl,
      List.forall_mem_singleton.mpr ((literal _).text_mono fun _ => .inr)⟩)
  refine joined_seq
    (.cons letter.piece_of_text (.cons sign (.cons digits.text_of_copied.piece_of_text .nil))) ?_
  intro ts each
  obtain _ | ⟨e, _ | ⟨s, _ | ⟨ds, ⟨⟩⟩⟩⟩ := each
  rcases e with rfl | rfl
  · exact ⟨_, _, _, by simp [Text.ofString], .inl rfl, s, ds⟩
  · exact ⟨_, _, _, by simp [Text.ofString], .inr rfl, s, ds⟩

theorem fraction : C.Meets before (.text Text.IsFraction) .fraction := by
  refine joined_seq
    (.cons (literal _).piece_of_text (.cons digits.text_of_copied.piece_of_text .nil)) ?_
  intro ts each
  obtain _ | ⟨rfl, _ | ⟨ds, ⟨⟩⟩⟩ := each
  exact ⟨_, by simp [Text.ofString], ds⟩

theorem unsignedFloat : C.Meets before (.text Text.IsDecimal) .unsignedFloat := by
  have whole : C.Meets before (.piece Text.IsDigits) .digits := digits.text_of_copied.piece_of_text
  have point : C.Meets before (.piece Text.IsFraction) .fraction := fraction.piece_of_text
  have power : C.Meets before (.piece fun t => t = [] ∨ Text.IsExponent t) (.optional .exponent) :=
    optional exponent
  refine .alt fun g member => ?_
  simp only [List.mem_cons, List.not_mem_nil, or_false] at member
  rcases member with rfl | rfl | rfl
  · refine joined_seq (.cons whole (.cons point (.cons power .nil))) fun ts each => ?_
    obtain _ | ⟨ds, _ | ⟨f, _ | ⟨x, ⟨⟩⟩⟩⟩ := each
    exact ⟨_, _, _, by simp, ds.2, .inr f, x, .inl ds.1⟩
  · refine joined_seq (.cons whole (.cons exponent.piece_of_text .nil)) fun ts each => ?_
    obtain _ | ⟨ds, _ | ⟨x, ⟨⟩⟩⟩ := each
    exact ⟨_, [], _, by simp, ds.2, .inl rfl, .inr x, .inl ds.1⟩
  · refine joined_seq (.cons point (.cons power .nil)) fun ts each => ?_
    obtain _ | ⟨f, _ | ⟨x, ⟨⟩⟩⟩ := each
    refine ⟨[], _, _, by simp, by simp, .inr f, x, .inr ?_⟩
    obtain ⟨ds, rfl, _⟩ := f
    simp

private theorem signed_join {src : Text} {i j : Nat} {v : Value}
    (tuple : Spec.tuple src [.piece Text.IsSign, .text P] i j v) :
    ∃ w t, v = .tuple [w, .text t] ∧ v.joinPresent = .ok (w.spelling ++ t) ∧
      Text.IsSign w.spelling ∧ P t := by
  obtain ⟨_, rfl, path⟩ := tuple
  obtain _ | ⟨_, _, ⟨piece, sign⟩, _ | ⟨_, _, ⟨t, rfl, holds⟩, ⟨⟩⟩⟩ := path
  refine ⟨_, t, rfl, ?_, sign, holds⟩
  have pieces : ∀ u ∈ [_, Value.text t], u.IsPiece :=
    List.forall_mem_cons.mpr ⟨piece, List.forall_mem_singleton.mpr (.inr ⟨t, rfl⟩)⟩
  simpa [Value.spellingAll, Value.spelling] using Value.joinPresent_tuple pieces

/-- Digits that are matched are no more than the text has code points. -/
theorem digits_length_le {names : Names} {src : Text} {i : Nat} {j : Int} {w : Value} {ds : Text}
    (inside : i ≤ src.length) (means : Grammar.Means names src (.seq [.sign, .digits]) i
      (.ok (.matched (.tuple [w, .text ds]) j))) : ds.length ≤ src.length := by
  have copied (fuel : Nat) : Setting.Meets ⟨.faulting, src, names, fuel⟩ names
      (.tuple src [.piece Text.IsSign, .copied src Text.IsDigits]) (.seq [.sign, .digits]) :=
    seq (.cons sign (.cons digits .nil))
  obtain ⟨_, _, _, _, _, ⟨⟩, path⟩ := means.meets inside copied
  obtain _ | ⟨_, _, _, _ | ⟨_, _, ⟨_, ⟨⟩, _, copy⟩, _⟩⟩ := path
  rw [copy]
  exact Text.length_slice_le _ _ _

theorem integer (given : ∀ name a, before name = some a → C.names name = some a)
    (short : ∀ (i : Nat) j w ds, i ≤ C.src.length →
      Grammar.Means C.names C.src (.seq [.sign, .digits]) i
        (.ok (.matched (.tuple [w, .text ds]) j)) →
      ds.length ≤ Numeral.digitLimit) :
    C.Meets before (fun _ _ v => ∃ z, v = .int z) .integer := by
  have parts := (seq (.cons (sign (C := C)) (.cons digits.text_of_copied .nil))).means given
  refine named _ (map parts (by simp) fun i j v here _ => C.guarantee.of_ok ?_)
  obtain ⟨tuple, inside, means⟩ := here
  obtain ⟨w, ds, rfl, joined, sign, digits⟩ := signed_join tuple
  obtain ⟨z, read⟩ := Numeral.read_append sign digits (short i j w ds inside means)
  refine ⟨.int z, ?_, z, rfl⟩
  exact (bind_of_ok joined _).trans (bind_of_ok read _)

theorem float : C.Meets before (fun _ _ v => ∃ x, v = .float x) .float := by
  have decimal : C.Meets before (.text Text.IsDecimal) .unsignedFloat := unsignedFloat
  have parts := seq (.cons (sign (C := C)) (.cons decimal .nil))
  refine named _ (map parts (by simp) fun i j v tuple _ => C.guarantee.of_ok ?_)
  obtain ⟨w, t, rfl, joined, sign, decimal⟩ := signed_join tuple
  obtain ⟨x, read⟩ := Binary64.read_append sign decimal
  refine ⟨.float x, ?_, x, rfl⟩
  exact (bind_of_ok joined _).trans (bind_of_ok read _)

/-! Names and quoted strings. -/

theorem anyText (meets : C.Meets before (.text P) g) : C.Meets before (.text fun _ => True) g :=
  meets.text_mono fun _ _ => True.intro

theorem identifier : C.Meets before (.text fun _ => True) .identifier := by
  have start : C.Meets before (.text fun _ => True) (.alt [.letter, .string (Text.ofString "_")]) :=
    .alt (List.forall_mem_cons.mpr ⟨(codePoint _ _).anyText,
      List.forall_mem_singleton.mpr (literal _).anyText⟩)
  have further :
      C.Meets before (.text fun _ => True) (.alt [.letter, .digit, .string (Text.ofString "_")]) :=
    .alt (List.forall_mem_cons.mpr ⟨(codePoint _ _).anyText,
      List.forall_mem_cons.mpr ⟨digit.text_of_copied.anyText,
        List.forall_mem_singleton.mpr (literal _).anyText⟩⟩)
  refine named _ ((seq (.cons start (.cons (many further) .nil))).mapText fun i j v tuple => ?_)
  obtain ⟨_, rfl, path⟩ := tuple
  obtain _ | ⟨_, _, ⟨t, rfl, _⟩, _ | ⟨_, _, ⟨vs, rfl, rounds⟩, ⟨⟩⟩⟩ := path
  obtain ⟨pieces, _⟩ := rounds.pieces (Q := fun _ => True) (by simp)
  have joined := Value.joinPresent_list pieces
  exact ⟨t ++ Value.spellingAll vs, bind_of_ok joined _, _, rfl, True.intro⟩

private theorem shown (t : Text) :
    C.guarantee.Holds (Action.ofExcept (Matcher.unwanted (.text t))) fun _ => True :=
  C.guarantee.of_ok ⟨_, rfl, True.intro⟩

private theorem except_text {h : Grammar} (exclusion : C.Meets before (.text Q) h)
    (inner : C.Meets before (.text P) g) : C.Meets before (.text P) (.except h g) := by
  refine except exclusion (fun i j v text => ?_) inner
  obtain ⟨t, rfl, _⟩ := text
  exact shown t

private theorem after_text {h : Grammar} (lead : C.Meets before T h)
    (inner : C.Meets before (.text P) g) :
    C.Meets before (.text P) (.after h g) :=
  (after lead inner).mono fun _ _ _ _ _ here => here.elim fun _ both => both.2

theorem anyChar : C.Meets before (.text fun _ => True) .anyChar :=
  (codePoint _ _).anyText

private theorem readCodePoint_of_joined {v : Value} {ds : Text} (joined : v.joinPresent = .ok ds)
    (four : ds.length = 4) (digits : ∀ c ∈ ds, c.isHexDigit = true) :
    ∃ t, Grammar.readCodePoint v = .ok t := by
  obtain ⟨c, found⟩ := Numeral.ofNat?_of_hex four digits
  have fine : (ds.isEmpty || !ds.all CodePoint.isHexDigit) = false := by
    rw [List.all_eq_true.mpr digits,
      List.isEmpty_eq_false_iff.mpr (List.ne_nil_of_length_eq_add_one four)]
    rfl
  refine ⟨[c], (bind_of_ok joined _).trans ?_⟩
  simp only [found, fine, Bool.false_eq_true, ↓reduceIte]

theorem unicodeEscape : C.Meets before (.text fun _ => True) .unicodeEscape := by
  have hex : C.Meets before (.piece fun t => ∃ c, t = [c] ∧ c.isHexDigit = true)
      (.codePoint CodePoint.isHexDigit (Text.ofString "hexadecimal digit")) :=
    (codePoint _ _).piece_of_text
  have four := pieces (.cons hex (.cons hex (.cons hex (.cons hex .nil))))
  refine (after (literal _) four).mapText fun i j v here => ?_
  obtain ⟨_, _, ts, joined, each⟩ := here
  obtain _ | ⟨⟨a, rfl, first⟩, _ | ⟨⟨b, rfl, second⟩, _ | ⟨⟨c, rfl, third⟩, last⟩⟩⟩ := each
  obtain _ | ⟨⟨d, rfl, fourth⟩, ⟨⟩⟩ := last
  obtain ⟨t, called⟩ := readCodePoint_of_joined joined rfl (by simp [first, second, third, fourth])
  exact ⟨t, called, t, rfl, True.intro⟩

theorem quotedString (quote escape : Text) (escapes : Grammar.Escapes) :
    C.Meets before (.text fun _ => True) (.quotedString quote escape escapes) := by
  have escaped : C.Meets before (.text fun _ => True) (.escapedChar escapes) := by
    refine (except_text (literal _) anyChar).mapText fun i j v text => ?_
    obtain ⟨t, rfl, _⟩ := text
    exact ⟨_, rfl, _, rfl, True.intro⟩
  have sequence : C.Meets before (.text fun _ => True) (.escapeSequence escape escapes) :=
    after_text (literal escape) (.alt (List.forall_mem_cons.mpr ⟨unicodeEscape,
      List.forall_mem_singleton.mpr escaped⟩))
  have ends : C.Meets before (.text fun _ => True) (.alt [.string quote, .string escape]) :=
    .alt (List.forall_mem_cons.mpr ⟨(literal _).anyText,
      List.forall_mem_singleton.mpr (literal _).anyText⟩)
  have plain : C.Meets before (.text fun _ => True) (.plainChar quote escape) :=
    except_text ends anyChar
  have content :=
    many (.alt (List.forall_mem_cons.mpr ⟨sequence, List.forall_mem_singleton.mpr plain⟩))
  refine (between (literal quote) (literal quote) content).mapText fun i j v here => ?_
  obtain ⟨k, l, _, _, _, vs, rfl, rounds⟩ := here
  obtain ⟨pieces, _⟩ := rounds.pieces (Q := fun _ => True) (by simp)
  exact ⟨_, Value.joinPresent_list pieces, _, rfl, True.intro⟩

end Setting.Meets

end Descent
