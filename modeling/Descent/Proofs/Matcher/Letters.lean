import Mathlib.Order.Bounds.Defs
import Descent.Session
import Descent.Proofs.Contract.General
import Descent.Proofs.Matcher.Answering
import Descent.Proofs.Nesting.Sequence

/-!
Texts and the sequences of their code points. Main statement: a text matches where its code points
match one after the other, and where they do not, the sequence shows how far they did.
-/

namespace Descent

namespace Text

/-- The first text goes on with `c` where the second one, after `k` code points in common, does
not. -/
inductive Departs : Text → Text → Nat → CodePoint → Prop
  | here {c : CodePoint} {s rest : Text} (other : rest.head? ≠ some c) : Departs (c :: s) rest 0 c
  | later {c d : CodePoint} {s rest : Text} {k : Nat} (more : Departs s rest k c) :
      Departs (d :: s) (d :: rest) (k + 1) c

theorem exists_departs {s rest : Text} (differs : ¬ s <+: rest) : ∃ k c, s.Departs rest k c := by
  induction s generalizing rest with
  | nil => exact absurd List.nil_prefix differs
  | cons d s ih =>
      by_cases same : rest.head? = some d
      · obtain ⟨more, rfl⟩ := List.head?_eq_some_iff.mp same
        obtain ⟨k, c, departs⟩ := ih (mt (List.prefix_cons_inj d).mpr differs)
        exact ⟨k + 1, c, departs.later⟩
      · exact ⟨0, d, .here same⟩

namespace Departs

variable {s rest t : Text} {k : Nat} {c : CodePoint}

theorem getElem? (departs : s.Departs rest k c) : s[k]? = some c := by
  induction departs with
  | here => rfl
  | later _ ih => exact ih

theorem exists_common (departs : s.Departs rest k c) :
    ∃ t, t <+: s ∧ t <+: rest ∧ t.length = k := by
  induction departs with
  | here => exact ⟨[], List.nil_prefix, List.nil_prefix, rfl⟩
  | @later c d s rest k _ ih =>
      obtain ⟨t, first, second, rfl⟩ := ih
      exact ⟨d :: t, (List.prefix_cons_inj d).mpr first, (List.prefix_cons_inj d).mpr second, rfl⟩

theorem length_le (departs : s.Departs rest k c) (first : t <+: s) (second : t <+: rest) :
    t.length ≤ k := by
  induction departs generalizing t with
  | here other =>
      cases t with
      | nil => exact Nat.le_refl 0
      | cons d t =>
          -- Something in common would begin with the code point that they part at.
          obtain ⟨rfl, -⟩ := List.cons_prefix_cons.mp first
          obtain ⟨more, rfl⟩ := second
          exact absurd rfl other
  | later _ ih =>
      cases t with
      | nil => exact Nat.zero_le _
      | cons d t =>
          exact Nat.succ_le_succ
            (ih (List.cons_prefix_cons.mp first).2 (List.cons_prefix_cons.mp second).2)

theorem not_prefix (departs : s.Departs rest k c) : ¬ s <+: rest := fun stands => by
  obtain ⟨within, -⟩ := List.getElem?_eq_some_iff.mp departs.getElem?
  exact Nat.not_lt_of_le (departs.length_le (List.prefix_refl s) stands) within

theorem isGreatest (departs : s.Departs rest k c) :
    IsGreatest {j | ∃ t, t <+: s ∧ t <+: rest ∧ t.length = j} k := by
  refine ⟨departs.exists_common, ?_⟩
  rintro j ⟨t, first, second, rfl⟩
  exact departs.length_le first second

end Departs

end Text

namespace Matcher

variable {σ : Type} {s src rest : Text} {i k : Nat} {c : CodePoint}

theorem char_seen (seen : src[i]? = some c) :
    char c src i = (pure (.matched (.text [c]) (i + 1 : Nat)) : Action σ Outcome) :=
  codePoint_seen (Text.inQuotes [c]) seen (beq_self_eq_true c)

theorem char_refused (other : src[i]? ≠ some c) :
    char c src i = (pure (.failed (Text.inQuotes [c]) i) : Action σ Outcome) :=
  codePoint_refused (Text.inQuotes [c]) fun _ seen => beq_eq_false_iff_ne.mpr
    fun same => other (same ▸ seen)

theorem stages_letters (stands : s <+: src.drop i) (values : List Value) :
    stages src (s.map char) values i =
      (pure (.matched (.tuple (values.reverse ++ s.map fun c => .text [c])) (i + s.length : Nat)) :
        Action σ Outcome) := by
  induction s generalizing i values with
  | nil =>
      rw [List.map_nil, List.map_nil, List.append_nil]
      rfl
  | cons c s ih =>
      obtain ⟨rest, same⟩ := stands
      have left : src.drop i = c :: (s ++ rest) := same.symm
      have more : s <+: src.drop (i + 1) := ⟨rest, (Text.drop_succ_of_drop left).symm⟩
      rw [List.map_cons, stages_matched (char_seen (Text.getElem?_of_drop left)), ih more]
      simp [Nat.add_assoc, Nat.add_comm 1]

theorem stages_departs (departs : s.Departs rest k c) (left : src.drop i = rest)
    (values : List Value) :
    stages src (s.map char) values i =
      (pure (.failed (Text.inQuotes [c]) (i + k : Nat)) : Action σ Outcome) := by
  induction departs generalizing i values with
  | here other =>
      refine stages_failed (char_refused ?_)
      rwa [← List.head?_drop, left]
  | later _ ih =>
      rw [List.map_cons, stages_matched (char_seen (Text.getElem?_of_drop left)),
        ih (Text.drop_succ_of_drop left), Nat.add_assoc, Nat.add_comm 1]

end Matcher

/-! Built and run. -/

namespace Grammar

/-- The code points of a text in sequence. -/
def letters (s : Text) : Grammar :=
  .seq (s.map fun c => .char [c])

theorem buildAll_letters (s : Text) :
    buildAll (s.map fun c => .char [c]) = pure ((s.map .char).map .parser) := by
  induction s with
  | nil => rfl
  | cons c s ih =>
      rw [List.map_cons, buildAll, ih]
      rfl

theorem parser_letters {s : Text} (filled : s ≠ []) :
    (letters s).parser = pure (.seq (s.map .char)) := by
  have built : (letters s).build = pure (.parser (.seq (s.map .char))) := by
    have needed : ((s.map Parser.char).map Argument.parser).isEmpty = false := by simpa using filled
    rw [letters, build, buildAll_letters, pure_bind, needed, toParsers_map]
    rfl
  rw [parser, built, pure_bind]
  rfl

end Grammar

namespace Request

theorem perform_run_string (fuel : Nat) (s src : Text) (pos : Int) :
    (run (.string s) src pos).perform fuel = do return .outcome (← Matcher.string s src pos) := by
  cases fuel <;> rfl

theorem perform_run_letters (fuel : Nat) {s : Text} (filled : s ≠ []) (src : Text) (pos : Int) :
    (run (.letters s) src pos).perform fuel = do
      return .outcome (← Matcher.seq (s.map .char) src pos) := by
  have each : Parser.run fuel ∘ Parser.char = Matcher.char := by
    funext c
    cases fuel <;> rfl
  rw [perform, Grammar.parser_letters filled, pure_bind, Parser.run_seq, List.map_map, each]

end Request

/-- What a text and the sequence of its code points come to at a position. Where they fail, the
sequence does so behind the longest text that both have in common with what is there. -/
structure Outcome.SpelledOut (s src : Text) (pos : Nat) (r q : Outcome) : Prop where
  stands_iff : (∃ m, r = .success m) ↔ s <+: src.drop pos
  matched_iff : (∃ m, r = .success m) ↔ ∃ m, q = .success m
  matched : ∀ m n, r = .success m → q = .success n → n.pos = m.pos ∧
    ∃ values, n.value = .tuple values ∧ ∃ t, m.value = .text t ∧ n.value.join = .ok t
  failed : (∀ m, r ≠ .success m) → r = .failed (Text.inQuotes s) pos ∧
    ∃ k c, IsGreatest {j | ∃ t, t <+: s ∧ t <+: src.drop pos ∧ t.length = j} k ∧ s[k]? = some c ∧
      q = .failed (Text.inQuotes [c]) (pos + k : Nat)

namespace Outcome.SpelledOut

variable {s src : Text} {pos k : Nat} {c : CodePoint}

theorem of_stands (stands : s <+: src.drop pos) :
    SpelledOut s src pos (.matched (.text s) (pos + s.length : Nat))
      (.matched (.tuple (s.map fun c => .text [c])) (pos + s.length : Nat)) where
  stands_iff := ⟨fun _ => stands, fun _ => ⟨_, rfl⟩⟩
  matched_iff := ⟨fun _ => ⟨_, rfl⟩, fun _ => ⟨_, rfl⟩⟩
  matched m n text row := by
    cases text
    cases row
    exact ⟨rfl, _, rfl, s, rfl, Value.concatenate_singles false s⟩
  failed other := absurd rfl (other _)

theorem of_departs (departs : s.Departs (src.drop pos) k c) :
    SpelledOut s src pos (.failed (Text.inQuotes s) pos)
      (.failed (Text.inQuotes [c]) (pos + k : Nat)) where
  stands_iff := by
    constructor
    · rintro ⟨m, ⟨⟩⟩
    · exact fun stands => absurd stands departs.not_prefix
  matched_iff := by
    constructor
    · rintro ⟨m, ⟨⟩⟩
    · rintro ⟨m, ⟨⟩⟩
  matched _ _ same := nomatch same
  failed _ := ⟨rfl, k, c, departs.isGreatest, departs.getElem?, rfl⟩

end Outcome.SpelledOut

namespace Grammar

/-- At the end of the text and past it both fail, the sequence at its first code point. -/
theorem string_letters (s src : Text) (pos fuel : Nat) (store : Store) (filled : s ≠ []) :
    ∃ r q, ((Request.run (.string s) src pos).perform fuel).run store =
      some (.ok (.outcome r), store) ∧
      ((Request.run (.letters s) src pos).perform fuel).run store = some (.ok (.outcome q), store) ∧
      r.SpelledOut s src pos q := by
  rw [Request.perform_run_string, Request.perform_run_letters fuel filled, Matcher.seq]
  by_cases stands : s <+: src.drop pos
  · rw [Matcher.string_stands filled stands, Matcher.stages_letters stands]
    exact ⟨_, _, rfl, rfl, .of_stands stands⟩
  · obtain ⟨k, c, departs⟩ := Text.exists_departs stands
    rw [Matcher.string_differs filled stands, Matcher.stages_departs departs rfl]
    exact ⟨_, _, rfl, rfl, .of_departs departs⟩

/-- Both begin with two code points that are there, and only the sequence shows it. -/
theorem string_letters_halfway :
    let abc := Text.ofString "abc"
    let src := Text.ofString "xabd"
    ((Request.run (.string abc) src 1).perform 1).run .empty =
        some (.ok (.outcome (.failed (Text.ofString "'abc'") 1)), .empty) ∧
      ((Request.run (.letters abc) src 1).perform 1).run .empty =
        some (.ok (.outcome (.failed (Text.ofString "'c'") 3)), .empty) ∧
      IsGreatest {j | ∃ t, t <+: abc ∧ t <+: src.drop 1 ∧ t.length = j} 2 := by
  intro abc src
  have ran : ((Request.run (.letters abc) src 1).perform 1).run .empty =
    some (.ok (.outcome (.failed (Text.ofString "'c'") 3)), .empty) := rfl
  obtain ⟨r, q, text, row, spelled⟩ := string_letters abc src 1 1 .empty (by decide)
  cases ran.symm.trans row
  have refused (m : Success) : r ≠ .success m := fun same => by
    have stands := spelled.stands_iff.mp ⟨m, same⟩
    revert stands
    decide
  obtain ⟨rfl, k, c, greatest, -, same⟩ := spelled.failed refused
  have far : (3 : Int) = (1 + k : Nat) := congrArg Failure.pos (Outcome.failure.inj same)
  obtain rfl : k = 2 := by omega
  exact ⟨text, ran, greatest⟩

end Grammar

end Descent
