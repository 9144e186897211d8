import Descent.Session
import Descent.Grammar.General
import Descent.Proofs.Matcher.Answering

/-!
Quoted strings as matchers. The grammars for quoted strings remember nothing, so what is built from
them is a matcher that can be written down; its parts answer by what stands at their position.
-/

namespace Descent

namespace Matcher

variable {σ : Type}

def mapText (p : Matcher σ) (fn : Value → Except Fault Text) : Matcher σ :=
  map p (fun v => Action.ofExcept do return .text (← fn v)) none

def anyChar : Matcher σ :=
  codePoint (fun _ => true) (Text.ofString "any character")

def hexDigit : Matcher σ :=
  codePoint CodePoint.isHexDigit (Text.ofString "hexadecimal digit")

def unicodeEscape : Matcher σ :=
  mapText (after (string (Text.ofString "u")) (seq [hexDigit, hexDigit, hexDigit, hexDigit]))
    Grammar.readCodePoint

def escapedChar (escapes : Grammar.Escapes) : Matcher σ :=
  mapText (except (string (Text.ofString "u")) anyChar) escapes.replace

def escapeSequence (escape : Text) (escapes : Grammar.Escapes) : Matcher σ :=
  after (string escape) (alt [unicodeEscape, escapedChar escapes])

def plainChar (quote escape : Text) : Matcher σ :=
  except (alt [string quote, string escape]) anyChar

def quotedChar (quote escape : Text) (escapes : Grammar.Escapes) : Matcher σ :=
  alt [escapeSequence escape escapes, plainChar quote escape]

def quotedString (fuel : Nat) (quote escape : Text) (escapes : Grammar.Escapes) : Matcher σ :=
  mapText (between (string quote) (string quote) (many fuel (quotedChar quote escape escapes)))
    Value.joinPresent

end Matcher

namespace Request

variable (fuel : Nat) (quote escape : Text) (escapes : Grammar.Escapes) (src : Text)

theorem perform_run_quotedString (pos : Int) :
    (run (.quotedString quote escape escapes) src pos).perform fuel =
      do return .outcome (← Matcher.quotedString fuel quote escape escapes src pos) := by
  cases fuel <;> rfl

theorem perform_parse_quotedString (full : Bool) :
    (parse (.quotedString quote escape escapes) src full).perform fuel =
      do
        return .parsed
          (← Matcher.parse full (Matcher.quotedString fuel quote escape escapes) src) := by
  cases fuel <;> rfl

end Request

/-- Hexadecimal digits in either case, with what they count. -/
inductive CodePoint.IsHex : CodePoint → Nat → Prop
  | decimal {c : CodePoint} {n : Nat} (below : n < 10) (digit : c.val = 0x30 + n) : IsHex c n
  | upper {c : CodePoint} {n : Nat} (below : n < 6) (letter : c.val = 0x41 + n) : IsHex c (10 + n)
  | lower {c : CodePoint} {n : Nat} (below : n < 6) (letter : c.val = 0x61 + n) : IsHex c (10 + n)

namespace CodePoint.IsHex

variable {c : CodePoint} {n : Nat}

theorem isHexDigit (hex : c.IsHex n) : c.isHexDigit = true := by
  simp only [CodePoint.isHexDigit, isDigit, isWithin, Bool.or_eq_true, Bool.and_eq_true,
    decide_eq_true_eq]
  cases hex <;> omega

theorem digitValue? (hex : c.IsHex n) : c.digitValue? = some n := by
  simp only [CodePoint.digitValue?, isDigit, isUpperLetter, isLowerLetter, isWithin,
    Bool.and_eq_true, decide_eq_true_eq]
  cases hex with
  | decimal below digit => rw [if_pos (by omega), digit, Nat.add_sub_cancel_left]
  | upper below letter =>
      rw [if_neg (by omega), if_pos (by omega), letter, Nat.add_sub_cancel_left, Nat.add_comm]
  | lower below letter =>
      rw [if_neg (by omega), if_neg (by omega), if_pos (by omega), letter, Nat.add_sub_cancel_left,
        Nat.add_comm]

end CodePoint.IsHex

namespace Matcher

variable {σ : Type} {src rest t quote escape : Text} {i : Nat} {c d : CodePoint}

theorem string_fails (remains : src.Remains i rest) (differs : ¬ t <+: rest) :
    Fails (string t src i : Action σ Outcome) :=
  .of_eq (.single _ _) (string_failed remains differs)

theorem one_matched (remains : src.Remains i (c :: rest)) :
    string [c] src i = (pure (.matched (.text [c]) (i + 1 : Nat)) : Action σ Outcome) :=
  string_matched remains (by simp)

theorem one_fails (remains : src.Remains i rest) (other : rest.head? ≠ some c) :
    Fails (string [c] src i : Action σ Outcome) := by
  refine string_fails remains fun stands => other ?_
  obtain ⟨more, rfl⟩ := stands
  rfl

theorem anyChar_matched (remains : src.Remains i (c :: rest)) :
    anyChar src i = (pure (.matched (.text [c]) (i + 1 : Nat)) : Action σ Outcome) :=
  codePoint_matched _ remains rfl

theorem anyChar_fails (remains : src.Remains i []) : Fails (anyChar src i : Action σ Outcome) :=
  .of_eq (.single _ _) (codePoint_failed _ remains nofun)

section

variable {p : Matcher σ} {pos stop : Int}

theorem mapText_matched {v : Value} {t : Text} {fn : Value → Except Fault Text}
    (inner : p src pos = pure (.matched v stop)) (called : fn v = .ok t) :
    mapText p fn src pos = pure (.matched (.text t) stop) :=
  map_matched inner (by rw [called]; rfl)

theorem mapText_failed {f : Failure} (inner : p src pos = pure (.failure f))
    (fn : Value → Except Fault Text) :
    mapText p fn src pos = pure (.failure f) :=
  map_failed inner _

theorem mapText_fails (inner : Fails (p src pos)) (fn : Value → Except Fault Text) :
    Fails (mapText p fn src pos) :=
  inner.map _

theorem after_fails (lead : Fails (p src pos)) (q : Matcher σ) : Fails (after p q src pos) := by
  have row : Fails (seq [p, q] src pos) := lead.stages [q] []
  exact row.pick 1

end

/-! Escapes. -/

theorem unicodeEscape_fails (remains : src.Remains i rest)
    (other : rest.head? ≠ some (CodePoint.ofChar 'u')) :
    Fails (unicodeEscape src i : Action σ Outcome) :=
  mapText_fails (after_fails (one_fails remains other) _) _

theorem hexDigit_matched {n : Nat} (hex : c.IsHex n) (remains : src.Remains i (c :: rest)) :
    hexDigit src i = (pure (.matched (.text [c]) (i + 1 : Nat)) : Action σ Outcome) :=
  codePoint_matched _ remains hex.isHexDigit

theorem readCodePoint_digits {a b code : CodePoint} {j k l m : Nat} (first : a.IsHex j)
    (second : b.IsHex k) (third : c.IsHex l) (fourth : d.IsHex m)
    (number : code.val = ((j * 16 + k) * 16 + l) * 16 + m) :
    Grammar.readCodePoint (.tuple [.text [a], .text [b], .text [c], .text [d]]) = .ok [code] := by
  have value : Numeral.value 16 [a, b, c, d] = code.val := by
    simp only [Numeral.value, List.foldl, first.digitValue?, second.digitValue?, third.digitValue?,
      fourth.digitValue?, Option.getD_some]
    omega
  have found : CodePoint.ofNat? (Numeral.value 16 [a, b, c, d]) = some code := by
    rw [value, CodePoint.ofNat?, dif_pos code.isLt]
  have digits : [a, b, c, d].all CodePoint.isHexDigit = true := by
    simp [first.isHexDigit, second.isHexDigit, third.isHexDigit, fourth.isHexDigit]
  have joined : Value.joinPresent (.tuple [.text [a], .text [b], .text [c], .text [d]]) =
      .ok [a, b, c, d] := rfl
  simp only [Grammar.readCodePoint, joined, bind, Except.bind, found, digits]
  rfl

theorem unicodeEscape_matched {a b code : CodePoint} {j k l m : Nat} (first : a.IsHex j)
    (second : b.IsHex k) (third : c.IsHex l) (fourth : d.IsHex m)
    (number : code.val = ((j * 16 + k) * 16 + l) * 16 + m)
    (remains : src.Remains i (CodePoint.ofChar 'u' :: a :: b :: c :: d :: rest)) :
    unicodeEscape src i = (pure (.matched (.text [code]) (i + 5 : Nat)) : Action σ Outcome) := by
  have digits : seq [hexDigit, hexDigit, hexDigit, hexDigit] src (i + 1 : Nat) =
      (pure (.matched (.tuple [.text [a], .text [b], .text [c], .text [d]]) (i + 5 : Nat)) :
        Action σ Outcome) := by
    rw [seq, stages_matched (hexDigit_matched first remains.next),
      stages_matched (hexDigit_matched second remains.next.next),
      stages_matched (hexDigit_matched third remains.next.next.next),
      stages_matched (hexDigit_matched fourth remains.next.next.next.next)]
    rfl
  exact mapText_matched ((after_onward (one_matched remains)).trans digits)
    (readCodePoint_digits first second third fourth number)

/-- So many hexadecimal digits in a row fail where there are not so many. -/
theorem hexDigits_fail (count : Nat) (remains : src.Remains i rest)
    (short : (rest.take count).length = count → ∃ c ∈ rest.take count, c.isHexDigit = false)
    (values : List Value) :
    Fails (stages src (List.replicate count hexDigit) values i : Action σ Outcome) := by
  induction count generalizing i rest values with
  | zero =>
      obtain ⟨c, member, -⟩ := short rfl
      cases member
  | succ count ih =>
      have fails (here : ∀ c, rest.head? = some c → c.isHexDigit = false) :
          Fails (stages src (List.replicate (count + 1) hexDigit) values i : Action σ Outcome) :=
        Fails.stages (.of_eq (.single _ _) (codePoint_failed _ remains here)) _ _
      cases rest with
      | nil => exact fails nofun
      | cons c rest =>
          cases hex : c.isHexDigit with
          | false => exact fails fun _ same => Option.some.inj same ▸ hex
          | true =>
              rw [List.replicate_succ, hexDigit, stages_matched (codePoint_matched _ remains hex)]
              exact ih remains.next (by simpa [hex] using short) _

theorem unicodeEscape_fails_behind (remains : src.Remains i (CodePoint.ofChar 'u' :: rest))
    (short : (rest.take 4).length = 4 → ∃ c ∈ rest.take 4, c.isHexDigit = false) :
    Fails (unicodeEscape src i : Action σ Outcome) := by
  have row :
      Fails (seq [hexDigit, hexDigit, hexDigit, hexDigit] src (i + 1 : Nat) : Action σ Outcome) :=
    hexDigits_fail 4 remains.next short []
  exact mapText_fails (.of_eq row (after_onward (one_matched remains))) _

theorem escapedChar_matched (escapes : Grammar.Escapes) (remains : src.Remains i (c :: rest))
    (other : c ≠ CodePoint.ofChar 'u') :
    escapedChar escapes src i =
      (pure (.matched (.text ((escapes.lookup [c]).getD [c])) (i + 1 : Nat)) :
        Action σ Outcome) := by
  obtain ⟨_, _, _, noNumber⟩ : Fails (string (Text.ofString "u") src i : Action σ Outcome) :=
    one_fails (c := CodePoint.ofChar 'u') remains (by simpa using other)
  exact mapText_matched ((except_failed noNumber).trans (anyChar_matched remains)) rfl

theorem escapedChar_fails (escapes : Grammar.Escapes) (remains : src.Remains i rest)
    (refused : ∀ c, rest.head? = some c → c = CodePoint.ofChar 'u') :
    Fails (escapedChar escapes src i : Action σ Outcome) := by
  refine mapText_fails ?_ _
  cases rest with
  | nil =>
      obtain ⟨_, _, _, noNumber⟩ : Fails (string (Text.ofString "u") src i : Action σ Outcome) :=
        one_fails (c := CodePoint.ofChar 'u') remains nofun
      exact .of_eq (anyChar_fails remains) (except_failed noNumber)
  | cons c rest =>
      obtain rfl := refused c rfl
      exact .of_eq (.single _ _) (except_matched (one_matched remains))

variable {escapes : Grammar.Escapes}

/-- Behind the escape, a code point other than `u` is replaced or kept. -/
theorem escapeSequence_matched_char (remains : src.Remains i (escape ++ c :: rest))
    (other : c ≠ CodePoint.ofChar 'u') :
    escapeSequence escape escapes src i =
      (pure (.matched (.text ((escapes.lookup [c]).getD [c])) (i + escape.length + 1 : Nat)) :
        Action σ Outcome) := by
  refine (after_onward (string_matched remains (List.prefix_append _ _))).trans ?_
  obtain ⟨_, _, _, noNumber⟩ :
    Fails (unicodeEscape src (i + escape.length : Nat) : Action σ Outcome) :=
    unicodeEscape_fails remains.skip (by simpa using other)
  rw [alt, alternatives_failed noNumber,
    alternatives_matched (escapedChar_matched escapes remains.skip other)]

theorem escapeSequence_matched_number {a b code : CodePoint} {j k l m : Nat} (first : a.IsHex j)
    (second : b.IsHex k) (third : c.IsHex l) (fourth : d.IsHex m)
    (number : code.val = ((j * 16 + k) * 16 + l) * 16 + m)
    (remains : src.Remains i (escape ++ CodePoint.ofChar 'u' :: a :: b :: c :: d :: rest)) :
    escapeSequence escape escapes src i =
      (pure (.matched (.text [code]) (i + escape.length + 5 : Nat)) : Action σ Outcome) := by
  refine (after_onward (string_matched remains (List.prefix_append _ _))).trans ?_
  rw [alt, alternatives_matched
    (unicodeEscape_matched first second third fourth number remains.skip)]

theorem escapeSequence_fails (remains : src.Remains i rest) (differs : ¬ escape <+: rest) :
    Fails (escapeSequence escape escapes src i : Action σ Outcome) :=
  after_fails (string_fails remains differs) _

/-- Behind the escape, there has to be something, and if it is `u`, then a number too. -/
theorem escapeSequence_fails_behind (remains : src.Remains i (escape ++ rest))
    (refused : ∀ c, rest.head? = some c → c = CodePoint.ofChar 'u')
    (short : (rest.tail.take 4).length = 4 → ∃ c ∈ rest.tail.take 4, c.isHexDigit = false) :
    Fails (escapeSequence escape escapes src i : Action σ Outcome) := by
  refine .of_eq ?_ (after_onward (string_matched remains (List.prefix_append _ _)))
  have noNumber : Fails (unicodeEscape src (i + escape.length : Nat) : Action σ Outcome) := by
    cases rest with
    | nil => exact unicodeEscape_fails remains.skip nofun
    | cons c rest =>
        obtain rfl := refused c rfl
        exact unicodeEscape_fails_behind remains.skip short
  exact noNumber.alt
    (List.forall_mem_singleton.mpr (escapedChar_fails escapes remains.skip refused))

/-! One code point of the content, however it is written. -/

theorem plainChar_matched (remains : src.Remains i (c :: rest)) (notQuote : ¬ quote <+: c :: rest)
    (notEscape : ¬ escape <+: c :: rest) : plainChar quote escape src i =
      (pure (.matched (.text [c]) (i + 1 : Nat)) : Action σ Outcome) := by
  obtain ⟨_, _, _, neither⟩ : Fails (alt [string quote, string escape] src i : Action σ Outcome) :=
    (string_fails remains notQuote).alt
      (List.forall_mem_singleton.mpr (string_fails remains notEscape))
  exact (except_failed neither).trans (anyChar_matched remains)

theorem plainChar_fails (remains : src.Remains i rest)
    (blocked : quote <+: rest ∨ escape <+: rest ∨ rest = []) :
    Fails (plainChar quote escape src i : Action σ Outcome) := by
  by_cases stands : quote <+: rest
  · exact .of_eq (.single _ _)
      (except_matched (alternatives_matched (string_matched remains stands)))
  · have noQuote := string_failed (σ := σ) remains stands
    by_cases escaped : escape <+: rest
    · have second : alt [string quote, string escape] src i =
          (pure (.matched (.text escape) (i + escape.length : Nat)) : Action σ Outcome) := by
        rw [alt, alternatives_failed noQuote, alternatives_matched (string_matched remains escaped)]
      exact .of_eq (.single _ _) (except_matched second)
    · obtain rfl := (blocked.resolve_left stands).resolve_left escaped
      obtain ⟨_, _, _, neither⟩ :
        Fails (alt [string quote, string escape] src i : Action σ Outcome) :=
        (string_fails remains stands).alt
          (List.forall_mem_singleton.mpr (string_fails remains escaped))
      exact .of_eq (anyChar_fails remains) (except_failed neither)

end Matcher

end Descent
