import Descent.Proofs.Conduct.Faults
import Descent.Proofs.Parser.Parts

/-!
Careful grammars: those that bring along no function that misses an expectation. Grammars for
numbers, names and quoted strings are careful.
-/

namespace Descent.Grammar

/-- Brings along no function that misses an expectation itself, by making a failure of no labels or
in any other way. -/
def Careful : Grammar → Prop
  | .faulty e => e.Ordinary
  | .satisfy test _ => ∀ v, Faults Fault.Ordinary (test.call v)
  | .custom verdict => ∀ src pos,
    Faults Fault.Ordinary (verdict src pos) ∧ ∀ stop, verdict src pos ≠ .ok (.failure [] stop)
  | .copies _ count => Faults Fault.Ordinary count
  | .map _ fn validate =>
    (∀ v, Faults Fault.Ordinary (fn.call v)) ∧
      ∀ test ∈ validate, ∀ v, Faults Fault.Ordinary (test.call v)
  | _ => True

/-- The grammars for numbers, names and quoted strings. -/
inductive General : Grammar → Prop
  | digits : General digits
  | sign : General sign
  | integer : General integer
  | float : General float
  | identifier : General identifier
  | unicodeEscape : General unicodeEscape
  | quotedString (quote escape : Text) (escapes : Escapes) :
      General (quotedString quote escape escapes)

theorem all_codePoint_careful (test : CodePoint → Bool) (label : Text) :
    (codePoint test label).All Careful := by
  refine all_satisfy.mpr fun v => ?_
  cases v with
  | text t =>
      rcases t with _ | ⟨c, _ | ⟨d, t⟩⟩
      · exact .error nofun
      · exact .ok _
      · exact .error nofun
  | _ => exact .error nofun

theorem all_map_careful {g : Grammar} (part : g.All Careful) {fn : Value → Except Fault Value}
    (faults : ∀ v, Faults Fault.Ordinary (fn v)) : (map g (.silent fn) none).All Careful :=
  all_map.mpr ⟨⟨faults, nofun⟩, part⟩

theorem all_mapText_careful {g : Grammar} (part : g.All Careful) {fn : Value → Except Fault Text}
    (faults : ∀ v, Faults Fault.Ordinary (fn v)) : (mapText g fn).All Careful :=
  all_map_careful part fun v => (faults v).bind fun _ => .pure _

theorem all_seq_careful {gs : List Grammar} (parts : ∀ g ∈ gs, g.All Careful) :
    (seq gs).All Careful :=
  all_seq.mpr ⟨True.intro, parts⟩

theorem all_alt_careful {gs : List Grammar} (parts : ∀ g ∈ gs, g.All Careful) :
    (alt gs).All Careful :=
  all_alt.mpr ⟨True.intro, parts⟩

theorem all_string_careful (t : Text) : (string t).All Careful :=
  all_string.mpr True.intro

theorem all_optional_careful {g : Grammar} (part : g.All Careful) : (optional g).All Careful :=
  all_alt_careful (by simp [part, all_succeed, Careful])

theorem all_joined_careful {g : Grammar} (part : g.All Careful) : (joined g).All Careful :=
  all_mapText_careful part Value.joinPresent_faults

theorem all_after_careful {lead g : Grammar} (first : lead.All Careful) (second : g.All Careful) :
    (after lead g).All Careful :=
  all_map_careful (all_seq_careful (by simp [first, second])) (Value.item_faults 1)

theorem all_digits_careful : digits.All Careful :=
  all_joined_careful (all_many1.mpr ⟨True.intro, all_codePoint_careful _ _⟩)

theorem all_sign_careful : sign.All Careful :=
  all_optional_careful (all_codePoint_careful _ _)

theorem all_exponent_careful : exponent.All Careful := by
  refine all_joined_careful (all_seq_careful ?_)
  have letters : (alt [string (Text.ofString "e"), string (Text.ofString "E")]).All Careful :=
    all_alt_careful (by simp [Careful])
  simp [letters, all_sign_careful, all_digits_careful]

theorem all_unsignedFloat_careful : unsignedFloat.All Careful := by
  have exponent := all_exponent_careful
  have fraction : fraction.All Careful :=
    all_joined_careful (all_seq_careful (by simp [Careful, all_digits_careful]))
  refine all_alt_careful ?_
  simp only [List.forall_mem_cons, List.not_mem_nil, false_implies, implies_true, and_true]
  refine ⟨?_, ?_, ?_⟩
  · exact all_joined_careful (all_seq_careful (by
      simp [all_digits_careful, fraction, all_optional_careful exponent]))
  · exact all_joined_careful (all_seq_careful (by simp [all_digits_careful, exponent]))
  · exact all_joined_careful (all_seq_careful (by simp [fraction, all_optional_careful exponent]))

theorem all_identifier_careful : identifier.All Careful := by
  have underscore := all_string_careful (Text.ofString "_")
  have head : (alt [letter, string (Text.ofString "_")]).All Careful :=
    all_alt_careful (by simp [letter, all_codePoint_careful, underscore])
  have others : (alt [letter, digit, string (Text.ofString "_")]).All Careful :=
    all_alt_careful (by simp [letter, digit, all_codePoint_careful, underscore])
  have row : (seq [alt [letter, string (Text.ofString "_")],
      many (alt [letter, digit, string (Text.ofString "_")])]).All Careful :=
    all_seq_careful (by simp [-all_alt, head, others, Careful])
  exact all_named.mpr ⟨True.intro, all_mapText_careful row joinHeadAndRest_faults⟩

theorem all_unicodeEscape_careful : unicodeEscape.All Careful := by
  refine all_mapText_careful (all_after_careful (all_string_careful _) (all_seq_careful ?_))
    readCodePoint_faults
  simp [all_codePoint_careful]

theorem all_quotedString_careful (quote escape : Text) (escapes : Escapes) :
    (quotedString quote escape escapes).All Careful := by
  have any : anyChar.All Careful := all_codePoint_careful _ _
  have escaped : (escapedChar escapes).All Careful :=
    all_mapText_careful (all_except.mpr ⟨True.intro, all_string_careful _, any⟩)
      escapes.replace_faults
  have sequence : (escapeSequence escape escapes).All Careful :=
    all_after_careful (all_string_careful _)
      (all_alt_careful (by simp [all_unicodeEscape_careful, escaped]))
  have plain : (plainChar quote escape).All Careful :=
    all_except.mpr ⟨True.intro, all_alt_careful (by simp [Careful]), any⟩
  have content : (many (alt [escapeSequence escape escapes, plainChar quote escape])).All Careful :=
    all_many.mpr ⟨True.intro, all_alt_careful (by simp [sequence, plain])⟩
  exact all_joined_careful
    (all_between.mpr ⟨True.intro, all_string_careful _, all_string_careful _, content⟩)

theorem general_careful {g : Grammar} (general : g.General) : g.All Careful := by
  cases general with
  | digits => exact all_digits_careful
  | sign => exact all_sign_careful
  | integer =>
      have row : (seq [sign, digits]).All Careful :=
        all_seq_careful (by simp [all_sign_careful, all_digits_careful])
      exact all_named.mpr ⟨True.intro, all_map_careful row readInteger_faults⟩
  | float =>
      have row : (seq [sign, unsignedFloat]).All Careful :=
        all_seq_careful (by simp [all_sign_careful, all_unsignedFloat_careful])
      exact all_named.mpr ⟨True.intro, all_map_careful row readFloat_faults⟩
  | identifier => exact all_identifier_careful
  | unicodeEscape => exact all_unicodeEscape_careful
  | quotedString quote escape escapes => exact all_quotedString_careful quote escape escapes

end Descent.Grammar
