import Descent.Text.Blank
import Descent.Text.Position

/-!
Parsing expressions. What an expression derives at a position of a text is a relation: the end of a
match, or none. Main statements: an expression derives at most one result, and a match moves
forwards and stays within the text.
-/

namespace Descent

/-- Parsing expressions, with rules by name. -/
inductive Peg where
  | test (p : CodePoint → Bool)
  | empty
  | fail
  | seq (first second : Peg)
  | choice (first second : Peg)
  | star (e : Peg)
  | not (e : Peg)
  | rule (name : Text)

namespace Peg

/-- What an expression derives from a position: where its match ends, or that there is none. -/
inductive Derives (rules : Text → Peg) (src : Text) : Peg → Nat → Option Nat → Prop
  | test {p : CodePoint → Bool} {i : Nat} {c : CodePoint} (seen : src[i]? = some c)
      (passed : p c = true) :
      Derives rules src (.test p) i (some (i + 1))
  | testOther {p : CodePoint → Bool} {i : Nat} {c : CodePoint} (seen : src[i]? = some c)
      (refused : p c = false) : Derives rules src (.test p) i none
  | testEnd {p : CodePoint → Bool} {i : Nat} (ended : src[i]? = none) :
      Derives rules src (.test p) i none
  | empty {i : Nat} : Derives rules src .empty i (some i)
  | fail {i : Nat} : Derives rules src .fail i none
  | seq {e f : Peg} {i j : Nat} {x : Option Nat} (first : Derives rules src e i (some j))
      (second : Derives rules src f j x) : Derives rules src (.seq e f) i x
  | seqFail {e f : Peg} {i : Nat} (first : Derives rules src e i none) :
      Derives rules src (.seq e f) i none
  | choice {e f : Peg} {i j : Nat} (first : Derives rules src e i (some j)) :
      Derives rules src (.choice e f) i (some j)
  | choiceNext {e f : Peg} {i : Nat} {x : Option Nat} (first : Derives rules src e i none)
      (second : Derives rules src f i x) : Derives rules src (.choice e f) i x
  | starFail {e : Peg} {i : Nat} (round : Derives rules src e i none) :
      Derives rules src (.star e) i (some i)
  /-- A repetition stops where a round does not move on. -/
  | starStay {e : Peg} {i : Nat} (round : Derives rules src e i (some i)) :
      Derives rules src (.star e) i (some i)
  | starMore {e : Peg} {i j : Nat} {x : Option Nat} (round : Derives rules src e i (some j))
      (moved : j ≠ i) (rest : Derives rules src (.star e) j x) : Derives rules src (.star e) i x
  | not {e : Peg} {i j : Nat} (matched : Derives rules src e i (some j)) :
      Derives rules src (.not e) i none
  | notFail {e : Peg} {i : Nat} (failed : Derives rules src e i none) :
      Derives rules src (.not e) i (some i)
  | rule {name : Text} {i : Nat} {x : Option Nat} (body : Derives rules src (rules name) i x) :
      Derives rules src (.rule name) i x

variable {rules : Text → Peg} {src : Text} {e f : Peg} {i j : Nat} {x y : Option Nat}

theorem Derives.unique (first : Derives rules src e i x) (second : Derives rules src e i y) :
    x = y := by
  induction first generalizing y with
  | test seen passed =>
      cases second with
      | test => rfl
      | testOther again refused =>
          cases seen.symm.trans again
          exact absurd passed (Bool.eq_false_iff.mp refused)
      | testEnd ended => cases seen.symm.trans ended
  | testOther seen refused =>
      cases second with
      | test again passed =>
          cases seen.symm.trans again
          exact absurd passed (Bool.eq_false_iff.mp refused)
      | testOther => rfl
      | testEnd => rfl
  | testEnd ended =>
      cases second with
      | test seen passed => cases ended.symm.trans seen
      | testOther => rfl
      | testEnd => rfl
  | empty =>
      cases second
      rfl
  | fail =>
      cases second
      rfl
  | seq _ _ ihFirst ihSecond =>
      cases second with
      | seq first' second' =>
          cases ihFirst first'
          exact ihSecond second'
      | seqFail first' => cases ihFirst first'
  | seqFail _ ih =>
      cases second with
      | seq first' _ => cases ih first'
      | seqFail => rfl
  | choice _ ih =>
      cases second with
      | choice first' => exact ih first'
      | choiceNext first' _ => cases ih first'
  | choiceNext _ _ ihFirst ihSecond =>
      cases second with
      | choice first' => cases ihFirst first'
      | choiceNext _ second' => exact ihSecond second'
  | starFail _ ih =>
      cases second with
      | starFail => rfl
      | starStay => rfl
      | starMore round' _ _ => cases ih round'
  | starStay _ ih =>
      cases second with
      | starFail => rfl
      | starStay => rfl
      | starMore round' moved _ =>
          cases ih round'
          exact absurd rfl moved
  | starMore _ moved _ ihRound ihRest =>
      cases second with
      | starFail round' => cases ihRound round'
      | starStay round' =>
          cases ihRound round'
          exact absurd rfl moved
      | starMore round' _ rest' =>
          cases ihRound round'
          exact ihRest rest'
  | not _ ih =>
      cases second with
      | not => rfl
      | notFail failed => cases ih failed
  | notFail _ ih =>
      cases second with
      | not matched => cases ih matched
      | notFail => rfl
  | rule _ ih =>
      cases second with
      | rule body => exact ih body

theorem Derives.bounds (derives : Derives rules src e i x) (inside : i ≤ src.length) :
    ∀ j, x = some j → i ≤ j ∧ j ≤ src.length := by
  induction derives with
  | test seen passed =>
      intro _ found
      cases found
      obtain ⟨lt, _⟩ := List.getElem?_eq_some_iff.mp seen
      omega
  | empty | starFail | starStay | notFail =>
      intro _ found
      cases found
      exact ⟨Nat.le_refl _, inside⟩
  | seq _ _ ihFirst ihSecond =>
      intro k equal
      have first := ihFirst inside _ rfl
      have second := ihSecond first.2 k equal
      omega
  | choice _ ih => exact ih inside
  | choiceNext _ _ _ ihSecond => exact ihSecond inside
  | starMore _ _ _ ihRound ihRest =>
      intro k equal
      have round := ihRound inside _ rfl
      have rest := ihRest round.2 k equal
      omega
  | rule _ ih => exact ih inside
  | testOther | testEnd | fail | seqFail | not =>
      intro k equal
      cases equal

/-! Derived expressions. -/

def string : Text → Peg
  | [] => .empty
  | c :: t => .seq (.test (· == c)) (string t)

def sequence : List Peg → Peg
  | [] => .empty
  | [e] => e
  | e :: f :: es => .seq e (sequence (f :: es))

def firstOf : List Peg → Peg
  | [] => .fail
  | [e] => e
  | e :: f :: es => .choice e (firstOf (f :: es))

def many1 (e : Peg) : Peg :=
  .seq e (.star e)

def ahead (e : Peg) : Peg :=
  .not (.not e)

def any : Peg :=
  .test fun _ => true

def spaces : Peg :=
  .star (.test CodePoint.isBlank)

def eof (e : Peg) : Peg :=
  .seq e (.not any)

def except (exclusion e : Peg) : Peg :=
  .seq (.not exclusion) e

def sepBy (separator e : Peg) : Peg :=
  .seq e (.star (.seq separator e))

/-- Matches up to something else, or up to a match that does not move on. -/
def upTo (stop e : Peg) : Peg :=
  .seq (.star (.seq (.not stop) e)) (.choice (ahead stop) (ahead e))

theorem derives_ahead (matched : Derives rules src e i (some j)) :
    Derives rules src (ahead e) i (some i) :=
  .notFail (.not matched)

theorem derives_ahead_none (failed : Derives rules src e i none) :
    Derives rules src (ahead e) i none :=
  .not (.notFail failed)

variable {es : List Peg}

theorem derives_sequence (first : Derives rules src e i (some j))
    (rest : Derives rules src (sequence es) j x) :
    Derives rules src (sequence (e :: es)) i x := by
  cases es with
  | nil =>
      cases rest
      exact first
  | cons f es => exact .seq first rest

theorem derives_sequence_none (first : Derives rules src e i none) :
    Derives rules src (sequence (e :: es)) i none := by
  cases es with
  | nil => exact first
  | cons f es => exact .seqFail first

theorem derives_firstOf (first : Derives rules src e i (some j)) :
    Derives rules src (firstOf (e :: es)) i (some j) := by
  cases es with
  | nil => exact first
  | cons f es => exact .choice first

theorem derives_firstOf_next (first : Derives rules src e i none)
    (rest : Derives rules src (firstOf es) i x) :
    Derives rules src (firstOf (e :: es)) i x := by
  cases es with
  | nil =>
      cases rest
      exact first
  | cons f es => exact .choiceNext first rest

theorem derives_string {t : Text} (stands : t <+: src.drop i) :
    Derives rules src (string t) i (some (i + t.length)) := by
  induction t generalizing i with
  | nil => exact .empty
  | cons c t ih =>
      obtain ⟨rest, equal⟩ := stands
      have seen : src[i]? = some c := by
        rw [← List.head?_drop, ← equal]
        rfl
      have behind : t <+: src.drop (i + 1) := by
        rw [← List.tail_drop, ← equal]
        exact ⟨rest, rfl⟩
      have derives : Derives rules src (string (c :: t)) i (some (i + 1 + t.length)) :=
        .seq (.test seen (by simp)) (ih behind)
      rwa [List.length_cons, Nat.add_comm t.length 1, ← Nat.add_assoc]

theorem derives_string_none {t : Text} (differs : ¬t <+: src.drop i) :
    Derives rules src (string t) i none := by
  induction t generalizing i with
  | nil => exact absurd List.nil_prefix differs
  | cons c t ih =>
      cases seen : src[i]? with
      | none => exact .seqFail (.testEnd seen)
      | some d =>
          cases same : d == c with
          | false => exact .seqFail (.testOther seen same)
          | true =>
              obtain rfl : d = c := by simpa using same
              refine .seq (.test seen (by simp)) (ih fun behind => differs ?_)
              rw [List.drop_eq_getElem?_toList_append, seen]
              exact List.prefix_append_right_inj [d] |>.mpr behind

end Peg

end Descent
