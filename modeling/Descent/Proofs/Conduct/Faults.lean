import Descent.Regex.Pattern
import Descent.Grammar.General
import Descent.Matcher.Lookahead
import Descent.Parser.Basic

/-!
Where faults come from. Reading, describing and taking apart values fault in ways of their own; none
of them ever misses an expectation.
-/

namespace Descent

/-- If there is a fault, then it has a property. -/
def Faults {α : Type} (P : Fault → Prop) (x : Except Fault α) : Prop :=
  ∀ e, x = .error e → P e

namespace Faults

variable {α β : Type} {P Q : Fault → Prop} {x : Except Fault α}

theorem ok (a : α) : Faults P (.ok a) := nofun

theorem pure (a : α) : Faults P (Pure.pure a : Except Fault α) := nofun

theorem error {e : Fault} (holds : P e) : Faults P (.error e : Except Fault α) := by
  intro _ equal
  cases equal
  exact holds

theorem bind {f : α → Except Fault β} (first : Faults P x) (next : ∀ a, Faults P (f a)) :
    Faults P (x >>= f) := by
  intro e equal
  cases x with
  | error e' =>
      cases equal
      exact first e rfl
  | ok a => exact next a e equal

theorem mono (faults : Faults P x) (weaker : ∀ e, P e → Q e) : Faults Q x :=
  fun e equal => weaker e (faults e equal)

end Faults

/-- Any fault but the one of a failure without expectations. -/
def Fault.Ordinary (e : Fault) : Prop :=
  e ≠ .expectationRequired

/-! Texts, patterns and numbers. -/

theorem Text.lookAt_faults (src : Text) (pos : Int) : Faults Fault.Ordinary (src.lookAt pos) := by
  unfold lookAt
  split
  · split
    · exact .ok _
    · exact .error nofun
  · exact .ok _

theorem Matcher.blanksEnd_faults (src : Text) (left : Nat) (pos : Int) :
    Faults Fault.Ordinary (blanksEnd src left pos) := by
  induction left generalizing pos with
  | zero => exact .ok _
  | succ left ih =>
      refine (src.lookAt_faults pos).bind fun seen => ?_
      cases seen with
      | none => exact .ok _
      | some c =>
          dsimp only
          split
          · exact ih _
          · exact .ok _

theorem Regex.read_faults (flags : Regex.Flags) (pattern : Text) :
    Faults Fault.Ordinary (Regex.read flags pattern) := by
  unfold read
  split
  · exact .ok _
  · exact .error nofun

theorem Numeral.write_faults (z : Int) : Faults Fault.Ordinary (Numeral.write z) := by
  unfold write
  split
  · exact .ok _
  · exact .error nofun

theorem Numeral.read_faults (t : Text) : Faults Fault.Ordinary (Numeral.read t) := by
  simp only [read]
  split
  · exact .ok _
  · exact .error nofun

theorem Binary64.read_faults (t : Text) : Faults Fault.Ordinary (Binary64.read t) := by
  simp only [read]
  split
  · exact .ok _
  · exact .error nofun

/-! Values. -/

namespace Value

mutual

theorem describe_faults : ∀ v : Value, Faults Fault.Ordinary v.describe
  | .none | .bool _ | .text _ | .float _ => .ok _
  | .int z => Numeral.write_faults z
  | .list vs | .tuple vs => (describeAll_faults vs).bind fun _ => .pure _

theorem describeAll_faults : ∀ vs : List Value, Faults Fault.Ordinary (describeAll vs)
  | [] => .ok _
  | v :: vs => (describe_faults v).bind fun _ => (describeAll_faults vs).bind fun _ => .pure _

end

mutual

theorem display_faults : ∀ v : Value, Faults Fault.Ordinary v.display
  | .text _ => .ok _
  | .none => describe_faults .none
  | .bool b => describe_faults (.bool b)
  | .int z => describe_faults (.int z)
  | .float x => describe_faults (.float x)
  | .list vs | .tuple vs => (displayAll_faults vs).bind fun _ => .pure _

theorem displayAll_faults : ∀ vs : List Value, Faults Fault.Ordinary (displayAll vs)
  | [] => .ok _
  | v :: vs => (display_faults v).bind fun _ => (displayAll_faults vs).bind fun _ => .pure _

end

theorem memberAt_faults (vs : List Value) (index : Int) :
    Faults Fault.Ordinary (memberAt vs index) := by
  unfold memberAt
  generalize (if index < 0 then index + vs.length else index) = offset
  dsimp only
  split
  · split
    · exact .ok _
    · exact .error nofun
  · exact .error nofun

theorem item_faults (index : Int) (v : Value) : Faults Fault.Ordinary (v.item index) := by
  cases v with
  | list vs | tuple vs => exact memberAt_faults vs index
  | text t =>
      simp only [item]
      split
      · exact .ok _
      · exact .error nofun
  | _ => exact .error nofun

theorem asText_faults (v : Value) : Faults Fault.Ordinary v.asText := by
  cases v <;> first | exact .ok _ | exact .error nofun

theorem members_faults (v : Value) : Faults Fault.Ordinary v.members := by
  cases v <;> first | exact .ok _ | exact .error nofun

theorem concatenate_faults (skipMissing : Bool) (vs : List Value) :
    Faults Fault.Ordinary (concatenate skipMissing vs) := by
  induction vs with
  | nil => exact .ok _
  | cons v vs ih =>
      cases v with
      | text t => exact ih.bind fun _ => .pure _
      | none =>
          simp only [concatenate]
          split
          · exact ih
          · exact .error nofun
      | _ => exact .error nofun

theorem joinPresent_faults (v : Value) : Faults Fault.Ordinary v.joinPresent :=
  v.members_faults.bind fun vs => concatenate_faults true vs

end Value

namespace Argument

theorem toParser_faults (a : Argument) : Faults Fault.Ordinary a.toParser := by
  cases a with
  | parser p => exact .ok p
  | other v => exact v.describe_faults.bind fun _ => .error nofun

theorem toParsers_faults (as : List Argument) : Faults Fault.Ordinary (toParsers as) := by
  induction as with
  | nil => exact .ok _
  | cons a as ih => exact a.toParser_faults.bind fun _ => ih.bind fun _ => .pure _

end Argument

theorem Matcher.unwanted_faults (v : Value) : Faults Fault.Ordinary (unwanted v) :=
  v.display_faults.bind fun _ => .pure _

/-! Reading what a general grammar has matched. -/

namespace Grammar

theorem readInteger_faults (v : Value) : Faults Fault.Ordinary (readInteger v) :=
  v.joinPresent_faults.bind fun t => (Numeral.read_faults t).bind fun _ => .pure _

theorem readFloat_faults (v : Value) : Faults Fault.Ordinary (readFloat v) :=
  v.joinPresent_faults.bind fun t => (Binary64.read_faults t).bind fun _ => .pure _

theorem readCodePoint_faults (v : Value) : Faults Fault.Ordinary (readCodePoint v) := by
  refine v.joinPresent_faults.bind fun ds => ?_
  cases CodePoint.ofNat? (Numeral.value 16 ds) with
  | none => exact .error nofun
  | some c =>
      dsimp only
      split
      · exact .error nofun
      · exact .ok _

theorem joinHeadAndRest_faults (v : Value) : Faults Fault.Ordinary (joinHeadAndRest v) :=
  (v.item_faults 0).bind fun head => head.asText_faults.bind fun _ =>
    (v.item_faults 1).bind fun rest => rest.joinPresent_faults.bind fun _ => .pure _

theorem Escapes.replace_faults (escapes : Escapes) (v : Value) :
    Faults Fault.Ordinary (escapes.replace v) :=
  v.asText_faults.bind fun _ => .pure _

end Grammar

end Descent
