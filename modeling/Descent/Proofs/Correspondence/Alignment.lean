import Descent.Proofs.Correspondence.Basic

/-!
Alignments of two texts: which positions of the one are compared with which positions of the other.
Whatever a matcher looks at from aligned positions is the same in both texts. An alignment also says
which expectations count as the same.
-/

namespace Descent

/-- Which expectations count as the same. -/
structure Likeness where
  Alike : List Text → List Text → Prop
  alike_single (label : Text) : Alike [label] [label]
  alike_append {ls ms ls' ms' : List Text} :
    Alike ls ms → Alike ls' ms' → Alike (ls ++ ls') (ms ++ ms')
  alike_unique {ls ms : List Text} : Alike ls ms →
    Alike (unique ls) (unique ms) ∧ (unique ls = [] ↔ unique ms = [])

/-- Only the same expectations are alike. -/
def Likeness.same : Likeness where
  Alike := Eq
  alike_single _ := rfl
  alike_append first second := by rw [first, second]
  alike_unique same := by
    rw [same]
    exact ⟨rfl, Iff.rfl⟩

/-- Places in two texts that look alike, seen forwards, and stay so as matching goes on. -/
structure Alignment (src dst : Text) extends Likeness where
  Place : Int → Int → Prop
  remaining {i j : Int} : Place i j → (src.length : Int) - i = dst.length - j
  lookAt {i j : Int} : Place i j → src.lookAt i = dst.lookAt j
  succ {i j : Int} {c : CodePoint} : Place i j → dst.lookAt j = .ok (some c) → Place (i + 1) (j + 1)
  standsAt {i j : Int} (t : Text) : Place i j → src.standsAt t i = dst.standsAt t j
  skip {i j : Int} {t : Text} :
    Place i j → dst.standsAt t j = true → Place (i + t.length) (j + t.length)
  slice {i j k l : Int} : Place i j → Place k l → src.slice i k = dst.slice j l

namespace Alignment

variable {src dst : Text} (A : Alignment src dst)

theorem eq_iff {i j k l : Int} (first : A.Place i j) (second : A.Place k l) : i = k ↔ j = l := by
  have left := A.remaining first
  have right := A.remaining second
  omega

theorem eq_length_iff {i j : Int} (place : A.Place i j) : i = src.length ↔ j = dst.length := by
  have left := A.remaining place
  omega

inductive Outcomes : Outcome → Outcome → Prop
  | success {v : Value} {i j : Int} (place : A.Place i j) :
      Outcomes (.success ⟨v, i⟩) (.success ⟨v, j⟩)
  | failure {labels others : List Text} {i j : Int} (alike : A.Alike labels others)
      (place : A.Place i j) : Outcomes (.failure ⟨labels, i⟩) (.failure ⟨others, j⟩)

theorem outcomes_failed (label : Text) {i j : Int} (place : A.Place i j) :
    A.Outcomes (.failed label i) (.failed label j) :=
  .failure (A.alike_single label) place

theorem alike_refl {labels : List Text} (nonempty : labels ≠ []) : A.Alike labels labels := by
  induction labels with
  | nil => exact (nonempty rfl).elim
  | cons label labels ih =>
      cases labels with
      | nil => exact A.alike_single label
      | cons next labels => exact A.alike_append (A.alike_single label) (ih (by simp))

def identity (src : Text) : Alignment src src where
  toLikeness := .same
  Place := Eq
  remaining place := by rw [place]
  lookAt place := by rw [place]
  succ place _ := by rw [place]
  standsAt _ place := by rw [place]
  skip place _ := by rw [place]
  slice first second := by rw [first, second]

theorem outcomes_identity {r s : Outcome} (related : (identity src).Outcomes r s) : r = s := by
  cases related with
  | success place => rw [show _ = _ from place]
  | failure alike place => rw [show _ = _ from place, show _ = _ from alike]

theorem outcomes_identity_refl (r : Outcome) : (identity src).Outcomes r r := by
  cases r with
  | success r => exact .success rfl
  | failure f => exact .failure rfl rfl

theorem agree_identity_iff {x y : Except Fault Outcome} :
    Agree (identity src).Outcomes x y ↔ x = y := by
  constructor
  · exact fun agree => agree_eq_iff.mp (agree.mono fun _ _ => outcomes_identity)
  · exact fun same => (agree_eq_iff.mpr same).mono fun r _ equal => equal ▸ outcomes_identity_refl r

def symm : Alignment dst src where
  Alike ls ms := A.Alike ms ls
  alike_single := A.alike_single
  alike_append first second := A.alike_append first second
  alike_unique same := ⟨(A.alike_unique same).1, (A.alike_unique same).2.symm⟩
  Place i j := A.Place j i
  remaining place := (A.remaining place).symm
  lookAt place := (A.lookAt place).symm
  succ place found := A.succ place ((A.lookAt place).symm.trans found)
  standsAt t place := (A.standsAt t place).symm
  skip place stands := A.skip place ((A.standsAt _ place).symm.trans stands)
  slice first second := (A.slice first second).symm

end Alignment

/-- Matchers that answer alike at aligned places. -/
def Matcher.Corresponds {ι σ τ : Type} (K : Correspondence ι σ τ) {src dst : Text}
    (A : Alignment src dst) (p : Matcher σ) (q : ι → Matcher τ) : Prop :=
  ∀ i j, A.Place i j → K.Rel A.Outcomes (p src i) fun x => q x dst j

end Descent
