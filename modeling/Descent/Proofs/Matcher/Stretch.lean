import Mathlib.Data.List.Forall2
import Descent.Proofs.Matcher.Answering
import Descent.Proofs.Text.Stretch

/-!
Matchers that take code points of one kind. Main statements: repeated, such a matcher takes the
stretch from its position on, code point by code point, and blanks are skipped by the stretch too.
-/

namespace Descent.Matcher

open Text

variable {σ : Type} {test : CodePoint → Bool} {tests : List (CodePoint → Bool)} {src : Text}
  {i stop fuel left : Nat}
  {c : CodePoint} {p : Matcher σ} {ps : List (Matcher σ)}

/-- Matches one code point that passes the test, and nothing else. -/
structure Takes (test : CodePoint → Bool) (src : Text) (p : Matcher σ) : Prop where
  matched : ∀ ⦃i : Nat⦄ ⦃c⦄, src[i]? = some c → test c = true →
    p src i = pure (.matched (.text [c]) (i + 1 : Nat))
  failed : ∀ ⦃i : Nat⦄, (∀ c, src[i]? = some c → test c = false) → Fails (p src i)

theorem codePoint_takes (test : CodePoint → Bool) (label src : Text) :
    Takes test src (codePoint (σ := σ) test label) where
  matched _ _ seen passes := codePoint_seen label seen passes
  failed _ refused := .of_eq (.single _ _) (codePoint_refused label refused)

theorem one_takes (c : CodePoint) (src : Text) : Takes (· == c) src (string (σ := σ) [c]) where
  matched i d seen same := by
    obtain rfl : d = c := beq_iff_eq.mp same
    obtain ⟨lt, found⟩ := List.getElem?_eq_some_iff.mp seen
    refine string_stands (List.cons_ne_nil d []) ?_
    rw [List.drop_eq_getElem_cons lt, found]
    exact List.prefix_append [d] _
  failed i refused := by
    refine .of_eq (.single _ _) (string_differs (List.cons_ne_nil c []) ?_)
    rintro ⟨more, same⟩
    cases (refused c (getElem?_of_drop same.symm)).symm.trans (beq_self_eq_true c)

/-! Choices of kinds. -/

theorem alternatives_take (each : List.Forall₂ (fun test p => Takes test src p) tests ps)
    (seen : src[i]? = some c) (passes : ∃ test ∈ tests, test c = true) (labels : List Text) :
    alternatives src i ps labels =
      (pure (.matched (.text [c]) (i + 1 : Nat)) : Action σ Outcome) := by
  induction each generalizing labels with
  | nil =>
      obtain ⟨test, member, -⟩ := passes
      cases member
  | @cons test p tests ps first others ih =>
      cases here : test c with
      | true => exact alternatives_matched (first.matched seen here)
      | false =>
          have refused (d : CodePoint) (other : src[i]? = some d) : test d = false := by
            cases seen.symm.trans other
            exact here
          obtain ⟨_, _, _, failed⟩ := first.failed refused
          rw [alternatives_failed failed]
          exact ih (by simpa [here] using passes) _

theorem all_fail (each : List.Forall₂ (fun test p => Takes test src p) tests ps)
    (refused : ∀ c, src[i]? = some c → ∀ test ∈ tests, test c = false) :
    ∀ p ∈ ps, Fails (p src i) := by
  induction each with
  | nil => exact List.forall_mem_nil _
  | cons first others ih =>
      refine List.forall_mem_cons.mpr ⟨first.failed fun c seen => ?_, ih fun c seen => ?_⟩
      · exact (List.forall_mem_cons.mp (refused c seen)).1
      · exact (List.forall_mem_cons.mp (refused c seen)).2

theorem alt_takes (each : List.Forall₂ (fun test p => Takes test src p) tests (p :: ps)) :
    Takes (fun c => tests.any fun test => test c) src (alt (p :: ps)) where
  matched _ _ seen passes := alternatives_take each seen (List.any_eq_true.mp passes) []
  failed _ refused := by
    have fail := all_fail each fun c seen => by simpa using refused c seen
    obtain ⟨first, others⟩ := List.forall_mem_cons.mp fail
    exact first.alt others

/-! Repetition. -/

theorem Takes.repeatFrom (takes : Takes test src p) (stretch : src.Stretch test i stop)
    (enough : stop - i < fuel) (values : List Value) :
    Matcher.repeatFrom p src fuel values i =
      (pure (.matched (.list (values.reverse ++ (src.slice i stop).map fun c => .text [c])) stop) :
        Action σ Outcome) := by
  induction fuel generalizing i values with
  | zero => omega
  | succ fuel ih =>
      rcases Nat.eq_or_lt_of_le stretch.onward with rfl | some
      · obtain ⟨_, _, _, failed⟩ := takes.failed stretch.ends
        rw [repeatFrom_failed failed, slice_self, List.map_nil, List.append_nil]
      · -- A round takes the first code point, and the stretch behind it is left for the others.
        obtain ⟨c, seen, passes⟩ := stretch.passes (Nat.le_refl i) some
        have more := stretch.next some
        have within := more.le_length (stretch.lt_length (Nat.le_refl i) some)
        rw [repeatFrom_next (takes.matched seen passes) (by omega), ih more (by omega),
          slice_cons seen some within]
        simp

theorem Takes.many (takes : Takes test src p) (stretch : src.Stretch test i stop)
    (enough : stop - i < fuel) :
    Matcher.many fuel p src i =
      (pure (.matched (.list ((src.slice i stop).map fun c => .text [c])) stop) :
        Action σ Outcome) :=
  takes.repeatFrom stretch enough []

/-- The first match takes no round of the repetition. -/
theorem Takes.many1 (takes : Takes test src p) (stretch : src.Stretch test i stop) (some : i < stop)
    (enough : stop - i ≤ fuel) :
    Matcher.many1 fuel p src i =
      (pure (.matched (.list ((src.slice i stop).map fun c => .text [c])) stop) :
        Action σ Outcome) := by
  obtain ⟨c, seen, passes⟩ := stretch.passes (Nat.le_refl i) some
  have more := stretch.next some
  have within := more.le_length (stretch.lt_length (Nat.le_refl i) some)
  have others := takes.repeatFrom more (by omega : stop - (i + 1) < fuel) [.text [c]]
  rw [Matcher.many1, chain, takes.matched seen passes, pure_bind, slice_cons seen some within]
  exact others

/-! Blanks. -/

theorem blanksEnd_eq (stretch : src.Stretch CodePoint.isBlank i stop) (enough : stop - i ≤ left) :
    blanksEnd src left i = .ok (stop : Int) := by
  induction left generalizing i with
  | zero =>
      have onward := stretch.onward
      obtain rfl : i = stop := by omega
      rfl
  | succ left ih =>
      rw [blanksEnd, src.lookAt_eq]
      rcases Nat.eq_or_lt_of_le stretch.onward with rfl | some
      · cases seen : src[i]? with
        | none => rfl
        | some c =>
            change (if c.isBlank then _ else _) = _
            rw [stretch.ends seen]
            rfl
      · obtain ⟨c, seen, blank⟩ := stretch.passes (Nat.le_refl i) some
        rw [seen]
        change (if c.isBlank then blanksEnd src left (i + 1 : Nat) else _) = _
        rw [if_pos blank]
        exact ih (stretch.next some) (by omega)

theorem whitespaces_eq (stretch : src.Stretch CodePoint.isBlank i stop) :
    whitespaces src i = (pure (.matched (.text (src.slice i stop)) stop) : Action σ Outcome) := by
  have few := stretch.sub_le
  unfold whitespaces
  rw [blanksEnd_eq stretch (by omega)]
  rfl

end Descent.Matcher
