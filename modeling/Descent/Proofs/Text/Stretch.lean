import Mathlib.Order.Bounds.Defs
import Descent.Proofs.Text.Inside

/-!
Stretches of a text: code points of one kind in a row, as many as there are. Main statements: one
stretch starts at each position, and no code points of the kind go farther in a row than the stretch
does.
-/

namespace Descent.Text

/-- From `start` up to `stop` all code points pass the test, and what stands at `stop`, if anything,
does not. -/
structure Stretch (test : CodePoint → Bool) (src : Text) (start stop : Nat) : Prop where
  onward : start ≤ stop
  passes : ∀ ⦃i⦄, start ≤ i → i < stop → ∃ c, src[i]? = some c ∧ test c = true
  ends : ∀ ⦃c⦄, src[stop]? = some c → test c = false

variable {test : CodePoint → Bool} {src rest : Text} {start stop i k : Nat} {c : CodePoint}

theorem stretch_here (refused : ∀ c, src[i]? = some c → test c = false) : src.Stretch test i i where
  onward := Nat.le_refl i
  passes _ above below := absurd below (Nat.not_lt_of_le above)
  ends := refused

namespace Stretch

theorem step (seen : src[i]? = some c) (pass : test c = true)
    (stretch : src.Stretch test (i + 1) stop) :
    src.Stretch test i stop where
  onward := Nat.le_of_succ_le stretch.onward
  passes j above below := by
    rcases Nat.eq_or_lt_of_le above with rfl | above
    · exact ⟨c, seen, pass⟩
    · exact stretch.passes above below
  ends := stretch.ends

theorem next (stretch : src.Stretch test start stop) (some : start < stop) :
    src.Stretch test (start + 1) stop where
  onward := some
  passes _ above below := stretch.passes (Nat.le_of_succ_le above) below
  ends := stretch.ends

theorem lt_of_passes (stretch : src.Stretch test start stop) (seen : src[start]? = some c)
    (pass : test c = true) :
    start < stop := by
  refine Nat.lt_of_le_of_ne stretch.onward fun same => ?_
  cases pass.symm.trans (stretch.ends (same ▸ seen))

theorem lt_length (stretch : src.Stretch test start stop) (above : start ≤ i) (below : i < stop) :
    i < src.length := by
  obtain ⟨c, seen, -⟩ := stretch.passes above below
  exact (List.getElem?_eq_some_iff.mp seen).1

/-- There are no more code points in a stretch than are left. -/
theorem sub_le (stretch : src.Stretch test start stop) : stop - start ≤ src.length - start := by
  rcases Nat.eq_or_lt_of_le stretch.onward with rfl | some
  · omega
  · have last := stretch.lt_length (Nat.le_sub_one_of_lt some) (by omega)
    omega

theorem eq_of_length_le (stretch : src.Stretch test start stop) (past : src.length ≤ start) :
    stop = start := by
  have few := stretch.sub_le
  have onward := stretch.onward
  omega

theorem le_length (stretch : src.Stretch test start stop) (inside : start ≤ src.length) :
    stop ≤ src.length := by
  have few := stretch.sub_le
  omega

/-- A stretch ends where the next one, of nothing, begins. -/
theorem behind (stretch : src.Stretch test start stop) : src.Stretch test stop stop :=
  stretch_here stretch.ends

end Stretch

theorem Remains.stretch (remains : src.Remains i rest) (test : CodePoint → Bool) :
    src.Stretch test i (i + (rest.takeWhile test).length) := by
  induction rest generalizing i with
  | nil =>
      refine stretch_here fun c seen => ?_
      rw [remains.getElem?] at seen
      cases seen
  | cons d rest ih =>
      have seen := remains.getElem?
      rw [List.head?_cons] at seen
      cases pass : test d with
      | true =>
          have more := ih remains.next
          rw [Nat.add_right_comm] at more
          rw [List.takeWhile_cons_of_pos pass, List.length_cons]
          exact more.step seen pass
      | false =>
          rw [List.takeWhile_cons_of_neg (by simp [pass])]
          refine stretch_here fun c other => ?_
          cases seen.symm.trans other
          exact pass

theorem exists_stretch (test : CodePoint → Bool) (src : Text) (start : Nat) :
    ∃ stop, src.Stretch test start stop := by
  by_cases inside : start ≤ src.length
  · exact ⟨_, Remains.stretch ⟨inside, rfl⟩ test⟩
  · refine ⟨start, stretch_here fun c seen => ?_⟩
    rw [List.getElem?_eq_none (by omega)] at seen
    cases seen

theorem slice_cons (seen : src[start]? = some c) (onward : start < stop)
    (inside : stop ≤ src.length) :
    src.slice start stop = c :: src.slice (start + 1 : Nat) stop := by
  rw [← slice_append_slice (Nat.le_succ start) onward inside, slice_of_getElem? seen]
  rfl

theorem mem_drop_slice (onward : start ≤ stop) (inside : stop ≤ src.length) :
    c ∈ (src.slice start stop).drop k ↔ ∃ i, start + k ≤ i ∧ i < stop ∧ src[i]? = some c := by
  rw [slice_eq onward inside, List.drop_drop, List.mem_iff_getElem?]
  simp only [List.getElem?_drop, List.getElem?_take]
  constructor
  · rintro ⟨i, seen⟩
    split at seen
    next below => exact ⟨start + k + i, Nat.le_add_right _ i, below, seen⟩
    next => cases seen
  · rintro ⟨i, above, below, seen⟩
    refine ⟨i - (start + k), ?_⟩
    rw [Nat.add_sub_cancel' above, if_pos below, seen]

/-- Behind the first `k` code points, whatever these are, nothing goes farther than the stretch. -/
theorem Stretch.isGreatest (stretch : src.Stretch test (start + k) stop)
    (inside : start + k ≤ src.length) :
    IsGreatest {j | start ≤ j ∧ j ≤ src.length ∧ ∀ c ∈ (src.slice start j).drop k, test c = true}
      stop := by
  have within := stretch.le_length inside
  have onward := Nat.le_trans (Nat.le_add_right start k) stretch.onward
  constructor
  · refine ⟨onward, within, fun c member => ?_⟩
    obtain ⟨i, above, below, seen⟩ := (mem_drop_slice onward within).mp member
    obtain ⟨d, same, pass⟩ := stretch.passes above below
    cases seen.symm.trans same
    exact pass
  · rintro j ⟨start_le, j_le, all⟩
    refine Nat.le_of_not_lt fun beyond => ?_
    have seen := List.getElem?_eq_getElem (Nat.lt_of_lt_of_le beyond j_le)
    have pass :=
      all src[stop] ((mem_drop_slice start_le j_le).mpr ⟨stop, stretch.onward, beyond, seen⟩)
    cases pass.symm.trans (stretch.ends seen)

end Descent.Text
