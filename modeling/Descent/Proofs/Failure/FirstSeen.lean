import Mathlib.Data.List.Basic
import Descent.Proofs.Failure.Unique

/-!
What is left of labels without their repetitions: each where it was seen first, in that order. Main
statement: that is all that is left, and labels may be rid of their repetitions part by part.
-/

namespace Descent

/-- The labels at those indices where they have not been seen before. -/
def firstSeen (labels : List Text) : List Text :=
  (labels.zipIdx.filter fun (label, i) => labels.idxOf label = i).map Prod.fst

/-- What comes behind a label is seen first there if it is another one. -/
theorem firstSeen_cons (label : Text) (labels : List Text) :
    firstSeen (label :: labels) = label :: (firstSeen labels).filter (· ≠ label) := by
  -- Indices are one greater behind the label, and so is where another label is seen first.
  have later (other : Text) (i : Nat) : decide ((label :: labels).idxOf other = i + 1) =
      (decide (other ≠ label) && decide (labels.idxOf other = i)) := by
    by_cases same : other = label
    · simp [same]
    · simp [List.idxOf_cons_ne labels (Ne.symm same), same]
  unfold firstSeen
  rw [List.zipIdx_cons', List.filter_cons_of_pos (by simp), List.map_cons, List.filter_map,
    List.filter_map, List.map_map, List.filter_filter]
  change label :: (labels.zipIdx.filter _).map Prod.fst = _
  congr 2
  refine List.filter_congr ?_
  rintro ⟨other, i⟩ -
  exact later other i

theorem unique_eq_firstSeen (labels : List Text) : unique labels = firstSeen labels := by
  induction labels with
  | nil => rfl
  | cons label labels ih => rw [unique, firstSeen_cons, ih]

theorem unique_sublist (labels : List Text) : (unique labels).Sublist labels := by
  induction labels with
  | nil => exact .slnil
  | cons label labels ih => exact (List.filter_sublist.trans ih).cons_cons label

theorem unique_pairwise (labels : List Text) :
    (unique labels).Pairwise fun label other => labels.idxOf label < labels.idxOf other := by
  induction labels with
  | nil => exact .nil
  | cons label labels ih =>
      have others {other : Text} (member : other ∈ (unique labels).filter (· ≠ label)) :
          other ≠ label :=
        of_decide_eq_true (List.mem_filter.mp member).2
      rw [unique, List.pairwise_cons]
      constructor
      · intro other member
        rw [List.idxOf_cons_self, List.idxOf_cons_ne labels (others member).symm]
        exact Nat.succ_pos _
      · refine (ih.filter _).imp_of_mem fun first second before => ?_
        rw [List.idxOf_cons_ne labels (others first).symm,
          List.idxOf_cons_ne labels (others second).symm]
        exact Nat.succ_lt_succ before

theorem unique_eq_self_iff {labels : List Text} : unique labels = labels ↔ labels.Nodup :=
  ⟨fun same => same ▸ nodup_unique labels, unique_of_nodup⟩

theorem unique_append_eq (labels others : List Text) :
    unique (labels ++ others) = unique (unique labels ++ unique others) := by
  rw [unique_append_unique]
  exact (unique_append_congr_left (unique_of_nodup (nodup_unique labels)) others).symm

/-- Nothing is lost, and what comes first stays first. -/
theorem unique_first_seen (labels others : List Text) :
    (unique labels).Nodup ∧ (∀ label, label ∈ unique labels ↔ label ∈ labels) ∧
    unique labels = firstSeen labels ∧ (unique labels).Sublist labels ∧
    ((unique labels).Pairwise fun label other => labels.idxOf label < labels.idxOf other) ∧
    (unique labels = labels ↔ labels.Nodup) ∧
    unique (labels ++ others) = unique (unique labels ++ unique others) ∧
    unique (labels ++ others) = unique labels ++ (unique others).filter (· ∉ labels) :=
  ⟨nodup_unique labels, fun _ => mem_unique, unique_eq_firstSeen labels, unique_sublist labels,
    unique_pairwise labels, unique_eq_self_iff, unique_append_eq labels others,
      unique_append labels others⟩

end Descent
