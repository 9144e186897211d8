import Descent.Outcome
import Descent.Proofs.Conduct.Faults
import Descent.Proofs.Parser.Fragment

/-!
Labels without repetitions, and the failures that are made of them.
-/

namespace Descent

theorem nodup_unique (labels : List Text) : (unique labels).Nodup := by
  induction labels with
  | nil => exact List.nodup_nil
  | cons label labels ih =>
      rw [unique, List.nodup_cons]
      exact ⟨by simp, ih.filter _⟩

theorem unique_eq_nil_iff {labels : List Text} : unique labels = [] ↔ labels = [] := by
  cases labels with
  | nil => exact Iff.rfl
  | cons label labels => exact ⟨nofun, nofun⟩

theorem mem_unique {label : Text} {labels : List Text} :
    label ∈ unique labels ↔ label ∈ labels := by
  induction labels with
  | nil => exact Iff.rfl
  | cons first labels ih =>
      rw [unique, List.mem_cons, List.mem_cons, List.mem_filter, ih]
      by_cases same : label = first <;> simp [same]

theorem unique_of_nodup {labels : List Text} (nodup : labels.Nodup) : unique labels = labels := by
  induction labels with
  | nil => rfl
  | cons label labels ih =>
      obtain ⟨new, nodup⟩ := List.nodup_cons.mp nodup
      rw [unique, ih nodup, List.filter_eq_self.mpr]
      intro other member
      exact decide_eq_true fun same => new (same ▸ member)

/-- Of a second part only those labels are kept that the first part does not have. -/
theorem unique_append (labels others : List Text) :
    unique (labels ++ others) = unique labels ++ (unique others).filter (· ∉ labels) := by
  induction labels with
  | nil => exact (List.filter_eq_self.mpr fun label _ => decide_eq_true List.not_mem_nil).symm
  | cons label labels ih =>
      rw [List.cons_append, unique, ih, List.filter_append, List.filter_filter, unique,
        List.cons_append]
      simp [not_or]

theorem unique_append_congr_left {labels labels' : List Text}
    (same : unique labels = unique labels') (others : List Text) :
    unique (labels ++ others) = unique (labels' ++ others) := by
  have members (label : Text) : label ∈ labels ↔ label ∈ labels' := by
    rw [← mem_unique, same, mem_unique]
  rw [unique_append, unique_append, same]
  simp only [members]

/-- A part may be rid of its repetitions first. -/
theorem unique_append_unique (labels others : List Text) :
    unique (labels ++ unique others) = unique (labels ++ others) := by
  rw [unique_append, unique_append, unique_of_nodup (nodup_unique others)]

namespace Failure

theorem single_wellFormed (label : Text) (pos : Int) : (single label pos).WellFormed where
  nonempty := List.cons_ne_nil _ _
  nodup := by simp [single]

theorem ofLabels_ensures (labels : List Text) (pos : Int) :
    Ensures (fun f => f.WellFormed ∧ f.pos = pos) (ofLabels labels pos) := by
  intro f made
  have nodup := nodup_unique labels
  unfold ofLabels at made
  split at made
  · cases made
  · rename_i nonempty
    cases made
    exact ⟨⟨nonempty, nodup⟩, rfl⟩

theorem ofLabels_faults (labels : List Text) (pos : Int) :
    Faults (fun e => labels = [] ∧ e = .expectationRequired) (ofLabels labels pos) := by
  unfold ofLabels
  split
  · rename_i none
    exact .error ⟨unique_eq_nil_iff.mp none, rfl⟩
  · exact .ok _

end Failure

end Descent
