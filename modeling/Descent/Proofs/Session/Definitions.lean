import Descent.Proofs.Session.Runs

/-!
What a session defines. Main statement: where no name is defined twice, what holds of every
definition by the names before it holds of what the names stand for in the end.
-/

namespace Descent

namespace Request

def definition? : Request → Option (Text × Grammar)
  | .define name g => some (name, g)
  | _ => none

def definitions (rs : List Request) : List (Text × Grammar) :=
  rs.filterMap definition?

theorem mem_of_definition {rs : List Request} {d : Text × Grammar} (member : d ∈ definitions rs) :
    .define d.1 d.2 ∈ rs := by
  obtain ⟨r, here, found⟩ := List.mem_filterMap.mp member
  cases r with
  | define name g =>
      cases found
      exact here
  | _ => cases found

private theorem lookup_of_nodup {ds : List (Text × Grammar)} (once : (ds.map Prod.fst).Nodup)
    {d : Text × Grammar} (member : d ∈ ds) : ds.lookup d.1 = some d.2 := by
  induction ds with
  | nil => cases member
  | cons first ds ih =>
      simp only [List.map_cons, List.nodup_cons] at once
      cases member with
      | head => exact List.lookup_cons_self
      | tail _ further =>
          have apart : (d.1 == first.1) = false := by
            simp only [beq_eq_false_iff_ne]
            exact fun same => once.1 (same ▸ List.mem_map_of_mem further)
          rw [List.lookup_cons, apart]
          exact ih once.2 further

theorem lookup_definitions {rs : List Request} (once : ((definitions rs).map Prod.fst).Nodup)
    {d : Text × Grammar} (member : d ∈ definitions rs) : (definitions rs).lookup d.1 = some d.2 :=
  lookup_of_nodup once member

theorem namesAfter_of_absent {before : Names} {rs : List Request} {name : Text}
    (absent : ∀ d ∈ definitions rs, d.1 ≠ name) : namesAfter before rs name = before name := by
  induction rs generalizing before with
  | nil => rfl
  | cons r rs ih =>
      cases r with
      | define other g =>
          simp only [definitions, List.filterMap_cons, definition?, List.forall_mem_cons] at absent
          apply (ih absent.2).trans
          simp only [names]
          cases g.plan before with
          | error e => rfl
          | ok a => exact if_neg (Ne.symm absent.1)
      | _ => exact ih absent

theorem namesAfter_forall {P : Text → Argument → Prop} {rs : List Request} {before final : Names}
    (once : ((definitions rs).map Prod.fst).Nodup) (fresh : ∀ d ∈ definitions rs, before d.1 = none)
    (ends : namesAfter before rs = final)
    (step : ∀ earlier : Names, (∀ name a, earlier name = some a → final name = some a) →
      (∀ name a, earlier name = some a → P name a) →
      ∀ d ∈ definitions rs, Ensures (P d.1) (d.2.plan earlier))
    (known : ∀ name a, before name = some a → P name a) :
    ∀ name a, final name = some a → P name a := by
  induction rs generalizing before with
  | nil =>
      cases ends
      exact known
  | cons r rs ih =>
      -- No name is given twice, so a name that stands for something keeps standing for it.
      have given : ∀ name a, before name = some a → final name = some a := by
        intro name a found
        rw [← ends, namesAfter_of_absent, found]
        intro d member same
        subst same
        rw [fresh d member] at found
        cases found
      cases r with
      | define name g =>
          simp only [definitions, List.filterMap_cons, definition?, List.map_cons, List.nodup_cons,
            List.forall_mem_cons] at once fresh step
          have here := (step before given known).1
          have later := fun earlier given known => (step earlier given known).2
          simp only [namesAfter, names] at ends
          cases planned : g.plan before with
          | error e =>
              rw [planned] at ends
              exact ih once.2 fresh.2 ends later known
          | ok a =>
              rw [planned] at ends
              refine ih once.2 (fun d member => ?_) ends later fun other b found => ?_
              · have apart : d.1 ≠ name := fun same =>
                  once.1 (same ▸ List.mem_map_of_mem member)
                exact (if_neg apart).trans (fresh.2 d member)
              · change (if other = name then some a else before other) = some b at found
                by_cases same : other = name
                · rw [if_pos same] at found
                  cases found
                  subst same
                  exact here a planned
                · rw [if_neg same] at found
                  exact known other b found
      | _ => exact ih once fresh ends step known

end Request

namespace Store

def Knows (s : Store) (name : Text) : Prop :=
  ∃ p, s.named? name = some (.parser p)

/-- Somewhere in the text the grammar matches with the value. -/
def Yields (s : Store) (src : Text) (g : Grammar) (v : Value) : Prop :=
  ∃ (i : Nat) (j : Int), i ≤ src.length ∧ s.Answers (.run g src i) (.ok (.outcome (.matched v j)))

variable {rs : List Request} {s : Store} {src : Text}

theorem Yields.means (prepare : ∀ r ∈ rs, r.Prepares) (prepared : empty.Leads rs s) {g : Grammar}
    {v : Value} (yields : s.Yields src g v) :
    ∃ (i : Nat) (j : Int), i ≤ src.length ∧
      g.Means (Request.namesAfter .empty rs) src i (.ok (.matched v j)) := by
  obtain ⟨i, j, inside, answered⟩ := yields
  exact ⟨i, j, inside,
    (answers_map_iff_means prepare prepared (by simp) (.nil s) (x := .ok _)).mp answered⟩

/-- What a name stands for in the store, it stands for by the requests. -/
theorem Knows.namesAfter (prepare : ∀ r ∈ rs, r.Prepares) (prepared : empty.Leads rs s)
    {name : Text} (knows : s.Knows name) :
    ∃ p, Request.namesAfter .empty rs name = some (.parser p) := by
  obtain ⟨p, found⟩ := knows
  obtain ⟨owners, consistent⟩ := (empty_prepared.leads prepare prepared).consistent
  refine ⟨p.plain, ?_⟩
  rw [← ((consistent []).named True.intro).1, found]
  rfl

/-- Conditions on what a grammar may come to speak of runs over the prepared store; what is proved
of meanings can use them. -/
theorem yields_of_means (prepare : ∀ r ∈ rs, r.Prepares) (prepared : empty.Leads rs s) {g : Grammar}
    {i : Nat} {r : Success} (inside : i ≤ src.length)
    (means : g.Means (Request.namesAfter .empty rs) src i (.ok (.success r))) :
    s.Yields src g r.value :=
  ⟨i, r.pos, inside,
    (answers_map_iff_means prepare prepared (by simp) (.nil s) (x := .ok (.success r))).mpr means⟩

end Store

end Descent
