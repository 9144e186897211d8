import Mathlib.Data.List.Forall2
import Descent.Proofs.Parser.Plan

/-!
What a planned grammar is made of. Main statements: a grammar is planned exactly if its parts are,
and it is planned to be what its parts are planned to be, put together.
-/

namespace Descent

theorem bind_eq_ok {α β : Type} {x : Except Fault α} {f : α → Except Fault β} {b : β} :
    x >>= f = .ok b ↔ ∃ a, x = .ok a ∧ f a = .ok b := by
  constructor
  · intro equal
    cases x with
    | error e => cases equal
    | ok a => exact ⟨a, rfl, equal⟩
  · rintro ⟨a, rfl, equal⟩
    exact equal

theorem pure_eq_ok {α : Type} {a b : α} : (pure a : Except Fault α) = .ok b ↔ a = b :=
  Except.ok.injEq a b ▸ Iff.rfl

namespace Argument

theorem toParser_eq_ok {a : Argument} {p : Parser} : a.toParser = .ok p ↔ a = .parser p := by
  cases a with
  | parser q => exact pure_eq_ok.trans (Argument.parser.injEq q p ▸ Iff.rfl)
  | other v =>
      constructor
      · intro made
        obtain ⟨t, -, ⟨⟩⟩ := bind_eq_ok.mp made
      · nofun

theorem toParsers_eq_ok {as : List Argument} {ps : List Parser} :
    toParsers as = .ok ps ↔ as = ps.map .parser := by
  induction as generalizing ps with
  | nil => cases ps <;> simp [toParsers]
  | cons a as ih =>
      cases ps <;> simp [-bind_pure_comp, toParsers, bind_eq_ok, toParser_eq_ok, ih, pure_eq_ok]

end Argument

namespace Grammar

variable {names : Names} {g h : Grammar} {gs : List Grammar} {p : Parser}

theorem planned_eq_ok : g.planned names = .ok p ↔ g.plan names = .ok (.parser p) := by
  simp [planned, bind_eq_ok, Argument.toParser_eq_ok]

theorem planned_many :
    (many g).planned names = .ok p ↔ ∃ q, g.planned names = .ok q ∧ .many q = p := by
  simp [-bind_pure_comp, planned_eq_ok, plan, bind_eq_ok, Argument.toParser_eq_ok, pure_eq_ok]

theorem planned_upTo : (upTo h g).planned names = .ok p ↔
    ∃ stop q, h.planned names = .ok stop ∧ g.planned names = .ok q ∧ .upTo stop q = p := by
  simp [-bind_pure_comp, planned_eq_ok, plan, bind_eq_ok, Argument.toParser_eq_ok, pure_eq_ok]

theorem planned_except : (except h g).planned names = .ok p ↔
    ∃ x q, h.planned names = .ok x ∧ g.planned names = .ok q ∧ .except x q = p := by
  simp [-bind_pure_comp, planned_eq_ok, plan, bind_eq_ok, Argument.toParser_eq_ok, pure_eq_ok]

/-- Grammars are planned to be parsers, each to be one of them. -/
abbrev PlannedAll (names : Names) (gs : List Grammar) (ps : List Parser) : Prop :=
  List.Forall₂ (fun g p => g.planned names = .ok p) gs ps

theorem planAll_eq_ok {ps : List Parser} :
    planAll names gs = .ok (ps.map .parser) ↔ PlannedAll names gs ps := by
  induction gs generalizing ps with
  | nil => cases ps <;> simp [planAll, pure_eq_ok]
  | cons g gs ih =>
      simp only [PlannedAll, planned_eq_ok] at ih ⊢
      cases ps <;> simp [-bind_pure_comp, planAll, bind_eq_ok, pure_eq_ok, ih]

theorem plan_members_eq_ok {f : List Parser → Parser} :
    (do
      let arguments ← planAll names gs
      if arguments.isEmpty then .error Fault.parserRequired
      else return Argument.parser (f (← Argument.toParsers arguments))) = .ok (.parser p) ↔
    gs ≠ [] ∧ ∃ ps, PlannedAll names gs ps ∧ f ps = p := by
  constructor
  · intro made
    obtain ⟨arguments, members, made⟩ := bind_eq_ok.mp made
    split at made
    · cases made
    · rename_i filled
      obtain ⟨ps, parsers, made⟩ := bind_eq_ok.mp made
      have same := pure_eq_ok.mp made
      obtain rfl := Argument.toParsers_eq_ok.mp parsers
      have each := planAll_eq_ok.mp members
      refine ⟨?_, ps, each, Argument.parser.inj same⟩
      rintro rfl
      cases each
      exact filled rfl
  · rintro ⟨nonempty, ps, each, rfl⟩
    refine bind_eq_ok.mpr ⟨_, planAll_eq_ok.mpr each, ?_⟩
    rw [if_neg, toParsers_map]
    · rfl
    · cases each with
      | nil => exact absurd rfl nonempty
      | cons => exact Bool.false_ne_true

theorem planned_seq : (seq gs).planned names = .ok p ↔
    gs ≠ [] ∧ ∃ ps, PlannedAll names gs ps ∧ .seq ps = p := by
  rw [planned_eq_ok, plan, plan_members_eq_ok]

theorem planned_alt : (alt gs).planned names = .ok p ↔
    gs ≠ [] ∧ ∃ ps, PlannedAll names gs ps ∧ .alt ps = p := by
  rw [planned_eq_ok, plan, plan_members_eq_ok]

theorem plannedAll_of_each (each : ∀ g ∈ gs, ∃ p, g.planned names = .ok p) :
    ∃ ps, PlannedAll names gs ps := by
  induction gs with
  | nil => exact ⟨[], .nil⟩
  | cons g gs ih =>
      obtain ⟨⟨p, here⟩, others⟩ := List.forall_mem_cons.mp each
      obtain ⟨ps, more⟩ := ih others
      exact ⟨p :: ps, .cons here more⟩

theorem plannedAll_ne_nil {ps : List Parser} (each : PlannedAll names gs ps) (nonempty : gs ≠ []) :
    ps ≠ [] := by
  rintro rfl
  exact nonempty (List.forall₂_nil_right_iff.mp each)

/-! That there is a parser at all. -/

/-- Planning comes to a parser. -/
def Planned (x : Except Fault Argument) : Prop :=
  ∃ p, x = .ok (.parser p)

theorem planned_part {x : Except Fault Argument} (part : Planned x) (f : Parser → Parser) :
    Planned (do return .parser (f (← (← x).toParser))) := by
  obtain ⟨p, rfl⟩ := part
  exact ⟨f p, rfl⟩

theorem planned_pair {x y : Except Fault Argument} (first : Planned x) (second : Planned y)
    (f : Parser → Parser → Parser) :
    Planned (do
      let a ← x
      let b ← y
      return .parser (f (← a.toParser) (← b.toParser))) := by
  obtain ⟨p, rfl⟩ := first
  obtain ⟨q, rfl⟩ := second
  exact ⟨f p q, rfl⟩

theorem planned_members (some : gs ≠ []) (parts : ∀ g ∈ gs, Planned (g.plan names))
    (f : List Parser → Parser) :
    Planned (do
      let arguments ← planAll names gs
      if arguments.isEmpty then .error .parserRequired
      else return .parser (f (← Argument.toParsers arguments))) := by
  have each (g : Grammar) (member : g ∈ gs) : ∃ p, g.planned names = .ok p :=
    (parts g member).imp fun _ => planned_eq_ok.mpr
  obtain ⟨ps, each⟩ := plannedAll_of_each each
  exact ⟨f ps, plan_members_eq_ok.mpr ⟨some, ps, each, rfl⟩⟩

end Grammar

end Descent
