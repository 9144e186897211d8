import Descent.Proofs.Late.History
import Descent.Proofs.Meaning.Reach
import Descent.Proofs.Meaning.Running
import Descent.Proofs.Session.Cells

/-!
Parsers that are run beside others. Main statement: whatever parser is run, a scope that is closed
in the end stays consistent, also where the run gets into it, as long as the run is on the text that
the scope knows outcomes of; and if it knows of none, then on any text.
-/

namespace Descent

/-- The scope, and the cells that are still to be taken. -/
def Scope.withFree (scope : Scope) (next : Nat) : Scope :=
  { scope with cells := fun cell => scope.cells cell ∨ next ≤ cell }

namespace Parser

theorem run_memoize (fuel cell : Nat) (trace : Bool) (p : Parser) :
    (memoize cell trace p).run fuel = Matcher.memoize cell trace p.name? (p.run fuel) := by
  cases fuel <;> rfl

theorem Inside.withFree {scope : Scope} {p : Parser} (inside : p.Inside scope) (next : Nat) :
    p.Inside (scope.withFree next) := by
  cases p with
  | memoize cell trace p => exact .inl inside
  | lazy cell g => exact ⟨.inl inside.1, inside.2⟩
  | andThen p fns => exact inside
  | _ => exact True.intro

theorem all_withFree {scope : Scope} {p : Parser} (inside : p.All (Inside scope)) (next : Nat) :
    p.All (Inside (scope.withFree next)) :=
  inside.mono fun _ here => here.withFree next

end Parser

namespace Store

/-- Names stand for the same in the later store, and what was built late is still there. -/
structure Lasts (s t : Store) : Prop where
  names : t.names = s.names
  targets {cell : Nat} {p : Parser} : s.target? cell = some p → t.target? cell = some p

variable {s t u : Store} {scope : Scope} {names : Names} {src : Text} {owners later : Owners}
  {cell : Nat} {p : Parser}

theorem Lasts.refl : s.Lasts s :=
  ⟨rfl, id⟩

theorem Lasts.trans (first : s.Lasts t) (second : t.Lasts u) : s.Lasts u :=
  ⟨second.names.trans first.names, second.targets ∘ first.targets⟩

theorem Lasts.named (lasts : s.Lasts t) (name : Text) : t.named? name = s.named? name := by
  rw [named?, named?, lasts.names]

theorem Lasts.of_memory (same : t.memory = s.memory) : s.Lasts t := by
  obtain ⟨names, -, targets⟩ :
      t.names = s.names ∧ t.outcomes = s.outcomes ∧ t.targets = s.targets := by
    simpa [memory] using same
  exact ⟨names, fun found => by simpa only [target?, targets] using found⟩

theorem target?_of_memory (same : t.memory = s.memory) : t.target? cell = s.target? cell := by
  obtain ⟨-, -, targets⟩ :
      t.names = s.names ∧ t.outcomes = s.outcomes ∧ t.targets = s.targets := by
    simpa [memory] using same
  simp only [target?, targets]

theorem outcomeAt?_of_memory (same : t.memory = s.memory) (pos : Int) :
    t.outcomeAt? cell pos = s.outcomeAt? cell pos := by
  obtain ⟨-, outcomes, -⟩ :
      t.names = s.names ∧ t.outcomes = s.outcomes ∧ t.targets = s.targets := by
    simpa [memory] using same
  simp only [outcomeAt?, outcomes]

theorem Lasts.keepTarget (missing : s.target? cell = none) : s.Lasts (s.keepTarget cell p) where
  names := rfl
  targets {cell' q} found := by
    rw [target?_keepTarget, if_neg, found]
    intro same
    rw [same, missing] at found
    cases found

theorem Encloses.of_lasts (encloses : t.Encloses scope later) (longer : owners <+: later)
    (lasts : s.Lasts t) : s.Encloses scope owners :=
  encloses.of_later longer (fun _ _ => lasts.targets) fun name _ _ found =>
    (lasts.named name).trans found

/-- What happens to cells out of a scope that is closed in the end does not matter to it. -/
theorem Consistent.beside {next : Nat}
    (consistent : s.Consistent (scope.withFree next) names src owners) (longer : owners <+: later)
    (kept : t.Owned later) (encloses : t.Encloses scope later)
    (named : ∀ name, scope.names name → t.named? name = s.named? name)
    (outcomes : ∀ cell pos r, scope.outcomes → scope.cells cell → t.outcomeAt? cell pos = some r →
      s.outcomeAt? cell pos = some r)
    (targets : ∀ cell p, scope.cells cell → t.target? cell = some p → s.target? cell = some p) :
    t.Consistent (scope.withFree t.nextCell) names src later := by
  have taken {cell : Nat} {p : Parser} (owner : later[cell]? = some p)
      (inside : (scope.withFree t.nextCell).cells cell) : scope.cells cell := by
    rcases inside with inside | free
    · exact inside
    · have old := (List.getElem?_eq_some_iff.mp owner).1
      rw [kept.nextCell] at free
      omega
  exact {
    owned := kept
    free := .inr
    inside := fun inside owner => by
      exact Parser.all_withFree (encloses.inside (taken owner inside) owner) _
    named := fun {name} inside => by
      refine ⟨?_, fun a found => ?_⟩
      · rw [named name inside]
        exact (consistent.named inside).1
      · cases a with
        | parser p => exact Parser.all_withFree (encloses.named inside found) _
        | other v => exact True.intro
    outcomes := fun sure inside found => by
      obtain ⟨_, _, owner⟩ := kept.outcomes found
      have here := taken owner inside
      obtain ⟨q, owner, means⟩ :=
        consistent.outcomes sure (.inl here) (outcomes _ _ _ sure here found)
      exact ⟨q, Owners.getElem?_of_prefix longer owner, means⟩
    targets := fun inside found => by
      obtain ⟨-, _, owner⟩ := kept.targets found
      have here := taken owner inside
      obtain ⟨-, g, owner, planned⟩ := consistent.targets (.inl here) (targets _ _ here found)
      exact ⟨Parser.all_withFree (encloses.targets here found) _, g,
        Owners.getElem?_of_prefix longer owner, planned⟩ }

theorem Consistent.narrow {next : Nat}
    (consistent : s.Consistent (scope.withFree next) names src owners)
    (encloses : s.Encloses scope owners) :
    s.Consistent (scope.withFree s.nextCell) names src owners :=
  consistent.beside (List.prefix_refl _) consistent.owned encloses (fun _ _ => rfl)
    (fun _ _ _ _ _ => id) fun _ _ _ => id

/-- What is built belongs to the scope as soon as something in the scope uses it. -/
theorem Consistent.of_memory {next : Nat}
    (consistent : s.Consistent (scope.withFree next) names src owners) (longer : owners <+: later)
    (kept : t.Owned later) (encloses : t.Encloses scope later) (same : t.memory = s.memory) :
    t.Consistent (scope.withFree t.nextCell) names src later :=
  consistent.beside longer kept encloses (fun name _ => (Lasts.of_memory same).named name)
    (fun _ _ _ _ _ found => by rwa [outcomeAt?_of_memory same] at found)
    fun _ _ _ found => by rwa [target?_of_memory same] at found

end Store

/-- From any store: if a scope was consistent, and is closed in the end, then it is consistent in
the end. -/
def Spares (scope : Scope) (names : Names) (src : Text) (base : Owners) {α : Type}
    (P : Owners → α → Prop) (m : Action Store α) : Prop :=
  ∀ owners s, base <+: owners → s.Owned owners → ∀ x t, m.run s = some (x, t) →
    ∃ later, owners <+: later ∧ t.Owned later ∧ s.Lasts t ∧ Ensures (P later) x ∧
      (t.Encloses scope later → s.Consistent (scope.withFree s.nextCell) names src owners →
        t.Consistent (scope.withFree t.nextCell) names src later)

namespace Spares

variable {scope : Scope} {names : Names} {src : Text} {base : Owners} {α β : Type}
  {P : Owners → α → Prop} {Q : Owners → β → Prop}

theorem mono {later : Owners} (longer : base <+: later) {m : Action Store α}
    (spares : Spares scope names src base P m) : Spares scope names src later P m :=
  fun owners s further => spares owners s (longer.trans further)

theorem pure {a : α} (holds : ∀ later, base <+: later → P later a) :
    Spares scope names src base P (Pure.pure a) := by
  intro owners s longer owned x t run
  cases run
  exact ⟨owners, List.prefix_refl _, owned, .refl, .pure (holds owners longer), fun _ => id⟩

theorem raise (e : Fault) : Spares scope names src base P (Action.raise e) := by
  intro owners s _ owned x t run
  cases run
  exact ⟨owners, List.prefix_refl _, owned, .refl, .error e, fun _ => id⟩

theorem bind {m : Action Store α} {f : α → Action Store β} (first : Spares scope names src base P m)
    (next : ∀ later a, base <+: later → P later a → Spares scope names src later Q (f a)) :
    Spares scope names src base Q (m >>= f) := by
  intro owners s longer owned x t run
  rcases Action.run_bind_eq_some.mp run with ⟨e, failed, rfl⟩ | ⟨a, u, answered, continued⟩
  · obtain ⟨later, further, kept, lasts, -, spared⟩ := first owners s longer owned _ t failed
    exact ⟨later, further, kept, lasts, .error e, spared⟩
  · obtain ⟨later, further, kept, lasts, holds, spared⟩ := first owners s longer owned _ u answered
    obtain ⟨last, furthest, kept', lasts', holds', spared'⟩ :=
      next later a (longer.trans further) (holds a rfl) later u (List.prefix_refl _) kept x t
        continued
    -- A scope that is closed in the end was closed in between.
    exact ⟨last, further.trans furthest, kept', lasts.trans lasts', holds',
      fun encloses consistent =>
      spared' encloses (spared (encloses.of_lasts furthest lasts') consistent)⟩

theorem answer {m : Action Store α} (spares : Spares scope names src base P m)
    {Q : Owners → α → Prop} (weaker : ∀ later a, P later a → Q later a) :
    Spares scope names src base Q m := by
  intro owners s longer owned x t run
  obtain ⟨later, further, kept, lasts, holds, spared⟩ := spares owners s longer owned x t run
  exact ⟨later, further, kept, lasts, fun a equal => weaker later a (holds a equal), spared⟩

/-- What takes no cells and remembers nothing. -/
theorem quiet {m : Action Store α} (keeps : m.Keeps Store.holdings) :
    Spares scope names src base (fun _ _ => True) m := by
  intro owners s _ owned x t run
  have same := keeps s x t run
  have next : t.nextCell = s.nextCell := congrArg Prod.fst same
  exact ⟨owners, List.prefix_refl _, owned.congr same, .of_memory (congrArg Prod.snd same),
    .trivial x, fun _ consistent => next ▸ consistent.congr same⟩

theorem parser (g : Grammar) :
    Spares scope names src base (fun later p => p.All (Parser.Owned later)) g.parser := by
  intro owners s _ owned x t built
  obtain ⟨later, longer, kept, belongs⟩ := owned.parser built
  have same := g.parser_keeps s x t built
  exact ⟨later, longer, kept, .of_memory same, belongs, fun encloses consistent =>
    consistent.of_memory longer kept encloses same⟩

open Matcher Store in
theorem opening {cell : Nat} {g : Grammar} (belongs : base[cell]? = some (.lazy cell g)) :
    Spares scope names src base (fun later p => p.All (Parser.Owned later))
      (opening cell g.parser) := by
  intro owners s longer owned x t ran
  have owner := Owners.getElem?_of_prefix longer belongs
  cases found : s.target? cell with
  | some p =>
      rw [run_opening_found found] at ran
      cases ran
      exact ⟨owners, List.prefix_refl _, owned, .refl, .pure (owned.targets found).1, fun _ => id⟩
  | none =>
      rcases built : g.parser.run s with _ | ⟨e | p, u⟩
      · rw [Matcher.opening, Action.run_bind, Action.run_state] at ran
        simp only [found, Action.run_bind, built] at ran
        cases ran
      · obtain ⟨rfl, rfl⟩ : .error e = x ∧ u = t := by
          simpa [run_opening_failed found built] using ran
        obtain ⟨later, further, kept, lasts, -, spared⟩ :=
          Spares.parser g owners s longer owned _ u built
        exact ⟨later, further, kept, lasts, .error e, spared⟩
      · obtain ⟨rfl, rfl⟩ : .ok p = x ∧ u.keepTarget cell p = t := by
          simpa [run_opening_built found built] using ran
        have same := g.parser_keeps s _ u built
        have lasts : s.Lasts (u.keepTarget cell p) := by
          refine (Store.Lasts.of_memory same).trans (.keepTarget ?_)
          rwa [target?_of_memory same]
        by_cases inside : scope.cells cell ∧
          s.Consistent (scope.withFree s.nextCell) names src owners
        · -- What the parser is built from refers to nothing out of the scope.
          obtain ⟨inside, consistent⟩ := inside
          have here := (Parser.all_iff.mp (consistent.inside (.inl inside) owner)).1
          obtain ⟨later, y, v, built', further, kept, agree⟩ :=
            Grammar.parser_builds here.2 s consistent
          cases built.symm.trans built'
          generalize planned : g.planned names = z at agree
          cases agree with
          | ok tracks =>
              obtain ⟨rfl, placed⟩ := tracks
              have kept := kept.keepTarget (Owners.getElem?_of_prefix further owner) placed planned
              exact ⟨later, further, kept.owned, lasts, .pure (Parser.all_owned placed),
                fun encloses _ => kept.narrow encloses⟩
        · obtain ⟨later, longer, kept, belongs⟩ := owned.parser built
          have kept := kept.keepTarget (Owners.getElem?_of_prefix longer owner) (belongs p rfl)
          refine ⟨later, longer, kept, lasts, .pure (belongs p rfl), fun encloses consistent => ?_⟩
          refine consistent.beside longer kept encloses (fun name _ => lasts.named name)
            (fun _ _ _ _ _ found => by rwa [← outcomeAt?_of_memory same])
            fun other q here found => ?_
          have apart : other ≠ cell := by
            rintro rfl
            exact inside ⟨here, consistent⟩
          rw [target?_keepTarget, if_neg apart] at found
          rwa [← target?_of_memory same]

end Spares

/-- The second computation only says which answers there are. -/
def Correspondence.sparing (scope : Scope) (names : Names) (src : Text) (base : Owners) :
    Correspondence Unit Store Store where
  Rel A m _ := Spares scope names src base (fun _ a => ∃ b, A a b) m
  pure related := .pure fun _ _ => ⟨_, related⟩
  bind first next := Spares.bind first fun later a longer holds => by
    obtain ⟨b, related⟩ := holds
    exact (next a b related).mono longer
  raise e := .raise e
  exhausted _ _ _ _ _ _ _ run := by cases run

section

variable {scope : Scope} {names : Names} {src text : Text} {base : Owners}
  {enter : Parser → Matcher Store}

open Correspondence

theorem enter_spares (alike : ∀ later p, p.All (Parser.Owned later) →
      Matcher.Corresponds (sparing scope names src later) (.identity text) (enter p)
        fun _ => enter p) (g : Grammar) :
    Matcher.Corresponds (sparing scope names src base) (.identity text)
      (Matcher.thenRun do return enter (← g.parser))
      fun _ => Matcher.thenRun do return enter (← g.parser) := by
  intro i j place
  simp only [Matcher.thenRun, bind_assoc, pure_bind]
  exact (Spares.parser g).bind fun later p _ owned => alike later p owned i j place

theorem lazy_spares (alike : ∀ later p, p.All (Parser.Owned later) →
      Matcher.Corresponds (sparing scope names src later) (.identity text) (enter p)
        fun _ => enter p) {cell : Nat} {g : Grammar} (owner : base[cell]? = some (.lazy cell g)) :
    Matcher.Corresponds (sparing scope names src base) (.identity text)
      (Matcher.lazy cell g.parser enter) fun _ => Matcher.lazy cell g.parser enter := by
  intro i j place
  simp only [Matcher.lazy_eq]
  exact (Spares.opening owner).bind fun later p _ owned => alike later p owned i j place

theorem memoize_spares (known : scope.outcomes → text = src) {n cell : Nat} {trace : Bool}
    {p : Parser} (owner : base[cell]? = some (.memoize cell trace p))
    (inner : Matcher.Corresponds (sparing scope names src base) (.identity text) (p.run n)
      fun _ => p.run n) :
    Matcher.Corresponds (sparing scope names src base) (.identity text)
      (Matcher.memoize cell trace p.name? (p.run n))
      fun _ => Matcher.memoize cell trace p.name? (p.run n) := by
  intro i j place owners s longer owned x t ran
  have owner := Owners.getElem?_of_prefix longer owner
  have any : Ensures (fun a => ∃ b, (Alignment.identity text).Outcomes a b) x :=
    fun r _ => ⟨r, Alignment.outcomes_identity_refl r⟩
  rcases Matcher.run_memoize_cases ran with ⟨r, log, -, -, rfl⟩ | ⟨-, u, answered, rfl⟩
  · exact ⟨owners, List.prefix_refl _, owned.congr rfl, .of_memory rfl, any,
      fun _ consistent => consistent.congr rfl⟩
  · obtain ⟨later, further, kept, lasts, -, spared⟩ :=
      inner i j place owners s longer owned x u answered
    cases x with
    | error e => exact ⟨later, further, kept, lasts, any, spared⟩
    | ok r =>
        have lasts : s.Lasts (u.remember cell i r) := lasts.trans ⟨rfl, id⟩
        by_cases sure : scope.outcomes ∧ scope.cells cell ∧
            s.Consistent (scope.withFree s.nextCell) names src owners
        · -- The memory is in the scope, and so is all that the parser inside uses.
          obtain ⟨sure, inside, consistent⟩ := sure
          obtain rfl := known sure
          have sure : (scope.withFree s.nextCell).outcomes := sure
          have placed := Parser.all_placed (owned.parsers owner)
            (consistent.inside (.inl inside) owner)
          rw [← Parser.run_memoize] at ran
          obtain ⟨last, -, -, furthest, kept, -⟩ :=
            Parser.run_reflects sure placed i i rfl owners s (List.prefix_refl _) consistent _ _ ran
          exact ⟨last, furthest, kept.owned, lasts, any, fun encloses _ => kept.narrow encloses⟩
        · have owner := Owners.getElem?_of_prefix further owner
          have kept' := kept.remember owner i r
          refine ⟨later, further, kept', lasts, any, fun encloses consistent => ?_⟩
          have before := spared (encloses.of_lasts (List.prefix_refl _) ⟨rfl, id⟩) consistent
          refine before.beside (List.prefix_refl _) kept' encloses (fun _ _ => rfl)
            (fun other pos' r' known here found => ?_) fun _ _ _ => id
          have apart : other ≠ cell := by
            rintro rfl
            exact sure ⟨known, here, consistent⟩
          exact (Store.outcomeAt?_remember_of_ne apart).symm.trans found

/-- Whatever parser is run, the scopes that there are stay consistent. -/
theorem Parser.run_spares (known : scope.outcomes → text = src) {n : Nat} {p : Parser}
    (owned : p.All (Parser.Owned base)) :
    Matcher.Corresponds (sparing scope names src base) (.identity text) (p.run n)
      fun _ => p.run n := by
  induction n using Nat.strongRecOn generalizing base p with
  | ind n ih =>
      have alike : ∀ later p, p.All (Parser.Owned later) →
          Matcher.Corresponds (sparing scope names src later) (.identity text)
            (Parser.late Parser.run n p) fun _ => Parser.late Parser.run n p := by
        intro later p owned
        cases n with
        | zero => exact fun _ _ _ => (sparing scope names src later).exhausted _
        | succ n => exact ih n (Nat.lt_succ_self n) owned
      simp only [Parser.run_eq_matcher]
      refine Interpretation.Corresponds.matcher ?_ owned
      exact {
        fuel := fun _ => Nat.le_refl n
        label := fun text => ⟨text, fun _ => rfl, rfl⟩
        call := fun f v => (Spares.quiet (f.run_keeps v)).answer fun _ a _ => ⟨a, rfl⟩
        regex := fun _ => Matcher.regex_corresponds_identity _
        custom := fun _ => Matcher.custom_corresponds_identity _
        enter := fun _ fn _ v => enter_spares alike (fn v)
        memoize := fun owner inner => by
          simp only [← Parser.run_eq_matcher] at inner ⊢
          exact memoize_spares known owner inner
        lazy := fun owner => lazy_spares alike owner
        named := fun label trace p q inner i j place => by
          simp only [Interpretation.ofStore, Matcher.named_eq]
          exact (Spares.quiet (Action.writeIf_keeps trace _)).bind fun _ _ longer _ =>
            (Matcher.relabel_corresponds label inner i j place).mono longer
        probe := fun event p q inner i j place =>
          (Spares.quiet (Store.record_keeps _)).bind fun _ _ longer _ =>
            (inner i j place).mono longer }

end

end Descent
