import Descent.Proofs.Memoization.History

/-!
The history of parsers that are built late. Such a parser is used over and over, on any texts, also
in the course of its own uses, and what its factory comes to may differ from call to call. Main
statement: the factory is called for each use until it makes a parser, and never again, and from
then on that parser answers.
-/

namespace Descent

/-! One use. -/

namespace Matcher

/-- Gives the parser that was built late. If there is none yet, it is built and kept. -/
def opening (cell : Nat) (factory : Action Store Parser) : Action Store Parser := do
  match (← Action.state).target? cell with
  | some p => return p
  | none =>
    let p ← factory
    Action.modify (Store.keepTarget cell p)
    return p

theorem lazy_eq (cell : Nat) (factory : Action Store Parser) (enter : Parser → Matcher Store)
    (src : Text) (pos : Int) :
    lazy cell factory enter src pos = opening cell factory >>= fun p => enter p src pos := by
  rw [lazy, opening, bind_assoc]
  refine bind_congr fun s => ?_
  cases s.target? cell with
  | some p => rfl
  | none => simp only [bind_assoc, pure_bind]

variable {cell : Nat} {factory : Action Store Parser} {enter : Parser → Matcher Store} {src : Text}
  {pos : Int}
  {s t : Store} {p : Parser} {e : Fault}

theorem run_opening_found (found : s.target? cell = some p) (factory : Action Store Parser) :
    (opening cell factory).run s = some (.ok p, s) := by
  rw [opening, Action.run_bind, Action.run_state]
  simp only [found]
  rfl

theorem run_opening_failed (missing : s.target? cell = none)
    (failed : factory.run s = some (.error e, t)) :
    (opening cell factory).run s = some (.error e, t) := by
  rw [opening, Action.run_bind, Action.run_state]
  simp only [missing, Action.run_bind, failed]

theorem run_opening_built (missing : s.target? cell = none)
    (built : factory.run s = some (.ok p, t)) :
    (opening cell factory).run s = some (.ok p, t.keepTarget cell p) := by
  rw [opening, Action.run_bind, Action.run_state]
  simp only [missing, Action.run_bind, built]
  rfl

theorem run_lazy_found (found : s.target? cell = some p) (factory : Action Store Parser)
    (enter : Parser → Matcher Store) (src : Text) (pos : Int) :
    (lazy cell factory enter src pos).run s = (enter p src pos).run s := by
  rw [lazy_eq, Action.run_bind, run_opening_found found]

theorem run_lazy_failed (missing : s.target? cell = none)
    (failed : factory.run s = some (.error e, t)) (enter : Parser → Matcher Store) (src : Text)
    (pos : Int) :
    (lazy cell factory enter src pos).run s = some (.error e, t) := by
  rw [lazy_eq, Action.run_bind, run_opening_failed missing failed]

theorem run_lazy_built (missing : s.target? cell = none) (built : factory.run s = some (.ok p, t))
    (enter : Parser → Matcher Store) (src : Text) (pos : Int) :
    (lazy cell factory enter src pos).run s = (enter p src pos).run (t.keepTarget cell p) := by
  rw [lazy_eq, Action.run_bind, run_opening_built missing built]

theorem run_lazy_cases {factory : Action Store Parser} {enter : Parser → Matcher Store}
    {x : Except Fault Outcome} (ran : (lazy cell factory enter src pos).run s = some (x, t)) :
    (∃ p, s.target? cell = some p ∧ (enter p src pos).run s = some (x, t)) ∨
      (s.target? cell = none ∧ ∃ e, factory.run s = some (.error e, t) ∧ x = .error e) ∨
      s.target? cell = none ∧ ∃ p u, factory.run s = some (.ok p, u) ∧
        (enter p src pos).run (u.keepTarget cell p) = some (x, t) := by
  cases found : s.target? cell with
  | some p => exact .inl ⟨p, rfl, run_lazy_found found factory enter src pos ▸ ran⟩
  | none =>
      rcases called : factory.run s with _ | ⟨e | p, u⟩
      · rw [lazy, Action.run_bind, Action.run_state] at ran
        simp only [found, Action.run_bind, called] at ran
        cases ran
      · rw [run_lazy_failed found called] at ran
        cases ran
        exact .inr (.inl ⟨rfl, e, rfl, rfl⟩)
      · exact .inr (.inr ⟨rfl, p, u, rfl, run_lazy_built found called enter src pos ▸ ran⟩)

end Matcher

/-- The use of a parser that is built late: where it was used, and what came of it. -/
structure Use where
  cell : Nat
  factory : Action Store Parser
  enter : Parser → Matcher Store
  src : Text
  pos : Int
  before : Store
  answer : Except Fault Outcome
  after : Store

namespace Use

/-- The parser was used, and that came of it. -/
def Asked (u : Use) : Prop :=
  (Matcher.lazy u.cell u.factory u.enter u.src u.pos).run u.before = some (u.answer, u.after)

def call (u : Use) : Option (Except Fault Parser) :=
  match u.before.target? u.cell with
  | some _ => none
  | none => (u.factory.run u.before).map Prod.fst

def calls (cell : Nat) (uses : List Use) : List (Except Fault Parser) :=
  uses.filterMap fun u => if u.cell = cell then u.call else none

def built (cell : Nat) (uses : List Use) : Option Parser :=
  (calls cell uses).findSome? Except.toOption

variable {cell : Nat} {u : Use} {uses : List Use} {p : Parser} {e : Fault} {t : Store}

theorem calls_append (cell : Nat) (l k : List Use) :
    calls cell (l ++ k) = calls cell l ++ calls cell k :=
  List.filterMap_append

theorem built_append (cell : Nat) (l k : List Use) :
    built cell (l ++ k) = (built cell l).or (built cell k) := by
  rw [built, calls_append, List.findSome?_append, built, built]

theorem built_cons (cell : Nat) (u : Use) (l : List Use) :
    built cell (u :: l) = (built cell [u]).or (built cell l) :=
  built_append cell [u] l

theorem calls_single (cell : Nat) (u : Use) :
    calls cell [u] = (if u.cell = cell then u.call else none).toList := by
  rw [calls, List.filterMap_cons, List.filterMap_nil]
  cases if u.cell = cell then u.call else none <;> rfl

theorem built_single (cell : Nat) (u : Use) :
    built cell [u] = (if u.cell = cell then u.call else none).bind Except.toOption := by
  rw [built, calls_single]
  rcases (if u.cell = cell then u.call else none) with _ | _ | _ <;> rfl

theorem built_single_eq_none (unmade : ∀ p, u.call ≠ some (.ok p)) (cell : Nat) :
    built cell [u] = none := by
  rw [built_single]
  split
  next =>
    rcases called : u.call with _ | _ | p
    · rfl
    · rfl
    · exact absurd called (unmade p)
  next => rfl

theorem target?_of_call {y : Except Fault Parser} (called : u.call = some y) :
    u.before.target? u.cell = none := by
  rw [call] at called
  cases found : u.before.target? u.cell with
  | none => rfl
  | some p =>
      rw [found] at called
      cases called

theorem call_of_found (found : u.before.target? u.cell = some p) : u.call = none := by
  rw [call, found]

theorem call_of_failed (missing : u.before.target? u.cell = none)
    (failed : u.factory.run u.before = some (.error e, t)) : u.call = some (.error e) := by
  rw [call, missing]
  exact congrArg (Option.map Prod.fst) failed

theorem call_of_built (missing : u.before.target? u.cell = none)
    (made : u.factory.run u.before = some (.ok p, t)) : u.call = some (.ok p) := by
  rw [call, missing]
  exact congrArg (Option.map Prod.fst) made

end Use

/-- The uses of parsers that are built late, on the way from one store to another, in the order in
which they began. A factory may use such parsers too, but not the one that it is to make. -/
inductive Unfolding : Store → List Use → Store → Prop
  | still {s t : Store} (same : t.targets = s.targets) : Unfolding s [] t
  | append {s t u : Store} {l k : List Use} (earlier : Unfolding s l t) (later : Unfolding t k u) :
      Unfolding s (l ++ k) u
  | refused {u : Use} {e : Fault} {t : Store} {k : List Use} (asked : u.Asked)
      (missing : u.before.target? u.cell = none)
      (failed : u.factory.run u.before = some (.error e, t))
      (building : Unfolding u.before k t) (apart : ∀ v ∈ k, v.cell ≠ u.cell) :
      Unfolding u.before (u :: k) u.after
  | first {u : Use} {p : Parser} {t : Store} {k l : List Use} (asked : u.Asked)
      (missing : u.before.target? u.cell = none) (made : u.factory.run u.before = some (.ok p, t))
      (building : Unfolding u.before k t) (apart : ∀ v ∈ k, v.cell ≠ u.cell)
      (inside : Unfolding (t.keepTarget u.cell p) l u.after) :
      Unfolding u.before (u :: (k ++ l)) u.after
  | again {u : Use} {p : Parser} {l : List Use} (asked : u.Asked)
      (found : u.before.target? u.cell = some p)
      (inside : Unfolding u.before l u.after) : Unfolding u.before (u :: l) u.after

/-- What there is to say of the uses of one parser that is built late, in the order in which they
began, up to a store. -/
structure BuiltOnce (cell : Nat) (uses : List Use) (t : Store) : Prop where
  /-- While there is no parser, the factory is called. If it fails, its fault is the answer, and
  nothing is kept; if not, the parser that it makes is kept and gives the answer. -/
  early {pre post : List Use} {u : Use} : uses = pre ++ u :: post → u.cell = cell →
    Use.built cell pre = none →
    ∃ y v, u.factory.run u.before = some (y, v) ∧ u.call = some y ∧
      (∀ e, y = .error e → u.answer = .error e ∧ u.after = v ∧ u.after.target? cell = none) ∧
      ∀ p, y = .ok p → (u.enter p u.src u.pos).run (v.keepTarget cell p) =
        some (u.answer, u.after) ∧
        u.after.target? cell = some p
  /-- Once there is one, it answers, and the factory is not called, whatever it would come to. -/
  later {pre post : List Use} {u : Use} {p : Parser} : uses = pre ++ u :: post → u.cell = cell →
    Use.built cell pre = some p → u.call = none ∧
      (∀ factory, (Matcher.lazy cell factory u.enter u.src u.pos).run u.before =
        (u.enter p u.src u.pos).run u.before) ∧
      (u.enter p u.src u.pos).run u.before = some (u.answer, u.after) ∧
        u.after.target? cell = some p
  /-- The calls fail, except for the last one if it makes the parser. -/
  calls : ∃ es : List Fault, Use.calls cell uses = es.map .error ++
    (Use.built cell uses).toList.map .ok
  ends : t.target? cell = Use.built cell uses
  /-- The next use is answered by the parser, and if there is none yet, then the factory is
  called. -/
  next (factory : Action Store Parser) (enter : Parser → Matcher Store) (src : Text) (pos : Int) :
    (∀ p, Use.built cell uses = some p →
      (Matcher.lazy cell factory enter src pos).run t = (enter p src pos).run t) ∧
    (Use.built cell uses = none → ∀ y v, factory.run t = some (y, v) →
      (Matcher.lazy cell factory enter src pos).run t = match y with
        | .ok p => (enter p src pos).run (v.keepTarget cell p)
        | .error e => some (.error e, v))

namespace Unfolding

open Use

variable {s t : Store} {uses : List Use} {cell : Nat}

theorem asked (unfolding : Unfolding s uses t) : ∀ u ∈ uses, u.Asked := by
  induction unfolding with
  | still same => exact List.forall_mem_nil _
  | append earlier later ih ih' => exact List.forall_mem_append.mpr ⟨ih, ih'⟩
  | refused asked missing failed building apart ih => exact List.forall_mem_cons.mpr ⟨asked, ih⟩
  | first asked missing made building apart inside ih ih' =>
      exact List.forall_mem_cons.mpr ⟨asked, List.forall_mem_append.mpr ⟨ih, ih'⟩⟩
  | again asked found inside ih => exact List.forall_mem_cons.mpr ⟨asked, ih⟩

theorem target?_opened {u : Use} {p : Parser} {k : List Use}
    (missing : u.before.target? u.cell = none) (made : u.factory.run u.before = some (.ok p, t))
    {cell : Nat} (building : t.target? cell = (u.before.target? cell).or (built cell k)) :
    (t.keepTarget u.cell p).target? cell = (u.before.target? cell).or (built cell (u :: k)) := by
  rw [Store.target?_keepTarget, built_cons, built_single]
  by_cases same : cell = u.cell
  · subst same
    rw [if_pos rfl, if_pos rfl, missing, call_of_built missing made]
    rfl
  · rw [if_neg same, if_neg (Ne.symm same), building]
    rfl

theorem targets (unfolding : Unfolding s uses t) (cell : Nat) :
    t.target? cell = (s.target? cell).or (built cell uses) := by
  induction unfolding with
  | still same => simp [built, calls, Store.target?, same]
  | append earlier later ih ih' => rw [ih', ih, built_append, Option.or_assoc]
  | @refused u e t k asked missing failed building apart ih =>
      rw [Asked, Matcher.run_lazy_failed missing failed] at asked
      obtain ⟨-, rfl⟩ := Prod.mk.inj (Option.some.inj asked)
      have unmade : built cell [u] = none :=
        built_single_eq_none (by simp [call_of_failed missing failed]) cell
      rw [built_cons, unmade, Option.none_or, ih]
  | @first u p t k l asked missing made building apart inside ih ih' =>
      rw [ih', ← List.cons_append, built_append, target?_opened missing made ih, Option.or_assoc]
  | @again u p l asked found inside ih =>
      have unmade : built cell [u] = none :=
        built_single_eq_none (by simp [call_of_found found]) cell
      rw [ih, built_cons, unmade, Option.none_or]

/-- When a use begins, its parser has been built in the uses that began before, also in those that
have not come to an end, or not at all. The uses in the course of it come right behind. -/
theorem of_append (unfolding : Unfolding s uses t) {pre post : List Use} {u : Use}
    (split : uses = pre ++ u :: post) :
    u.before.target? u.cell = (s.target? u.cell).or (built u.cell pre) ∧
      ∃ inside rest, post = inside ++ rest ∧ Unfolding u.before (u :: inside) u.after ∧
        ∀ e, u.call = some (.error e) → ∀ v ∈ inside, v.cell ≠ u.cell := by
  -- On the way the history is put together. A use is its first entry, or in one of its parts.
  induction unfolding generalizing pre post with
  | still same => exact absurd split (by simp)
  | @append s t u' l k earlier later ih ih' =>
      rcases entry_append split with ⟨l', rfl, rfl⟩ | ⟨k', rfl, rfl⟩
      · obtain ⟨before, inside, rest, rfl, own⟩ := ih rfl
        exact ⟨before, inside, rest ++ k, List.append_assoc .., own⟩
      · obtain ⟨before, own⟩ := ih' rfl
        exact ⟨by rw [before, earlier.targets, built_append, Option.or_assoc], own⟩
  | @refused w e t k asked missing failed building apart ih =>
      cases pre with
      | nil =>
          obtain ⟨rfl, rfl⟩ := List.cons.inj split
          exact ⟨Option.or_none.symm, k, [], by simp, .refused asked missing failed building apart,
            fun _ _ => apart⟩
      | cons v pre =>
          obtain ⟨rfl, rfl⟩ := List.cons.inj split
          obtain ⟨before, own⟩ := ih rfl
          have unmade : built u.cell [w] = none :=
            built_single_eq_none (by simp [call_of_failed missing failed]) u.cell
          exact ⟨by rw [before, built_cons, unmade, Option.none_or], own⟩
  | @first w p t k l asked missing made building apart inside ih ih' =>
      cases pre with
      | nil =>
          obtain ⟨rfl, rfl⟩ := List.cons.inj split
          refine ⟨Option.or_none.symm, k ++ l, [],
            by simp, .first asked missing made building apart inside, fun e failed => ?_⟩
          cases (call_of_built missing made).symm.trans failed
      | cons v pre =>
          obtain ⟨rfl, within⟩ := List.cons.inj split
          rcases entry_append within with ⟨k', rfl, rfl⟩ | ⟨l', rfl, rfl⟩
          · obtain ⟨before, inside, rest, rfl, own⟩ := ih rfl
            have other : w.cell ≠ u.cell := (apart u (by simp)).symm
            refine ⟨?_, inside, rest ++ l, List.append_assoc .., own⟩
            rw [before, built_cons, built_single, if_neg other]
            rfl
          · obtain ⟨before, own⟩ := ih' rfl
            refine ⟨?_, own⟩
            rw [before, target?_opened missing made (building.targets _), ← List.cons_append,
              built_append, Option.or_assoc]
  | @again w p l asked found inside ih =>
      cases pre with
      | nil =>
          obtain ⟨rfl, rfl⟩ := List.cons.inj split
          refine ⟨Option.or_none.symm, l, [],
            by simp, .again asked found inside, fun e failed => ?_⟩
          cases (call_of_found found).symm.trans failed
      | cons v pre =>
          obtain ⟨rfl, rfl⟩ := List.cons.inj split
          obtain ⟨before, own⟩ := ih rfl
          have unmade : built u.cell [w] = none :=
            built_single_eq_none (by simp [call_of_found found]) u.cell
          exact ⟨by rw [before, built_cons, unmade, Option.none_or], own⟩

section

variable (unfolding : Unfolding s uses t) (fresh : s.target? cell = none)

include unfolding fresh

theorem target?_before {pre post : List Use} {u : Use} (split : uses = pre ++ u :: post)
    (same : u.cell = cell) :
    u.before.target? u.cell = built cell pre := by
  rw [(unfolding.of_append split).1, same, fresh, Option.none_or]

/-- What is there when a use begins, or is built by it, is there when it ends. -/
theorem target?_after {pre post : List Use} {u : Use} {p : Parser} (split : uses = pre ++ u :: post)
    (same : u.cell = cell) (known : built cell (pre ++ [u]) = some p) :
    u.after.target? cell = some p := by
  subst same
  obtain ⟨before, inside, rest, -, own, -⟩ := unfolding.of_append split
  rw [own.targets u.cell, built_cons, before, fresh, Option.none_or, ← Option.or_assoc,
    ← built_append, known, Option.some_or]

/-- A factory that fails has made nothing, and has not used the parser that it was to make. -/
theorem target?_after_failed {pre post : List Use} {u : Use} {e : Fault}
    (split : uses = pre ++ u :: post) (same : u.cell = cell) (failed : u.call = some (.error e)) :
    u.after.target? cell = none := by
  subst same
  obtain ⟨-, inside, rest, -, own, apart⟩ := unfolding.of_append split
  have unmade : built u.cell [u] = none := built_single_eq_none (by simp [failed]) u.cell
  have unused : built u.cell inside = none := by
    have calls : Use.calls u.cell inside = [] :=
      List.filterMap_eq_nil_iff.mpr fun v member => if_neg (apart e failed v member)
    rw [built, calls]
    rfl
  rw [own.targets u.cell, built_cons, unmade, unused, target?_of_call failed]
  rfl

theorem calls_once :
    ∃ es : List Fault, Use.calls cell uses = es.map .error ++ (built cell uses).toList.map .ok := by
  suffices prefixes : ∀ pre post, uses = pre ++ post →
      ∃ es : List Fault, Use.calls cell pre = es.map .error ++ (built cell pre).toList.map .ok from
    prefixes uses [] (by simp)
  intro pre
  -- From use to use: where there is a call, the uses before have built nothing.
  induction pre using List.reverseRecOn with
  | nil => exact fun _ _ => ⟨[], rfl⟩
  | append_singleton pre u ih =>
      intro post split
      have split : uses = pre ++ u :: post := by simpa using split
      obtain ⟨es, earlier⟩ := ih (u :: post) split
      rw [calls_append, built_append, earlier, calls_single, built_single]
      rcases called : (if u.cell = cell then u.call else none) with _ | y
      · exact ⟨es, by simp⟩
      · obtain ⟨same, called⟩ := Option.ite_none_right_eq_some.mp called
        have unmade : built cell pre = none :=
          (unfolding.target?_before fresh split same).symm.trans (target?_of_call called)
        rw [unmade]
        cases y with
        | error e => exact ⟨es ++ [e], by simp [Except.toOption]⟩
        | ok p => exact ⟨es, by simp [Except.toOption]⟩

theorem builtOnce : BuiltOnce cell uses t where
  early {pre post u} split same unmade := by
    have missing : u.before.target? u.cell = none :=
      (unfolding.target?_before fresh split same).trans unmade
    rcases Matcher.run_lazy_cases (unfolding.asked u (by simp [split])) with
      ⟨p, found, -⟩ | ⟨-, e, called, answer⟩ | ⟨-, p, v, called, ran⟩
    · cases missing.symm.trans found
    · have failed : u.call = some (.error e) := call_of_failed missing called
      refine ⟨.error e, u.after, called, failed, fun e' equal => ?_, nofun⟩
      cases equal
      exact ⟨answer, rfl, unfolding.target?_after_failed fresh split same failed⟩
    · have made : u.call = some (.ok p) := call_of_built missing called
      refine ⟨.ok p, v, called, made, nofun, fun p' equal => ?_⟩
      cases equal
      refine ⟨same ▸ ran, unfolding.target?_after fresh split same ?_⟩
      rw [built_append, unmade, Option.none_or, built_single, if_pos same, made]
      rfl
  later {pre post u p} split same known := by
    have ran := unfolding.asked u (by simp [split])
    have found : u.before.target? u.cell = some p :=
      (unfolding.target?_before fresh split same).trans known
    rw [Asked, Matcher.run_lazy_found found] at ran
    refine ⟨call_of_found found, fun factory => Matcher.run_lazy_found (same ▸ found) factory _ _ _,
      ran, unfolding.target?_after fresh split same ?_⟩
    rw [built_append, known, Option.some_or]
  calls := unfolding.calls_once fresh
  ends := by rw [unfolding.targets cell, fresh, Option.none_or]
  next factory enter src pos := by
    have ended : t.target? cell = built cell uses := by
      rw [unfolding.targets cell, fresh, Option.none_or]
    refine ⟨fun p known => Matcher.run_lazy_found (ended.trans known) factory enter src pos,
      fun unmade y v called => ?_⟩
    cases y with
    | error e => exact Matcher.run_lazy_failed (ended.trans unmade) called enter src pos
    | ok p => exact Matcher.run_lazy_built (ended.trans unmade) called enter src pos

end

end Unfolding

end Descent
