import Descent.Proofs.Failure.Unique
import Descent.Proofs.Debug.Running

/-!
Conduct: what every computation of a session keeps to. A conduct says which faults may arise, on
which texts parsers are run, how far a run may get, and what may become of the store; it respects
how computations are put together.
-/

namespace Descent

structure Conduct where
  Allows : Fault → Prop
  Reads : Text → Prop
  /-- A run from the first position may answer with the second one. -/
  Reaches : Int → Int → Prop
  Turns : Store → Store → Prop
  ordinary {e : Fault} : e.Ordinary → Allows e
  here (pos : Int) : Reaches pos pos
  onward {i j k : Int} : Reaches i j → Reaches j k → Reaches i k
  next {src : Text} {pos : Int} {c : CodePoint} : Reads src → src.lookAt pos = .ok (some c) →
    Reaches pos (pos + 1)
  skip {src t : Text} {pos : Int} : Reads src → src.standsAt t pos = true →
    Reaches pos (pos + t.length)
  find {src : Text} {r : Regex} {pos : Int} {stop : Nat} : Reads src →
    r.endOf? src (min pos.toNat src.length) = some stop → Reaches pos stop
  /-- Cells may be taken, and what is not remembered for good may change. -/
  quiet {s t : Store} : s.nextCell ≤ t.nextCell → t.outcomes = s.outcomes → Turns s t
  trans {s t u : Store} : Turns s t → Turns t u → Turns s u
  /-- What a run inside does to the store, a memory around it may do. -/
  memoize {cell : Nat} {trace : Bool} {name? : Option Text} {p : Matcher Store} {src : Text}
    {pos : Int} {s t : Store} {x : Except Fault Outcome} :
    (∀ y u, (p src pos).run s = some (y, u) → Turns s u) →
    (Matcher.memoize cell trace name? p src pos).run s = some (x, t) → Turns s t

namespace Conduct

/-- Nothing is asked. -/
def loose : Conduct where
  Allows _ := True
  Reads _ := True
  Reaches _ _ := True
  Turns _ _ := True
  ordinary _ := True.intro
  here _ := True.intro
  onward _ _ := True.intro
  next _ _ := True.intro
  skip _ _ := True.intro
  find _ _ := True.intro
  quiet _ _ := True.intro
  trans _ _ := True.intro
  memoize _ _ := True.intro

variable (C : Conduct)

/-- An outcome that a run from a position may have. -/
inductive Fits (pos : Int) : Outcome → Prop
  | success {r : Success} (reach : C.Reaches pos r.pos) : Fits pos (.success r)
  | failure {f : Failure} (wellFormed : f.WellFormed) (reach : C.Reaches pos f.pos) :
      Fits pos (.failure f)

/-! What users bring along: functions on matched values, parser functions and grammars. -/

def Calls {α : Type} (f : Callback α) : Prop :=
  ∀ v, Faults C.Allows (f.call v)

structure States (verdict : Text → Int → Except Fault Verdict) : Prop where
  faults {src : Text} (reads : C.Reads src) (pos : Int) : Faults C.Allows (verdict src pos)
  success {src : Text} {pos stop : Int} {v : Value} (reads : C.Reads src)
    (stated : verdict src pos = .ok (.success v stop)) : C.Reaches pos stop
  failure {src : Text} {pos stop : Int} {labels : List Text} (reads : C.Reads src)
    (stated : verdict src pos = .ok (.failure labels stop)) :
    C.Reaches pos stop ∧ (labels = [] → C.Allows .expectationRequired)

def Permits : Grammar → Prop
  | .faulty e => C.Allows e
  | .satisfy test _ => C.Calls test
  | .custom verdict => C.States verdict
  | .copies _ count => Faults C.Allows count
  | .map _ fn validate => C.Calls fn ∧ ∀ test ∈ validate, C.Calls test
  | _ => True

/-- A parser that was built from permitted grammars. -/
def Orderly : Parser → Prop
  | .satisfy test _ => C.Calls test
  | .custom verdict => C.States verdict
  | .alt ps => ps ≠ []
  | .map _ fn validate => C.Calls fn ∧ ∀ test ∈ validate, C.Calls test
  | .andThen _ fns => ∀ fn ∈ fns, ∀ v, (fn v).All C.Permits
  | .lazy _ g => g.All C.Permits
  | _ => True

def Accepts (a : Argument) : Prop :=
  ∀ p, a = .parser p → p.All C.Orderly

/-- Whatever is remembered fits. -/
structure Sound (s : Store) : Prop where
  outcomes : ∀ entry ∈ s.outcomes, C.Fits entry.1.2 entry.2
  targets : ∀ entry ∈ s.targets, entry.2.All C.Orderly
  names : ∀ entry ∈ s.names, C.Accepts entry.2

/-- From any sound store: the computation leaves a sound one, its result has a property, and a fault
that stops it is an allowed one. -/
def Holds {α : Type} (m : Action Store α) (P : α → Prop) : Prop :=
  ∀ s, C.Sound s → ∀ x t, m.run s = some (x, t) →
    C.Sound t ∧ C.Turns s t ∧ Ensures P x ∧ Faults C.Allows x

/-- Runs of a matcher hold to the conduct. -/
def Keeps (p : Matcher Store) : Prop :=
  ∀ src, C.Reads src → ∀ pos, C.Holds (p src pos) (C.Fits pos)

end Conduct

namespace Conduct

variable {C : Conduct}

theorem same (s : Store) : C.Turns s s :=
  C.quiet (Nat.le_refl _) rfl

theorem Fits.single (label : Text) (pos : Int) : C.Fits pos (.failed label pos) :=
  .failure (Failure.single_wellFormed label pos) (C.here pos)

theorem Fits.matched (v : Value) {pos stop : Int} (reach : C.Reaches pos stop) :
    C.Fits pos (.matched v stop) :=
  .success reach

theorem Fits.later {i j : Int} {r : Outcome} (fits : C.Fits j r) (reach : C.Reaches i j) :
    C.Fits i r := by
  cases fits with
  | success further => exact .success (C.onward reach further)
  | failure wellFormed further => exact .failure wellFormed (C.onward reach further)

/-! Stores. -/

private theorem mem_of_lookup {κ α : Type} [BEq κ] [LawfulBEq κ] {l : List (κ × α)} {k : κ} {a : α}
    (found : l.lookup k = some a) : (k, a) ∈ l := by
  induction l with
  | nil => cases found
  | cons entry l ih =>
      obtain ⟨key, b⟩ := entry
      rw [List.lookup_cons] at found
      cases same : k == key with
      | true =>
          rw [same] at found
          cases found
          rw [eq_of_beq same]
          exact List.mem_cons_self
      | false =>
          rw [same] at found
          exact List.mem_cons_of_mem _ (ih found)

namespace Sound

variable {s t : Store}

theorem empty : C.Sound .empty where
  outcomes := nofun
  targets := nofun
  names := nofun

theorem congr (sound : C.Sound s) (outcomes : t.outcomes = s.outcomes)
    (targets : t.targets = s.targets) (names : t.names = s.names) : C.Sound t where
  outcomes := outcomes ▸ sound.outcomes
  targets := targets ▸ sound.targets
  names := names ▸ sound.names

theorem remembered (sound : C.Sound s) {cell : Nat} {pos : Int} {r : Outcome}
    (found : s.outcomeAt? cell pos = some r) : C.Fits pos r :=
  sound.outcomes _ (mem_of_lookup found)

theorem target (sound : C.Sound s) {cell : Nat} {p : Parser} (found : s.target? cell = some p) :
    p.All C.Orderly :=
  sound.targets _ (mem_of_lookup found)

theorem named (sound : C.Sound s) {name : Text} {a : Argument} (found : s.named? name = some a) :
    C.Accepts a :=
  sound.names _ (mem_of_lookup found)

theorem remember (sound : C.Sound s) (cell : Nat) {pos : Int} {r : Outcome} (fits : C.Fits pos r) :
    C.Sound (s.remember cell pos r) where
  outcomes := List.forall_mem_cons.mpr ⟨fits, sound.outcomes⟩
  targets := sound.targets
  names := sound.names

theorem keepTarget (sound : C.Sound s) (cell : Nat) {p : Parser} (orderly : p.All C.Orderly) :
    C.Sound (s.keepTarget cell p) where
  outcomes := sound.outcomes
  targets := List.forall_mem_cons.mpr ⟨orderly, sound.targets⟩
  names := sound.names

theorem keepName (sound : C.Sound s) (name : Text) {a : Argument} (accepts : C.Accepts a) :
    C.Sound (s.keepName name a) where
  outcomes := sound.outcomes
  targets := sound.targets
  names := List.forall_mem_cons.mpr ⟨accepts, sound.names⟩

end Sound

/-! Computations. -/

namespace Holds

variable {α β : Type} {P : α → Prop} {Q : β → Prop}

theorem pure {a : α} (holds : P a) : C.Holds (Pure.pure a) P := by
  intro s sound x t run
  cases run
  exact ⟨sound, same s, .pure holds, .pure a⟩

theorem raise {e : Fault} (allowed : C.Allows e) : C.Holds (Action.raise e) P := by
  intro s sound x t run
  cases run
  exact ⟨sound, same s, .error e, .error allowed⟩

theorem exhausted : C.Holds Action.exhausted P := by
  intro s sound x t run
  cases run

theorem bind {m : Action Store α} {f : α → Action Store β} (first : C.Holds m P)
    (next : ∀ a, P a → C.Holds (f a) Q) : C.Holds (m >>= f) Q := by
  intro s sound x t run
  rcases Action.run_bind_eq_some.mp run with ⟨e, failed, rfl⟩ | ⟨a, u, answered, continued⟩
  · obtain ⟨kept, turns, -, faults⟩ := first s sound _ t failed
    exact ⟨kept, turns, .error e, .error (faults e rfl)⟩
  · obtain ⟨kept, turns, ensures, -⟩ := first s sound _ u answered
    obtain ⟨kept, further, results⟩ := next a (ensures a rfl) u kept x t continued
    exact ⟨kept, C.trans turns further, results⟩

theorem mono {P' : α → Prop} {m : Action Store α} (holds : C.Holds m P) (weaker : ∀ a, P a → P' a) :
    C.Holds m P' := by
  intro s sound x t run
  obtain ⟨kept, turns, ensures, faults⟩ := holds s sound x t run
  exact ⟨kept, turns, fun a equal => weaker a (ensures a equal), faults⟩

theorem ofExcept {x : Except Fault α} (ensures : Ensures P x) (faults : Faults C.Allows x) :
    C.Holds (Action.ofExcept x) P := by
  cases x with
  | ok a => exact .pure (ensures a rfl)
  | error e => exact .raise (faults e rfl)

/-- A library function. -/
theorem library {x : Except Fault α} (faults : Faults Fault.Ordinary x) :
    C.Holds (Action.ofExcept x) fun a => x = .ok a :=
  .ofExcept (fun _ equal => equal) (faults.mono fun _ => C.ordinary)

theorem state : C.Holds Action.state C.Sound := by
  intro s sound x t run
  cases run
  exact ⟨sound, same s, .pure sound, .pure s⟩

theorem modify {change : Store → Store} (sound : ∀ s, C.Sound s → C.Sound (change s))
    (turns : ∀ s, C.Turns s (change s)) : C.Holds (Action.modify change) fun _ => True := by
  intro s before x t run
  cases run
  exact ⟨sound s before, turns s, .pure True.intro, .pure ()⟩

theorem record (event : Text) : C.Holds (Action.modify (Store.record event)) fun _ => True :=
  .modify (fun _ sound => sound.congr rfl rfl rfl) fun _ => C.quiet (Nat.le_refl _) rfl

theorem writeIf (flag : Bool) (m : Message) : C.Holds (Action.writeIf flag m) fun _ => True := by
  cases flag with
  | false => exact .pure True.intro
  | true =>
      exact .modify (fun _ sound => sound.congr rfl rfl rfl) fun _ => C.quiet (Nat.le_refl _) rfl

theorem newCell : C.Holds Store.newCell fun _ => True := by
  refine state.bind fun s _ => .bind (.modify ?_ ?_) fun _ _ => .pure True.intro
  · exact fun _ sound => sound.congr rfl rfl rfl
  · exact fun s => C.quiet (Nat.le_succ s.nextCell) rfl

theorem callback {γ : Type} {f : Callback γ} (calls : C.Calls f) (v : Value) :
    C.Holds (f.run v) fun _ => True := by
  have called : C.Holds (Action.ofExcept (f.call v)) fun _ => True :=
    .ofExcept (.trivial _) (calls v)
  unfold Callback.run
  cases f.event with
  | none => exact called
  | some event => exact (Holds.record event).bind fun _ _ => called

end Holds

end Conduct

end Descent
