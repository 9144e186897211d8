import Descent.Proofs.Memoization.History
import Descent.Proofs.Parser.Frame

/-!
Watching memories: parsers can be run in a way that puts each use of a memory on record. Main
statement: that is how they run otherwise, and what is on record is a history.
-/

namespace Descent

/-- A store, and how its memories were used so far. -/
structure Watched where
  store : Store
  visits : List Visit

namespace Action

variable {α : Type}

/-- Does the same, and puts nothing on record. -/
def watched (m : Action Store α) : Action Watched α := fun w =>
  (m.run w.store).map fun (x, t) => (x, ⟨t, w.visits⟩)

/-- Does the same, and keeps no record. -/
def unwatched (m : Action Watched α) : Action Store α := fun s =>
  (m.run ⟨s, []⟩).map fun (x, w) => (x, w.store)

/-- What is put on record from a store on. -/
def visits (m : Action Watched α) (s : Store) : List Visit :=
  match m.run ⟨s, []⟩ with
  | some (_, w) => w.visits
  | none => []

theorem run_watched {m : Action Store α} {s t : Store} {x : Except Fault α}
    (ran : m.run s = some (x, t)) (l : List Visit) : m.watched.run ⟨s, l⟩ = some (x, ⟨t, l⟩) := by
  change (m.run s).map _ = _
  rw [ran]
  rfl

theorem run_watched_eq_some {m : Action Store α} {w u : Watched} {x : Except Fault α}
    (ran : m.watched.run w = some (x, u)) :
    m.run w.store = some (x, u.store) ∧ u.visits = w.visits := by
  obtain ⟨⟨y, t⟩, alone, ended⟩ := Option.map_eq_some_iff.mp ran
  cases ended
  exact ⟨alone, rfl⟩

theorem run_unwatched {m : Action Watched α} {s : Store} {u : Watched} {x : Except Fault α}
    (ran : m.run ⟨s, []⟩ = some (x, u)) :
    m.unwatched.run s = some (x, u.store) ∧ m.visits s = u.visits := by
  constructor
  · change (m.run ⟨s, []⟩).map _ = _
    rw [ran]
    rfl
  · rw [visits, ran]

end Action

/-! Running with a record. -/

/-- Answers from memory as ever, and puts that on record, after what was put on record in the course
of it. -/
def Matcher.recorded (cell : Nat) (trace : Bool) (name? : Option Text) (p : Matcher Watched) :
    Matcher Watched := fun src pos => fun w =>
  let inner : Matcher Store := fun src pos => (p src pos).unwatched
  let inside : List Visit :=
    match w.store.outcomeAt? cell pos with
    | some _ => []
    | none => (p src pos).visits w.store
  ((Matcher.memoize cell trace name? inner src pos).run w.store).map fun (x, t) =>
    (x, ⟨t, w.visits ++ (inside ++
      [⟨cell, trace, name?, inner, src, pos, w.store, x, t, inside.map Visit.place⟩])⟩)

namespace Interpretation

def watching (enter : Parser → Matcher Watched) (fuel : Nat) : Interpretation Watched where
  fuel := fuel
  label := id
  call f v := (f.run v).watched
  enter g := do return enter (← g.parser.watched)
  memoize := Matcher.recorded
  lazy cell g := fun src pos => do
    match (← Action.state.watched).target? cell with
    | some p => enter p src pos
    | none =>
      let p ← g.parser.watched
      (Action.modify (Store.keepTarget cell p)).watched
      enter p src pos
  named label trace p := fun src pos => do
    (Action.writeIf trace (.trying label pos)).watched
    Matcher.relabel label p src pos
  probe event p := fun src pos => do
    (Action.modify (Store.record (event ++ Text.ofString "@" ++ Numeral.decimal pos))).watched
    p src pos

end Interpretation

namespace Parser

/-- Runs a parser, and puts the uses of memories on record. -/
def watch : Nat → Parser → Matcher Watched
  | 0 => (Interpretation.watching (fun _ _ _ => Action.exhausted) 0).matcher
  | fuel + 1 => (Interpretation.watching (watch fuel) (fuel + 1)).matcher

theorem watch_eq_matcher (fuel : Nat) (p : Parser) :
    p.watch fuel = (Interpretation.watching (late watch fuel) fuel).matcher p := by
  cases fuel <;> rfl

end Parser

/-! From running with a record to running. -/

/-- Whatever the first computation comes to, the second comes to without a record. -/
def Erases {α β : Type} (A : α → β → Prop) (m : Action Watched α) (n : Action Store β) : Prop :=
  ∀ w x u, m.run w = some (x, u) → ∃ y, Agree A x y ∧ n.run w.store = some (y, u.store)

namespace Erases

variable {α β γ δ : Type} {A : α → β → Prop} {B : γ → δ → Prop}

theorem pure {a : α} {b : β} (related : A a b) : Erases A (Pure.pure a) (Pure.pure b) := by
  intro w x u run
  cases run
  exact ⟨_, .ok related, rfl⟩

theorem bind {m : Action Watched α} {n : Action Store β} {f : α → Action Watched γ}
    {g : β → Action Store δ} (first : Erases A m n) (next : ∀ a b, A a b → Erases B (f a) (g b)) :
    Erases B (m >>= f) (n >>= g) := by
  intro w x u run
  rcases Action.run_bind_eq_some.mp run with ⟨e, failed, rfl⟩ | ⟨a, v, answered, continued⟩
  · obtain ⟨y, agree, alone⟩ := first w _ u failed
    cases agree
    exact ⟨_, .error e, Action.run_bind_eq_some.mpr (.inl ⟨e, alone, rfl⟩)⟩
  · obtain ⟨y, agree, alone⟩ := first w _ v answered
    cases agree with
    | ok related =>
        obtain ⟨z, agree, further⟩ := next _ _ related v x u continued
        exact ⟨z, agree, Action.run_bind_eq_some.mpr (.inr ⟨_, _, alone, further⟩)⟩

theorem watched (m : Action Store α) : Erases Eq m.watched m := by
  intro w x u run
  exact ⟨x, agree_eq_iff.mpr rfl, (Action.run_watched_eq_some run).1⟩

end Erases

def Correspondence.erasing : Correspondence Unit Watched Store where
  Rel A m n := Erases A m (n ())
  pure related := .pure related
  bind first next := Erases.bind first next
  raise e w x u run := by
    cases run
    exact ⟨_, .error e, rfl⟩
  exhausted n w x u run := by cases run

section

variable {src : Text} {enter : Parser → Matcher Watched} {enter' : Parser → Matcher Store}

theorem recorded_erases (cell : Nat) (trace : Bool) (name? : Option Text) {p : Matcher Watched}
    {q : Matcher Store} (inner : Matcher.Corresponds .erasing (.identity src) p fun _ => q) :
    Matcher.Corresponds .erasing (.identity src) (Matcher.recorded cell trace name? p)
      fun _ => Matcher.memoize cell trace name? q := by
  intro i j place w x u run
  obtain rfl := place
  obtain ⟨⟨y, t⟩, ran, ended⟩ := Option.map_eq_some_iff.mp run
  cases ended
  refine ⟨x, Alignment.agree_identity_iff.mpr rfl, ?_⟩
  cases found : w.store.outcomeAt? cell i with
  | some r =>
      rw [Matcher.run_memoize_found found] at ran ⊢
      exact ran
  | none =>
      rw [Matcher.run_memoize_missing found] at ran ⊢
      obtain ⟨⟨y, v⟩, alone, ended⟩ := Option.map_eq_some_iff.mp ran
      obtain ⟨⟨z, v'⟩, watched, same⟩ := Option.map_eq_some_iff.mp alone
      cases same
      obtain ⟨y', agree, plain⟩ := inner i i rfl ⟨w.store, []⟩ y v' watched
      obtain rfl := Alignment.agree_identity_iff.mp agree
      rw [plain]
      exact congrArg some ended

variable (later : ∀ p, Matcher.Corresponds .erasing (.identity src) (enter p) fun _ => enter' p)

include later

theorem watching_erases (n : Nat) (p : Parser) :
    Matcher.Corresponds .erasing (.identity src) ((Interpretation.watching enter n).matcher p)
      fun _ => (Interpretation.ofStore enter' n).matcher p := by
  have same {α : Type} (m : Action Store α) := Erases.watched m
  refine Interpretation.Corresponds.matcher ?_ p.all_true
  exact {
    fuel := fun _ => Nat.le_refl n
    label := fun text => ⟨text, fun _ => rfl, rfl⟩
    call := fun f v => same (f.run v)
    regex := fun _ => Matcher.regex_corresponds_identity _
    custom := fun _ => Matcher.custom_corresponds_identity _
    enter := fun _ g _ v i j place => by
      simp only [Matcher.thenRun, Interpretation.watching, Interpretation.ofStore, bind_assoc,
        pure_bind]
      refine (same (g v).parser).bind fun p _ equal => ?_
      cases equal
      exact later p i j place
    memoize := fun _ inner => recorded_erases _ _ _ inner
    lazy := fun {cell g} _ i j place => by
      refine (same Action.state).bind fun s _ equal => ?_
      cases equal
      cases s.target? cell with
      | some p => exact later p i j place
      | none =>
          refine (same g.parser).bind fun p _ equal => ?_
          cases equal
          exact (same _).bind fun _ _ _ => later p i j place
    named := fun label trace p q inner i j place => by
      simp only [Interpretation.watching, Interpretation.ofStore, Matcher.named_eq]
      cases place
      exact (same _).bind fun _ _ _ => Matcher.relabel_corresponds label inner i i rfl
    probe := fun event p q inner i j place => by
      cases place
      exact (same _).bind fun _ _ _ => inner i i rfl }

end

theorem Parser.watch_erases {src : Text} (n : Nat) (p : Parser) :
    Matcher.Corresponds .erasing (.identity src) (p.watch n) fun _ => p.run n := by
  induction n generalizing p with
  | zero =>
      rw [watch_eq_matcher, run_eq_matcher]
      exact watching_erases (fun _ _ _ _ => Correspondence.erasing.exhausted _) 0 p
  | succ n ih =>
      rw [watch_eq_matcher, run_eq_matcher]
      exact watching_erases ih (n + 1) p

/-! From running to running with a record. -/

namespace Action.Keeps

theorem outcomes {α : Type} {m : Action Store α} (keeps : m.Keeps Store.memory) :
    m.Keeps Store.outcomes :=
  fun s x t run => congrArg (fun memory => memory.2.1) (keeps s x t run)

theorem writeIf (flag : Bool) (m : Message) : (Action.writeIf flag m).Keeps Store.outcomes := by
  intro s x t run
  rw [Action.run_writeIf] at run
  cases run
  rfl

theorem callback {α : Type} (f : Callback α) (v : Value) : (f.run v).Keeps Store.outcomes := by
  have called : Action.Keeps Store.outcomes (Action.ofExcept (f.call v)) := .ofExcept _
  unfold Callback.run
  cases f.event with
  | none => exact called
  | some event =>
      have noted : Action.Keeps Store.outcomes (Action.modify (Store.record event)) :=
        .modify fun _ => rfl
      exact noted.bind fun _ => called

end Action.Keeps

/-- The parser that a memory was used around. -/
def Visit.Around (v : Visit) (p : Parser) (n : Nat) : Prop :=
  v.name? = p.name? ∧ v.inner v.src v.pos = p.run n v.src v.pos

/-- Whatever the first computation comes to, the second comes to with a record of it. -/
def Records {α β : Type} (A : α → β → Prop) (m : Action Store α) (n : Action Watched β) : Prop :=
  ∀ s x t, m.run s = some (x, t) → ∃ y visits, Agree A x y ∧ History s visits t ∧
    (∀ v ∈ visits, ∃ p n, v.Around p n) ∧ ∀ l, n.run ⟨s, l⟩ = some (y, ⟨t, l ++ visits⟩)

namespace Records

variable {α β γ δ : Type} {A : α → β → Prop} {B : γ → δ → Prop}

theorem pure {a : α} {b : β} (related : A a b) : Records A (Pure.pure a) (Pure.pure b) := by
  intro s x t run
  cases run
  exact ⟨_, [], .ok related, .still rfl, List.forall_mem_nil _,
    fun l => by rw [List.append_nil]; rfl⟩

theorem bind {m : Action Store α} {n : Action Watched β} {f : α → Action Store γ}
    {g : β → Action Watched δ} (first : Records A m n)
    (next : ∀ a b, A a b → Records B (f a) (g b)) :
    Records B (m >>= f) (n >>= g) := by
  intro s x t run
  rcases Action.run_bind_eq_some.mp run with ⟨e, failed, rfl⟩ | ⟨a, u, answered, continued⟩
  · obtain ⟨y, visits, agree, history, around, watched⟩ := first s _ t failed
    cases agree
    refine ⟨_, visits, .error e, history, around, fun l => ?_⟩
    exact Action.run_bind_eq_some.mpr (.inl ⟨e, watched l, rfl⟩)
  · obtain ⟨y, visits, agree, history, around, watched⟩ := first s _ u answered
    cases agree with
    | ok related =>
        obtain ⟨z, others, agree, later, around', watched'⟩ := next _ _ related u x t continued
        refine ⟨z, visits ++ others, agree, history.append later, ?_, fun l => ?_⟩
        · exact List.forall_mem_append.mpr ⟨around, around'⟩
        · rw [← List.append_assoc]
          exact Action.run_bind_eq_some.mpr (.inr ⟨_, _, watched l, watched' (l ++ visits)⟩)

theorem watched {m : Action Store α} (keeps : m.Keeps Store.outcomes) : Records Eq m m.watched := by
  intro s x t run
  refine ⟨x, [], agree_eq_iff.mpr rfl, .still (keeps s x t run), List.forall_mem_nil _, fun l => ?_⟩
  rw [List.append_nil, Action.run_watched run]

theorem modify {change : Store → Store} (same : ∀ s, (change s).outcomes = s.outcomes) :
    Records Eq (Action.modify change) (Action.modify change).watched :=
  .watched (.modify same)

theorem parser (g : Grammar) : Records Eq g.parser g.parser.watched :=
  .watched g.parser_keeps.outcomes

end Records

def Correspondence.recording : Correspondence Unit Store Watched where
  Rel A m n := Records A m (n ())
  pure related := .pure related
  bind first next := Records.bind first next
  raise e s x t run := by
    cases run
    exact ⟨_, [], .error e, .still rfl, List.forall_mem_nil _,
      fun l => by rw [List.append_nil]; rfl⟩
  exhausted n s x t run := by cases run

namespace Parser

variable {src : Text} {n : Nat} {p : Parser}

theorem unwatched_watch
    (inner : Matcher.Corresponds .recording (.identity src) (p.run n) fun _ => p.watch n)
    (pos : Int) :
    (p.watch n src pos).unwatched = p.run n src pos := by
  refine Action.ext fun s => ?_
  cases ran : (p.run n src pos).run s with
  | none =>
      refine Option.eq_none_iff_forall_ne_some.mpr fun ⟨x, t⟩ watched => ?_
      obtain ⟨⟨y, w⟩, watched, -⟩ := Option.map_eq_some_iff.mp watched
      obtain ⟨z, -, ran'⟩ := watch_erases n p pos pos rfl _ y w watched
      cases ran.symm.trans ran'
  | some result =>
      obtain ⟨x, t⟩ := result
      obtain ⟨y, visits, agree, -, -, watched⟩ := inner pos pos rfl s x t ran
      obtain rfl := Alignment.agree_identity_iff.mp agree
      exact (Action.run_unwatched (watched [])).1

theorem memoize_records
    (inner : Matcher.Corresponds .recording (.identity src) (p.run n) fun _ => p.watch n)
    (cell : Nat) (trace : Bool) :
    Matcher.Corresponds .recording (.identity src) (Matcher.memoize cell trace p.name? (p.run n))
      fun _ => Matcher.recorded cell trace p.name? (p.watch n) := by
  intro i j place s x t run
  obtain rfl := place
  have same : (p.watch n src i).unwatched = p.run n src i := unwatched_watch inner i
  have ran :
      (Matcher.memoize cell trace p.name?
        (fun src pos => (p.watch n src pos).unwatched) src i).run s = some (x, t) := by
    rw [Matcher.memoize_eq, same, ← Matcher.memoize_eq, run]
  -- The use of this memory, after those in the course of it.
  let v (inside : List Visit) : Visit :=
    ⟨cell, trace, p.name?, fun src pos => (p.watch n src pos).unwatched, src, i, s, x, t,
      inside.map Visit.place⟩
  have asked (inside : List Visit) : (v inside).Asked := ran
  have around (inside : List Visit) : (v inside).Around p n := ⟨rfl, same⟩
  have results : Agree (Alignment.identity src).Outcomes x x := Alignment.agree_identity_iff.mpr rfl
  cases found : s.outcomeAt? cell i with
  | some r =>
      refine ⟨x, [v []], results, .reuse (asked []) found rfl,
        by simpa using ⟨p, n, around []⟩, fun l => ?_⟩
      refine Option.map_eq_some_iff.mpr ⟨(x, t), ran, ?_⟩
      simp only [found]
      rfl
  | none =>
      rcases Matcher.run_memoize_cases run with ⟨r, -, known, -⟩ | ⟨-, u, alone, -⟩
      · cases found.symm.trans known
      obtain ⟨z, visits, agree, history, others, watched⟩ := inner i i rfl s x u alone
      rw [← same] at alone
      refine ⟨x, visits ++ [v visits], results, .compute (asked visits) found alone history rfl, ?_,
        ?_⟩
      · exact List.forall_mem_append.mpr ⟨others, by simpa using ⟨p, n, around visits⟩⟩
      · intro l
        refine Option.map_eq_some_iff.mpr ⟨(x, t), ran, ?_⟩
        simp only [found, (Action.run_unwatched (watched [])).2]
        rfl

theorem watching_records (later : ∀ p, Matcher.Corresponds .recording (.identity src)
      (late Parser.run n p) fun _ => late watch n p) (p : Parser) :
    Matcher.Corresponds .recording (.identity src) (p.run n) fun _ => p.watch n := by
  rw [run_eq_matcher, watch_eq_matcher]
  refine Interpretation.Corresponds.matcher ?_ p.all_true
  exact {
    fuel := fun _ => Nat.le_refl n
    label := fun text => ⟨text, fun _ => rfl, rfl⟩
    call := fun f v => .watched (.callback f v)
    regex := fun _ => Matcher.regex_corresponds_identity _
    custom := fun _ => Matcher.custom_corresponds_identity _
    enter := fun _ g _ v i j place => by
      simp only [Matcher.thenRun, Interpretation.watching, Interpretation.ofStore, bind_assoc,
        pure_bind]
      refine (Records.parser (g v)).bind fun p _ equal => ?_
      cases equal
      exact later p i j place
    memoize := fun {cell trace p} _ inner => by
      simp only [← run_eq_matcher, ← watch_eq_matcher] at inner ⊢
      exact memoize_records inner cell trace
    lazy := fun {cell g} _ i j place => by
      refine (Records.watched .state).bind fun s _ equal => ?_
      cases equal
      cases s.target? cell with
      | some p => exact later p i j place
      | none =>
          refine (Records.parser g).bind fun p _ equal => ?_
          cases equal
          refine Records.bind (.modify ?_) fun _ _ _ => later p i j place
          exact fun _ => rfl
    named := fun label trace p q inner i j place => by
      simp only [Interpretation.watching, Interpretation.ofStore, Matcher.named_eq]
      cases place
      exact (Records.watched (.writeIf trace _)).bind fun _ _ _ =>
        Matcher.relabel_corresponds label inner i i rfl
    probe := fun event p q inner i j place => by
      cases place
      refine Records.bind (.modify ?_) fun _ _ _ => inner i i rfl
      exact fun _ => rfl }

/-- A run comes to the same with a record, and the record is a history. -/
theorem watch_records (n : Nat) (p : Parser) :
    Matcher.Corresponds .recording (.identity src) (p.run n) fun _ => p.watch n := by
  induction n generalizing p with
  | zero => exact watching_records (fun _ _ _ _ => Correspondence.recording.exhausted _) p
  | succ n ih => exact watching_records ih p

end Parser

end Descent
