import Descent.Proofs.Meaning.Building

/-!
Running a parser against its meaning. Main statements: over a consistent store, whatever a run comes
to is what the parser means, and whatever the parser means a run comes to; both leave the store
consistent.
-/

namespace Descent

/-! From runs to meanings. -/

/-- From any consistent store: whatever the first computation comes to, the second comes to with
every amount of fuel from some amount on. -/
def Reflects (scope : Scope) (names : Names) (src : Text) (base : Owners) {α β : Type}
    (A : α → β → Prop) (m : Action Store α) (d : Nat → Action Unit β) : Prop :=
  ∀ owners s, base <+: owners → s.Consistent scope names src owners → ∀ x t, m.run s = some (x, t) →
    ∃ later y k, owners <+: later ∧ t.Consistent scope names src later ∧ Agree A x y ∧
      ∀ i, k ≤ i → (d i).run () = some (y, ())

def Correspondence.reflection (scope : Scope) (names : Names) (src : Text) (base : Owners) :
    Correspondence Nat Store Unit where
  Rel := Reflects scope names src base
  pure related owners s _ consistent x t run := by
    cases run
    exact ⟨owners, _, 0, List.prefix_refl _, consistent, .ok related, fun _ _ => rfl⟩
  bind first next owners s longer consistent x t run := by
    rcases Action.run_bind_eq_some.mp run with ⟨e, failed, rfl⟩ | ⟨a, u, answered, continued⟩
    · obtain ⟨later, y, k, further, kept, agree, settled⟩ :=
        first owners s longer consistent _ _ failed
      cases agree
      exact ⟨later, _, k, further, kept, .error e, fun i enough =>
        Action.run_bind_eq_some.mpr (.inl ⟨e, settled i enough, rfl⟩)⟩
    · obtain ⟨later, y, k, further, kept, agree, settled⟩ :=
        first owners s longer consistent _ _ answered
      cases agree with
      | ok related =>
          obtain ⟨last, z, l, furthest, kept, agree, continued⟩ :=
            next _ _ related later u (longer.trans further) kept _ _ continued
          refine ⟨last, z, max k l, further.trans furthest, kept, agree, fun i enough => ?_⟩
          exact Action.run_bind_eq_some.mpr
            (.inr ⟨_, (), settled i (by omega), continued i (by omega)⟩)
  raise e owners s _ consistent x t run := by
    cases run
    exact ⟨owners, _, 0, List.prefix_refl _, consistent, .error e, fun _ _ => rfl⟩
  exhausted _ _ _ _ _ _ _ run := by cases run

theorem keepTarget_builds {scope : Scope} {names : Names} {src : Text} {owners : Owners}
    {cell : Nat} {g : Grammar} (here : (Parser.lazy cell g).Placed scope owners) :
    Builds scope names src owners (Parser.Tracks scope)
      (do let p ← g.parser; Action.modify (Store.keepTarget cell p); return p)
        (g.planned names) := by
  obtain ⟨owner, -, allowed⟩ := here
  intro s consistent
  obtain ⟨later, r, t, run, longer, kept, agree⟩ := Grammar.parser_builds allowed s consistent
  generalize planned : g.planned names = x at agree
  cases agree with
  | error e =>
      refine ⟨later, .error e, t, ?_, longer, kept, .error e⟩
      rw [Action.run_bind, run]
  | @ok p q tracks =>
      refine ⟨later, .ok p, t.keepTarget cell p, ?_, longer, ?_, .ok tracks⟩
      · rw [Action.run_bind, run]
        rfl
      · refine kept.keepTarget (Owners.getElem?_of_prefix longer owner) tracks.2 ?_
        rw [planned, tracks.1]

section

variable {scope : Scope} {names : Names} {src : Text} {base : Owners}

theorem Reflects.of_builds {α β γ δ : Type} {B : Owners → γ → δ → Prop} {A : α → β → Prop}
    {m : Action Store γ} {x : Except Fault δ} {f : γ → Action Store α} {g : Nat → δ → Action Unit β}
    (builds : ∀ owners, base <+: owners → Builds scope names src owners B m x)
    (next : ∀ later a b, base <+: later → B later a b →
      Reflects scope names src later A (f a) fun i => g i b) :
    Reflects scope names src base A (m >>= f) fun i => Action.ofExcept x >>= g i := by
  intro owners s longer consistent y t run
  obtain ⟨later, r, u, built, further, kept, agree⟩ := builds owners longer s consistent
  rw [Action.run_bind, built] at run
  cases agree with
  | error e =>
      cases run
      exact ⟨later, _, 0, further, kept, .error e, fun _ _ => rfl⟩
  | ok related =>
      obtain ⟨last, z, k, furthest, kept, agree, settled⟩ :=
        next later _ _ (longer.trans further) related later u (List.prefix_refl _) kept y t run
      exact ⟨last, z, k, further.trans furthest, kept, agree, settled⟩

variable {enter : Parser → Matcher Store} {late : Nat → Parser → Matcher Unit}

theorem enter_reflects (alike : ∀ later p, p.All (Parser.Placed scope later) →
      Matcher.Corresponds (.reflection scope names src later) (.identity src) (enter p)
        fun i => late i p.plain) {g : Grammar} (allowed : g.All scope.Allows) :
    Matcher.Corresponds (.reflection scope names src base) (.identity src)
      (Matcher.thenRun do return enter (← g.parser))
      fun i => Matcher.thenRun do return late i (← g.planned names) := by
  intro i j place
  simp only [Matcher.thenRun, bind_assoc, pure_bind]
  refine Reflects.of_builds (fun _ _ => Grammar.parser_builds allowed) ?_
  intro later p _ _ tracks
  obtain ⟨rfl, placed⟩ := tracks
  exact alike later p placed i j place

theorem lazy_reflects (alike : ∀ later p, p.All (Parser.Placed scope later) →
      Matcher.Corresponds (.reflection scope names src later) (.identity src) (enter p)
        fun i => late i p.plain) {cell : Nat} {g : Grammar}
    (here : (Parser.lazy cell g).Placed scope base) :
    Matcher.Corresponds (.reflection scope names src base) (.identity src)
      (Matcher.lazy cell g.parser enter)
      fun i => Matcher.thenRun do return late i (← g.planned names) := by
  intro i j place owners s longer consistent x t run
  simp only [Matcher.lazy, Action.run_bind, Action.run_state] at run
  cases found : s.target? cell with
  | some p =>
      obtain ⟨owner, cellInside, -⟩ := here.mono longer
      obtain ⟨placed, planned⟩ := consistent.target cellInside owner found
      rw [found] at run
      simp only [Matcher.thenRun, planned]
      exact alike owners p placed i j place owners s (List.prefix_refl _) consistent x t run
  | none =>
      rw [found] at run
      -- The parser is kept before it is run: what its run comes back to may find it already.
      have built : Reflects scope names src owners (Alignment.identity src).Outcomes
          ((do let p ← g.parser; Action.modify (Store.keepTarget cell p); return p) >>=
            fun p => enter p src i)
          fun k => Action.ofExcept (g.planned names) >>= fun q => late k q src j := by
        refine Reflects.of_builds (fun later further =>
          keepTarget_builds (here.mono (longer.trans further))) ?_
        intro later p _ _ tracks
        obtain ⟨rfl, placed⟩ := tracks
        exact alike later p placed i j place
      simp only [Matcher.thenRun, bind_assoc, pure_bind]
      apply built owners s (List.prefix_refl _) consistent x t
      simpa only [bind_assoc, pure_bind] using run

theorem memoize_reflects (known : scope.outcomes) {cell : Nat} {trace : Bool}
    {name? : Option Text} {p : Parser} (here : (Parser.memoize cell trace p).Placed scope base)
    {m : Matcher Store} {n : Nat} {q : Nat → Matcher Unit}
    (means : ∀ i, p.meaning names (i + n) = q i)
    (inner : Matcher.Corresponds (.reflection scope names src base) (.identity src) m q) :
    Matcher.Corresponds (.reflection scope names src base) (.identity src)
      (Matcher.memoize cell trace name? m) q := by
  obtain rfl := funext means
  intro pos _ same owners s longer consistent x t run
  subst same
  simp only [Matcher.memoize, Action.run_bind, Action.run_state] at run
  cases found : s.outcomeAt? cell pos with
  | some r =>
      -- The cell has one owner, so the entry is what this parser means, with some fuel or other.
      obtain ⟨owner, cellInside⟩ := here.mono longer
      obtain ⟨q, other, k, means⟩ := consistent.outcomes known cellInside found
      cases owner.symm.trans other
      rw [Parser.meaning_memoize] at means
      have answer : x = .ok r ∧ t.Consistent scope names src owners := by
        rw [found] at run
        cases trace with
        | false =>
            cases run
            exact ⟨rfl, consistent⟩
        | true =>
            cases run
            exact ⟨rfl, consistent.congr rfl⟩
      obtain ⟨rfl, kept⟩ := answer
      exact ⟨owners, .ok r, k, List.prefix_refl _, kept, .ok (Alignment.outcomes_identity_refl r),
        fun i enough => Parser.meaning_mono (by omega) means⟩
  | none =>
      rw [found] at run
      rcases Action.run_bind_eq_some.mp run with ⟨e, failed, rfl⟩ | ⟨r, u, answered, remembered⟩
      · exact inner pos pos rfl owners s longer consistent _ _ failed
      · obtain ⟨later, y, k, further, kept, agree, settled⟩ :=
          inner pos pos rfl owners s longer consistent _ _ answered
        cases remembered
        cases agree with
        | ok related =>
            obtain rfl := Alignment.outcomes_identity related
            refine ⟨later, .ok r, k, further, ?_, .ok related, settled⟩
            refine kept.remember (here.mono (longer.trans further)).1 ?_
            exact ⟨k + n, by rw [Parser.meaning_memoize]; exact settled k (Nat.le_refl k)⟩

theorem Reflects.modify_bind {α β : Type} {A : α → β → Prop} {m : Action Store α}
    {d : Nat → Action Unit β} {change : Store → Store}
    (harmless : ∀ owners s, s.Consistent scope names src owners →
      (change s).Consistent scope names src owners)
    (rest : Reflects scope names src base A m d) :
    Reflects scope names src base A (do Action.modify change; m) d :=
  fun owners s longer consistent => rest owners (change s) longer (harmless owners s consistent)

theorem named_reflects (label : Text) (trace : Bool) {p : Matcher Store} {q : Nat → Matcher Unit}
    (inner : Matcher.Corresponds (.reflection scope names src base) (.identity src) p q) :
    Matcher.Corresponds (.reflection scope names src base) (.identity src)
      (Matcher.named label trace p)
      fun i => Matcher.relabel label (q i) := by
  intro i j place
  have relabelled := Matcher.relabel_corresponds label inner i j place
  cases trace with
  | false => exact relabelled
  | true => exact Reflects.modify_bind (fun _ _ consistent => consistent.congr rfl) relabelled

theorem probe_reflects (event : Text) {p : Matcher Store} {q : Nat → Matcher Unit}
    (inner : Matcher.Corresponds (.reflection scope names src base) (.identity src) p q) :
    Matcher.Corresponds (.reflection scope names src base) (.identity src)
      (Matcher.probe event p) q :=
  fun i j place => Reflects.modify_bind (fun _ _ consistent => consistent.congr rfl)
    (inner i j place)

/-- Whatever a run over a consistent store comes to is what the parser means. -/
theorem Parser.run_reflects (known : scope.outcomes) {n : Nat} {p : Parser}
    (placed : p.All (Parser.Placed scope base)) :
    Matcher.Corresponds (.reflection scope names src base) (.identity src) (p.run n)
      fun i => p.meaning names (i + n) := by
  -- On the fuel. What is built while running owns new cells, so the owners vary with the parser.
  induction n using Nat.strongRecOn generalizing base p with
  | ind n ih =>
      have alike : ∀ later p, p.All (Parser.Placed scope later) →
          Matcher.Corresponds (.reflection scope names src later) (.identity src)
            (Parser.late Parser.run n p)
            fun i => Parser.late (Parser.meaning names) (i + n) p.plain := by
        intro later p placed i j place
        cases n with
        | zero => exact (Correspondence.reflection scope names src later).exhausted _
        | succ n =>
            simp only [Parser.late, Parser.meaning_plain]
            exact ih n (Nat.lt_succ_self n) placed i j place
      simp only [Parser.meaning_eq_matcher, Parser.run_eq_matcher]
      refine Interpretation.Corresponds.matcher ?_ placed
      exact {
        fuel := fun i => Nat.le_add_left n i
        label := fun text => ⟨text, fun _ => rfl, rfl⟩
        call := fun f v owners s _ consistent x t run => by
          obtain ⟨u, called, kept⟩ := f.run_run v consistent
          cases called.symm.trans run
          exact ⟨owners, _, 0, List.prefix_refl _, kept, agree_eq_iff.mpr rfl,
            fun _ _ => Action.run_ofExcept _ _⟩
        regex := fun _ => Matcher.regex_corresponds_identity _
        custom := fun _ => Matcher.custom_corresponds_identity _
        enter := fun here fn member v => enter_reflects alike (here.2 fn member v)
        memoize := fun here inner => memoize_reflects known here
          (fun i => Parser.meaning_eq_matcher names (i + n) _) inner
        lazy := fun here => lazy_reflects alike here
        named := fun label trace _ _ inner => named_reflects label trace inner
        probe := fun event _ _ inner => probe_reflects event inner }

end

/-! From meanings to runs. -/

/-- Whatever the first computation comes to, the second comes to from any consistent store. -/
def Realizes (scope : Scope) (names : Names) (src : Text) (base : Owners) {α β : Type}
    (A : α → β → Prop) (d : Action Unit α) (m : Unit → Action Store β) : Prop :=
  ∀ x, d.run () = some (x, ()) → ∀ owners s, base <+: owners → s.Consistent scope names src owners →
    ∃ later y t, (m ()).run s = some (y, t) ∧ owners <+: later ∧
      t.Consistent scope names src later ∧
      Agree A x y

def Correspondence.realization (scope : Scope) (names : Names) (src : Text) (base : Owners) :
    Correspondence Unit Unit Store where
  Rel := Realizes scope names src base
  pure related x run owners s _ consistent := by
    cases run
    exact ⟨owners, _, s, rfl, List.prefix_refl _, consistent, .ok related⟩
  bind first next x run owners s longer consistent := by
    rcases Action.run_bind_eq_some.mp run with ⟨e, failed, rfl⟩ | ⟨a, ⟨⟩, answered, continued⟩
    · obtain ⟨later, y, t, ended, further, kept, agree⟩ := first _ failed owners s longer consistent
      cases agree
      exact ⟨later, _, t, Action.run_bind_eq_some.mpr (.inl ⟨e, ended, rfl⟩), further, kept,
        .error e⟩
    · obtain ⟨later, y, t, ended, further, kept, agree⟩ :=
        first _ answered owners s longer consistent
      cases agree with
      | ok related =>
          obtain ⟨last, z, u, continued, furthest, kept, agree⟩ :=
            next _ _ related x continued later t (longer.trans further) kept
          exact ⟨last, z, u, Action.run_bind_eq_some.mpr (.inr ⟨_, t, ended, continued⟩),
            further.trans furthest, kept, agree⟩
  raise e x run owners s _ consistent := by
    cases run
    exact ⟨owners, _, s, rfl, List.prefix_refl _, consistent, .error e⟩
  exhausted _ _ run := by cases run

section

variable {scope : Scope} {names : Names} {src : Text} {base : Owners}

theorem Realizes.of_builds {α β γ δ : Type} {B : Owners → γ → δ → Prop} {A : α → β → Prop}
    {m : Action Store γ} {x : Except Fault δ} {f : γ → Action Store β} {g : δ → Action Unit α}
    (builds : ∀ owners, base <+: owners → Builds scope names src owners B m x)
    (next : ∀ later a b, base <+: later → B later a b →
      Realizes scope names src later A (g b) fun _ => f a) :
    Realizes scope names src base A (Action.ofExcept x >>= g) fun _ => m >>= f := by
  intro y run owners s longer consistent
  obtain ⟨later, r, u, built, further, kept, agree⟩ := builds owners longer s consistent
  simp only [Action.run_bind, built]
  cases agree with
  | error e =>
      cases run
      exact ⟨later, _, u, rfl, further, kept, .error e⟩
  | ok related =>
      obtain ⟨last, z, t, ended, furthest, kept, agree⟩ :=
        next later _ _ (longer.trans further) related y run later u (List.prefix_refl _) kept
      exact ⟨last, z, t, ended, further.trans furthest, kept, agree⟩

variable {enter : Parser → Matcher Store} {late : Parser → Matcher Unit}

theorem enter_realizes (alike : ∀ later p, p.All (Parser.Placed scope later) →
      Matcher.Corresponds (.realization scope names src later) (.identity src) (late p.plain)
        fun _ => enter p) {g : Grammar} (allowed : g.All scope.Allows) :
    Matcher.Corresponds (.realization scope names src base) (.identity src)
      (Matcher.thenRun do return late (← g.planned names))
      fun _ => Matcher.thenRun do return enter (← g.parser) := by
  intro i j place
  simp only [Matcher.thenRun, bind_assoc, pure_bind]
  refine Realizes.of_builds (fun _ _ => Grammar.parser_builds allowed) ?_
  intro later p _ _ tracks
  obtain ⟨rfl, placed⟩ := tracks
  exact alike later p placed i j place

theorem lazy_realizes (alike : ∀ later p, p.All (Parser.Placed scope later) →
      Matcher.Corresponds (.realization scope names src later) (.identity src) (late p.plain)
        fun _ => enter p) {cell : Nat} {g : Grammar}
          (here : (Parser.lazy cell g).Placed scope base) :
    Matcher.Corresponds (.realization scope names src base) (.identity src)
      (Matcher.thenRun do return late (← g.planned names))
      fun _ => Matcher.lazy cell g.parser enter := by
  intro i j place x run owners s longer consistent
  simp only [Matcher.lazy, Action.run_bind, Action.run_state]
  cases found : s.target? cell with
  | some p =>
      obtain ⟨owner, cellInside, -⟩ := here.mono longer
      obtain ⟨placed, planned⟩ := consistent.target cellInside owner found
      simp only [Matcher.thenRun, planned] at run
      exact alike owners p placed i j place x run owners s (List.prefix_refl _) consistent
  | none =>
      have built : Realizes scope names src owners (Alignment.identity src).Outcomes
          (Action.ofExcept (g.planned names) >>= fun q => late q src i)
          fun _ => (do let p ← g.parser; Action.modify (Store.keepTarget cell p); return p) >>=
            fun p => enter p src j := by
        refine Realizes.of_builds (fun later further =>
          keepTarget_builds (here.mono (longer.trans further))) ?_
        intro later p _ _ tracks
        obtain ⟨rfl, placed⟩ := tracks
        exact alike later p placed i j place
      simp only [Matcher.thenRun, bind_assoc, pure_bind] at run
      simpa only [bind_assoc, pure_bind] using built x run owners s (List.prefix_refl _) consistent

theorem memoize_realizes (known : scope.outcomes) {cell : Nat} {trace : Bool}
    {name? : Option Text} {p : Parser} (here : (Parser.memoize cell trace p).Placed scope base)
    {m : Matcher Store} {q : Matcher Unit} {n : Nat}
    (means : p.meaning names n = q)
    (inner : Matcher.Corresponds (.realization scope names src base) (.identity src) q fun _ => m) :
    Matcher.Corresponds (.realization scope names src base) (.identity src) q
      fun _ => Matcher.memoize cell trace name? m := by
  subst means
  intro pos _ same x run owners s longer consistent
  subst same
  simp only [Matcher.memoize, Action.run_bind, Action.run_state]
  cases found : s.outcomeAt? cell pos with
  | some r =>
      obtain ⟨owner, cellInside⟩ := here.mono longer
      obtain ⟨q, other, means⟩ := consistent.outcomes known cellInside found
      cases owner.symm.trans other
      obtain rfl : x = .ok r :=
        Parser.Means.unique ⟨n, by rw [Parser.meaning_memoize]; exact run⟩ means
      have agree : Agree (Alignment.identity src).Outcomes (.ok r) (.ok r) :=
        .ok (Alignment.outcomes_identity_refl r)
      cases trace with
      | false => exact ⟨owners, .ok r, s, rfl, List.prefix_refl _, consistent, agree⟩
      | true => exact ⟨owners, .ok r, _, rfl, List.prefix_refl _, consistent.congr rfl, agree⟩
  | none =>
      obtain ⟨later, y, t, ended, further, kept, agree⟩ :=
        inner pos pos rfl x run owners s longer consistent
      cases agree with
      | error e =>
          exact ⟨later, _, t, Action.run_bind_eq_some.mpr (.inl ⟨e, ended, rfl⟩), further, kept,
            .error e⟩
      | ok related =>
          obtain rfl := Alignment.outcomes_identity related
          refine ⟨later, _, _, Action.run_bind_eq_some.mpr (.inr ⟨_, t, ended, rfl⟩), further, ?_,
            .ok related⟩
          refine kept.remember (here.mono (longer.trans further)).1 ?_
          exact ⟨n, by rw [Parser.meaning_memoize]; exact run⟩

theorem Realizes.modify_bind {α β : Type} {A : α → β → Prop} {d : Action Unit α}
    {m : Action Store β} {change : Store → Store}
    (harmless : ∀ owners s, s.Consistent scope names src owners →
      (change s).Consistent scope names src owners)
    (rest : Realizes scope names src base A d fun _ => m) :
    Realizes scope names src base A d fun _ => (do Action.modify change; m) :=
  fun x run owners s longer consistent =>
    rest x run owners (change s) longer (harmless owners s consistent)

theorem named_realizes (label : Text) (trace : Bool) {p : Matcher Unit} {q : Matcher Store}
    (inner : Matcher.Corresponds (.realization scope names src base) (.identity src) p fun _ => q) :
    Matcher.Corresponds (.realization scope names src base) (.identity src)
      (Matcher.relabel label p)
      fun _ => Matcher.named label trace q := by
  intro i j place
  have relabelled := Matcher.relabel_corresponds label inner i j place
  cases trace with
  | false => exact relabelled
  | true => exact Realizes.modify_bind (fun _ _ consistent => consistent.congr rfl) relabelled

theorem probe_realizes (event : Text) {p : Matcher Unit} {q : Matcher Store}
    (inner : Matcher.Corresponds (.realization scope names src base) (.identity src) p fun _ => q) :
    Matcher.Corresponds (.realization scope names src base) (.identity src) p
      fun _ => Matcher.probe event q :=
  fun i j place => Realizes.modify_bind (fun _ _ consistent => consistent.congr rfl)
    (inner i j place)

/-- Whatever a parser means a run over a consistent store comes to, with the same fuel. -/
theorem Parser.run_realizes (known : scope.outcomes) {n : Nat} {p : Parser}
    (placed : p.All (Parser.Placed scope base)) :
    Matcher.Corresponds (.realization scope names src base) (.identity src) (p.meaning names n)
      fun _ => p.run n := by
  induction n using Nat.strongRecOn generalizing base p with
  | ind n ih =>
      have alike : ∀ later p, p.All (Parser.Placed scope later) →
          Matcher.Corresponds (.realization scope names src later) (.identity src)
            (Parser.late (Parser.meaning names) n p.plain) fun _ => Parser.late Parser.run n p := by
        intro later p placed i j place
        cases n with
        | zero => exact (Correspondence.realization scope names src later).exhausted _
        | succ n =>
            simp only [Parser.late, Parser.meaning_plain]
            exact ih n (Nat.lt_succ_self n) placed i j place
      rw [Parser.meaning_eq_matcher, Parser.run_eq_matcher]
      refine Interpretation.Corresponds.matcher ?_ placed
      exact {
        fuel := fun _ => Nat.le_refl n
        label := fun text => ⟨text, fun _ => rfl, rfl⟩
        call := fun f v x run owners s _ consistent => by
          obtain ⟨u, called, kept⟩ := f.run_run v consistent
          cases (Action.run_ofExcept (f.call v) ()).symm.trans run
          exact ⟨owners, _, u, called, List.prefix_refl _, kept, agree_eq_iff.mpr rfl⟩
        regex := fun _ => Matcher.regex_corresponds_identity _
        custom := fun _ => Matcher.custom_corresponds_identity _
        enter := fun here fn member v => enter_realizes alike (here.2 fn member v)
        memoize := fun here inner =>
          memoize_realizes known here (Parser.meaning_eq_matcher names n _) inner
        lazy := fun here => lazy_realizes alike here
        named := fun label trace _ _ inner => named_realizes label trace inner
        probe := fun event _ _ inner => probe_realizes event inner }

end

end Descent
