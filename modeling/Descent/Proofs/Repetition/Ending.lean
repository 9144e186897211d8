import Descent.Proofs.Matcher.Answering
import Descent.Proofs.Nesting.Basic
import Descent.Proofs.Parser.Unbounded

/-!
Repetitions end. A round that does not move on is the last one, and those that move on use up the
text. Main statement: if the items end and do not go back, so does a repetition of them, after one
round for each code point that is left and one or two more.
-/

namespace Descent

namespace Action

variable {σ α β : Type} {I : σ → Prop} {P P' : α → Prop} {Q : β → Prop} {k l limit : Int}

/-- From a state of which `I` holds, it ends in such a state, with a fault or with a result that has
a property. -/
def Finishes (I : σ → Prop) (m : Action σ α) (P : α → Prop) : Prop :=
  ∀ s, I s → ∃ x t, m.run s = some (x, t) ∧ I t ∧ ∀ a, x = .ok a → P a

/-- Also puts on record what it runs, and at most `limit` runs of what is counted. -/
def Spends (I : σ → Prop) (limit : Int) (m : Action (σ × List (Bool × Int)) α) (P : α → Prop) :
    Prop :=
  ∀ s log, I s → ∃ x t runs, m.run (s, log) = some (x, t, log ++ runs) ∧ I t ∧
    (runs.countP Prod.fst : Int) ≤ limit ∧ ∀ a, x = .ok a → P a

namespace Spends

variable {m : Action (σ × List (Bool × Int)) α}

theorem pure {a : α} (holds : P a) (nonneg : 0 ≤ limit) : Spends I limit (Pure.pure a) P := by
  intro s log known
  refine ⟨.ok a, s, [], ?_, known, nonneg, fun b same => ?_⟩
  · rw [List.append_nil]
    rfl
  · cases same
    exact holds

/-- One after the other spend what both spend. -/
theorem bind {f : α → Action (σ × List (Bool × Int)) β} (first : Spends I k m P)
    (next : ∀ a, P a → Spends I l (f a) Q) (nonneg : 0 ≤ l) (enough : k + l ≤ limit) :
    Spends I limit (m >>= f) Q := by
  intro s log known
  obtain ⟨x, t, runs, ran, kept, few, holds⟩ := first s log known
  rw [run_bind, ran]
  cases x with
  | error e => exact ⟨.error e, t, runs, rfl, kept, by omega, nofun⟩
  | ok a =>
      obtain ⟨y, u, others, continued, kept, fewer, holds⟩ :=
        next a (holds a rfl) t (log ++ runs) kept
      refine ⟨y, u, runs ++ others, ?_, kept, ?_, holds⟩
      · rw [← List.append_assoc]
        exact continued
      · rw [List.countP_append, Int.natCast_add]
        omega

theorem mono (spends : Spends I k m P) (less : k ≤ limit) (weaker : ∀ a, P a → P' a) :
    Spends I limit m P' := by
  intro s log known
  obtain ⟨x, t, runs, ran, kept, few, holds⟩ := spends s log known
  exact ⟨x, t, runs, ran, kept, Int.le_trans few less, fun a same => weaker a (holds a same)⟩

end Spends

end Action

/-- A match that ends no further back than at `pos`, and in the text. -/
def Outcome.Onward (src : Text) (pos : Int) : Outcome → Prop
  | .success r => pos ≤ r.pos ∧ r.pos ≤ src.length
  | .failure _ => True

theorem Outcome.Onward.trans {src : Text} {i j : Int} {r : Outcome} (onward : r.Onward src j)
    (further : i ≤ j) :
    r.Onward src i := by
  cases r with
  | success r => exact ⟨Int.le_trans further onward.1, onward.2⟩
  | failure f => exact True.intro

namespace Matcher

variable {σ : Type}

/-- Ends wherever it is run in the text. -/
def Finishes (I : σ → Prop) (p : Matcher σ) (src : Text) : Prop :=
  ∀ i : Int, 0 ≤ i → i ≤ src.length → (p src i).Finishes I fun _ => True

/-- Ends wherever it is run in the text, and does not match backwards or beyond the text. -/
def FinishesOnward (I : σ → Prop) (p : Matcher σ) (src : Text) : Prop :=
  ∀ i : Int, 0 ≤ i → i ≤ src.length → (p src i).Finishes I (Outcome.Onward src i)

/-- As often as it is run, it is counted. -/
theorem noted_spends {I : σ → Prop} {p : Matcher σ} {src : Text} {i : Int} {P : Outcome → Prop}
    (finishes : (p src i).Finishes I P) (counts : Bool) :
    (p.noted counts src i).Spends I (cond counts 1 0) P := by
  intro s log known
  obtain ⟨x, t, ran, kept, holds⟩ := finishes s known
  refine ⟨x, t, [(counts, i)], run_noted ran log, kept, ?_, holds⟩
  cases counts with
  | true => exact Int.le_refl 1
  | false => exact Int.le_refl 0

section

variable {I : σ → Prop} {src : Text} {item : Matcher (σ × List (Bool × Int))} {i : Int} {fuel : Nat}
  (items : ∀ i : Int, 0 ≤ i → i ≤ src.length → (item src i).Spends I 1 (Outcome.Onward src i))

include items

theorem repeatFrom_spends (nonneg : 0 ≤ i) (inside : i ≤ src.length)
    (enough : src.length - i < fuel) (values : List Value) :
    (repeatFrom item src fuel values i).Spends I (src.length - i + 1) fun _ => True := by
  induction fuel generalizing i values with
  | zero => omega
  | succ fuel ih =>
      refine (items i nonneg inside).bind (l := src.length - i) (fun r onward => ?_) (by omega)
        (by omega)
      cases r with
      | failure f => exact .pure True.intro (by omega)
      | success r =>
          obtain ⟨further, within⟩ := onward
          dsimp only
          split
          next => exact .pure True.intro (by omega)
          next moved =>
            -- It does not go back and has moved, so the code points that it leaves pay for the
            -- other rounds.
            exact (ih (by omega) within (by omega) _).mono (by omega) fun _ => id

/-- The first match costs one more, as it may stay where it is. -/
theorem chain_spends {first : Matcher (σ × List (Bool × Int))}
    (opening : (first src i).Spends I 1 (Outcome.Onward src i)) (nonneg : 0 ≤ i)
    (inside : i ≤ src.length) (enough : src.length - i < fuel) :
    (chain fuel first item src i).Spends I (src.length - i + 2) fun _ => True := by
  refine opening.bind (l := src.length - i + 1) (fun r onward => ?_) (by omega) (by omega)
  cases r with
  | failure f => exact .pure True.intro (by omega)
  | success r =>
      obtain ⟨further, within⟩ := onward
      exact (repeatFrom_spends items (by omega) within (by omega) _).mono (by omega) fun _ => id

theorem upToFrom_spends {stop : Matcher (σ × List (Bool × Int))}
    (stops : ∀ i : Int, 0 ≤ i → i ≤ src.length → (stop src i).Spends I 0 fun _ => True)
    (nonneg : 0 ≤ i) (inside : i ≤ src.length) (enough : src.length - i < fuel)
    (values : List Value) :
    (upToFrom stop item src fuel values i).Spends I (src.length - i + 1) fun _ => True := by
  induction fuel generalizing i values with
  | zero => omega
  | succ fuel ih =>
      refine (stops i nonneg inside).bind (l := src.length - i + 1) (fun r _ => ?_) (by omega)
        (by omega)
      cases r with
      | success r => exact .pure True.intro (by omega)
      | failure f =>
          refine (items i nonneg inside).bind (l := src.length - i) (fun r onward => ?_) (by omega)
            (by omega)
          cases r with
          | failure f => exact .pure True.intro (by omega)
          | success r =>
              obtain ⟨further, within⟩ := onward
              dsimp only
              split
              next => exact .pure True.intro (by omega)
              next moved =>
                exact (ih (by omega) within (by omega) _).mono (by omega) fun _ => id

theorem after_spends {lead : Matcher (σ × List (Bool × Int))}
    (leads : (lead src i).Spends I 0 (Outcome.Onward src i)) (nonneg : 0 ≤ i) :
    (after lead item src i).Spends I 1 (Outcome.Onward src i) := by
  rw [after_eq]
  refine leads.bind (l := 1) (fun r onward => ?_) (by omega) (by omega)
  cases r with
  | failure f => exact .pure True.intro (by omega)
  | success r =>
      obtain ⟨further, within⟩ := onward
      exact (items r.pos (by omega) within).mono (by omega) fun _ onward => onward.trans further

end

end Matcher

namespace Correspondence

variable {σ : Type}

/-- The second computation does without the record that the first one keeps. -/
def forgetting (σ ι : Type) : Correspondence Unit (σ × List ι) σ where
  Rel A m n := ∀ s log x t log', m.run (s, log) = some (x, t, log') →
    ∃ y, (n ()).run s = some (y, t) ∧ Agree A x y
  pure related s log x t log' run := by
    cases run
    exact ⟨_, rfl, .ok related⟩
  bind first next s log x t log' run := by
    rcases Action.run_bind_eq_some.mp run with
      ⟨e, failed, rfl⟩ | ⟨a, ⟨u, log''⟩, answered, continued⟩
    · obtain ⟨y, other, agree⟩ := first s log _ t log' failed
      cases agree
      exact ⟨_, Action.run_bind_eq_some.mpr (.inl ⟨e, other, rfl⟩), .error e⟩
    · obtain ⟨y, other, agree⟩ := first s log _ u log'' answered
      cases agree with
      | ok related =>
          obtain ⟨z, otherContinued, result⟩ := next _ _ related u log'' x t log' continued
          exact ⟨z, Action.run_bind_eq_some.mpr (.inr ⟨_, u, other, otherContinued⟩), result⟩
  raise e s log x t log' run := by
    cases run
    exact ⟨_, rfl, .error e⟩
  exhausted n s log x t log' run := by cases run

end Correspondence

namespace Matcher

variable {σ ι : Type} {src : Text}

theorem noted_forgets (i : ι) (p : Matcher σ) :
    Corresponds (.forgetting σ (ι × Int)) (.identity src) (p.noted i) fun _ => p := by
  rintro pos _ rfl s log x t log' ran
  exact ⟨x, (run_noted_eq_some.mp ran).1, Alignment.agree_identity_iff.mpr rfl⟩

theorem prolongs_refl (p : Matcher σ) :
    Corresponds (.prolonging σ) (.identity src) p fun _ => p := by
  rintro pos _ rfl s x t ran
  exact ⟨x, ran, Alignment.agree_identity_iff.mpr rfl⟩

theorem noted_settles {p : Matcher σ} {q : Nat → Matcher σ} (i : ι)
    (settles : Corresponds (.limit σ) (.identity src) p q) :
    Corresponds (.limit (σ × List (ι × Int))) (.identity src) (p.noted i) fun k =>
      (q k).noted i := by
  rintro pos _ rfl ⟨s, log⟩ x ⟨t, log'⟩ ran
  obtain ⟨plain, rfl⟩ := run_noted_eq_some.mp ran
  obtain ⟨y, k, agree, settled⟩ := settles pos pos rfl s x t plain
  exact ⟨y, k, agree, fun n enough => run_noted (settled n enough) log⟩

end Matcher

theorem Parser.unbounded_finishes {p : Parser} {src : Text} {i : Int} {I : Store → Prop}
    {P : Outcome → Prop} (fuel : Nat) (finishes : (p.run fuel src i).Finishes I P) :
    (p.unbounded src i).Finishes I P := by
  intro s known
  obtain ⟨x, t, ran, kept, holds⟩ := finishes s known
  exact ⟨x, t, unbounded_run_eq_some.mpr ⟨fuel, ran⟩, kept, holds⟩

/-- The repetitions of an item. Two of them need something besides: a stop or a separator. -/
inductive Repetition where
  | many
  | many1
  | upTo
  | sepBy

namespace Repetition

variable {σ : Type}

def matcher (fuel : Nat) (item aid : Matcher σ) : Repetition → Matcher σ
  | .many => Matcher.many fuel item
  | .many1 => Matcher.many1 fuel item
  | .upTo => Matcher.upTo fuel aid item
  | .sepBy => Matcher.sepBy fuel aid item

def parser (item aid : Parser) : Repetition → Parser
  | .many => .many item
  | .many1 => .many1 item
  | .upTo => .upTo aid item
  | .sepBy => .sepBy aid item

/-- How many rounds there may be besides one for each code point. -/
def spare : Repetition → Int
  | .many | .upTo => 1
  | .many1 | .sepBy => 2

/-- What has to hold of the stop or of the separator, if there is one. -/
def Aided (I : σ → Prop) (aid : Matcher σ) (src : Text) : Repetition → Prop
  | .many | .many1 => True
  | .upTo => aid.Finishes I src
  | .sepBy => aid.FinishesOnward I src

theorem spends (repetition : Repetition) {I : σ → Prop} {item aid : Matcher σ} {src : Text}
    {i : Int} {fuel : Nat} (items : item.FinishesOnward I src) (aids : repetition.Aided I aid src)
    (nonneg : 0 ≤ i) (inside : i ≤ src.length) (enough : src.length - i < fuel) :
    (repetition.matcher fuel (item.noted true) (aid.noted false) src i).Spends
      I (src.length - i + repetition.spare)
      fun _ => True := by
  have counted (i : Int) (nonneg : 0 ≤ i) (inside : i ≤ src.length) :=
    Matcher.noted_spends (items i nonneg inside) true
  cases repetition with
  | many => exact Matcher.repeatFrom_spends counted nonneg inside enough []
  | many1 => exact Matcher.chain_spends counted (counted i nonneg inside) nonneg inside enough
  | upTo =>
      refine Matcher.upToFrom_spends counted (fun i nonneg inside => ?_) nonneg inside enough []
      exact Matcher.noted_spends (aids i nonneg inside) false
  | sepBy =>
      refine Matcher.chain_spends (fun i nonneg inside => ?_)
        (counted i nonneg inside) nonneg inside enough
      exact Matcher.after_spends counted (Matcher.noted_spends (aids i nonneg inside) false) nonneg

theorem corresponds (repetition : Repetition) (src : Text) {ι σ τ : Type} {K : Correspondence ι σ τ}
    {p p' : Matcher σ} {q q' : ι → Matcher τ} {fuel : Nat} {fuel' : ι → Nat}
    (item : Matcher.Corresponds K (.identity src) p q)
    (aid : Matcher.Corresponds K (.identity src) p' q') (enough : ∀ x, fuel ≤ fuel' x) :
    Matcher.Corresponds K (.identity src) (repetition.matcher fuel p p')
      fun x => repetition.matcher (fuel' x) (q x) (q' x) := by
  cases repetition with
  | many => exact Matcher.many_corresponds item enough
  | many1 => exact Matcher.chain_corresponds item item enough
  | upTo => exact Matcher.upTo_corresponds aid item enough
  | sepBy => exact Matcher.chain_corresponds item (Matcher.after_corresponds aid item) enough

theorem run_eq (repetition : Repetition) (fuel : Nat) (item aid : Parser) :
    (repetition.parser item aid).run fuel = repetition.matcher fuel (item.run fuel)
      (aid.run fuel) := by
  cases fuel <;> cases repetition <;> rfl

/-- With some fuel it ends so, after at most `limit` runs of the item. -/
def EndsWithin (repetition : Repetition) (limit : Int) (fuel : Nat) (item aid : Matcher σ)
    (src : Text) (pos : Int) (s : σ) (x : Except Fault Outcome) (t : σ) : Prop :=
  (repetition.matcher fuel item aid src pos).run s = some (x, t) ∧
    ∃ runs : List (Bool × Int), (runs.countP Prod.fst : Int) ≤ limit ∧
      (repetition.matcher fuel (item.noted true) (aid.noted false) src pos).run (s, []) =
        some (x, t, runs)

variable {I : σ → Prop} {src : Text} {pos : Int}

theorem endsWithin (repetition : Repetition) {item aid : Matcher σ}
    (items : item.FinishesOnward I src) (aids : repetition.Aided I aid src) (nonneg : 0 ≤ pos)
    (inside : pos ≤ src.length) {s : σ} (known : I s) :
    ∃ x t, I t ∧ ∀ fuel : Nat, src.length - pos < fuel →
      repetition.EndsWithin (src.length - pos + repetition.spare) fuel item aid src pos s x t := by
  obtain ⟨least, measured⟩ := Int.eq_ofNat_of_zero_le (show 0 ≤ src.length - pos by omega)
  have enough : src.length - pos < ((least + 1 : Nat) : Int) := by omega
  obtain ⟨x, t, runs, ran, kept, few, -⟩ :=
    repetition.spends items aids nonneg inside enough s [] known
  refine ⟨x, t, kept, fun fuel enough => ?_⟩
  have more : least + 1 ≤ fuel := by omega
  have forgets :=
    repetition.corresponds src (Matcher.noted_forgets true item) (Matcher.noted_forgets false aid)
    fun _ => more
  have prolongs := repetition.corresponds src (Matcher.prolongs_refl (item.noted true))
    (Matcher.prolongs_refl (aid.noted false)) fun _ => more
  obtain ⟨y, plain, agree⟩ := forgets pos pos rfl s [] x t _ ran
  obtain rfl := Alignment.agree_identity_iff.mp agree
  exact ⟨plain, runs, few, prolongs.prolongs ran⟩

theorem limit_endsWithin (repetition : Repetition) {item aid : Parser} {bound : Int} {fuel : Nat}
    {s t : Store} {x : Except Fault Outcome}
    (ended : repetition.EndsWithin bound fuel item.unbounded aid.unbounded src pos s x t) :
    ∃ k, ∀ n, k ≤ n → repetition.EndsWithin bound n (item.run n) (aid.run n) src pos s x t := by
  obtain ⟨plain, runs, few, counted⟩ := ended
  have settles :=
    repetition.corresponds src (item.unbounded_corresponds fuel) (aid.unbounded_corresponds fuel)
    fun i => Nat.le_add_right fuel i
  have settlesNoted :=
    repetition.corresponds src (Matcher.noted_settles true (item.unbounded_corresponds fuel))
    (Matcher.noted_settles false (aid.unbounded_corresponds fuel)) fun i => Nat.le_add_right fuel i
  obtain ⟨_, k, same, settled⟩ := settles pos pos rfl s x t plain
  obtain ⟨_, l, sameNoted, settledNoted⟩ := settlesNoted pos pos rfl (s, []) x (t, runs) counted
  obtain rfl := Alignment.agree_identity_iff.mp same
  obtain rfl := Alignment.agree_identity_iff.mp sameNoted
  refine ⟨fuel + (k + l), fun n enough => ?_⟩
  obtain ⟨i, rfl⟩ := Nat.exists_eq_add_of_le (Nat.le_trans (Nat.le_add_right fuel _) enough)
  exact ⟨settled i (by omega), runs, few, settledNoted i (by omega)⟩

/-- Every repetition comes to an end, of whatever matchers it is and of whatever parsers. It does
not matter if its stop never matches, or if its items do not move on. -/
theorem always_ends (repetition : Repetition) (src : Text) (pos : Int) (nonneg : 0 ≤ pos)
    (inside : pos ≤ src.length) :
    (∀ (σ : Type) (I : σ → Prop) (item aid : Matcher σ), item.FinishesOnward I src →
      repetition.Aided I aid src →
      ∀ s, I s → ∃ x t, I t ∧ ∀ fuel : Nat, src.length - pos < fuel →
        repetition.EndsWithin (src.length - pos + repetition.spare) fuel item aid src pos s x t) ∧
    ∀ (I : Store → Prop) (item aid : Parser), item.unbounded.FinishesOnward I src →
      repetition.Aided I aid.unbounded src → ∀ s, I s → ∃ x t, I t ∧ ∃ k, ∀ fuel, k ≤ fuel →
        ((repetition.parser item aid).run fuel src pos).run s = some (x, t) ∧
        repetition.EndsWithin (src.length - pos + repetition.spare) fuel (item.run fuel)
          (aid.run fuel) src pos
          s x t := by
  refine ⟨fun σ I item aid items aids s known =>
    repetition.endsWithin items aids nonneg inside known, ?_⟩
  intro I item aid items aids s known
  obtain ⟨x, t, kept, ends⟩ := repetition.endsWithin items aids nonneg inside known
  obtain ⟨fuel, enough⟩ : ∃ fuel : Nat, src.length - pos < fuel :=
    ⟨(src.length - pos).toNat + 1, by omega⟩
  obtain ⟨k, settled⟩ := repetition.limit_endsWithin (ends fuel enough)
  refine ⟨x, t, kept, k, fun n more => ⟨?_, settled n more⟩⟩
  rw [run_eq]
  exact (settled n more).1

/-- Items that stay where they are in the end, and a stop that never matches. -/
theorem always_ends_unstopped :
    let src : Text := ['a', 'b']
    let item : Matcher Unit := Matcher.optional (Matcher.char 'a')
    (∃ x t, ∀ fuel : Nat, 2 < fuel →
      upTo.EndsWithin 3 fuel item (Matcher.fail ['s']) src 0 () x t) ∧
      ∃ x t k, ∀ fuel, k ≤ fuel →
        ((upTo.parser (.alt [.char 'a', .succeed .none]) (.fail ['s'])).run fuel src 0).run .empty =
          some (x, t) := by
  intro src item
  have onward (σ : Type) :
      (Matcher.optional (Matcher.char 'a')).FinishesOnward (fun _ : σ => True) src := by
    intro i nonneg inside s known
    change i ≤ 2 at inside
    obtain rfl | rfl | rfl : i = 0 ∨ i = 1 ∨ i = 2 := by omega
    all_goals
      refine ⟨_, _, rfl, known, fun a same => ?_⟩
      cases same
      exact ⟨by decide, by decide⟩
  have failing (σ : Type) : (Matcher.fail ['s']).Finishes (fun _ : σ => True) src :=
    fun i _ _ s known => ⟨_, _, rfl, known, fun _ _ => True.intro⟩
  obtain ⟨matchers, parsers⟩ := always_ends upTo src 0 (by decide) (by decide)
  constructor
  · obtain ⟨x, t, -, ends⟩ :=
      matchers Unit (fun _ => True) item _ (onward Unit) (failing Unit) () True.intro
    exact ⟨x, t, fun fuel enough => ends fuel (Int.ofNat_lt.mpr enough)⟩
  · obtain ⟨x, t, -, k, ends⟩ :=
      parsers (fun _ => True) (.alt [.char 'a', .succeed .none]) (.fail ['s'])
      (fun i nonneg inside => Parser.unbounded_finishes 0 (onward Store i nonneg inside))
      (fun i nonneg inside => Parser.unbounded_finishes 0 (failing Store i nonneg inside)) .empty
        True.intro
    exact ⟨x, t, k, fun fuel enough => (ends fuel enough).1⟩

end Repetition

end Descent
