import Mathlib.Data.List.Forall2
import Descent.Proofs.Chaining.Basic
import Descent.Proofs.Contract.Guarantee
import Descent.Proofs.Matcher.Stretch
import Descent.Proofs.Regex.Bounds

/-!
Contracts of matchers. A matcher meets a specification if it keeps within the text and every match,
from where to where it is, has a value as specified. Every way to put matchers together has a rule
that says which specification the whole meets if the parts meet theirs.
-/

namespace Descent

/-- Which values a match may have, by where it begins and where it ends. -/
abbrev Spec := Nat → Nat → Value → Prop

/-- What an outcome of a matcher that was run from a position is to be. A failure expects
something. -/
inductive Outcome.Meets (src : Text) (S : Spec) (i : Nat) : Outcome → Prop
  | matched {v : Value} {j : Nat} (onward : i ≤ j) (inside : j ≤ src.length) (value : S i j v) :
      Meets src S i (.matched v j)
  | failed {labels : List Text} {pos : Int} (nonempty : labels ≠ []) :
      Meets src S i (.failure ⟨labels, pos⟩)

/-- A matcher that is run within the text answers as specified. -/
def Matcher.Meets (G : Guarantee) (src : Text) (S : Spec) (m : Matcher Unit) : Prop :=
  ∀ i : Nat, i ≤ src.length → G.Holds (m src i) (Outcome.Meets src S i)

/-- Values matched one after the other, each as specified. -/
inductive Path (src : Text) : List Spec → Nat → Nat → List Value → Prop
  | nil (i : Nat) : Path src [] i i []
  | cons {S : Spec} {Ss : List Spec} {i j k : Nat} {v : Value} {vs : List Value} (onward : i ≤ k)
      (inside : k ≤ src.length) (first : S i k v) (rest : Path src Ss k j vs) :
      Path src (S :: Ss) i j (v :: vs)

namespace Path

variable {src : Text} {Ss : List Spec} {i j : Nat} {vs : List Value}

theorem bounds (path : Path src Ss i j vs) (inside : i ≤ src.length) : i ≤ j ∧ j ≤ src.length := by
  induction path with
  | nil => exact ⟨Nat.le_refl _, inside⟩
  | cons onward within _ _ ih => exact ⟨Nat.le_trans onward (ih within).1, (ih within).2⟩

theorem length (path : Path src Ss i j vs) : vs.length = Ss.length := by
  induction path with
  | nil => rfl
  | cons _ _ _ _ ih => rw [List.length_cons, List.length_cons, ih]

end Path

/-- Any number of values matched one after the other, all by the same specification. -/
def Rounds (src : Text) (S : Spec) (i j : Nat) (vs : List Value) : Prop :=
  Path src (List.replicate vs.length S) i j vs

namespace Rounds

variable {src : Text} {S : Spec} {i j k : Nat} {v : Value} {vs : List Value}

theorem nil (i : Nat) : Rounds src S i i [] :=
  Path.nil i

theorem cons (onward : i ≤ k) (inside : k ≤ src.length) (first : S i k v)
    (rest : Rounds src S k j vs) : Rounds src S i j (v :: vs) :=
  Path.cons onward inside first rest

theorem mono {T : Spec} (rounds : Rounds src S i j vs) (weaker : ∀ i j v, S i j v → T i j v) :
    Rounds src T i j vs := by
  induction vs generalizing i with
  | nil =>
      cases rounds
      exact nil _
  | cons v vs ih =>
      cases rounds with
      | cons onward inside first rest => exact cons onward inside (weaker _ _ _ first) (ih rest)

end Rounds

def Spec.any : Spec :=
  fun _ _ _ => True

/-- A tuple of values matched one after the other. -/
def Spec.tuple (src : Text) (Ss : List Spec) : Spec :=
  fun i j v => ∃ vs, v = .tuple vs ∧ Path src Ss i j vs

/-- A tuple of values matched one after the other, all by the same specification. -/
def Spec.row (src : Text) (S : Spec) : Spec :=
  fun i j v => ∃ vs, v = .tuple vs ∧ Rounds src S i j vs

/-- A list of values matched one after the other, all by the same specification. -/
def Spec.list (src : Text) (S : Spec) : Spec :=
  fun i j v => ∃ vs, v = .list vs ∧ Rounds src S i j vs

/-- A list of given values, the last one first, and of others that are matched after them. -/
def Spec.listFrom (src : Text) (S : Spec) (values : List Value) : Spec :=
  fun i j v => ∃ vs, v = .list (values.reverse ++ vs) ∧ Rounds src S i j vs

/-- A list of one value and others after it. -/
def Spec.chain (src : Text) (S T : Spec) : Spec :=
  fun i j v => ∃ k w vs, v = .list (w :: vs) ∧ i ≤ k ∧ k ≤ src.length ∧ S i k w ∧
    Rounds src T k j vs

namespace Spec

variable {src : Text} {S : Spec} {values : List Value} {i j k : Nat} {v w : Value}

theorem listFrom_stop (i : Nat) : Spec.listFrom src S values i i (.list values.reverse) :=
  ⟨[], by rw [List.append_nil], .nil i⟩

theorem listFrom_next (onward : i ≤ k) (inside : k ≤ src.length) (value : S i k v)
    (rest : Spec.listFrom src S (v :: values) k j w) : Spec.listFrom src S values i j w := by
  obtain ⟨vs, rfl, rounds⟩ := rest
  exact ⟨v :: vs, by simp, .cons onward inside value rounds⟩

end Spec

namespace Outcome.Meets

variable {src : Text} {S T : Spec} {i : Nat} {r : Outcome}

theorem mono (meets : r.Meets src S i)
    (weaker : ∀ j v, i ≤ j → j ≤ src.length → S i j v → T i j v) : r.Meets src T i := by
  cases meets with
  | matched onward inside value => exact .matched onward inside (weaker _ _ onward inside value)
  | failed nonempty => exact .failed nonempty

/-- An outcome of going on from `k` counts from `i` on if its values do. -/
theorem from_earlier {k : Nat} (meets : r.Meets src S k) (earlier : i ≤ k)
    (weaker : ∀ j v, k ≤ j → j ≤ src.length → S k j v → T i j v) : r.Meets src T i := by
  cases meets with
  | matched onward inside value =>
      exact .matched (Nat.le_trans earlier onward) inside (weaker _ _ onward inside value)
  | failed nonempty => exact .failed nonempty

theorem single (label : Text) (pos : Int) : (Outcome.failed label pos).Meets src S i :=
  .failed (by simp)

end Outcome.Meets

namespace Matcher

variable {G : Guarantee} {src : Text} {S T : Spec} {m n : Matcher Unit} {i : Nat}

theorem Meets.mono (meets : m.Meets G src S)
    (weaker : ∀ i j v, i ≤ j → j ≤ src.length → S i j v → T i j v) :
    m.Meets G src T :=
  fun i inside => G.mono (meets i inside) fun _ outcome => outcome.mono (weaker i)

/-! Matchers that look at the text themselves. -/

theorem satisfy_meets {label : Text} {test : CodePoint → Action Unit Bool}
    (tests : ∀ i c, src[i]? = some c →
      G.Holds (test c) fun passed => passed = true → S i (i + 1) (.text [c])) :
    Meets G src S (satisfy label test) := by
  intro i inside
  unfold satisfy
  rw [Text.lookAt_eq]
  cases seen : src[i]? with
  | none => exact G.pure (.single _ _)
  | some c =>
      apply G.bind (tests i c seen)
      intro passed value
      cases passed with
      | false => exact G.pure (.single _ _)
      | true =>
          have lt : i < src.length := (List.getElem?_eq_some_iff.mp seen).1
          exact G.pure (.matched (Nat.le_succ i) lt (value rfl))

theorem char_meets {c : CodePoint} (value : ∀ i, src[i]? = some c → S i (i + 1) (.text [c])) :
    Meets G src S (char c) := by
  refine satisfy_meets fun i d seen => G.pure fun same => ?_
  obtain rfl : d = c := by simpa using same
  exact value i seen

theorem string_meets {t : Text}
    (value : ∀ i : Nat, i ≤ src.length → t <+: src.drop i → S i (i + t.length) (.text t)) :
    Meets G src S (string t) := by
  intro i inside
  unfold string
  split
  · rename_i stands
    have fits := (Text.standsAt_iff inside).mp stands
    have shorter := fits.length_le
    rw [List.length_drop] at shorter
    exact G.pure (.matched (j := i + t.length) (Nat.le_add_right i _) (by omega)
      (value i inside fits))
  · exact G.pure (.single _ _)

theorem regex_meets {r : Regex}
    (value : ∀ i j : Nat, i ≤ j → j ≤ src.length → S i j (.text (src.slice i j))) :
    Meets G src S (regex r) := by
  intro i inside
  have start : min (i : Int).toNat src.length = i := by omega
  simp only [regex, start]
  cases found : r.endOf? src i with
  | none => exact G.pure (.single _ _)
  | some stop =>
      obtain ⟨onward, within⟩ := r.endOf?_bounds inside found
      exact G.pure (.matched onward within (value i stop onward within))

theorem whitespaces_meets
    (value : ∀ i j : Nat, i ≤ j → j ≤ src.length → S i j (.text (src.slice i j))) :
    Meets G src S whitespaces := by
  intro i inside
  obtain ⟨stop, stretch⟩ := Text.exists_stretch CodePoint.isBlank src i
  have within := stretch.le_length inside
  rw [whitespaces_eq stretch]
  exact G.pure (.matched stretch.onward within (value i stop stretch.onward within))

theorem succeed_meets {v : Value} (value : ∀ i, S i i v) : Meets G src S (succeed v) :=
  fun i inside => G.pure (.matched (Nat.le_refl i) inside (value i))

theorem fail_meets (message : Text) : Meets G src S (fail message) :=
  fun _ _ => G.pure (.single _ _)

/-! Sequences and choices. -/

theorem stages_meets {ms : List (Matcher Unit)} {Ss : List Spec}
    (members : List.Forall₂ (Meets G src) Ss ms) (values : List Value) (inside : i ≤ src.length) :
    G.Holds (stages src ms values i)
      (Outcome.Meets src (fun i j v => ∃ vs, v = .tuple (values.reverse ++ vs) ∧ Path src Ss i j vs)
        i) := by
  induction members generalizing values i with
  | nil => exact G.pure (.matched (Nat.le_refl i) inside ⟨[], by rw [List.append_nil], .nil i⟩)
  | cons here _ ih =>
      apply G.bind (here i inside)
      intro r meets
      cases meets with
      | failed nonempty => exact G.pure (.failed nonempty)
      | @matched v k onward within value =>
          refine G.mono (ih (v :: values) within) fun r rest => ?_
          refine rest.from_earlier onward fun j w _ _ tuple => ?_
          obtain ⟨vs, rfl, path⟩ := tuple
          exact ⟨v :: vs, by simp, .cons onward within value path⟩

theorem seq_meets {ms : List (Matcher Unit)} {Ss : List Spec}
    (members : List.Forall₂ (Meets G src) Ss ms) : Meets G src (.tuple src Ss) (seq ms) :=
  fun _ inside => stages_meets members [] inside

theorem row_meets {ms : List (Matcher Unit)} (members : ∀ m ∈ ms, Meets G src S m) :
    Meets G src (.row src S) (seq ms) := by
  have each : List.Forall₂ (Meets G src) (List.replicate ms.length S) ms := by
    induction ms with
    | nil => exact .nil
    | cons m ms ih =>
        exact .cons (members m (by simp)) (ih fun n member => members n (by simp [member]))
  refine (seq_meets each).mono fun i j v _ _ tuple => ?_
  obtain ⟨vs, rfl, path⟩ := tuple
  have length : vs.length = ms.length := by rw [path.length, List.length_replicate]
  exact ⟨vs, rfl, by rwa [Rounds, length]⟩

theorem alternatives_meets {ms : List (Matcher Unit)} (members : ∀ m ∈ ms, Meets G src S m)
    (labels : List Text) (some : labels ≠ [] ∨ ms ≠ []) (inside : i ≤ src.length) :
    G.Holds (alternatives src i ms labels) (Outcome.Meets src S i) := by
  induction ms generalizing labels with
  | nil =>
      obtain ⟨f, equal, nonempty, _⟩ :=
        Failure.ofLabels_ok (some.resolve_right fun none => none rfl) i
      simp only [alternatives, equal]
      exact G.pure (.failed nonempty)
  | cons m ms ih =>
      apply G.bind (members m (by simp) i inside)
      intro r meets
      cases meets with
      | matched onward within value => exact G.pure (.matched onward within value)
      | failed nonempty =>
          exact ih (fun n member => members n (by simp [member])) _ (.inl (by simp [nonempty]))

theorem alt_meets {ms : List (Matcher Unit)} (members : ∀ m ∈ ms, Meets G src S m)
    (some : ms ≠ []) : Meets G src S (alt ms) :=
  fun _ inside => alternatives_meets members [] (.inr some) inside

/-! Repetition. -/

theorem repeatFrom_meets (inner : Meets G src S m) (fuel : Nat) (values : List Value)
    (inside : i ≤ src.length) :
    G.Holds (repeatFrom m src fuel values i) (Outcome.Meets src (.listFrom src S values) i) := by
  induction fuel generalizing values i with
  | zero => exact G.exhausted
  | succ fuel ih =>
      have stop :
          Outcome.Meets src (.listFrom src S values) i (.matched (.list values.reverse) i) :=
        .matched (Nat.le_refl i) inside (Spec.listFrom_stop i)
      apply G.bind (inner i inside)
      intro r meets
      cases meets with
      | failed _ => exact G.pure stop
      | @matched v k onward within value =>
          change G.Holds (if (k : Int) = i then _ else _) _
          split
          · exact G.pure stop
          · refine G.mono (ih (v :: values) within) fun r rest => ?_
            exact rest.from_earlier onward fun _ _ _ _ => Spec.listFrom_next onward within value

theorem many_meets (inner : Meets G src S m) (fuel : Nat) :
    Meets G src (.list src S) (many fuel m) :=
  fun _ inside => repeatFrom_meets inner fuel [] inside

theorem chain_meets (first : Meets G src S m) (rest : Meets G src T n) (fuel : Nat) :
    Meets G src (.chain src S T) (chain fuel m n) := by
  intro i inside
  apply G.bind (first i inside)
  intro r meets
  cases meets with
  | failed nonempty => exact G.pure (.failed nonempty)
  | @matched v k onward within here =>
      refine G.mono (repeatFrom_meets rest fuel [v] within) fun r meets => ?_
      refine meets.from_earlier onward fun j w _ _ list => ?_
      obtain ⟨vs, rfl, rounds⟩ := list
      exact ⟨k, v, vs, rfl, onward, within, here, rounds⟩

theorem upToFrom_meets (stop : Meets G src T n) (inner : Meets G src S m) (fuel : Nat)
    (values : List Value) (inside : i ≤ src.length) :
    G.Holds (upToFrom n m src fuel values i) (Outcome.Meets src (.listFrom src S values) i) := by
  induction fuel generalizing values i with
  | zero => exact G.exhausted
  | succ fuel ih =>
      have ends :
          Outcome.Meets src (.listFrom src S values) i (.matched (.list values.reverse) i) :=
        .matched (Nat.le_refl i) inside (Spec.listFrom_stop i)
      apply G.bind (stop i inside)
      intro r meets
      cases meets with
      | matched _ _ _ => exact G.pure ends
      | failed _ =>
          apply G.bind (inner i inside)
          intro r meets
          cases meets with
          | failed nonempty => exact G.pure (.failed nonempty)
          | @matched v k onward within value =>
              change G.Holds (if (k : Int) = i then _ else _) _
              split
              · exact G.pure ends
              · refine G.mono (ih (v :: values) within) fun r rest => ?_
                exact rest.from_earlier onward fun _ _ _ _ => Spec.listFrom_next onward within value

theorem upTo_meets (stop : Meets G src T n) (inner : Meets G src S m) (fuel : Nat) :
    Meets G src (.list src S) (upTo fuel n m) :=
  fun _ inside => upToFrom_meets stop inner fuel [] inside

/-! Looking ahead. -/

theorem not_meets (inner : Meets G src T m)
    (shown : ∀ i j v, T i j v → G.Holds (Action.ofExcept (unwanted v)) fun _ => True)
    (value : ∀ i, S i i .none) : Meets G src S (not m) := by
  intro i inside
  apply G.bind (inner i inside)
  intro r meets
  cases meets with
  | failed _ => exact G.pure (.matched (Nat.le_refl i) inside (value i))
  | matched _ _ here => exact G.bind (shown i _ _ here) fun _ _ => G.pure (.single _ _)

theorem except_meets (exclusion : Meets G src T n)
    (shown : ∀ i j v, T i j v → G.Holds (Action.ofExcept (unwanted v)) fun _ => True)
    (inner : Meets G src S m) : Meets G src S (except n m) := by
  intro i inside
  apply G.bind (exclusion i inside)
  intro r meets
  cases meets with
  | failed _ => exact inner i inside
  | matched _ _ here => exact G.bind (shown i _ _ here) fun _ _ => G.pure (.single _ _)

theorem peek_meets (inner : Meets G src T m) (value : ∀ i j v, T i j v → S i i v) :
    Meets G src S (peek m) := by
  intro i inside
  apply G.bind (inner i inside)
  intro r meets
  cases meets with
  | failed nonempty => exact G.pure (.failed nonempty)
  | matched _ _ here => exact G.pure (.matched (Nat.le_refl i) inside (value i _ _ here))

theorem eof_meets (inner : Meets G src S m) : Meets G src S (eof m) := by
  intro i inside
  apply G.bind (inner i inside)
  intro r meets
  cases meets with
  | failed nonempty => exact G.pure (.failed nonempty)
  | @matched v j onward within here =>
      change G.Holds (if (j : Int) = src.length then _ else _) _
      split
      · exact G.pure (.matched onward within here)
      · exact G.pure (.single _ _)

/-! Functions on what was matched. -/

theorem map_meets (inner : Meets G src T m) {fn : Value → Action Unit Value}
    {validate : Option (Value → Action Unit Bool)}
    (tests : ∀ test ∈ validate, ∀ i j v, T i j v → G.Holds (test v) fun _ => True)
    (calls : ∀ i j v, T i j v →
      (∀ test ∈ validate, (test v).run () = some (.ok true, ())) → G.Holds (fn v) fun w =>
        S i j w) :
    Meets G src S (map m fn validate) := by
  intro i inside
  apply G.bind (inner i inside)
  intro r meets
  cases meets with
  | failed nonempty => exact G.pure (.failed nonempty)
  | @matched v j onward within here =>
      cases validate with
      | none =>
          simp only [pure_bind, ↓reduceIte]
          exact G.bind (calls i j v here (by simp)) fun w value =>
            G.pure (.matched onward within value)
      | some test =>
          -- The function is called only on what the test has let pass.
          apply G.bind (G.self (tests test rfl i j v here))
          intro valid passed
          cases valid with
          | false => exact G.pure (.single _ _)
          | true =>
              refine G.bind (calls i j v here ?_) fun w value =>
                G.pure (.matched onward within value)
              intro other same
              cases same
              exact passed.2

theorem item_of_getElem? {vs : List Value} {index : Nat} {w : Value} (found : vs[index]? = some w) :
    Value.item index (.tuple vs) = .ok w := by
  have nonneg : ¬ (index : Int) < 0 := by omega
  simp [Value.item, Value.memberAt, if_neg nonneg, found]

theorem pick_meets {Ss : List Spec} (inner : Meets G src (.tuple src Ss) m) (index : Nat)
    (lt : index < Ss.length)
    (value : ∀ i j vs w, i ≤ j → j ≤ src.length → Path src Ss i j vs →
      vs[index]? = some w → S i j w) : Meets G src S (pick index m) := by
  have tuple : Meets G src (fun i j v => i ≤ j ∧ j ≤ src.length ∧ Spec.tuple src Ss i j v) m :=
    inner.mono fun i j v onward inside here => ⟨onward, inside, here⟩
  refine map_meets tuple (by simp) fun i j v here _ => ?_
  obtain ⟨onward, inside, vs, rfl, path⟩ := here
  have found : index < vs.length := by rw [path.length]; exact lt
  have member := List.getElem?_eq_getElem found
  exact G.of_ok ⟨_, item_of_getElem? member, value i j vs _ onward inside path member⟩

theorem after_meets {U : Spec} (lead : Meets G src U n) (inner : Meets G src T m)
    (value : ∀ i k j v, i ≤ k → T k j v → S i j v) :
    Meets G src S (after n m) := by
  refine pick_meets (seq_meets (.cons lead (.cons inner .nil))) 1 (by simp) ?_
  intro i j vs w _ _ path member
  cases path with
  | cons onward _ _ rest =>
      cases rest with
      | cons _ _ here rest =>
          cases rest
          cases member
          exact value i _ j w onward here

theorem relabel_meets (label : Text) (inner : Meets G src S m) :
    Meets G src S (relabel label m) := by
  intro i inside
  apply G.bind (inner i inside)
  intro r meets
  cases meets with
  | matched onward within here => exact G.pure (.matched onward within here)
  | failed nonempty =>
      dsimp only
      split
      · exact G.pure (.single _ _)
      · exact G.pure (.failed nonempty)

theorem andThen_append_meets {fns : List (Value → Action Unit (Matcher Unit))}
    (before : Meets G src T (andThen m fns)) {fn : Value → Action Unit (Matcher Unit)}
    (next : ∀ i k v, k ≤ src.length → T i k v →
      G.Holds (thenRun (fn v) src k) (Outcome.Meets src (fun _ j w => S i j w) k)) :
    Meets G src S (andThen m (fns ++ [fn])) := by
  intro i inside
  rw [andThen_append, andThen]
  apply G.bind (before i inside)
  intro r meets
  cases meets with
  | failed nonempty => exact G.pure (.failed nonempty)
  | @matched v k onward within here =>
      refine G.mono (P := Outcome.Meets src (fun _ j w => S i j w) k) ?_ fun r rest =>
        rest.from_earlier onward fun j w _ _ value => value
      simpa only [continueWith, Outcome.matched, bind_pure, thenRun] using next i k v within here

end Matcher

end Descent
