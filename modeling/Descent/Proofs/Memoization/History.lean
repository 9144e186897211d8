import Mathlib.Data.List.Induction
import Mathlib.Data.Int.Interval
import Descent.Proofs.Debug.Running
import Descent.Proofs.Meaning.Running

/-!
The history of memories. A memory is asked for positions over and over, on any texts, also in the
course of its own answers. Main statement: unless it asks itself for what it is about to answer, it
remembers the first outcome that it came to at each position, and no position is worked out twice.
-/

namespace Descent

/-! One use. -/

def Store.rememberAnswer (cell : Nat) (pos : Int) (s : Store) : Except Fault Outcome → Store
  | .ok r => s.remember cell pos r
  | .error _ => s

theorem Store.outcomeAt?_rememberAnswer {s : Store} {cell cell' : Nat} {pos pos' : Int}
    (x : Except Fault Outcome) : (s.rememberAnswer cell pos x).outcomeAt? cell' pos' =
      (if (cell, pos) = (cell', pos') then x.toOption else none).or (s.outcomeAt? cell' pos') := by
  cases x with
  | error e => simp [rememberAnswer, Except.toOption]
  | ok r =>
      rw [rememberAnswer, outcomeAt?_remember]
      by_cases same : (cell, pos) = (cell', pos')
      · obtain ⟨rfl, rfl⟩ := Prod.mk.inj same
        simp [Except.toOption]
      · rw [if_neg fun both => same (by rw [both.1, both.2]), if_neg same, Option.none_or]

namespace Matcher

variable {cell : Nat} {trace : Bool} {name? : Option Text} {src : Text} {pos : Int} {s : Store}

theorem run_memoize_found {r : Outcome} (found : s.outcomeAt? cell pos = some r)
    (p : Matcher Store) :
    (memoize cell trace name? p src pos).run s =
      some (.ok r, { s with log := s.log ++ if trace then [.memoHit name? pos] else [] }) := by
  rw [memoize_eq, Action.run_bind, Action.run_state]
  simp only [found, Action.run_bind, Action.run_writeIf]
  rfl

theorem run_memoize_missing (missing : s.outcomeAt? cell pos = none) (p : Matcher Store) :
    (memoize cell trace name? p src pos).run s =
      ((p src pos).run s).map fun (x, t) => (x, t.rememberAnswer cell pos x) := by
  rw [memoize_eq, Action.run_bind, Action.run_state]
  simp only [missing, Action.run_bind]
  rcases (p src pos).run s with _ | ⟨_ | r, t⟩ <;> rfl

/-- Whatever a memory answers, it has remembered, or it is what the parser inside came to. -/
theorem run_memoize_cases {p : Matcher Store} {x : Except Fault Outcome} {t : Store}
    (ran : (memoize cell trace name? p src pos).run s = some (x, t)) :
    (∃ r log, s.outcomeAt? cell pos = some r ∧ x = .ok r ∧ t = { s with log := log }) ∨
      s.outcomeAt? cell pos = none ∧ ∃ u, (p src pos).run s = some (x, u) ∧
        t = u.rememberAnswer cell pos x := by
  cases found : s.outcomeAt? cell pos with
  | some r =>
      rw [run_memoize_found found] at ran
      cases ran
      exact .inl ⟨r, _, rfl, rfl, rfl⟩
  | none =>
      rw [run_memoize_missing found, Option.map_eq_some_iff] at ran
      obtain ⟨⟨y, u⟩, answered, ended⟩ := ran
      cases ended
      exact .inr ⟨rfl, u, answered, rfl⟩

end Matcher

/-- The use of a memory: where it was asked, and what came of it. -/
structure Visit where
  cell : Nat
  trace : Bool
  name? : Option Text
  inner : Matcher Store
  src : Text
  pos : Int
  before : Store
  answer : Except Fault Outcome
  after : Store
  /-- Which memories were asked for which positions in the course of it. -/
  meanwhile : List (Nat × Int)

namespace Visit

def place (v : Visit) : Nat × Int :=
  (v.cell, v.pos)

/-- The memory was asked, and that came of it. -/
def Asked (v : Visit) : Prop :=
  (Matcher.memoize v.cell v.trace v.name? v.inner v.src v.pos).run v.before =
    some (v.answer, v.after)

/-- The first outcome that was answered at a place. -/
def first (place : Nat × Int) (visits : List Visit) : Option Outcome :=
  visits.findSome? fun v => if v.place = place then v.answer.toOption else none

def produces (v : Visit) : Bool :=
  (v.before.outcomeAt? v.cell v.pos).isNone && v.answer.isOk

/-- The positions at which the parser inside one memory came to an outcome. -/
def produced (cell : Nat) (visits : List Visit) : List Int :=
  (visits.filter fun v => v.cell == cell && v.produces).map pos

variable {place : Nat × Int} {v : Visit} {visits : List Visit}

theorem first_append (place : Nat × Int) (l k : List Visit) :
    first place (l ++ k) = (first place l).or (first place k) :=
  List.findSome?_append

theorem first_single (place : Nat × Int) (v : Visit) :
    first place [v] = if v.place = place then v.answer.toOption else none := by
  simp [first]

theorem first_eq_none (absent : ∀ v ∈ visits, v.place ≠ place) : first place visits = none := by
  refine List.findSome?_eq_none_iff.mpr fun v member => ?_
  exact if_neg (absent v member)

theorem first_isSome (member : v ∈ visits) (answered : v.answer.isOk = true) :
    (first v.place visits).isSome = true := by
  rw [first, List.findSome?_isSome_iff]
  refine ⟨v, member, ?_⟩
  rw [if_pos rfl]
  cases answer : v.answer with
  | error e => rw [answer] at answered; cases answered
  | ok r => rfl

theorem Asked.reuse (asked : v.Asked) {r : Outcome}
    (found : v.before.outcomeAt? v.cell v.pos = some r) :
    v.answer = .ok r ∧
      v.after =
        { v.before with log :=
          v.before.log ++ if v.trace then [.memoHit v.name? v.pos] else [] } := by
  rw [Asked, Matcher.run_memoize_found found] at asked
  obtain ⟨answer, after⟩ := Prod.mk.inj (Option.some.inj asked)
  exact ⟨answer.symm, after.symm⟩

theorem Asked.compute (asked : v.Asked) (missing : v.before.outcomeAt? v.cell v.pos = none) :
    ∃ u, (v.inner v.src v.pos).run v.before = some (v.answer, u) ∧
      v.after = u.rememberAnswer v.cell v.pos v.answer := by
  rcases Matcher.run_memoize_cases asked with ⟨r, _, found, -⟩ | ⟨-, computed⟩
  · cases missing.symm.trans found
  · exact computed

end Visit

theorem entry_append {α : Type} {l k pre post : List α} {a : α}
    (split : l ++ k = pre ++ a :: post) :
    (∃ l', l = pre ++ a :: l' ∧ post = l' ++ k) ∨ ∃ k', pre = l ++ k' ∧ k = k' ++ a :: post := by
  rcases List.append_eq_append_iff.mp split with ⟨k', rfl, rest⟩ | ⟨l', rfl, rest⟩
  · exact .inr ⟨k', rfl, rest⟩
  · cases l' with
    | nil => exact .inr ⟨[], by simp, by simpa using rest.symm⟩
    | cons b l' =>
        obtain ⟨rfl, rfl⟩ := List.cons.inj rest
        exact .inl ⟨l', rfl, rfl⟩

/-- The uses of memories on the way from one store to another, in the order in which they came to an
end. -/
inductive History : Store → List Visit → Store → Prop
  | still {s t : Store} (same : t.outcomes = s.outcomes) : History s [] t
  | append {s t u : Store} {l k : List Visit} (earlier : History s l t) (later : History t k u) :
      History s (l ++ k) u
  | reuse {v : Visit} {r : Outcome} (asked : v.Asked)
      (found : v.before.outcomeAt? v.cell v.pos = some r)
      (meanwhile : v.meanwhile = []) : History v.before [v] v.after
  | compute {v : Visit} {l : List Visit} {u : Store} (asked : v.Asked)
      (missing : v.before.outcomeAt? v.cell v.pos = none)
      (ran : (v.inner v.src v.pos).run v.before = some (v.answer, u))
      (inside : History v.before l u)
      (meanwhile : v.meanwhile = l.map Visit.place) : History v.before (l ++ [v]) v.after

namespace History

open Visit

variable {s t : Store} {visits : List Visit} {cell : Nat}

/-- Each use has a history of its own, which comes right before its end. -/
theorem of_append (history : History s visits t) {pre post : List Visit} {v : Visit}
    (split : visits = pre ++ v :: post) :
    ∃ early l, pre = early ++ l ∧ History s early v.before ∧ History v.before (l ++ [v]) v.after ∧
      v.Asked ∧ v.meanwhile = l.map Visit.place := by
  induction history generalizing pre post with
  | still same => exact absurd split (by simp)
  | @append s t u l k earlier later ih ih' =>
      rcases entry_append split with ⟨l', rfl, rfl⟩ | ⟨k', rfl, rfl⟩
      · exact ih rfl
      · obtain ⟨early, inside, rfl, before, own, asked, places⟩ := ih' rfl
        exact ⟨l ++ early, inside,
          by rw [List.append_assoc], earlier.append before, own, asked, places⟩
  | @reuse w r asked found places =>
      cases pre with
      | nil =>
          obtain ⟨rfl, rfl⟩ := List.cons.inj split
          exact ⟨[], [], rfl, .still rfl, .reuse asked found places, asked, by simp [places]⟩
      | cons _ pre => exact absurd (List.cons.inj split).2 (by simp)
  | @compute w l u asked missing ran inside places ih =>
      rcases List.eq_nil_or_concat post with rfl | ⟨post, w', rfl⟩
      · obtain ⟨rfl, last⟩ := List.append_inj' split rfl
        obtain ⟨rfl, -⟩ := List.cons.inj last
        exact ⟨[], l, rfl, .still rfl, .compute asked missing ran inside places, asked, places⟩
      · rw [List.concat_eq_append, ← List.cons_append, ← List.append_assoc] at split
        obtain ⟨rfl, -⟩ := List.append_inj' split rfl
        exact ih rfl

theorem entries (history : History s visits t)
    (apart : ∀ v ∈ visits, v.cell = cell → v.place ∉ v.meanwhile) (pos : Int) :
    t.outcomeAt? cell pos = (s.outcomeAt? cell pos).or (first (cell, pos) visits) := by
  induction history with
  | still same => simp [first, Store.outcomeAt?, same]
  | @append s t u l k earlier later ih ih' =>
      rw [ih' fun v member => apart v (by simp [member]),
        ih fun v member => apart v (by simp [member]), first_append, Option.or_assoc]
  | @reuse v r asked found places =>
      obtain ⟨answer, after⟩ := asked.reuse found
      have kept : v.after.outcomeAt? cell pos = v.before.outcomeAt? cell pos := by
        rw [after]
        rfl
      rw [kept, first_single]
      split
      next here =>
        obtain ⟨rfl, rfl⟩ := Prod.mk.inj here
        simp [found]
      next => simp
  | @compute v l u asked missing ran inside places ih =>
      obtain ⟨u', again, after⟩ := asked.compute missing
      cases ran.symm.trans again
      rw [after, Store.outcomeAt?_rememberAnswer, ih fun w member => apart w (by simp [member]),
        first_append, first_single]
      by_cases here : v.place = (cell, pos)
      · obtain ⟨rfl, rfl⟩ := Prod.mk.inj here
        -- The uses in between were about other positions.
        have none : first v.place l = none := by
          refine first_eq_none fun w member same => apart v (by simp) rfl ?_
          rw [places]
          exact List.mem_map.mpr ⟨w, member, same⟩
        rw [missing, show (v.cell, v.pos) = v.place from rfl, none]
        simp
      · have elsewhere : (v.cell, v.pos) ≠ (cell, pos) := here
        rw [if_neg here, if_neg elsewhere, Option.none_or, Option.or_none]

/-- Before a use, the memory has an entry for its position if and only if an earlier use came to an
outcome there. -/
theorem entry_before (history : History s visits t) (fresh : ∀ pos, s.outcomeAt? cell pos = none)
    (apart : ∀ v ∈ visits, v.cell = cell → v.place ∉ v.meanwhile) {pre post : List Visit}
    {v : Visit} (split : visits = pre ++ v :: post) (same : v.cell = cell) :
    v.before.outcomeAt? v.cell v.pos = first v.place pre := by
  obtain ⟨early, l, rfl, before, -, -, places⟩ := history.of_append split
  subst split same
  have inside : first v.place l = none := by
    refine first_eq_none fun w member same => apart v (by simp) rfl ?_
    rw [places]
    exact List.mem_map.mpr ⟨w, member, same⟩
  rw [before.entries (fun w member => apart w (by simp [member])) v.pos, fresh, first_append,
    show (v.cell, v.pos) = v.place from rfl, inside]
  simp

/-- After a use, of whatever memory, the entries are the first outcomes so far. -/
theorem entries_after (history : History s visits t) (fresh : ∀ pos, s.outcomeAt? cell pos = none)
    (apart : ∀ v ∈ visits, v.cell = cell → v.place ∉ v.meanwhile) {pre post : List Visit}
    {v : Visit} (split : visits = pre ++ v :: post) (pos : Int) :
    v.after.outcomeAt? cell pos = first (cell, pos) (pre ++ [v]) := by
  obtain ⟨early, l, rfl, before, own, -, -⟩ := history.of_append split
  have whole : History s (early ++ (l ++ [v])) v.after := before.append own
  subst split
  rw [← List.append_assoc] at whole
  have apart' : ∀ w ∈ early ++ l ++ [v], w.cell = cell → w.place ∉ w.meanwhile := by
    intro w member
    refine apart w ?_
    simp only [List.mem_append, List.mem_cons] at member ⊢
    tauto
  rw [whole.entries apart' pos, fresh, Option.none_or]

theorem produced_nodup (history : History s visits t) (fresh : ∀ pos, s.outcomeAt? cell pos = none)
    (apart : ∀ v ∈ visits, v.cell = cell → v.place ∉ v.meanwhile) :
    (produced cell visits).Nodup := by
  suffices prefixes : ∀ pre post, visits = pre ++ post → (produced cell pre).Nodup from
    prefixes visits [] (by simp)
  intro pre
  induction pre using List.reverseRecOn with
  | nil => exact fun _ _ => List.nodup_nil
  | append_singleton pre v ih =>
      intro post split
      have split : visits = pre ++ v :: post := by simpa using split
      have earlier := ih (v :: post) split
      rw [produced, List.filter_append, List.map_append, ← produced]
      rw [List.filter_singleton]
      cases counts : v.cell == cell && v.produces with
      | false => simpa using earlier
      | true =>
          refine earlier.append (List.nodup_singleton _) fun pos before here => ?_
          obtain ⟨same, produces⟩ := Bool.and_eq_true_iff.mp counts
          obtain ⟨w, member, rfl⟩ := List.mem_map.mp before
          obtain ⟨member, counts⟩ := List.mem_filter.mp member
          obtain ⟨same', produces'⟩ := Bool.and_eq_true_iff.mp counts
          -- The earlier use left an entry, and the later one found none.
          have missing : first v.place pre = none := by
            rw [← history.entry_before fresh apart split (eq_of_beq same)]
            exact Option.isNone_iff_eq_none.mp (Bool.and_eq_true_iff.mp produces).1
          have place : w.place = v.place :=
            Prod.ext ((eq_of_beq same').trans (eq_of_beq same).symm) (List.mem_singleton.mp here)
          have some := first_isSome member (Bool.and_eq_true_iff.mp produces').2
          rw [place, missing] at some
          cases some

theorem produced_length_le (history : History s visits t)
    (fresh : ∀ pos, s.outcomeAt? cell pos = none)
    (apart : ∀ v ∈ visits, v.cell = cell → v.place ∉ v.meanwhile) {n : Nat}
    (inside : ∀ v ∈ visits, v.cell = cell → 0 ≤ v.pos ∧ v.pos ≤ n) :
    (produced cell visits).length ≤ n + 1 := by
  have bounded : (produced cell visits).toFinset ⊆ Finset.Icc (0 : Int) n := by
    intro pos member
    obtain ⟨v, counts, rfl⟩ := List.mem_map.mp (List.mem_toFinset.mp member)
    obtain ⟨member, counts⟩ := List.mem_filter.mp counts
    exact Finset.mem_Icc.mpr (inside v member (eq_of_beq (Bool.and_eq_true_iff.mp counts).1))
  calc (produced cell visits).length
      = (produced cell visits).toFinset.card :=
        (List.toFinset_card_of_nodup (history.produced_nodup fresh apart)).symm
    _ ≤ (Finset.Icc (0 : Int) n).card := Finset.card_le_card bounded
    _ = n + 1 := by rw [Int.card_Icc]; omega

end History

end Descent
