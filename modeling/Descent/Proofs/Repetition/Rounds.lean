import Descent.Matcher.Repetition
import Descent.Proofs.Correspondence.Basic

/-!
The rounds of a repetition. All rounds but the last one match and move on; the last one decides how
the repetition ends. Main statements: a repetition answers by its rounds, and runs nothing besides
them.
-/

namespace Descent.Matcher

variable {σ : Type}

/-- Matches one after the other, each from where the one before it ended. None ends where it
began. -/
inductive Advances (p : Matcher σ) (src : Text) : Int → σ → List Int → List Value → Int → σ → Prop
  | nil (pos : Int) (s : σ) : Advances p src pos s [] [] pos s
  | cons {pos next stop : Int} {s t u : σ} {places : List Int} {v : Value} {vs : List Value}
      (round : (p src pos).run s = some (.ok (.matched v next), t)) (moved : next ≠ pos)
      (more : Advances p src next t places vs stop u) :
      Advances p src pos s (pos :: places) (v :: vs) stop u

/-- The round that ends a repetition, and what comes of it if `vs` has matched before. -/
inductive LastRound (p : Matcher σ) (src : Text) (vs : List Value) (pos : Int) (s : σ) :
    Except Fault Outcome → σ → Prop
  | failed {f : Failure} {t : σ} (round : (p src pos).run s = some (.ok (.failure f), t)) :
      LastRound p src vs pos s (.ok (.matched (.list vs) pos)) t
  | still {v : Value} {t : σ} (round : (p src pos).run s = some (.ok (.matched v pos), t)) :
      LastRound p src vs pos s (.ok (.matched (.list vs) pos)) t
  | fault {e : Fault} {t : σ} (round : (p src pos).run s = some (.error e, t)) :
      LastRound p src vs pos s (.error e) t

variable {p : Matcher σ} {src : Text} {pos next stop : Int} {s t u : σ} {places : List Int}
  {v : Value}
  {vs values : List Value} {x : Except Fault Outcome} {fuel : Nat}

theorem repeatFrom_round (round : (p src pos).run s = some (.ok (.matched v next), t))
    (moved : next ≠ pos) :
    (repeatFrom p src (fuel + 1) values pos).run s =
      (repeatFrom p src fuel (v :: values) next).run t := by
  rw [repeatFrom, Action.run_bind, round]
  change (if next = pos then _ else _ : Action σ Outcome).run t = _
  rw [if_neg moved]

theorem repeatFrom_last (last : LastRound p src values.reverse pos s x t) :
    (repeatFrom p src (fuel + 1) values pos).run s = some (x, t) := by
  cases last with
  | failed round =>
      rw [repeatFrom, Action.run_bind, round]
      rfl
  | still round =>
      rw [repeatFrom, Action.run_bind, round]
      change (if pos = pos then _ else _ : Action σ Outcome).run t = _
      rw [if_pos rfl]
      rfl
  | fault round => rw [repeatFrom, Action.run_bind, round]

/-- A loop that goes on from each round goes through all of them. -/
theorem Advances.run_loop {loop : Nat → List Value → Int → Action σ Outcome}
    (onward : ∀ {fuel values pos next s t v}, (p src pos).run s = some (.ok (.matched v next), t) →
      next ≠ pos →
      (loop (fuel + 1) values pos).run s = (loop fuel (v :: values) next).run t)
    (rounds : Advances p src pos s places vs stop t) (fuel : Nat) (values : List Value) :
    (loop (places.length + fuel) values pos).run s =
      (loop fuel (vs.reverse ++ values) stop).run t := by
  induction rounds generalizing values with
  | nil pos s => rw [List.length_nil, Nat.zero_add, List.reverse_nil, List.nil_append]
  | cons round moved more ih =>
      rw [List.length_cons, Nat.add_right_comm, onward round moved, ih, List.reverse_cons,
        List.append_assoc, List.singleton_append]

theorem Advances.repeatFrom (rounds : Advances p src pos s places vs stop t)
    (last : LastRound p src (values.reverse ++ vs) stop t x u) (enough : places.length < fuel) :
    (repeatFrom p src fuel values pos).run s = some (x, u) := by
  obtain ⟨fuel, rfl⟩ := Nat.exists_eq_add_of_lt enough
  rw [Nat.add_assoc, rounds.run_loop repeatFrom_round]
  exact repeatFrom_last (by simpa using last)

/-- A repetition that ends has gone through rounds. -/
theorem advances_of_repeatFrom (ended : (repeatFrom p src fuel values pos).run s = some (x, u)) :
    ∃ places vs stop t, Advances p src pos s places vs stop t ∧
      LastRound p src (values.reverse ++ vs) stop t x u ∧ places.length < fuel := by
  induction fuel generalizing values pos s with
  | zero => cases ended
  | succ fuel ih =>
      rw [repeatFrom, Action.run_bind_eq_some] at ended
      have here (last : LastRound p src values.reverse pos s x u) :
          ∃ places vs stop t, Advances p src pos s places vs stop t ∧
            LastRound p src (values.reverse ++ vs) stop t x u ∧ places.length < fuel + 1 :=
        ⟨[], [], pos, s, .nil pos s, by rwa [List.append_nil], Nat.succ_pos fuel⟩
      rcases ended with ⟨e, round, rfl⟩ | ⟨r, t, round, continued⟩
      · exact here (.fault round)
      · cases r with
        | failure f =>
            cases continued
            exact here (.failed round)
        | success r =>
            obtain ⟨v, next⟩ := r
            change (if next = pos then _ else _ : Action σ Outcome).run t = _ at continued
            split at continued
            next halted =>
              subst halted
              cases continued
              exact here (.still round)
            next moved =>
              obtain ⟨places, vs, stop, w, rounds, last, enough⟩ := ih continued
              exact ⟨pos :: places, v :: vs, stop, w, .cons round moved rounds, by simpa using last,
                Nat.succ_lt_succ enough⟩

theorem many_run_iff : (many fuel p src pos).run s = some (x, u) ↔
    ∃ places vs stop t, Advances p src pos s places vs stop t ∧ LastRound p src vs stop t x u ∧
      places.length < fuel := by
  constructor
  · exact advances_of_repeatFrom
  · rintro ⟨places, vs, stop, t, rounds, last, enough⟩
    exact rounds.repeatFrom last enough

/-! The record of a run. -/

/-- Does the same, and puts on record from where it is run. -/
def logged (p : Matcher σ) : Matcher (σ × List Int) := fun src pos => fun (s, log) =>
  ((p src pos).run s).map fun (x, t) => (x, t, log ++ [pos])

theorem run_logged {x : Except Fault Outcome} (ran : (p src pos).run s = some (x, t))
    (log : List Int) :
    (p.logged src pos).run (s, log) = some (x, t, log ++ [pos]) := by
  change ((p src pos).run s).map _ = _
  rw [ran]
  rfl

theorem Advances.logged (rounds : Advances p src pos s places vs stop t) (log : List Int) :
    Advances p.logged src pos (s, log) places vs stop (t, log ++ places) := by
  induction rounds generalizing log with
  | nil pos s =>
      rw [List.append_nil]
      exact .nil pos _
  | cons round moved more ih =>
      rw [List.append_cons]
      exact .cons (run_logged round log) moved (ih _)

theorem LastRound.logged (last : LastRound p src vs stop s x t) (log : List Int) :
    LastRound p.logged src vs stop (s, log) x (t, log ++ [stop]) := by
  cases last with
  | failed round => exact .failed (run_logged round log)
  | still round => exact .still (run_logged round log)
  | fault round => exact .fault (run_logged round log)

/-- A repetition runs its rounds, and nothing else. -/
theorem many_run_logged (rounds : Advances p src pos s places vs stop t)
    (last : LastRound p src vs stop t x u) (enough : places.length < fuel) (log : List Int) :
    (many fuel p.logged src pos).run (s, log) = some (x, u, log ++ (places ++ [stop])) := by
  refine (rounds.logged log).repeatFrom ?_ enough
  rw [← List.append_assoc]
  exact last.logged _

end Descent.Matcher
