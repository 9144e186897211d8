import Descent.Matcher.Lookahead
import Descent.Proofs.Repetition.Rounds

/-!
Matching until something else would match. The rounds are those of a repetition that excludes it;
only the last round tells the two apart. Main statement: both answer the same, unless there is
neither the one nor the other where they end.
-/

namespace Descent.Matcher

variable {σ : Type}

/-- Leaves the state behind as it was. -/
def Quiet (p : Matcher σ) (src : Text) : Prop :=
  ∀ ⦃i : Int⦄ ⦃s t : σ⦄ ⦃x : Except Fault Outcome⦄, (p src i).run s = some (x, t) → t = s

/-- What it matches can be shown where it should not have matched. -/
def Showable (p : Matcher σ) (src : Text) : Prop :=
  ∀ ⦃i : Int⦄ ⦃s t : σ⦄ ⦃r : Success⦄, (p src i).run s = some (.ok (.success r), t) →
    ∃ label, unwanted r.value = .ok label

def MatchesAt (p : Matcher σ) (src : Text) (i : Int) (s : σ) : Prop :=
  ∃ r t, (p src i).run s = some (.ok (.success r), t)

def FailsAt (p : Matcher σ) (src : Text) (i : Int) (s : σ) : Prop :=
  ∃ f t, (p src i).run s = some (.ok (.failure f), t)

/-- The round that ends matching until `stop` would match, and what comes of it if `vs` has matched
before. -/
inductive LastBefore (stop p : Matcher σ) (src : Text) (vs : List Value) (pos : Int) (s : σ) :
    Outcome → σ → Prop
  | marked {r : Success} {t : σ} (here : (stop src pos).run s = some (.ok (.success r), t)) :
      LastBefore stop p src vs pos s (.matched (.list vs) pos) t
  | still {f : Failure} {v : Value} {t u : σ}
      (clear : (stop src pos).run s = some (.ok (.failure f), t))
      (round : (p src pos).run t = some (.ok (.matched v pos), u)) :
      LastBefore stop p src vs pos s (.matched (.list vs) pos) u
  | failed {f g : Failure} {t u : σ} (clear : (stop src pos).run s = some (.ok (.failure f), t))
      (round : (p src pos).run t = some (.ok (.failure g), u)) :
      LastBefore stop p src vs pos s (.failure g) u

variable {stop p : Matcher σ} {src : Text} {pos next q : Int} {s t u : σ} {places : List Int}
  {v : Value}
  {vs values : List Value} {r : Outcome} {fuel : Nat}

theorem MatchesAt.not_failsAt (here : p.MatchesAt src pos s) : ¬ p.FailsAt src pos s := by
  rintro ⟨f, t, failed⟩
  obtain ⟨r, u, matched⟩ := here
  cases failed.symm.trans matched

/-! One round. -/

theorem except_run_marked {m : Success} {label : Text}
    (here : (stop src pos).run s = some (.ok (.success m), t))
    (shown : unwanted m.value = .ok label) :
    (except stop p src pos).run s = some (.ok (.failed label pos), t) := by
  unfold except
  rw [Action.run_bind, here]
  change (Action.ofExcept (unwanted m.value) >>= _ : Action σ Outcome).run t = _
  rw [shown]
  rfl

theorem except_run_clear {f : Failure} (clear : (stop src pos).run s = some (.ok (.failure f), t)) :
    (except stop p src pos).run s = (p src pos).run t := by
  unfold except
  rw [Action.run_bind, clear]

/-- What is excluded is there, or the matcher itself has answered. -/
theorem except_run_cases (ran : (except stop p src pos).run s = some (.ok r, u)) :
    (∃ m label, (stop src pos).run s = some (.ok (.success m), u) ∧ r = .failed label pos) ∨
      ∃ f t, (stop src pos).run s = some (.ok (.failure f), t) ∧
        (p src pos).run t = some (.ok r, u) := by
  rcases Action.run_bind_eq_some.mp ran with ⟨e, -, ⟨⟩⟩ | ⟨outcome, t, stopped, continued⟩
  cases outcome with
  | failure f => exact .inr ⟨f, t, stopped, continued⟩
  | success m =>
      refine .inl ?_
      rcases Action.run_bind_eq_some.mp continued with ⟨e, -, ⟨⟩⟩ | ⟨label, w, shown, failed⟩
      have same := Option.some.inj ((Action.run_ofExcept (unwanted m.value) t).symm.trans shown)
      obtain ⟨-, rfl⟩ := Prod.mk.inj same
      cases failed
      exact ⟨m, label, stopped, rfl⟩

theorem except_run_matched (ran : (except stop p src pos).run s = some (.ok (.matched v next), u)) :
    ∃ f t, (stop src pos).run s = some (.ok (.failure f), t) ∧
      (p src pos).run t = some (.ok (.matched v next), u) := by
  rcases except_run_cases ran with ⟨m, label, -, ⟨⟩⟩ | clear
  exact clear

/-! Both loops. -/

theorem upToFrom_round (round : (except stop p src pos).run s = some (.ok (.matched v next), t))
    (moved : next ≠ pos) :
    (upToFrom stop p src (fuel + 1) values pos).run s =
      (upToFrom stop p src fuel (v :: values) next).run t := by
  obtain ⟨f, u, clear, matched⟩ := except_run_matched round
  rw [upToFrom, Action.run_bind, clear]
  dsimp only
  rw [Action.run_bind, matched]
  change (if next = pos then _ else _ : Action σ Outcome).run t = _
  rw [if_neg moved]

theorem upToFrom_last (last : LastBefore stop p src values.reverse pos s r t) :
    (upToFrom stop p src (fuel + 1) values pos).run s = some (.ok r, t) := by
  cases last with
  | marked here =>
      rw [upToFrom, Action.run_bind, here]
      rfl
  | still clear round =>
      rw [upToFrom, Action.run_bind, clear]
      dsimp only
      rw [Action.run_bind, round]
      change (if pos = pos then _ else _ : Action σ Outcome).run t = _
      rw [if_pos rfl]
      rfl
  | failed clear round =>
      rw [upToFrom, Action.run_bind, clear]
      dsimp only
      rw [Action.run_bind, round]
      rfl

theorem Advances.upToFrom (rounds : Advances (except stop p) src pos s places vs q t)
    (last : LastBefore stop p src (values.reverse ++ vs) q t r u) (enough : places.length < fuel) :
    (upToFrom stop p src fuel values pos).run s = some (.ok r, u) := by
  obtain ⟨fuel, rfl⟩ := Nat.exists_eq_add_of_lt enough
  rw [Nat.add_assoc, rounds.run_loop upToFrom_round]
  exact upToFrom_last (by simpa using last)

theorem advances_of_upToFrom
    (ended : (upToFrom stop p src fuel values pos).run s = some (.ok r, u)) :
    ∃ places vs q t, Advances (except stop p) src pos s places vs q t ∧
      LastBefore stop p src (values.reverse ++ vs) q t r u ∧ places.length < fuel := by
  induction fuel generalizing values pos s with
  | zero => cases ended
  | succ fuel ih =>
      have here (last : LastBefore stop p src values.reverse pos s r u) :
          ∃ places vs q t, Advances (except stop p) src pos s places vs q t ∧
            LastBefore stop p src (values.reverse ++ vs) q t r u ∧ places.length < fuel + 1 :=
        ⟨[], [], pos, s, .nil pos s, by rwa [List.append_nil], Nat.succ_pos fuel⟩
      rw [upToFrom] at ended
      rcases Action.run_bind_eq_some.mp ended with ⟨e, -, ⟨⟩⟩ | ⟨outcome, t, stopped, continued⟩
      cases outcome with
      | success m =>
          cases continued
          exact here (.marked stopped)
      | failure f =>
          rcases Action.run_bind_eq_some.mp continued with
            ⟨e, -, ⟨⟩⟩ | ⟨outcome, w, round, continued⟩
          cases outcome with
          | failure g =>
              cases continued
              exact here (.failed stopped round)
          | success m =>
              obtain ⟨v, next⟩ := m
              change (if next = pos then _ else _ : Action σ Outcome).run w = _ at continued
              split at continued
              next halted =>
                subst halted
                cases continued
                exact here (.still stopped round)
              next moved =>
                obtain ⟨places, vs, q, t', rounds, last, enough⟩ := ih continued
                exact ⟨pos :: places, v :: vs, q, t',
                  .cons ((except_run_clear stopped).trans round) moved rounds, by
                    simpa using last, Nat.succ_lt_succ enough⟩

/-! The last round, in the one loop and the other. -/

theorem LastBefore.lastRound (last : LastBefore stop p src vs q s r t)
    (showable : stop.Showable src) :
    LastRound (except stop p) src vs q s (.ok (.matched (.list vs) q)) t := by
  cases last with
  | marked here =>
      obtain ⟨label, shown⟩ := showable here
      exact .failed (except_run_marked here shown)
  | still clear round => exact .still ((except_run_clear clear).trans round)
  | failed clear round => exact .failed ((except_run_clear clear).trans round)

theorem LastRound.lastBefore (last : LastRound (except stop p) src vs q s (.ok r) t) :
    r = .matched (.list vs) q ∧ ∃ r', LastBefore stop p src vs q s r' t := by
  cases last with
  | failed round =>
      refine ⟨rfl, ?_⟩
      rcases except_run_cases round with ⟨m, label, here, -⟩ | ⟨f, u, clear, failed⟩
      · exact ⟨_, .marked here⟩
      · exact ⟨_, .failed clear failed⟩
  | still round =>
      obtain ⟨f, u, clear, matched⟩ := except_run_matched round
      exact ⟨rfl, _, .still clear matched⟩

/-- The one loop ends where the other one does. -/
theorem many_except_ends_iff (showable : stop.Showable src) :
    (∃ r, (many fuel (except stop p) src pos).run s = some (.ok r, t)) ↔
      ∃ r, (upTo fuel stop p src pos).run s = some (.ok r, t) := by
  constructor
  · rintro ⟨r, ended⟩
    obtain ⟨places, vs, q, u, rounds, last, enough⟩ := advances_of_repeatFrom ended
    obtain ⟨-, r', before⟩ := last.lastBefore
    exact ⟨r', rounds.upToFrom before enough⟩
  · rintro ⟨r, ended⟩
    obtain ⟨places, vs, q, u, rounds, last, enough⟩ := advances_of_upToFrom ended
    exact ⟨_, rounds.repeatFrom (last.lastRound showable) enough⟩

/-! Without effects. -/

theorem Advances.quiet (rounds : Advances (except stop p) src pos s places vs q t)
    (quietStop : stop.Quiet src) (quiet : p.Quiet src) :
    t = s ∧ Advances p src pos s places vs q s ∧ ∀ i ∈ places, stop.FailsAt src i s := by
  induction rounds with
  | nil pos s => exact ⟨rfl, .nil pos s, List.forall_mem_nil _⟩
  | cons round moved more ih =>
      obtain ⟨f, u, clear, matched⟩ := except_run_matched round
      obtain rfl := quietStop clear
      obtain rfl := quiet matched
      obtain ⟨rfl, rounds, apart⟩ := ih
      exact ⟨rfl, .cons matched moved rounds, List.forall_mem_cons.mpr ⟨⟨f, _, clear⟩, apart⟩⟩

/-- A repetition that excludes something ends with a round that also ends the loop of the other
kind. -/
theorem many_except_ended (quietStop : stop.Quiet src) (quiet : p.Quiet src)
    (ended : (many fuel (except stop p) src pos).run s = some (.ok r, t)) :
    t = s ∧ ∃ vs q places r', r = .matched (.list vs) q ∧ Advances p src pos s places vs q s ∧
      (∀ i ∈ places, stop.FailsAt src i s) ∧ LastBefore stop p src vs q s r' s ∧
      (upTo fuel stop p src pos).run s = some (.ok r', s) := by
  obtain ⟨places, vs, q, u, rounds, last, enough⟩ := advances_of_repeatFrom ended
  obtain ⟨rfl, r', before⟩ := last.lastBefore
  have answered := rounds.upToFrom before enough
  obtain ⟨rfl, rounds, apart⟩ := rounds.quiet quietStop quiet
  have same : t = u := by
    cases before with
    | marked here => exact quietStop here
    | still clear round => exact (quiet round).trans (quietStop clear)
    | failed clear round => exact (quiet round).trans (quietStop clear)
  subst same
  exact ⟨rfl, vs, q, places, r', rfl, rounds, apart, before, answered⟩

theorem upTo_many_except (quietStop : stop.Quiet src) (quiet : p.Quiet src) (fuel : Nat) (pos : Int)
    (s : σ) :
    (stop.Showable src → ∀ t, (∃ r, (many fuel (except stop p) src pos).run s = some (.ok r, t)) ↔
      ∃ r, (upTo fuel stop p src pos).run s = some (.ok r, t)) ∧
    ∀ r t, (many fuel (except stop p) src pos).run s = some (.ok r, t) →
      t = s ∧ ∃ vs q places, r = .matched (.list vs) q ∧
        Advances p src pos s places vs q s ∧ (∀ i ∈ places, stop.FailsAt src i s) ∧
        (stop.MatchesAt src q s ∨ p.MatchesAt src q s →
          (upTo fuel stop p src pos).run s = some (.ok (.matched (.list vs) q), s)) ∧
        (¬ stop.MatchesAt src q s → ∀ v next u, (p src q).run s = some (.ok (.matched v next), u) →
          next = q) ∧
        (¬ (stop.MatchesAt src q s ∨ p.MatchesAt src q s) →
          ∃ f, (p src q).run s = some (.ok (.failure f), s) ∧
            (upTo fuel stop p src pos).run s = some (.ok (.failure f), s)) ∧
        ∀ m u, (upTo fuel stop p src pos).run s = some (.ok (.success m), u) → .success m = r := by
  refine ⟨fun showable t => many_except_ends_iff showable, fun r t ended => ?_⟩
  obtain ⟨rfl, vs, q, places, r', rfl, rounds, apart, before, answered⟩ :=
    many_except_ended quietStop quiet ended
  cases before with
  | marked here =>
      have marked : stop.MatchesAt src q t := ⟨_, t, here⟩
      refine ⟨rfl, vs, q, places, rfl, rounds, apart, fun _ => answered,
        fun absent => absurd marked absent, fun neither => absurd (.inl marked) neither,
        fun m u success => ?_⟩
      cases answered.symm.trans success
      rfl
  | still clear round =>
      obtain rfl := quietStop clear
      refine ⟨rfl, vs, q, places, rfl, rounds, apart, fun _ => answered, fun _ v next u other => ?_,
        fun neither => absurd (.inr ⟨_, _, round⟩) neither, fun m u success => ?_⟩
      · cases round.symm.trans other
        rfl
      · cases answered.symm.trans success
        rfl
  | failed clear round =>
      obtain rfl := quietStop clear
      refine ⟨rfl, vs, q, places, rfl, rounds, apart, fun either => ?_, fun _ v next u other => ?_,
        fun _ => ⟨_, round, answered⟩, fun m u success => ?_⟩
      · rcases either with marked | matched
        · exact absurd ⟨_, _, clear⟩ marked.not_failsAt
        · exact absurd ⟨_, _, round⟩ matched.not_failsAt
      · cases round.symm.trans other
      · cases answered.symm.trans success

theorem string_quiet (t src : Text) : (string t : Matcher σ).Quiet src := by
  intro i s u x ran
  unfold string at ran
  split at ran
  · cases ran
    rfl
  · cases ran
    rfl

theorem upTo_many_except_bracket :
    (upTo 3 (string (Text.ofString "]")) (string (Text.ofString "a"))
        (Text.ofString "xaa]") 1).run () =
      (many 3 (except (string (Text.ofString "]")) (string (Text.ofString "a")))
        (Text.ofString "xaa]") 1).run () ∧
    (upTo 2 (string (Text.ofString "]")) (string (Text.ofString "a"))
        (Text.ofString "ab]") 0).run () =
      some (.ok (.failed (Text.inQuotes (Text.ofString "a")) 1), ()) := by
  have quietStop (src : Text) : (string (Text.ofString "]") : Matcher Unit).Quiet src :=
    string_quiet _ src
  have quiet (src : Text) : (string (Text.ofString "a") : Matcher Unit).Quiet src :=
    string_quiet _ src
  constructor
  · have ended : (many 3 (except (string (Text.ofString "]")) (string (Text.ofString "a")))
        (Text.ofString "xaa]") 1).run () =
        some (.ok (.matched (.list [.text (Text.ofString "a"),
          .text (Text.ofString "a")]) 3), ()) := rfl
    obtain ⟨-, vs, q, places, same, -, -, found, -⟩ :=
      (upTo_many_except (quietStop _) (quiet _) 3 1 ()).2 _ _ ended
    cases same
    exact (found (.inl ⟨_, (), rfl⟩)).trans ended.symm
  · have ended : (many 2 (except (string (Text.ofString "]")) (string (Text.ofString "a")))
        (Text.ofString "ab]") 0).run () =
          some (.ok (.matched (.list [.text (Text.ofString "a")]) 1), ()) := rfl
    obtain ⟨-, vs, q, places, same, -, -, -, -, neither, -⟩ :=
      (upTo_many_except (quietStop _) (quiet _) 2 0 ()).2 _ _ ended
    cases same
    obtain ⟨f, failed, answered⟩ := neither (by
      rintro (⟨r, t, matched⟩ | ⟨r, t, matched⟩)
      · cases matched
      · cases matched)
    cases failed
    exact answered

end Descent.Matcher
