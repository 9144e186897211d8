import Descent.Proofs.Matcher.Answering
import Descent.Proofs.Repetition.Rounds

/-!
The laws of repetition. The same loop is behind matching many times, at least once and with
separators, and starts in a different way in each. Main statement: each of them is written down with
the plain one.
-/

namespace Descent

/-- Puts the first of two values before those in the list that is the second one. -/
def Value.prepend : Value → Except Fault Value
  | .tuple [v, .list vs] => .ok (.list (v :: vs))
  | _ => .error .illTyped

namespace Matcher

variable {σ : Type}

/-- Where it matches from within the text, it ends within the text. -/
def StaysInside (p : Matcher σ) (src : Text) : Prop :=
  ∀ ⦃i next : Int⦄ ⦃s t : σ⦄ ⦃v : Value⦄, 0 ≤ i → i ≤ src.length →
    (p src i).run s = some (.ok (.matched v next), t) → 0 ≤ next ∧ next ≤ src.length

/-! The first match. -/

/-- What has matched at first goes before all the rest. -/
theorem repeatFrom_append (p : Matcher σ) (src : Text) (fuel : Nat) (values : List Value)
    (v : Value) (pos : Int) :
    repeatFrom p src fuel (values ++ [v]) pos = (do
      match ← repeatFrom p src fuel values pos with
      | .success r =>
          return .success (r.withValue (← Action.ofExcept (Value.prepend (.tuple [v, r.value]))))
      | .failure f => return .failure f) := by
  induction fuel generalizing values pos with
  | zero => rfl
  | succ fuel ih =>
      rw [repeatFrom, repeatFrom, bind_assoc]
      refine bind_congr fun r => ?_
      cases r with
      | failure f =>
          rw [List.reverse_append]
          rfl
      | success r =>
          dsimp only
          split
          next =>
            rw [List.reverse_append]
            rfl
          next => exact ih (r.value :: values) r.pos

theorem chain_eq_map (fuel : Nat) (first rest : Matcher σ) :
    chain fuel first rest = map (seq [first, many fuel rest])
      (fun v => Action.ofExcept v.prepend) none := by
  funext src pos
  unfold chain map
  rw [seq, stages, bind_assoc]
  refine bind_congr fun r => ?_
  cases r with
  | failure f => rfl
  | success r =>
      change repeatFrom rest src fuel ([] ++ [r.value]) r.pos = _
      rw [repeatFrom_append]
      dsimp only
      rw [stages, bind_assoc]
      refine bind_congr fun r' => ?_
      cases r' with
      | failure f => rfl
      | success r' => rfl

variable {p first rest separator : Matcher σ} {src : Text} {pos next stop : Int} {s t u w : σ}
  {places : List Int} {v : Value} {vs : List Value} {x : Except Fault Outcome} {fuel : Nat}

/-- The first match may stay where it is. -/
theorem chain_run_advances (opened : (first src pos).run s = some (.ok (.matched v next), t))
    (rounds : Advances rest src next t places vs stop u)
    (last : LastRound rest src (v :: vs) stop u x w) (enough : places.length < fuel) :
    (chain fuel first rest src pos).run s = some (x, w) := by
  unfold chain
  rw [Action.run_bind, opened]
  exact rounds.repeatFrom last enough

theorem advances_of_chain {r : Success}
    (ended : (chain fuel first rest src pos).run s = some (.ok (.success r), w)) :
    ∃ v next t places vs stop u, (first src pos).run s = some (.ok (.matched v next), t) ∧
      Advances rest src next t places vs stop u ∧ r = ⟨.list (v :: vs), stop⟩ := by
  unfold chain at ended
  rcases Action.run_bind_eq_some.mp ended with ⟨e, -, ⟨⟩⟩ | ⟨outcome, t, opened, continued⟩
  cases outcome with
  | failure f => cases continued
  | success first =>
      obtain ⟨places, vs, stop, u, rounds, last, -⟩ := advances_of_repeatFrom continued
      refine ⟨first.value, first.pos, t, places, vs, stop, u, opened, rounds, ?_⟩
      cases last with
      | failed round => rfl
      | still round => rfl

/-! Separators. -/

theorem advances_after_last (rounds : Advances (after separator p) src next t places vs stop u) :
    (vs = [] ∧ stop = next) ∨
      ∃ vs' v i a b, vs = vs' ++ [v] ∧ (p src i).run a = some (.ok (.matched v stop), b) := by
  induction rounds with
  | nil pos s => exact .inl ⟨rfl, rfl⟩
  | @cons pos next stop s t u places v vs round moved more ih =>
      refine .inr ?_
      rcases ih with ⟨rfl, rfl⟩ | ⟨vs', v', i, a, b, rfl, item⟩
      · rw [after_eq] at round
        rcases Action.run_bind_eq_some.mp round with ⟨e, -, ⟨⟩⟩ | ⟨r, a, -, item⟩
        cases r with
        | failure f => cases item
        | success r => exact ⟨[], v, r.pos, a, t, rfl, item⟩
      · exact ⟨v :: vs', v', i, a, b, rfl, item⟩

/-- A repetition with separators ends with an item. -/
theorem sepBy_last_item {r : Success}
    (ended : (sepBy fuel separator p src pos).run s = some (.ok (.success r), w)) :
    ∃ vs v i a b, r.value = .list (vs ++ [v]) ∧
      (p src i).run a = some (.ok (.matched v r.pos), b) := by
  obtain ⟨v, next, t, places, vs, stop, u, opened, rounds, rfl⟩ := advances_of_chain ended
  rcases advances_after_last rounds with ⟨rfl, rfl⟩ | ⟨vs', v', i, a, b, rfl, item⟩
  · exact ⟨[], v, pos, s, t, rfl, opened⟩
  · exact ⟨v :: vs', v', i, a, b, rfl, item⟩

theorem lastRound_after {v' : Value} {mid : Int} {f : Failure}
    (separated : (separator src stop).run s = some (.ok (.matched v' mid), t))
    (missing : (p src mid).run t = some (.ok (.failure f), u)) (vs : List Value) :
    LastRound (after separator p) src vs stop s (.ok (.matched (.list vs) stop)) u := by
  refine .failed (f := f) ?_
  rw [after_eq, Action.run_bind, separated]
  exact missing

/-! Advances that are as good as others. -/

theorem repeatFrom_optional (p : Matcher σ) (src : Text) (fuel : Nat) (values : List Value)
    (pos : Int) :
    repeatFrom (optional p) src fuel values pos = repeatFrom p src fuel values pos := by
  induction fuel generalizing values pos with
  | zero => rfl
  | succ fuel ih =>
      rw [repeatFrom, repeatFrom, optional_eq, bind_assoc]
      refine bind_congr fun r => ?_
      cases r with
      | failure f => exact if_pos rfl
      | success r =>
          rw [pure_bind]
          dsimp only
          rw [ih]

theorem after_empty (nonneg : 0 ≤ pos) (inside : pos ≤ src.length) (p : Matcher σ) :
    after (string []) p src pos = p src pos := by
  obtain ⟨i, rfl⟩ := Int.eq_ofNat_of_zero_le nonneg
  have remains : src.Remains i (src.drop i) := ⟨by omega, rfl⟩
  exact after_onward (string_matched remains List.nil_prefix)

theorem repeatFrom_congr {q : Matcher σ} (stays : p.StaysInside src)
    (same : ∀ i : Int, 0 ≤ i → i ≤ src.length → q src i = p src i) (fuel : Nat)
    (values : List Value) (nonneg : 0 ≤ pos) (inside : pos ≤ src.length) (s : σ) :
    (repeatFrom q src fuel values pos).run s = (repeatFrom p src fuel values pos).run s := by
  induction fuel generalizing values pos s with
  | zero => rfl
  | succ fuel ih =>
      rw [repeatFrom, repeatFrom, same pos nonneg inside, Action.run_bind, Action.run_bind]
      cases round : (p src pos).run s with
      | none => rfl
      | some result =>
          obtain ⟨_ | (r | f), t⟩ := result
          · rfl
          · obtain ⟨above, below⟩ := stays nonneg inside round
            dsimp only
            split
            next => rfl
            next => exact ih (r.value :: values) above below t
          · rfl

theorem many1_eq_sepBy (stays : p.StaysInside src) (nonneg : 0 ≤ pos) (inside : pos ≤ src.length)
    (fuel : Nat) :
    many1 fuel p src pos = sepBy fuel (string []) p src pos := by
  refine Action.ext fun s => ?_
  unfold many1 sepBy chain
  rw [Action.run_bind, Action.run_bind]
  cases opened : (p src pos).run s with
  | none => rfl
  | some result =>
      obtain ⟨_ | (r | f), t⟩ := result
      · rfl
      · obtain ⟨above, below⟩ := stays nonneg inside opened
        exact (repeatFrom_congr stays (fun i nonneg inside => after_empty nonneg inside p) fuel
          _ above below t).symm
      · rfl

end Matcher

/-! The same of parsers that are built. -/

namespace Parser

theorem run_many1 (fuel : Nat) (p : Parser) :
    run fuel (.many1 p) = run fuel (.map (.seq [p, .many p]) (.silent Value.prepend) none) := by
  cases fuel with
  | zero => exact Matcher.chain_eq_map 0 _ _
  | succ fuel => exact Matcher.chain_eq_map (fuel + 1) _ _

theorem run_sepBy (fuel : Nat) (separator p : Parser) :
    run fuel (.sepBy separator p) =
      run fuel (.map (.seq [p, .many (.map (.seq [separator, p]) (.silent (Value.item 1)) none)])
        (.silent Value.prepend) none) := by
  cases fuel with
  | zero => exact Matcher.chain_eq_map 0 _ _
  | succ fuel => exact Matcher.chain_eq_map (fuel + 1) _ _

theorem run_many_optional (fuel : Nat) (p : Parser) :
    run fuel (.many (.alt [p, .succeed .none])) = run fuel (.many p) := by
  funext src pos
  cases fuel with
  | zero => rfl
  | succ fuel =>
      exact Matcher.repeatFrom_optional (runWith (run fuel) (fuel + 1) p) src (fuel + 1) [] pos

end Parser

namespace Matcher

variable {σ : Type}

/-- Equal matchers answer the same from every state and leave the same one behind. Since the state
may be a record of all runs, the parts are run in the same order too. -/
theorem repetition_laws (fuel : Nat) (p separator : Matcher σ) (src : Text) (pos : Int) :
    (∀ s x w, (many fuel p src pos).run s = some (x, w) ↔
      ∃ places vs stop u, Advances p src pos s places vs stop u ∧ LastRound p src vs stop u x w ∧
        places.length < fuel) ∧
    (∀ s places vs stop u x w, Advances p src pos s places vs stop u →
      LastRound p src vs stop u x w →
      places.length < fuel → ∀ log,
        (many fuel p.logged src pos).run (s, log) = some (x, w, log ++ (places ++ [stop]))) ∧
    many1 fuel p = map (seq [p, many fuel p]) (fun v => Action.ofExcept v.prepend) none ∧
    (∀ s v next t places vs stop u x w, (p src pos).run s = some (.ok (.matched v next), t) →
      Advances p src next t places vs stop u → LastRound p src (v :: vs) stop u x w →
        places.length < fuel →
        (many1 fuel p src pos).run s = some (x, w)) ∧
    sepBy fuel separator p =
      map (seq [p, many fuel (after separator p)]) (fun v => Action.ofExcept v.prepend) none ∧
    (∀ s r w, (sepBy fuel separator p src pos).run s = some (.ok (.success r), w) →
      ∃ vs v i a b, r.value = .list (vs ++ [v]) ∧
        (p src i).run a = some (.ok (.matched v r.pos), b)) ∧
    (∀ s v next t places vs stop u v' mid u' f w,
      (p src pos).run s = some (.ok (.matched v next), t) →
      Advances (after separator p) src next t places vs stop u → places.length < fuel →
      (separator src stop).run u = some (.ok (.matched v' mid), u') →
      (p src mid).run u' = some (.ok (.failure f), w) →
        (sepBy fuel separator p src pos).run s = some (.ok (.matched (.list (v :: vs)) stop), w)) ∧
    many fuel (optional p) = many fuel p ∧
    (p.StaysInside src → 0 ≤ pos → pos ≤ src.length →
      many1 fuel p src pos = sepBy fuel (string []) p src pos) := by
  refine ⟨fun s x w => many_run_iff, ?recorded, chain_eq_map fuel p p, ?kept,
    chain_eq_map fuel p (after separator p), fun s r w => sepBy_last_item, ?returned, ?optional,
      ?separated⟩
  case recorded =>
    intro s places vs stop u x w rounds last enough log
    exact many_run_logged rounds last enough log
  case kept =>
    intro s v next t places vs stop u x w opened rounds last enough
    exact chain_run_advances opened rounds last enough
  case returned =>
    intro s v next t places vs stop u v' mid u' f w opened rounds enough separated missing
    exact chain_run_advances opened rounds (lastRound_after separated missing (v :: vs)) enough
  case optional =>
    funext src pos
    exact repeatFrom_optional p src fuel [] pos
  case separated =>
    intro stays nonneg inside
    exact many1_eq_sepBy stays nonneg inside fuel

theorem char_staysInside (c : CodePoint) (src : Text) : (char c : Matcher σ).StaysInside src := by
  intro i next s t v nonneg inside ran
  rcases Action.run_bind_eq_some.mp ran with ⟨e, -, ⟨⟩⟩ | ⟨seen, u, looked, continued⟩
  cases seen with
  | none => cases continued
  | some d =>
      have found := Option.some.inj ((Action.run_ofExcept (src.lookAt i) s).symm.trans looked)
      have within := Text.lt_length_of_lookAt (Prod.mk.inj found).1
      change (if d == c then _ else _ : Action σ Outcome).run u = _ at continued
      split at continued
      next =>
        cases continued
        omega
      next => cases continued

/-- The separator that nothing follows is left, and the empty text is matched once. -/
theorem repetition_laws_letters :
    (many 3 (logged (char 'a')) (Text.ofString "aab") 0).run ((), []) =
      some (.ok (.matched (.list [.text ['a'], .text ['a']]) 2), (), [0, 1, 2]) ∧
    (many1 1 (string []) (Text.ofString "aab") 1).run () =
      some (.ok (.matched (.list [.text []]) 1), ()) ∧
    (sepBy 2 (string (Text.ofString ",")) (char 'a') (Text.ofString "a,a,b") 0).run () =
      some (.ok (.matched (.list [.text ['a'], .text ['a']]) 3), ()) ∧
    many1 3 (char 'a') (Text.ofString "aab") 0 =
      sepBy 3 (string []) (char 'a' : Matcher Unit) (Text.ofString "aab") 0 := by
  have letters : Advances (char 'a') (Text.ofString "aab") 0 () [0, 1] [.text ['a'], .text ['a']] 2
    () :=
    .cons rfl (by decide) (.cons rfl (by decide) (.nil 2 ()))
  have separated : Advances (after (string (Text.ofString ",")) (char 'a'))
      (Text.ofString "a,a,b") 1 () [1] [.text ['a']] 3 () := .cons rfl (by decide) (.nil 3 ())
  obtain ⟨-, recorded, -, -, -, -, -, -, agree⟩ := repetition_laws 3 (char 'a')
    (string []) (Text.ofString "aab") 0
  obtain ⟨-, -, -, kept, -⟩ := repetition_laws 1 (string []) (string []) (Text.ofString "aab") 1
  obtain ⟨-, -, -, -, -, -, returned, -⟩ := repetition_laws 2 (char 'a')
    (string (Text.ofString ",")) (Text.ofString "a,a,b") 0
  refine ⟨?_, ?_, ?_, ?_⟩
  · exact recorded () _ _ 2 () _ () letters (.failed rfl) (by decide) []
  · exact kept () (.text []) 1 () [] [] 1 () _ () rfl (.nil 1 ()) (.still rfl) (by decide)
  · exact returned () (.text ['a']) 1 () [1] [.text ['a']] 3 () _ 4 () _ () rfl separated
      (by decide) rfl rfl
  · exact agree (char_staysInside _ _) (by decide) (by decide)

end Matcher

end Descent
