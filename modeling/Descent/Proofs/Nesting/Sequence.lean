import Descent.Parser.Run
import Descent.Proofs.Correspondence.Basic
import Descent.Proofs.Nesting.Basic

/-!
Sequences within sequences. Main statement: however stages are bracketed, they are run in order,
each from where the one before it stopped, until one of them does not match; the brackets show in
the value only.
-/

namespace Descent

namespace Nesting

variable {α : Type}

mutual

/-- Tuples in the shape of a nesting, filled with values from left to right. -/
def grouped : Nesting α → List Value → Value
  | .leaf _, vs => vs.headD .none
  | .node t ts, vs => .tuple (t.grouped vs :: groupedAll ts (vs.drop t.leaves.length))

def groupedAll : List (Nesting α) → List Value → List Value
  | [], _ => []
  | t :: ts, vs => t.grouped vs :: groupedAll ts (vs.drop t.leaves.length)

end

mutual

theorem grouped_append : ∀ (t : Nesting α) {vs : List Value} (rest : List Value),
    vs.length = t.leaves.length → t.grouped (vs ++ rest) = t.grouped vs
  | .leaf _, v :: vs, rest, _ => rfl
  | .node t ts, vs, rest, fills => by
      rw [leaves_node] at fills
      exact congrArg Value.tuple (groupedAll_append (t :: ts) rest fills)

theorem groupedAll_append : ∀ (ts : List (Nesting α)) {vs : List Value} (rest : List Value),
    vs.length = (ts.flatMap leaves).length → groupedAll ts (vs ++ rest) = groupedAll ts vs
  | [], _, _, _ => rfl
  | t :: ts, vs, rest, fills => by
      rw [List.flatMap_cons, List.length_append] at fills
      have enough : t.leaves.length ≤ vs.length := by omega
      have first : (vs.take t.leaves.length).length = t.leaves.length :=
        List.length_take_of_le enough
      have later : (vs.drop t.leaves.length).length = (ts.flatMap leaves).length := by
        rw [List.length_drop]
        omega
      rw [groupedAll, groupedAll, List.drop_append_of_le_length enough,
        groupedAll_append ts rest later]
      congr 1
      calc t.grouped (vs ++ rest)
          = t.grouped (vs.take t.leaves.length ++ (vs.drop t.leaves.length ++ rest)) := by
            rw [← List.append_assoc, List.take_append_drop]
        _ = t.grouped (vs.take t.leaves.length ++ vs.drop t.leaves.length) := by
            rw [grouped_append t _ first, grouped_append t _ first]
        _ = t.grouped vs := by rw [List.take_append_drop]

end

theorem groupedAll_cons (t : Nesting α) (ts : List (Nesting α)) {vs : List Value} (ws : List Value)
    (fills : vs.length = t.leaves.length) :
    groupedAll (t :: ts) (vs ++ ws) = t.grouped vs :: groupedAll ts ws := by
  rw [groupedAll, grouped_append t ws fills, ← fills, List.drop_left]

end Nesting

namespace Matcher

variable {ι σ : Type}

section

variable (family : ι → Matcher σ) (src : Text)

/-- All match, one after the other, each from where the one before it stopped. -/
inductive Passed : List ι → Int → σ → List Value → List (ι × Int) → Int → σ → Prop
  | nil (pos : Int) (s : σ) : Passed [] pos s [] [] pos s
  | cons {i : ι} {is : List ι} {pos next stop : Int} {s t u : σ} {v : Value} {vs : List Value}
      {runs : List (ι × Int)} (stage : (family i src pos).run s = some (.ok (.matched v next), t))
      (more : Passed is next t vs runs stop u) :
      Passed (i :: is) pos s (v :: vs) ((i, pos) :: runs) stop u

/-- One of the stages does not match. It answers, and it is the last one that is run. -/
inductive Halted : List ι → Int → σ → Except Fault Outcome → σ → List (ι × Int) → Prop
  | here {i : ι} {is : List ι} {pos : Int} {s t : σ} {x : Except Fault Outcome}
      (answered : (family i src pos).run s = some (x, t)) (decides : ∀ r, x ≠ .ok (.success r)) :
      Halted (i :: is) pos s x t [(i, pos)]
  | later {i : ι} {is : List ι} {pos next : Int} {s t u : σ} {v : Value} {x : Except Fault Outcome}
      {runs : List (ι × Int)} (stage : (family i src pos).run s = some (.ok (.matched v next), t))
      (more : Halted is next t x u runs) : Halted (i :: is) pos s x u ((i, pos) :: runs)

/-- Runs the stages in order. If all match, then so does the whole, up to where the last one
stopped. -/
def RunsThrough (is : List ι) (value : List Value → Value) (p : Matcher σ) : Prop :=
  ∀ pos s x u, (p src pos).run s = some (x, u) ↔
    (∃ vs runs stop, Passed family src is pos s vs runs stop u ∧
      x = .ok (.matched (value vs) stop)) ∨
      ∃ runs, Halted family src is pos s x u runs

end

variable {family : ι → Matcher σ} {p : Matcher σ} {ps : List (Matcher σ)} {src : Text}
  {pos next stop : Int} {s t u : σ} {x : Except Fault Outcome} {v : Value}
  {vs ws values : List Value}
  {is js : List ι} {runs runs' : List (ι × Int)}

theorem Passed.length (passed : Passed family src is pos s vs runs stop t) :
    vs.length = is.length := by
  induction passed with
  | nil pos s => rfl
  | cons stage more ih => rw [List.length_cons, List.length_cons, ih]

theorem Passed.append (first : Passed family src is pos s vs runs next t)
    (more : Passed family src js next t ws runs' stop u) :
    Passed family src (is ++ js) pos s (vs ++ ws) (runs ++ runs') stop u := by
  induction first with
  | nil pos s => exact more
  | cons stage _ ih => exact .cons stage (ih more)

theorem Passed.split (passed : Passed family src (is ++ js) pos s vs runs stop u) :
    ∃ vs₁ vs₂ runs₁ runs₂ next t, vs = vs₁ ++ vs₂ ∧ Passed family src is pos s vs₁ runs₁ next t ∧
      Passed family src js next t vs₂ runs₂ stop u := by
  induction is generalizing pos s vs runs with
  | nil => exact ⟨[], vs, [], runs, pos, s, rfl, .nil pos s, passed⟩
  | cons i is ih =>
      cases passed with
      | cons stage more =>
          obtain ⟨vs₁, vs₂, runs₁, runs₂, next, t, rfl, first, others⟩ := ih more
          exact ⟨_ :: vs₁, vs₂, _, runs₂, next, t, rfl, .cons stage first, others⟩

theorem Halted.decides (halted : Halted family src is pos s x t runs) (r : Success) :
    x ≠ .ok (.success r) := by
  induction halted with
  | here answered decides => exact decides r
  | later stage more ih => exact ih

theorem Halted.append (halted : Halted family src is pos s x t runs) (js : List ι) :
    Halted family src (is ++ js) pos s x t runs := by
  induction halted with
  | here answered decides => exact .here answered decides
  | later stage more ih => exact .later stage ih

theorem Halted.behind (first : Passed family src is pos s vs runs next t)
    (halted : Halted family src js next t x u runs') :
    Halted family src (is ++ js) pos s x u (runs ++ runs') := by
  induction first with
  | nil pos s => exact halted
  | cons stage _ ih => exact .later stage (ih halted)

theorem Halted.split (halted : Halted family src (is ++ js) pos s x u runs) :
    Halted family src is pos s x u runs ∨ ∃ vs runs₁ runs₂ next t,
      Passed family src is pos s vs runs₁ next t ∧ Halted family src js next t x u runs₂ := by
  induction is generalizing pos s runs with
  | nil => exact .inr ⟨[], [], runs, pos, s, .nil pos s, halted⟩
  | cons i is ih =>
      cases halted with
      | here answered decides => exact .inl (.here answered decides)
      | later stage more =>
          rcases ih more with here | ⟨vs, runs₁, runs₂, next, t, first, others⟩
          · exact .inl (.later stage here)
          · exact .inr ⟨_, _, runs₂, next, t, .cons stage first, others⟩

/-! One stage after the other. -/

theorem stages_run_matched (matched : (p src pos).run s = some (.ok (.matched v next), t)) :
    (stages src (p :: ps) values pos).run s = (stages src ps (v :: values) next).run t := by
  rw [stages, Action.run_bind, matched]
  rfl

theorem stages_run_answered (answered : (p src pos).run s = some (x, t))
    (decides : ∀ r, x ≠ .ok (.success r)) :
    (stages src (p :: ps) values pos).run s = some (x, t) := by
  refine Action.run_bind_unchanged answered fun r equal => ?_
  cases r with
  | success r => exact absurd equal (decides r)
  | failure f => rfl

theorem stages_run_endless (endless : (p src pos).run s = none) :
    (stages src (p :: ps) values pos).run s = none := by
  rw [stages, Action.run_bind, endless]

theorem stages_runs_through {trees : List (Nesting ι)}
    (each : ∀ tree ∈ trees, (tree.fold seq family).RunsThrough family src tree.leaves tree.grouped)
    (values : List Value) (pos : Int) (s : σ) (x : Except Fault Outcome) (u : σ) :
    (stages src (trees.map (Nesting.fold seq family)) values pos).run s = some (x, u) ↔
      (∃ vs runs stop, Passed family src (trees.flatMap Nesting.leaves) pos s vs runs stop u ∧
        x = .ok (.matched (.tuple (values.reverse ++ Nesting.groupedAll trees vs)) stop)) ∨
      ∃ runs, Halted family src (trees.flatMap Nesting.leaves) pos s x u runs := by
  induction trees generalizing values pos s with
  | nil =>
      constructor
      · intro ran
        cases ran
        exact .inl ⟨[], [], pos, .nil pos _, by rw [Nesting.groupedAll, List.append_nil]⟩
      · rintro (⟨vs, runs, stop, passed, rfl⟩ | ⟨runs, halted⟩)
        · cases passed
          rw [Nesting.groupedAll, List.append_nil]
          rfl
        · cases halted
  | cons tree trees ih =>
      obtain ⟨here, later⟩ := List.forall_mem_cons.mp each
      rw [List.map_cons, List.flatMap_cons]
      have shape {vs : List Value} (ws : List Value) (fills : vs.length = tree.leaves.length) :
          values.reverse ++ Nesting.groupedAll (tree :: trees) (vs ++ ws) =
            (tree.grouped vs :: values).reverse ++ Nesting.groupedAll trees ws := by
        rw [Nesting.groupedAll_cons tree trees ws fills, List.append_cons, ← List.reverse_cons]
      constructor
      · intro ran
        cases first : (tree.fold seq family src pos).run s with
        | none => cases (stages_run_endless first).symm.trans ran
        | some result =>
            obtain ⟨y, t⟩ := result
            rcases (here pos s y t).mp first with ⟨vs, runs, next, passed, rfl⟩ | ⟨runs, halted⟩
            · rw [stages_run_matched first] at ran
              rcases (ih later _ next t).mp ran with
                ⟨ws, runs', stop, others, rfl⟩ | ⟨runs', others⟩
              · refine .inl ⟨vs ++ ws, runs ++ runs', stop, passed.append others, ?_⟩
                rw [shape ws passed.length]
              · exact .inr ⟨_, .behind passed others⟩
            · cases (stages_run_answered first halted.decides).symm.trans ran
              exact .inr ⟨runs, halted.append _⟩
      · rintro (⟨vs, runs, stop, passed, rfl⟩ | ⟨runs, halted⟩)
        · obtain ⟨vs₁, vs₂, runs₁, runs₂, next, t, rfl, first, others⟩ := passed.split
          have matched := (here pos s _ t).mpr (.inl ⟨vs₁, runs₁, next, first, rfl⟩)
          rw [stages_run_matched matched]
          exact (ih later _ next t).mpr
            (.inl ⟨vs₂, runs₂, stop, others, by rw [shape vs₂ first.length]⟩)
        · rcases halted.split with first | ⟨vs, runs₁, runs₂, next, t, first, others⟩
          · exact stages_run_answered ((here pos s x u).mpr (.inr ⟨runs, first⟩)) first.decides
          · have matched := (here pos s _ t).mpr (.inl ⟨vs, runs₁, next, first, rfl⟩)
            rw [stages_run_matched matched]
            exact (ih later _ next t).mpr (.inr ⟨runs₂, others⟩)

theorem fold_seq_runsThrough (family : ι → Matcher σ) (src : Text) (tree : Nesting ι) :
    (tree.fold seq family).RunsThrough family src tree.leaves tree.grouped := by
  induction tree using Nesting.induction with
  | leaf i =>
      intro pos s x u
      constructor
      · intro ran
        by_cases matched : ∃ r, x = .ok (.success r)
        · obtain ⟨r, rfl⟩ := matched
          exact .inl ⟨[r.value], [(i, pos)], r.pos, .cons ran (.nil r.pos u), rfl⟩
        · exact .inr ⟨_, .here ran fun r equal => matched ⟨r, equal⟩⟩
      · rintro (⟨vs, runs, stop, passed, rfl⟩ | ⟨runs, halted⟩)
        · cases passed with
          | cons stage more =>
              cases more
              exact stage
        · cases halted with
          | here answered decides => exact answered
          | later stage more => cases more
  | node t ts ih =>
      intro pos s x u
      rw [Nesting.fold_node, Nesting.leaves_node]
      exact stages_runs_through ih [] pos s x u

/-! One of the values of a sequence. -/

theorem pick_run_matched {index : Int} {w : Value}
    (matched : (p src pos).run s = some (.ok (.matched v next), t)) (found : v.item index = .ok w) :
    (pick index p src pos).run s = some (.ok (.matched w next), t) := by
  unfold pick map
  rw [Action.run_bind, matched]
  change (Action.ofExcept (v.item index) >>= _ : Action σ Outcome).run t = _
  rw [found]
  rfl

theorem pick_run_answered {index : Int} (answered : (p src pos).run s = some (x, t))
    (decides : ∀ r, x ≠ .ok (.success r)) : (pick index p src pos).run s = some (x, t) := by
  refine Action.run_bind_unchanged answered fun r equal => ?_
  cases r with
  | success r => exact absurd equal (decides r)
  | failure f => rfl

theorem RunsThrough.pick {index : Int} {value picked : List Value → Value}
    (inner : p.RunsThrough family src is value)
    (found : ∀ vs, vs.length = is.length → (value vs).item index = .ok (picked vs)) :
    (pick index p).RunsThrough family src is picked := by
  have passes {pos : Int} {s u : σ} {vs : List Value} {runs : List (ι × Int)} {stop : Int}
      (passed : Passed family src is pos s vs runs stop u) :
      (Matcher.pick index p src pos).run s = some (.ok (.matched (picked vs) stop), u) :=
    pick_run_matched ((inner pos s _ u).mpr (.inl ⟨vs, runs, stop, passed, rfl⟩))
      (found vs passed.length)
  have halts {pos : Int} {s u : σ} {x : Except Fault Outcome} {runs : List (ι × Int)}
      (halted : Halted family src is pos s x u runs) :
      (Matcher.pick index p src pos).run s = some (x, u) :=
    pick_run_answered ((inner pos s x u).mpr (.inr ⟨runs, halted⟩)) halted.decides
  intro pos s x u
  constructor
  · intro ran
    cases first : (p src pos).run s with
    | none =>
        unfold Matcher.pick map at ran
        rw [Action.run_bind, first] at ran
        cases ran
    | some result =>
        obtain ⟨y, t⟩ := result
        rcases (inner pos s y t).mp first with ⟨vs, runs, stop, passed, rfl⟩ | ⟨runs, halted⟩
        · cases (passes passed).symm.trans ran
          exact .inl ⟨vs, runs, stop, passed, rfl⟩
        · cases (halts halted).symm.trans ran
          exact .inr ⟨runs, halted⟩
  · rintro (⟨vs, runs, stop, passed, rfl⟩ | ⟨runs, halted⟩)
    · exact passes passed
    · exact halts halted

theorem between_runsThrough (left right p : Matcher σ) (src : Text) :
    (between left right p).RunsThrough id src [left, p, right] fun vs => vs.getD 1 .none := by
  refine RunsThrough.pick (fold_seq_runsThrough id src (.flat left [p, right])) fun vs fills => ?_
  match vs, fills with
  | [_, _, _], _ => rfl

theorem after_runsThrough (lead p : Matcher σ) (src : Text) :
    (after lead p).RunsThrough id src [lead, p] fun vs => vs.getD 1 .none := by
  refine RunsThrough.pick (fold_seq_runsThrough id src (.flat lead [p])) fun vs fills => ?_
  match vs, fills with
  | [_, _], _ => rfl

/-! With a record of what is run. -/

theorem Passed.noted (passed : Passed family src is pos s vs runs stop t) (log : List (ι × Int)) :
    Passed (fun i => (family i).noted i) src is pos (s, log) vs runs stop (t, log ++ runs) := by
  induction passed generalizing log with
  | nil pos s =>
      rw [List.append_nil]
      exact .nil pos _
  | cons stage more ih =>
      rw [List.append_cons]
      exact .cons (run_noted stage log) (ih _)

theorem Halted.noted (halted : Halted family src is pos s x t runs) (log : List (ι × Int)) :
    Halted (fun i => (family i).noted i) src is pos (s, log) x (t, log ++ runs) runs := by
  induction halted generalizing log with
  | here answered decides => exact .here (run_noted answered log) decides
  | later stage more ih =>
      rw [List.append_cons]
      exact .later (run_noted stage log) (ih _)

/-- A record of what is run holds the stages in order, each with the place where the one before it
stopped. -/
theorem nested_sequence (family : ι → Matcher σ) (tree : Nesting ι) (src : Text) :
    (tree.fold seq family).RunsThrough family src tree.leaves tree.grouped ∧
    (∀ pos s vs runs stop u log, Passed family src tree.leaves pos s vs runs stop u →
      (tree.fold seq (fun i => (family i).noted i) src pos).run (s, log) =
        some (.ok (.matched (tree.grouped vs) stop), u, log ++ runs)) ∧
    (∀ pos s x u runs log, Halted family src tree.leaves pos s x u runs →
      (tree.fold seq (fun i => (family i).noted i) src pos).run (s, log) =
        some (x, u, log ++ runs)) ∧
    (∀ left right p : Matcher σ,
      (between left right p).RunsThrough id src [left, p, right] fun vs => vs.getD 1 .none) ∧
    ∀ lead p : Matcher σ, (after lead p).RunsThrough id src [lead, p] fun vs =>
      vs.getD 1 .none := by
  have recorded := fold_seq_runsThrough (fun i => (family i).noted i) src tree
  refine ⟨fold_seq_runsThrough family src tree, ?passed, ?halted,
    fun left right p => between_runsThrough left right p src,
      fun lead p => after_runsThrough lead p src⟩
  case passed =>
    intro pos s vs runs stop u log passed
    exact (recorded pos _ _ _).mpr (.inl ⟨vs, runs, stop, passed.noted log, rfl⟩)
  case halted =>
    intro pos s x u runs log halted
    exact (recorded pos _ _ _).mpr (.inr ⟨runs, halted.noted log⟩)

end Matcher

/-! The same of parsers that are built. -/

namespace Parser

theorem run_seq (fuel : Nat) (ps : List Parser) :
    run fuel (.seq ps) = Matcher.seq (ps.map (run fuel)) := by
  cases fuel with
  | zero => rw [run, runWith, runAllWith_eq_map]
  | succ fuel => rw [run, runWith, runAllWith_eq_map]

theorem run_fold_seq (fuel : Nat) (tree : Nesting Parser) :
    run fuel (tree.fold .seq id) = tree.fold Matcher.seq (run fuel) :=
  Nesting.apply_fold (run_seq fuel) id tree

theorem run_between (fuel : Nat) (left right p : Parser) :
    run fuel (.map (.seq [left, p, right]) (.silent (Value.item 1)) none) =
      Matcher.between (run fuel left) (run fuel right) (run fuel p) := by
  cases fuel with
  | zero => rfl
  | succ fuel => rfl

theorem run_after (fuel : Nat) (lead p : Parser) :
    run fuel (.map (.seq [lead, p]) (.silent (Value.item 1)) none) =
      Matcher.after (run fuel lead) (run fuel p) := by
  cases fuel with
  | zero => rfl
  | succ fuel => rfl

end Parser

namespace Matcher

private def bracketing : Nesting Parser :=
  .node (.node (.leaf (.char 'a')) [.leaf (.char 'b')]) [.leaf (.char 'c')]

/-- All stages match but the one that should close the brackets of the third text. -/
theorem nested_sequence_brackets :
    let value : Value := .tuple [.tuple [.text ['a'], .text ['b']], .text ['c']]
    let runs : List (Parser × Int) := [(.char 'a', 1), (.char 'b', 2), (.char 'c', 3)]
    let second (ps : List Parser) : Parser := .map (.seq ps) (.silent (Value.item 1)) none
    (Parser.run 1 (bracketing.fold .seq id) ['x', 'a', 'b', 'c'] 1).run .empty =
        some (.ok (.matched value 4), .empty) ∧
      (bracketing.fold seq (fun p => (Parser.run 1 p).noted p) ['x', 'a', 'b', 'c'] 1).run
        (.empty, []) = some (.ok (.matched value 4), .empty, runs) ∧
      (Parser.run 1 (second [.char '(', .char 'x', .char ')']) ['(', 'x', ']'] 0).run .empty =
        some (.ok (.failed (Text.inQuotes [')']) 2), .empty) ∧
      (Parser.run 1 (second [.char '-', .char 'x']) ['-', 'x'] 0).run .empty =
        some (.ok (.matched (.text ['x']) 2), .empty) := by
  obtain ⟨whole, passes, -⟩ := nested_sequence (Parser.run 1) bracketing ['x', 'a', 'b', 'c']
  obtain ⟨-, -, -, between, -⟩ := nested_sequence (Parser.run 1) bracketing ['(', 'x', ']']
  obtain ⟨-, -, -, -, after⟩ := nested_sequence (Parser.run 1) bracketing ['-', 'x']
  have passed : Passed (Parser.run 1) ['x', 'a', 'b', 'c'] bracketing.leaves 1 .empty
      [.text ['a'], .text ['b'], .text ['c']] [(.char 'a', 1), (.char 'b', 2), (.char 'c', 3)]
      4 .empty :=
    .cons rfl (.cons rfl (.cons rfl (.nil 4 _)))
  refine ⟨?whole, passes 1 .empty _ _ 4 .empty [] passed, ?between, ?after⟩
  case whole =>
    rw [Parser.run_fold_seq]
    exact (whole 1 _ _ _).mpr (.inl ⟨_, _, 4, passed, rfl⟩)
  case between =>
    dsimp only
    rw [Parser.run_between]
    exact (between _ _ _ 0 _ _ _).mpr (.inr ⟨_, .later rfl (.later rfl (.here rfl nofun))⟩)
  case after =>
    dsimp only
    rw [Parser.run_after]
    exact (after _ _ 0 _ _ _).mpr
      (.inl ⟨[.text ['-'], .text ['x']], _, 2, .cons rfl (.cons rfl (.nil 2 _)), rfl⟩)

end Matcher

end Descent
