import Descent.Proofs.Nesting.Choice
import Descent.Proofs.Nesting.Sequence

/-!
What all alternatives start with. Main statement: if it has no side effects, it may as well be
matched once before the choice, and nothing but the position of a failure tells the two apart.
-/

namespace Descent

namespace Outcome

/-- The same with a failure that is reported at another position. -/
def reportedAt (pos : Int) : Outcome → Outcome
  | .success r => .success r
  | .failure f => .failure { f with pos }

/-- What a sequence of two makes of the outcome of its second part. -/
def behind (v : Value) : Outcome → Outcome
  | .success r => .success (r.withValue (.tuple [v, r.value]))
  | .failure f => .failure f

end Outcome

/-- Any number of times the same labels are the same labels. -/
theorem unique_repeated {ι : Type} {labels : List Text} (nodup : labels.Nodup) {is : List ι}
    (nonempty : is ≠ []) :
    unique (is.flatMap fun _ => labels) = labels := by
  induction is with
  | nil => exact absurd rfl nonempty
  | cons i is ih =>
      rw [List.flatMap_cons, ← unique_append_unique]
      cases is with
      | nil => rw [List.flatMap_nil, unique, List.append_nil, unique_of_nodup nodup]
      | cons j is =>
          rw [ih (List.cons_ne_nil j is), unique_append, unique_of_nodup nodup,
            List.filter_eq_nil_iff.mpr, List.append_nil]
          intro label member
          exact fun new => of_decide_eq_true new member

namespace Matcher

variable {σ : Type}

/-- Has no side effects, as far as the states go of which `I` holds: they stay as they are, and none
of them shows in the answer. -/
def Steady (I : σ → Prop) (p : Matcher σ) (src : Text) (pos : Int) : Prop :=
  ∃ answer : Option (Except Fault Outcome), ∀ s, I s → (p src pos).run s = answer.map (·, s)

variable {a b : Matcher σ} {bs : List (Matcher σ)} {src : Text} {pos next : Int} {s t : σ}
  {v : Value}
  {f : Failure} {x : Except Fault Outcome} {I : σ → Prop}

/-! A sequence of two. -/

theorem seq_run_matched (matched : (a src pos).run s = some (.ok (.matched v next), t)) :
    (seq [a, b] src pos).run s = (Outcome.behind v <$> b src next).run t := by
  rw [seq, stages_run_matched matched, stages, map_eq_pure_bind]
  refine Action.run_bind_congr fun r u _ => ?_
  cases r with
  | success r => rfl
  | failure f => rfl

/-! A choice of sequences that start with the same. -/

theorem alternatives_factored
    (matched : ∀ s, I s → (a src pos).run s = some (.ok (.matched v next), s))
    (kept : ∀ b ∈ bs, b.Preserves I src) (known : I s) (labels : List Text) :
    (alternatives src pos (bs.map fun b => seq [a, b]) labels).run s =
      ((fun r => (r.behind v).reportedAt pos) <$> alternatives src next bs labels).run s := by
  induction bs generalizing labels s with
  | nil =>
      rw [List.map_nil, alternatives, alternatives, Failure.ofLabels, Failure.ofLabels]
      cases unique labels <;> rfl
  | cons b bs ih =>
      obtain ⟨here, later⟩ := List.forall_mem_cons.mp kept
      rw [List.map_cons, alternatives, alternatives, map_bind]
      rw [Action.run_bind, seq_run_matched (matched s known), ← Action.run_bind, bind_map_left]
      refine Action.run_bind_congr fun r t ran => ?_
      cases r with
      | success r => rfl
      | failure f => exact ih later (here known ran) _

theorem refused_of_failed (failed : ∀ s, I s → (a src pos).run s = some (.ok (.failure f), s))
    (known : I s) (bs : List (Matcher σ)) :
    Refused (fun b => seq [a, b]) src pos bs s (bs.flatMap fun _ => f.expected) s := by
  induction bs with
  | nil => exact .nil s
  | cons b bs ih => exact .cons (stages_run_answered (failed s known) nofun) ih

theorem alt_factored (steady : a.Steady I src pos)
    (formed : ∀ {s t f}, I s → (a src pos).run s = some (.ok (.failure f), t) → f.WellFormed)
    (kept : ∀ b ∈ bs, b.Preserves I src) (nonempty : bs ≠ []) (known : I s) :
    (alt (bs.map fun b => seq [a, b]) src pos).run s =
        (Outcome.reportedAt pos <$> seq [a, alt bs] src pos).run s := by
  obtain ⟨b, bs, rfl⟩ := List.exists_cons_of_ne_nil nonempty
  obtain ⟨answer, answers⟩ := steady
  have ran := answers s known
  match answer with
  | none =>
      rw [Action.run_map, seq, stages_run_endless ran]
      exact alternatives_run_endless (stages_run_endless ran)
  | some (.error e) =>
      rw [Action.run_map, seq, stages_run_answered ran nofun]
      exact alternatives_run_answered (stages_run_answered ran nofun) nofun
  | some (.ok (.failure f)) =>
      have wellFormed := formed known ran
      have refused := refused_of_failed answers known (b :: bs)
      rw [Action.run_map, seq, stages_run_answered ran nofun]
      rw [refused.alt_run]
      · rw [unique_repeated wellFormed.nodup nonempty]
        rfl
      · exact List.append_ne_nil_of_left_ne_nil wellFormed.nonempty _
  | some (.ok (.success r)) =>
      rw [Action.run_map, seq_run_matched ran, ← Action.run_map, ← comp_map]
      exact alternatives_factored answers kept known []

theorem alternatives_fail_here {labels : List Text}
    (failed : (alternatives src pos bs labels).run s = some (.ok (.failure f), t)) :
    f.pos = pos := by
  induction bs generalizing labels s with
  | nil =>
      rw [alternatives] at failed
      cases made : Failure.ofLabels labels pos with
      | error e =>
          rw [made] at failed
          cases failed
      | ok g =>
          rw [made] at failed
          cases failed
          exact (Failure.ofLabels_ensures labels pos _ made).2
  | cons b bs ih =>
      rcases Action.run_bind_eq_some.mp failed with ⟨e, -, ⟨⟩⟩ | ⟨r, u, -, continued⟩
      cases r with
      | success r => cases continued
      | failure g => exact ih continued

/-- A failure is that of the common start, or it is reported where that has ended. -/
theorem seq_alt_failed (steady : a.Steady I src pos) (known : I s)
    (failed : (seq [a, alt bs] src pos).run s = some (.ok (.failure f), t)) :
    (a src pos).run s = some (.ok (.failure f), t) ∨
      ∃ v, (a src pos).run s = some (.ok (.matched v f.pos), s) ∧
        (alt bs src f.pos).run s = some (.ok (.failure f), t) := by
  obtain ⟨answer, answers⟩ := steady
  have ran := answers s known
  match answer with
  | none => cases (stages_run_endless ran).symm.trans failed
  | some (.error e) => cases (stages_run_answered ran nofun).symm.trans failed
  | some (.ok (.failure g)) =>
      cases (stages_run_answered ran nofun).symm.trans failed
      exact .inl ran
  | some (.ok (.success r)) =>
      rw [seq_run_matched ran, map_eq_pure_bind] at failed
      rcases Action.run_bind_eq_some.mp failed with ⟨e, -, ⟨⟩⟩ | ⟨outcome, u, chosen, ended⟩
      cases outcome with
      | success m => cases ended
      | failure g =>
          cases ended
          rw [alternatives_fail_here chosen]
          exact .inr ⟨r.value, ran, chosen⟩

/-- `I` may be anything that is known of the states. -/
theorem left_factoring (steady : a.Steady I src pos) (formed : a.Forms I src)
    (kept : ∀ b ∈ bs, b.Preserves I src) (nonempty : bs ≠ []) (known : I s) :
    (alt (bs.map fun b => seq [a, b]) src pos).run s =
        (Outcome.reportedAt pos <$> seq [a, alt bs] src pos).run s ∧
      ∀ f t, (seq [a, alt bs] src pos).run s = some (.ok (.failure f), t) →
        (a src pos).run s = some (.ok (.failure f), t) ∨
          ∃ v, (a src pos).run s = some (.ok (.matched v f.pos), s) ∧
            (alt bs src f.pos).run s = some (.ok (.failure f), t) :=
  ⟨alt_factored steady (fun known failed => formed.wellFormed known failed) kept nonempty known,
    fun _ _ => seq_alt_failed steady known⟩

end Matcher

namespace Parser

/-- The same of parsers that are built. -/
theorem run_factored (fuel : Nat) (a : Parser) (bs : List Parser) :
    run fuel (.alt (bs.map fun b => .seq [a, b])) =
      Matcher.alt ((bs.map (run fuel)).map fun b => Matcher.seq [run fuel a, b]) := by
  rw [run_alt, List.map_map, List.map_map]
  congr 2
  funext b
  exact run_seq fuel [a, b]

end Parser

namespace Matcher

theorem left_factoring_remembered :
    let a : Parser := .string (Text.ofString "ab")
    let bs : List Parser := [.memoize 0 false (.char 'c'), .char 'd']
    let labels : List Text := ['c', 'd'].map fun c => Text.inQuotes [c]
    let after : Store :=
      { Store.empty with outcomes := [((0, 2), .failed (Text.inQuotes ['c']) 2)] }
    (a.run 1).Steady Conduct.loose.Sound (Text.ofString "abx") 0 ∧
      (Parser.run 1 (.seq [a, .alt bs]) (Text.ofString "abx") 0).run .empty =
        some (.ok (.failure ⟨labels, 2⟩), after) ∧
      (Parser.run 1 (.alt (bs.map fun b => .seq [a, b])) (Text.ofString "abx") 0).run .empty =
        some (.ok (.failure ⟨labels, 0⟩), after) := by
  intro a bs labels after
  have steady : (a.run 1).Steady Conduct.loose.Sound (Text.ofString "abx") 0 :=
    ⟨some (.ok (.matched (.text (Text.ofString "ab")) 2)), fun s _ => rfl⟩
  have once : (Parser.run 1 (.seq [a, .alt bs]) (Text.ofString "abx") 0).run .empty =
      some (.ok (.failure ⟨labels, 2⟩), after) := rfl
  have single (c : CodePoint) : (Parser.char c).All Conduct.loose.Orderly :=
    .intro True.intro (List.forall_mem_nil _)
  have orderly : ∀ b ∈ bs, b.All Conduct.loose.Orderly :=
    List.forall_mem_cons.mpr ⟨.intro True.intro (List.forall_mem_singleton.mpr (single 'c')),
      List.forall_mem_singleton.mpr (single 'd')⟩
  have kept : ∀ b ∈ bs.map (Parser.run 1), b.Preserves Conduct.loose.Sound (Text.ofString "abx") :=
    List.forall_mem_map.mpr fun b member => (Parser.run_forms 1 (orderly b member) _).preserves
  have formed :=
    Parser.run_forms 1 (p := a) (.intro True.intro (List.forall_mem_nil _)) (Text.ofString "abx")
  obtain ⟨factored, -⟩ :=
    left_factoring steady formed kept (List.cons_ne_nil _ _) Conduct.Sound.empty
  refine ⟨steady, once, ?_⟩
  rw [Parser.run_factored, factored, ← Parser.run_alt]
  rfl

end Matcher

end Descent
