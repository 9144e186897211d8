import Descent.Proofs.Debug.Building
import Descent.Proofs.Meaning.Basic

/-!
Running side by side. Main statement: alike parsers, run from alike stores, answer alike and leave
the stores alike; if messages count, then both write the same.
-/

namespace Descent

namespace Echoes

variable {on : Bool} {α β γ : Type} {A : α → β → Prop} {B : β → γ → Prop} {C : α → γ → Prop}

theorem trans {m : Action Store α} {n : Action Store β} {o : Action Store γ}
    (first : Echoes on A m n) (second : Echoes on B n o)
    (compose : ∀ a b c, A a b → B b c → C a c) : Echoes on C m o := by
  intro s t alike x u run
  obtain ⟨y, v, other, agree, like, ms, ns, left, middle, same⟩ := first s t alike x u run
  -- The middle computation begins and ends in the same stores for both comparisons.
  obtain ⟨z, w, last, agree', like', ns', ks, middle', right, same'⟩ :=
    second t t (.refl t) y v other
  have once : ns = ns' := List.append_cancel_left (middle.log.symm.trans middle'.log)
  refine ⟨z, w, last, ?_, like.trans like', ms, ks, left, right,
    fun counts => ((same counts).trans once).trans (same' counts)⟩
  cases agree with
  | error e =>
      cases agree'
      exact .error e
  | ok related =>
      cases agree' with
      | ok related' => exact .ok (compose _ _ _ related related')

end Echoes

theorem Echoes.writes {α : Type} {A : α → α → Prop} {m : Action Store α}
    (echoes : Echoes true A m m) {s t : Store} {x : Except Fault α} (ran : m.run s = some (x, t)) :
    ∃ ms, s.Writes ms t := by
  obtain ⟨_, _, _, _, _, ms, _, wrote, _, _⟩ := echoes s s (.refl s) x t ran
  exact ⟨ms, wrote⟩

/-- Writes a message if told so. -/
def Action.writeIf (flag : Bool) (m : Message) : Action Store Unit :=
  if flag then Action.modify (Store.write m) else pure ()

theorem Action.run_writeIf (flag : Bool) (m : Message) (s : Store) :
    (writeIf flag m).run s =
      some (.ok (), { s with log := s.log ++ if flag then [m] else [] }) := by
  cases flag with
  | false => simp [writeIf]
  | true => rfl

theorem Echoes.writeIf {on flag flag' : Bool} (same : on = true → flag = flag') {m : Message}
    (fromParser : m.FromParser) :
    Echoes on (fun _ _ => True) (Action.writeIf flag m) (Action.writeIf flag' m) := by
  have wrote (flag : Bool) (s : Store) : s.Writes (if flag then [m] else [])
      { s with log := s.log ++ if flag then [m] else [] } := {
    log := rfl
    fromParser := by cases flag <;> simp [fromParser]
    debug := rfl }
  intro s t alike x u run
  rw [Action.run_writeIf] at run
  cases run
  exact ⟨_, _, Action.run_writeIf flag' m t, .ok True.intro, alike, _, _, wrote flag s,
    wrote flag' t, fun counts => by rw [same counts]⟩

namespace Matcher

theorem named_eq (label : Text) (trace : Bool) (p : Matcher Store) (src : Text) (pos : Int) :
    named label trace p src pos =
      Action.writeIf trace (.trying label pos) >>= fun _ => relabel label p src pos := by
  cases trace <;> rfl

/-- What a memory answers for a position if it has an answer, and otherwise does. -/
theorem memoize_eq (cell : Nat) (trace : Bool) (name? : Option Text) (p : Matcher Store)
    (src : Text) (pos : Int) :
    memoize cell trace name? p src pos = Action.state >>= fun s =>
      match s.outcomeAt? cell pos with
      | some r => Action.writeIf trace (.memoHit name? pos) >>= fun _ => pure r
      | none => do
        let r ← p src pos
        Action.modify (Store.remember cell pos r)
        return r := by
  refine bind_congr fun s => ?_
  cases s.outcomeAt? cell pos with
  | none => rfl
  | some r => cases trace <;> rfl

end Matcher

section

variable {on : Bool} {src : Text}

theorem Callback.run_echoes {α : Type} (f : Callback α) (v : Value) :
    Echoes on Eq (f.run v) (f.run v) := by
  have called : Echoes on Eq (Action.ofExcept (f.call v)) (Action.ofExcept (f.call v)) :=
    .ofExcept (agree_eq_iff.mpr rfl)
  unfold Callback.run
  cases f.event with
  | none => exact called
  | some event => exact (Echoes.record event).bind fun _ _ _ => called

theorem named_echoes {trace trace' : Bool} (same : on = true → trace = trace') (label : Text)
    {p q : Matcher Store} (inner : Matcher.Corresponds (.echo on) (.identity src) p fun _ => q) :
    Matcher.Corresponds (.echo on) (.identity src) (Matcher.named label trace p)
      fun _ => Matcher.named label trace' q := by
  intro i j place
  simp only [Matcher.named_eq]
  obtain rfl := place
  exact (Echoes.writeIf same (m := .trying label i) True.intro).bind
    fun _ _ _ => Matcher.relabel_corresponds label inner i i rfl

theorem memoize_echoes {trace trace' : Bool} (same : on = true → trace = trace') (cell : Nat)
    (name? : Option Text) {p q : Matcher Store}
    (inner : Matcher.Corresponds (.echo on) (.identity src) p fun _ => q) :
    Matcher.Corresponds (.echo on) (.identity src) (Matcher.memoize cell trace name? p)
      fun _ => Matcher.memoize cell trace' name? q := by
  intro i j place
  obtain rfl := place
  simp only [Matcher.memoize_eq]
  apply Echoes.state.bind
  intro s t alike
  rw [alike.outcomeAt? cell i]
  cases t.outcomeAt? cell i with
  | some r =>
      exact (Echoes.writeIf same (m := .memoHit name? i) True.intro).bind
        fun _ _ _ => .pure (Alignment.outcomes_identity_refl r)
  | none =>
      refine (inner i i rfl).bind fun r r' related => ?_
      obtain rfl := Alignment.outcomes_identity related
      refine (Echoes.modify ?_ ?_ ?_).bind fun _ _ _ => .pure related
      · exact fun _ _ alike => alike.remember cell i r
      · exact fun _ => .nothing rfl rfl
      · exact fun _ => .nothing rfl rfl

variable {enter : Parser → Matcher Store}

theorem enter_echoes (later : ∀ p q, p.Alike on q →
      Matcher.Corresponds (.echo on) (.identity src) (enter p) fun _ => enter q) (g : Grammar) :
    Matcher.Corresponds (.echo on) (.identity src) (Matcher.thenRun do return enter (← g.parser))
      fun _ => Matcher.thenRun do return enter (← g.parser) := by
  intro i j place
  simp only [Matcher.thenRun, bind_assoc, pure_bind]
  exact g.parser_echoes.bind fun p q alike => later p q alike i j place

theorem lazy_echoes (later : ∀ p q, p.Alike on q →
      Matcher.Corresponds (.echo on) (.identity src) (enter p) fun _ => enter q) (cell : Nat)
    (g : Grammar) :
    Matcher.Corresponds (.echo on) (.identity src) (Matcher.lazy cell g.parser enter)
      fun _ => Matcher.lazy cell g.parser enter := by
  intro i j place
  apply Echoes.state.bind
  intro s t alike
  have found := alike.target? cell
  cases first : s.target? cell with
  | some p =>
      rw [first] at found
      obtain ⟨q, second, same⟩ := Option.map_eq_some_iff.mp found.symm
      simp only [second]
      exact later p q same.symm i j place
  | none =>
      rw [first] at found
      simp only [Option.map_eq_none_iff.mp found.symm]
      refine g.parser_echoes.bind fun p q same => ?_
      refine (Echoes.modify ?_ ?_ ?_).bind fun _ _ _ => later p q same i j place
      · exact fun _ _ alike => alike.keepTarget cell same
      · exact fun _ => .nothing rfl rfl
      · exact fun _ => .nothing rfl rfl

theorem probe_echoes (event : Text) {p q : Matcher Store}
    (inner : Matcher.Corresponds (.echo on) (.identity src) p fun _ => q) :
    Matcher.Corresponds (.echo on) (.identity src) (Matcher.probe event p)
      fun _ => Matcher.probe event q := by
  intro i j place
  obtain rfl := place
  exact (Echoes.record _).bind fun _ _ _ => inner i i rfl

/-- A parser whose messages are left out does as it does with its messages, if they do not count. -/
private theorem audible_echoes (later : ∀ p q, p.Alike on q →
      Matcher.Corresponds (.echo on) (.identity src) (enter p) fun _ => enter q) (n : Nat)
    (first second : Bool) (same : on = true → first = second) (p : Parser) :
    Matcher.Corresponds (.echo on) (.identity src)
      (((Interpretation.ofStore enter n).audible first).matcher p)
      fun _ => ((Interpretation.ofStore enter n).audible second).matcher p := by
  refine Interpretation.Corresponds.matcher ?_ p.all_true
  exact {
    fuel := fun _ => Nat.le_refl n
    label := fun text => ⟨text, fun _ => rfl, rfl⟩
    call := fun f v => f.run_echoes v
    regex := fun _ => Matcher.regex_corresponds_identity _
    custom := fun _ => Matcher.custom_corresponds_identity _
    enter := fun _ fn _ v => enter_echoes later (fn v)
    memoize := fun _ inner => memoize_echoes (fun counts => by rw [same counts]) _ _ inner
    lazy := fun _ => lazy_echoes later _ _
    named := fun label _ _ _ inner => named_echoes (fun counts => by rw [same counts]) label inner
    probe := fun event _ _ inner => probe_echoes event inner }

/-- Alike parsers do alike, from alike stores. -/
theorem Parser.run_echoes {n : Nat} {p q : Parser} (alike : p.Alike on q) :
    Matcher.Corresponds (.echo on) (.identity src) (p.run n) fun _ => q.run n := by
  induction n using Nat.strongRecOn generalizing p q with
  | ind n ih =>
      have later : ∀ p q : Parser, p.Alike on q →
          Matcher.Corresponds (.echo on) (.identity src) (Parser.late Parser.run n p)
            fun _ => Parser.late Parser.run n q := by
        intro p q alike
        cases n with
        | zero => exact fun _ _ _ => (Correspondence.echo on).exhausted _
        | succ n => exact ih n (Nat.lt_succ_self n) alike
      -- Both parsers are compared with what they have in common.
      have left := audible_echoes later n true on (fun counts => counts.symm) p
      have right := audible_echoes later n on true (fun counts => counts) q
      have common : ((Interpretation.ofStore (Parser.late Parser.run n) n).audible on).matcher p =
          ((Interpretation.ofStore (Parser.late Parser.run n) n).audible on).matcher q := by
        rw [← Interpretation.matcher_audible, show p.audible on = q.audible on from alike,
          Interpretation.matcher_audible]
      rw [Interpretation.audible_true, common] at left
      rw [Interpretation.audible_true] at right
      rw [Parser.run_eq_matcher, Parser.run_eq_matcher]
      intro i j place
      obtain rfl := place
      refine (left i i rfl).trans (right i i rfl) fun a b c first second => ?_
      obtain rfl := Alignment.outcomes_identity first
      exact second

end

end Descent
