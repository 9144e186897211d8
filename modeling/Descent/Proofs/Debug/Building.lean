import Descent.Proofs.Debug.Audible

/-!
Building side by side. Main statement: from alike stores a grammar is built to alike parsers, the
stores stay alike, and the switch and the messages stay as they are.
-/

namespace Descent

/-- Written while a parser runs, not in answer to a request. -/
def Message.FromParser : Message → Prop
  | .parseFailed _ => False
  | _ => True

namespace Store

/-- On the way from one store to another these messages were written, and the switch was left
alone. -/
structure Writes (s : Store) (ms : List Message) (u : Store) : Prop where
  log : u.log = s.log ++ ms
  fromParser : ∀ m ∈ ms, m.FromParser
  debug : u.debug = s.debug

theorem Writes.nothing {s u : Store} (log : u.log = s.log) (debug : u.debug = s.debug) :
    s.Writes [] u where
  log := by rw [log, List.append_nil]
  fromParser := by simp
  debug := debug

theorem Writes.trans {s u w : Store} {ms ns : List Message} (first : s.Writes ms u)
    (second : u.Writes ns w) : s.Writes (ms ++ ns) w where
  log := by rw [second.log, first.log, List.append_assoc]
  fromParser m member := by
    rcases List.mem_append.mp member with early | late
    · exact first.fromParser m early
    · exact second.fromParser m late
  debug := second.debug.trans first.debug

/-- From `s` to `u` and from `t` to `v`, two stores stayed alike. If messages count, then the same
ones were written. -/
structure InStep (on : Bool) (s t u v : Store) : Prop where
  alike : u.Alike on v
  written : ∃ ms ns, s.Writes ms u ∧ t.Writes ns v ∧ (on = true → ms = ns)

namespace InStep

variable {on : Bool} {s t u v w z : Store}

theorem quiet (alike : u.Alike on v) (first : s.Writes [] u) (second : t.Writes [] v) :
    InStep on s t u v :=
  ⟨alike, [], [], first, second, fun _ => rfl⟩

theorem still (alike : s.Alike on t) : InStep on s t s t :=
  quiet alike (.nothing rfl rfl) (.nothing rfl rfl)

theorem trans (first : InStep on s t u v) (second : InStep on u v w z) : InStep on s t w z := by
  obtain ⟨-, ms, ns, left, right, same⟩ := first
  obtain ⟨alike, ms', ns', left', right', same'⟩ := second
  exact ⟨alike, ms ++ ms', ns ++ ns', left.trans left', right.trans right',
    fun counts => by rw [same counts, same' counts]⟩

end InStep

end Store

/-- From alike stores: whatever the first computation comes to, the second comes to something that
agrees, and the stores stay in step. -/
def Echoes (on : Bool) {α β : Type} (A : α → β → Prop) (m : Action Store α) (n : Action Store β) :
    Prop :=
  ∀ s t, s.Alike on t → ∀ x u, m.run s = some (x, u) →
    ∃ y v, n.run t = some (y, v) ∧ Agree A x y ∧ Store.InStep on s t u v

def Correspondence.echo (on : Bool) : Correspondence Unit Store Store where
  Rel A m n := Echoes on A m (n ())
  pure related s t alike x u run := by
    cases run
    exact ⟨_, t, rfl, .ok related, .still alike⟩
  bind first next s t alike x u run := by
    rcases Action.run_bind_eq_some.mp run with ⟨e, failed, rfl⟩ | ⟨a, w, answered, continued⟩
    · obtain ⟨y, v, other, agree, inStep⟩ := first s t alike _ u failed
      cases agree
      exact ⟨_, v, Action.run_bind_eq_some.mpr (.inl ⟨e, other, rfl⟩), .error e, inStep⟩
    · obtain ⟨y, z, other, agree, inStep⟩ := first s t alike _ w answered
      cases agree with
      | ok related =>
          obtain ⟨y, v, otherContinued, agree, further⟩ :=
            next _ _ related w z inStep.alike x u continued
          exact ⟨y, v, Action.run_bind_eq_some.mpr (.inr ⟨_, z, other, otherContinued⟩), agree,
            inStep.trans further⟩
  raise e s t alike x u run := by
    cases run
    exact ⟨_, t, rfl, .error e, .still alike⟩
  exhausted n s t alike x u run := by cases run

namespace Echoes

variable {on : Bool} {α β γ δ : Type} {A : α → β → Prop} {B : γ → δ → Prop}

theorem pure {a : α} {b : β} (related : A a b) : Echoes on A (Pure.pure a) (Pure.pure b) :=
  (Correspondence.echo on).pure related

theorem raise (e : Fault) : Echoes on A (Action.raise e) (Action.raise e) :=
  (Correspondence.echo on).raise e

theorem ofExcept {x : Except Fault α} {y : Except Fault β} (agree : Agree A x y) :
    Echoes on A (Action.ofExcept x) (Action.ofExcept y) :=
  (Correspondence.echo on).ofExcept agree

theorem bind {m : Action Store α} {n : Action Store β} {f : α → Action Store γ}
    {g : β → Action Store δ} (first : Echoes on A m n)
    (next : ∀ a b, A a b → Echoes on B (f a) (g b)) : Echoes on B (m >>= f) (n >>= g) :=
  (Correspondence.echo on).bind (n := fun _ => n) (g := fun _ => g) first next

theorem state : Echoes on (Store.Alike on) Action.state Action.state := by
  intro s t alike x u run
  cases run
  exact ⟨_, t, rfl, .ok alike, .still alike⟩

theorem modify {f g : Store → Store} (alike : ∀ s t, s.Alike on t → (f s).Alike on (g t))
    (first : ∀ s : Store, s.Writes [] (f s)) (second : ∀ t : Store, t.Writes [] (g t)) :
    Echoes on (fun _ _ => True) (Action.modify f) (Action.modify g) := by
  intro s t same x u run
  cases run
  exact ⟨_, _, rfl, .ok True.intro, .quiet (alike s t same) (first s) (second t)⟩

theorem record (event : Text) :
    Echoes on (fun _ _ => True) (Action.modify (Store.record event))
      (Action.modify (Store.record event)) :=
  modify (fun _ _ alike => alike.record event) (fun _ => .nothing rfl rfl) fun _ => .nothing rfl rfl

theorem newCell : Echoes on Eq Store.newCell Store.newCell := by
  refine state.bind fun s t alike => Echoes.bind (modify ?_ ?_ ?_) fun _ _ _ => .pure alike.nextCell
  · exact fun _ _ alike => alike.newCell
  · exact fun _ => .nothing rfl rfl
  · exact fun _ => .nothing rfl rfl

end Echoes

namespace Grammar

variable {on : Bool}

theorem buildAll_echoes {gs : List Grammar}
    (parts : ∀ g ∈ gs, Echoes on (Argument.Alike on) g.build g.build) :
    Echoes on (fun as bs => as.map (Argument.audible on) = bs.map (Argument.audible on))
      (buildAll gs) (buildAll gs) := by
  induction gs with
  | nil => exact .pure rfl
  | cons g gs ih =>
      have rest := ih fun h member => parts h (by simp [member])
      refine (parts g (by simp)).bind fun a b here => rest.bind fun as bs others => .pure ?_
      rw [List.map_cons, List.map_cons, others, show a.audible on = b.audible on from here]

private theorem echoes_of_members {m : Action Store (List Argument)}
    (parts :
      Echoes on (fun as bs => as.map (Argument.audible on) = bs.map (Argument.audible on)) m m)
    {f : List Parser → Parser}
    (whole : ∀ ps qs, ps.map (Parser.audible on) = qs.map (Parser.audible on) →
      (f ps).Alike on (f qs)) :
    Echoes on (Argument.Alike on)
      (do
        let arguments ← m
        if arguments.isEmpty then Action.raise .parserRequired
        return .parser (f (← Argument.toParsers arguments)))
      (do
        let arguments ← m
        if arguments.isEmpty then Action.raise .parserRequired
        return .parser (f (← Argument.toParsers arguments))) := by
  apply parts.bind
  intro as bs same
  have empty : as.isEmpty = bs.isEmpty := by
    simpa only [List.isEmpty_map] using congrArg List.isEmpty same
  have members : Echoes on (Argument.Alike on) (do return .parser (f (← Argument.toParsers as)))
      (do return .parser (f (← Argument.toParsers bs))) :=
    (Echoes.ofExcept (Argument.Alike.toParsers same)).bind fun ps qs alike =>
      .pure (congrArg Argument.parser (whole ps qs alike))
  rw [empty]
  split
  · exact (Echoes.raise (A := fun _ _ => True) _).bind fun _ _ _ => members
  · exact members

private theorem echoes_of_part {m : Action Store Argument}
    (part : Echoes on (Argument.Alike on) m m) {f : Parser → Action Store Argument}
    (whole : ∀ p q, p.Alike on q → Echoes on (Argument.Alike on) (f p) (f q)) :
    Echoes on (Argument.Alike on) (do f (← (← m).toParser)) (do f (← (← m).toParser)) :=
  part.bind fun _ _ here => (Echoes.ofExcept here.toParser).bind whole

private theorem echoes_of_wrapper {m : Action Store Argument}
    (part : Echoes on (Argument.Alike on) m m) {f : Parser → Parser}
    (whole : ∀ p, (f p).audible on = f (p.audible on)) :
    Echoes on (Argument.Alike on) (do return .parser (f (← (← m).toParser)))
      (do return .parser (f (← (← m).toParser))) := by
  refine echoes_of_part part fun p q alike => .pure (congrArg Argument.parser ?_)
  rw [whole, whole, show p.audible on = q.audible on from alike]

private theorem echoes_of_pair {a b a' b' : Argument} (first : a.Alike on b)
    (second : a'.Alike on b') {f : Parser → Parser → Parser}
    (whole : ∀ p q, (f p q).audible on = f (p.audible on) (q.audible on)) :
    Echoes on (Argument.Alike on)
      (do return .parser (f (← a.toParser) (← a'.toParser)))
      (do return .parser (f (← b.toParser) (← b'.toParser))) := by
  refine (Echoes.ofExcept first.toParser).bind fun p q alike =>
    (Echoes.ofExcept second.toParser).bind fun p' q' alike' => .pure (congrArg Argument.parser ?_)
  rw [whole, whole, show p.audible on = q.audible on from alike,
    show p'.audible on = q'.audible on from alike']

theorem build_echoes (g : Grammar) : Echoes on (Argument.Alike on) g.build g.build := by
  induction g using Grammar.induction with
  | step g ih =>
      cases g with
      | value v => cases v <;> exact .pure rfl
      | ref name =>
          apply Echoes.state.bind
          intro s t alike
          have found := alike.named? name
          cases first : s.named? name with
          | none =>
              rw [first] at found
              simp only [Option.map_eq_none_iff.mp found.symm]
              exact .raise _
          | some a =>
              rw [first] at found
              obtain ⟨b, second, same⟩ := Option.map_eq_some_iff.mp found.symm
              simp only [second]
              exact .pure same.symm
      | noting event g => exact (Echoes.record event).bind fun _ _ _ => ih g .noting
      | faulty e => exact .raise e
      | char t =>
          rcases t with _ | ⟨c, _ | ⟨d, t⟩⟩
          · exact .raise _
          · exact .pure rfl
          · exact .raise _
      | regex flags pattern =>
          refine (Echoes.ofExcept (agree_eq_iff.mpr rfl)).bind fun r _ same => ?_
          subst same
          exact .pure rfl
      | seq gs =>
          refine echoes_of_members (buildAll_echoes fun g member => ih g (.seq member)) ?_
          intro ps qs same
          simp only [Parser.Alike, Parser.audible, Parser.audibleAll_eq_map, same]
      | alt gs =>
          refine echoes_of_members (buildAll_echoes fun g member => ih g (.alt member)) ?_
          intro ps qs same
          simp only [Parser.Alike, Parser.audible, Parser.audibleAll_eq_map, same]
      | copies g count =>
          refine (ih g .copies).bind fun a b here => ?_
          refine (Echoes.ofExcept (agree_eq_iff.mpr rfl)).bind fun n _ same => ?_
          subst same
          have copies : Echoes on (Argument.Alike on)
              (do return .parser (.seq (List.replicate n.toNat (← a.toParser))))
              (do return .parser (.seq (List.replicate n.toNat (← b.toParser)))) := by
            refine (Echoes.ofExcept here.toParser).bind fun p q alike =>
              .pure (congrArg Argument.parser ?_)
            simp only [Parser.audible, Parser.audibleAll_eq_map, List.map_replicate,
              show p.audible on = q.audible on from alike]
          split
          · exact (Echoes.raise (A := fun _ _ => True) _).bind fun _ _ _ => copies
          · exact copies
      | map g fn validate =>
          exact echoes_of_wrapper (f := fun p => .map p fn validate) (ih g .map) fun _ => rfl
      | many g => exact echoes_of_wrapper (ih g .many) fun _ => rfl
      | many1 g => exact echoes_of_wrapper (ih g .many1) fun _ => rfl
      | between left right g =>
          refine (ih left .betweenLeft).bind fun l l' lead => (ih right .betweenRight).bind
            fun r r' trail => (ih g .between).bind fun a a' inner => ?_
          refine (Echoes.ofExcept lead.toParser).bind fun p p' lead =>
            (Echoes.ofExcept inner.toParser).bind fun q q' inner =>
            (Echoes.ofExcept trail.toParser).bind fun r r' trail =>
            .pure (congrArg Argument.parser ?_)
          simp only [Parser.audible, Parser.audibleAll, show p.audible on = p'.audible on from lead,
            show q.audible on = q'.audible on from inner,
              show r.audible on = r'.audible on from trail]
      | upTo stop g =>
          exact (ih stop .upToStop).bind fun _ _ ends => (ih g .upTo).bind fun _ _ inner =>
            echoes_of_pair ends inner fun _ _ => rfl
      | not g => exact echoes_of_wrapper (ih g .not) fun _ => rfl
      | except exclusion g =>
          exact (ih exclusion .exceptExclusion).bind fun _ _ excluded => (ih g .except).bind
            fun _ _ inner => echoes_of_pair excluded inner fun _ _ => rfl
      | peek g => exact echoes_of_wrapper (ih g .peek) fun _ => rfl
      | eof g => exact echoes_of_wrapper (ih g .eof) fun _ => rfl
      | sepBy separator item =>
          exact (ih separator .sepBySeparator).bind fun _ _ between => (ih item .sepBy).bind
            fun _ _ inner => echoes_of_pair (f := fun p q => .sepBy q p) inner between
              fun _ _ => rfl
      | andThen g fns =>
          apply echoes_of_part (ih g .andThen)
          intro p q alike
          split
          · exact .pure (congrArg Argument.parser alike)
          · exact .pure (congrArg (fun r => Argument.parser (.andThen r fns)) alike)
      | memoize g =>
          apply echoes_of_part (ih g .memoize)
          intro p q alike
          refine Echoes.newCell.bind fun cell _ same => Echoes.state.bind fun s t stores => ?_
          subst same
          refine .pure (congrArg Argument.parser ?_)
          simp only [Parser.audible, stores.debug, show p.audible on = q.audible on from alike]
      | lazy g =>
          refine Echoes.newCell.bind fun cell _ same => ?_
          subst same
          exact .pure rfl
      | named label g =>
          apply echoes_of_part (ih g .named)
          intro p q alike
          refine Echoes.state.bind fun s t stores => .pure (congrArg Argument.parser ?_)
          simp only [Parser.audible, stores.debug, show p.audible on = q.audible on from alike]
      | probe event g =>
          exact echoes_of_wrapper (f := fun p => .probe event p) (ih g .probe) fun _ => rfl
      | string _ | satisfy _ _ | whitespaces | succeed _ | fail _ | custom _ => exact .pure rfl

theorem parser_echoes (g : Grammar) : Echoes on (Parser.Alike on) g.parser g.parser :=
  g.build_echoes.bind fun _ _ alike => .ofExcept alike.toParser

end Grammar

end Descent
