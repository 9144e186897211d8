import Mathlib.Data.List.Forall2
import Descent.Proofs.Meaning.Consistency

/-!
Building. Main statement: building a grammar keeps a store consistent, takes new cells only, and
gives a parser whose plain form is the planned one.
-/

namespace Descent

/-- A computation that keeps consistent stores consistent, and whose result agrees with a result
that depends on no store. It always ends. -/
def Builds {α β : Type} (scope : Scope) (names : Names) (src : Text) (owners : Owners)
    (A : Owners → α → β → Prop) (m : Action Store α) (x : Except Fault β) : Prop :=
  ∀ s, s.Consistent scope names src owners → ∃ later r t, m.run s = some (r, t) ∧ owners <+: later ∧
    t.Consistent scope names src later ∧ Agree (A later) r x

namespace Builds

variable {scope : Scope} {names : Names} {src : Text} {owners : Owners} {α β γ δ : Type}
  {A : Owners → α → β → Prop} {B : Owners → γ → δ → Prop}

theorem pure {a : α} {b : β} (related : A owners a b) :
    Builds scope names src owners A (Pure.pure a) (.ok b) :=
  fun s consistent => ⟨owners, .ok a, s, rfl, List.prefix_refl owners, consistent, .ok related⟩

theorem raise (e : Fault) : Builds scope names src owners A (Action.raise e) (.error e) :=
  fun s consistent => ⟨owners, .error e, s, rfl, List.prefix_refl owners, consistent, .error e⟩

theorem bind {m : Action Store α} {x : Except Fault β} {f : α → Action Store γ}
    {g : β → Except Fault δ} (first : Builds scope names src owners A m x)
    (next : ∀ later a b, owners <+: later → A later a b →
      Builds scope names src later B (f a) (g b)) :
    Builds scope names src owners B (m >>= f) (x >>= g) := by
  intro s consistent
  obtain ⟨later, r, t, run, longer, kept, agree⟩ := first s consistent
  cases agree with
  | error e =>
      refine ⟨later, .error e, t, ?_, longer, kept, .error e⟩
      exact Action.run_bind_eq_some.mpr (.inl ⟨e, run, rfl⟩)
  | ok related =>
      obtain ⟨last, r, u, continued, further, kept, agree⟩ := next later _ _ longer related t kept
      refine ⟨last, r, u, ?_, longer.trans further, kept, agree⟩
      exact Action.run_bind_eq_some.mpr (.inr ⟨_, t, run, continued⟩)

theorem raise_bind (e : Fault) {f : α → Action Store γ} :
    Builds scope names src owners B (Action.raise e >>= f) (.error e) :=
  fun s consistent => ⟨owners, .error e, s, rfl, List.prefix_refl owners, consistent, .error e⟩

theorem ofExcept {r : Except Fault α} {x : Except Fault β} (agree : Agree (A owners) r x) :
    Builds scope names src owners A (Action.ofExcept r) x := by
  cases agree with
  | ok related => exact .pure related
  | error e => exact .raise e

end Builds

/-- A parser that was built, and the same parser as it was planned. -/
def Parser.Tracks (scope : Scope) (owners : Owners) (p q : Parser) : Prop :=
  p.plain = q ∧ p.All (Parser.Placed scope owners)

theorem Parser.Tracks.mono {scope : Scope} {owners later : Owners} (longer : owners <+: later)
    {p q : Parser} (tracks : p.Tracks scope owners q) : p.Tracks scope later q :=
  ⟨tracks.1, tracks.2.mono fun _ => Parser.Placed.mono longer⟩

def Argument.Tracks (scope : Scope) (owners : Owners) (a b : Argument) : Prop :=
  a.plain = b ∧ a.All (Parser.Placed scope owners)

namespace Argument

variable {scope : Scope} {owners later : Owners}

theorem Tracks.mono (longer : owners <+: later) {a b : Argument}
    (tracks : a.Tracks scope owners b) :
    a.Tracks scope later b :=
  ⟨tracks.1, tracks.2.mono fun _ => Parser.Placed.mono longer⟩

theorem Tracks.toParser {a b : Argument} (tracks : a.Tracks scope owners b) :
    Agree (Parser.Tracks scope owners) a.toParser b.toParser := by
  obtain ⟨rfl, owned⟩ := tracks
  cases a with
  | parser p => exact .ok ⟨rfl, owned⟩
  | other v =>
      simp only [Argument.plain, Argument.toParser]
      cases v.describe with
      | error e => exact .error e
      | ok shown => exact .error _

theorem Tracks.all {as bs : List Argument}
    (tracks : List.Forall₂ (Argument.Tracks scope owners) as bs) :
    Agree (List.Forall₂ (Parser.Tracks scope owners)) (toParsers as) (toParsers bs) := by
  induction tracks with
  | nil => exact .ok .nil
  | cons here _ ih =>
      exact here.toParser.bind fun p q first => ih.bind fun ps qs rest => .ok (.cons first rest)

end Argument

namespace Grammar

variable {scope : Scope} {names : Names} {src : Text} {owners : Owners}

theorem buildAll_builds {gs : List Grammar}
    (parts : ∀ g ∈ gs, ∀ owners, Builds scope names src owners (Argument.Tracks scope) g.build
      (g.plan names)) :
    Builds scope names src owners (fun later => List.Forall₂ (Argument.Tracks scope later))
      (buildAll gs)
      (planAll names gs) := by
  induction gs generalizing owners with
  | nil => exact .pure .nil
  | cons g gs ih =>
      apply (parts g (by simp) owners).bind
      intro later a b longer here
      refine (ih fun h member => parts h (by simp [member])).bind fun last as bs longer rest => ?_
      exact .pure (.cons (here.mono longer) rest)

private theorem tracks_of_parts {p q : Parser} (shape : p.plain = q) (here : p.Placed scope owners)
    (parts : ∀ r ∈ p.parts, r.All (Parser.Placed scope owners)) :
    (Argument.parser p).Tracks scope owners (.parser q) :=
  ⟨congrArg Argument.parser shape, .intro here parts⟩

private theorem tracks_of_leaf {p q : Parser} (shape : p.plain = q) (here : p.Placed scope owners)
    (leaf : p.parts = []) : (Argument.parser p).Tracks scope owners (.parser q) :=
  tracks_of_parts shape here (by simp [leaf])

private theorem builds_of_part {m : Action Store Argument} {x : Except Fault Argument}
    (part : Builds scope names src owners (Argument.Tracks scope) m x)
    {f : Parser → Action Store Argument} {g : Parser → Parser}
    (whole : ∀ later p q, p.Tracks scope later q →
      Builds scope names src later (Argument.Tracks scope) (f p) (.ok (.parser (g q)))) :
    Builds scope names src owners (Argument.Tracks scope) (do f (← (← m).toParser))
      (do return .parser (g (← (← x).toParser))) :=
  part.bind fun _ _ _ _ here => (Builds.ofExcept here.toParser).bind fun later p q _ tracks =>
    whole later p q tracks

private theorem builds_of_wrapper {m : Action Store Argument} {x : Except Fault Argument}
    (part : Builds scope names src owners (Argument.Tracks scope) m x) {f : Parser → Parser}
    (shape : ∀ p, (f p).plain = f p.plain) (here : ∀ later p, (f p).Placed scope later)
    (parts : ∀ p, (f p).parts = [p]) :
    Builds scope names src owners (Argument.Tracks scope) (do return .parser (f (← (← m).toParser)))
      (do return .parser (f (← (← x).toParser))) := by
  refine builds_of_part part fun later p q tracks => .pure (tracks_of_parts ?_ (here later p) ?_)
  · rw [shape, tracks.1]
  · simpa [parts] using tracks.2

private theorem members_of_tracks {ps qs : List Parser}
    (tracks : List.Forall₂ (Parser.Tracks scope owners) ps qs) :
    Parser.plainAll ps = qs ∧ ∀ p ∈ ps, p.All (Parser.Placed scope owners) := by
  induction tracks with
  | nil => exact ⟨rfl, by simp⟩
  | cons here _ ih =>
      refine ⟨by rw [Parser.plainAll, here.1, ih.1], ?_⟩
      simpa using And.intro here.2 ih.2

private theorem tracks_pair {a a' b b' : Argument} (first : a.Tracks scope owners a')
    (second : b.Tracks scope owners b') {f : Parser → Parser → Action Store Argument}
    {f' : Parser → Parser → Parser}
    (whole : ∀ later p p' q q', p.Tracks scope later p' → q.Tracks scope later q' →
      Builds scope names src later (Argument.Tracks scope) (f p q) (.ok (.parser (f' p' q')))) :
    Builds scope names src owners (Argument.Tracks scope) (do f (← a.toParser) (← b.toParser))
      (do return .parser (f' (← a'.toParser) (← b'.toParser))) := by
  refine (Builds.ofExcept (A := Parser.Tracks scope) first.toParser).bind
    fun later p p' longer first => ?_
  refine (Builds.ofExcept (A := Parser.Tracks scope) (second.mono longer).toParser).bind
    fun last q q' further second => ?_
  exact whole last p p' q q' (first.mono further) second

private theorem sequence_builds {as bs : List Argument}
    (tracks : List.Forall₂ (Argument.Tracks scope owners) as bs)
    {f : List Parser → Action Store Argument} {f' : List Parser → Parser}
    (whole : ∀ later ps qs, List.Forall₂ (Parser.Tracks scope later) ps qs →
      Builds scope names src later (Argument.Tracks scope) (f ps) (.ok (.parser (f' qs)))) :
    Builds scope names src owners (Argument.Tracks scope)
      (if as.isEmpty then do
        (Action.raise .parserRequired : Action Store PUnit)
        f (← Argument.toParsers as)
      else do f (← Argument.toParsers as))
      (if bs.isEmpty then .error .parserRequired
        else do return .parser (f' (← Argument.toParsers bs))) := by
  have tracked :
      Builds scope names src owners (Argument.Tracks scope) (do f (← Argument.toParsers as))
      (do return .parser (f' (← Argument.toParsers bs))) :=
    (Builds.ofExcept (A := fun later => List.Forall₂ (Parser.Tracks scope later))
      (Argument.Tracks.all tracks)).bind fun later ps qs _ each => whole later ps qs each
  cases tracks with
  | nil => exact .raise_bind _
  | cons first rest => exact tracked

theorem build_builds {g : Grammar} (allowed : g.All scope.Allows) :
    ∀ owners, Builds scope names src owners (Argument.Tracks scope) g.build (g.plan names) := by
  induction allowed with
  | @intro g here parts ih =>
      intro owners
      cases g with
      | value v =>
          cases v with
          | text t => exact .pure (tracks_of_leaf rfl ⟨⟨⟩, ⟨⟩⟩ rfl)
          | _ => exact .pure ⟨rfl, True.intro⟩
      | ref name =>
          intro s consistent
          have known := (consistent.named here).1
          simp only [build, plan, Action.run_bind, Action.run_state, ← known]
          cases found : s.named? name with
          | none =>
              exact ⟨owners, _, s, rfl, List.prefix_refl owners, consistent,
                .error (.unknownName name)⟩
          | some a =>
              exact ⟨owners, _, s, rfl, List.prefix_refl owners, consistent,
                .ok ⟨rfl, consistent.placed here found⟩⟩
      | noting event g =>
          intro s consistent
          exact ih g .noting owners (s.record event) (consistent.congr rfl)
      | faulty e => exact .raise e
      | char t =>
          rcases t with _ | ⟨c, _ | ⟨d, t⟩⟩
          · exact .raise .oneCharacterRequired
          · exact .pure (tracks_of_leaf rfl ⟨⟨⟩, ⟨⟩⟩ rfl)
          · exact .raise .oneCharacterRequired
      | string t => exact .pure (tracks_of_leaf rfl ⟨⟨⟩, ⟨⟩⟩ rfl)
      | regex flags pattern =>
          refine (Builds.ofExcept (A := fun _ => Eq) (agree_eq_iff.mpr rfl)).bind ?_
          intro later r _ _ same
          subst same
          exact .pure (tracks_of_leaf rfl ⟨⟨⟩, ⟨⟩⟩ rfl)
      | satisfy test' label => exact .pure (tracks_of_leaf rfl ⟨⟨⟩, ⟨⟩⟩ rfl)
      | whitespaces => exact .pure (tracks_of_leaf rfl ⟨⟨⟩, ⟨⟩⟩ rfl)
      | succeed v => exact .pure (tracks_of_leaf rfl ⟨⟨⟩, ⟨⟩⟩ rfl)
      | fail message => exact .pure (tracks_of_leaf rfl ⟨⟨⟩, ⟨⟩⟩ rfl)
      | custom verdict => exact .pure (tracks_of_leaf rfl ⟨⟨⟩, ⟨⟩⟩ rfl)
      | seq gs =>
          simp only [build, plan]
          refine (buildAll_builds fun g member => ih g (.seq member)).bind
            fun later as bs longer each => ?_
          apply sequence_builds each
          intro last ps qs tracks
          obtain ⟨shape, owned⟩ := members_of_tracks tracks
          exact .pure (tracks_of_parts (congrArg Parser.seq shape) ⟨⟨⟩, ⟨⟩⟩ owned)
      | alt gs =>
          simp only [build, plan]
          refine (buildAll_builds fun g member => ih g (.alt member)).bind
            fun later as bs longer each => ?_
          apply sequence_builds each
          intro last ps qs tracks
          obtain ⟨shape, owned⟩ := members_of_tracks tracks
          exact .pure (tracks_of_parts (congrArg Parser.alt shape) ⟨⟨⟩, ⟨⟩⟩ owned)
      | copies g count =>
          simp only [build, plan]
          apply (ih g .copies owners).bind
          intro later a b longer part
          refine (Builds.ofExcept (A := fun _ => Eq) (agree_eq_iff.mpr rfl)).bind ?_
          intro last n _ further same
          subst same
          split
          · exact .raise_bind _
          · refine (Builds.ofExcept (A := Parser.Tracks scope) (part.mono further).toParser).bind
              fun last p q _ tracks => .pure (tracks_of_parts ?_ ⟨⟨⟩, ⟨⟩⟩ fun r member => ?_)
            · rw [Parser.plain, Parser.plainAll_eq_map, List.map_replicate, tracks.1]
            · rw [List.eq_of_mem_replicate member]
              exact tracks.2
      | map g fn validate =>
          exact builds_of_wrapper (f := fun p => .map p fn validate) (ih g .map owners)
            (fun _ => rfl)
            (fun _ _ => ⟨⟨⟩, ⟨⟩⟩) fun _ => rfl
      | many g =>
          exact builds_of_wrapper (ih g .many owners) (fun _ => rfl) (fun _ _ => ⟨⟨⟩, ⟨⟩⟩)
            fun _ => rfl
      | many1 g =>
          exact builds_of_wrapper (ih g .many1 owners) (fun _ => rfl) (fun _ _ => ⟨⟨⟩, ⟨⟩⟩)
            fun _ => rfl
      | between left right g =>
          simp only [build, plan]
          apply (ih left .betweenLeft owners).bind
          intro first l l' _ lead
          apply (ih right .betweenRight first).bind
          intro second r r' longer trail
          apply (ih g .between second).bind
          intro third a a' further inner
          refine (Builds.ofExcept (A := Parser.Tracks scope)
            (lead.mono (longer.trans further)).toParser).bind fun k p p' fourth lead => ?_
          refine (Builds.ofExcept (A := Parser.Tracks scope) (inner.mono fourth).toParser).bind
            fun l q q' fifth inner => ?_
          refine (Builds.ofExcept (A := Parser.Tracks scope)
            (trail.mono ((further.trans fourth).trans fifth)).toParser).bind
              fun m r r' sixth trail => ?_
          have lead := lead.mono (fifth.trans sixth)
          have inner := inner.mono sixth
          refine .pure (tracks_of_parts ?_ ⟨⟨⟩, ⟨⟩⟩ ?_)
          · simp [Parser.plain, Parser.plainAll, lead.1, inner.1, trail.1]
          · simp [Parser.parts, Parser.all_iff (p := .seq [p, q, r]), Parser.Placed, Parser.Owned,
              Parser.Inside, lead.2, inner.2,
              trail.2]
      | upTo stop g =>
          simp only [build, plan]
          apply (ih stop .upToStop owners).bind
          intro first s s' _ ends
          apply (ih g .upTo first).bind
          intro second a a' longer inner
          apply tracks_pair (ends.mono longer) inner
          intro later p p' q q' ends inner
          refine .pure (tracks_of_parts ?_ ⟨⟨⟩, ⟨⟩⟩ ?_)
          · rw [Parser.plain, ends.1, inner.1]
          · simp [Parser.parts, ends.2, inner.2]
      | not g =>
          exact builds_of_wrapper (ih g .not owners) (fun _ => rfl) (fun _ _ => ⟨⟨⟩, ⟨⟩⟩)
            fun _ => rfl
      | except exclusion g =>
          simp only [build, plan]
          apply (ih exclusion .exceptExclusion owners).bind
          intro first x x' _ excluded
          apply (ih g .except first).bind
          intro second a a' longer inner
          apply tracks_pair (excluded.mono longer) inner
          intro later p p' q q' excluded inner
          refine .pure (tracks_of_parts ?_ ⟨⟨⟩, ⟨⟩⟩ ?_)
          · rw [Parser.plain, excluded.1, inner.1]
          · simp [Parser.parts, excluded.2, inner.2]
      | peek g =>
          exact builds_of_wrapper (ih g .peek owners) (fun _ => rfl) (fun _ _ => ⟨⟨⟩, ⟨⟩⟩)
            fun _ => rfl
      | eof g =>
          exact builds_of_wrapper (ih g .eof owners) (fun _ => rfl) (fun _ _ => ⟨⟨⟩, ⟨⟩⟩)
            fun _ => rfl
      | sepBy separator item =>
          simp only [build, plan]
          apply (ih separator .sepBySeparator owners).bind
          intro first s s' _ between
          apply (ih item .sepBy first).bind
          intro second a a' longer inner
          apply tracks_pair inner (between.mono longer)
          intro later p p' q q' inner between
          refine .pure (tracks_of_parts ?_ ⟨⟨⟩, ⟨⟩⟩ ?_)
          · rw [Parser.plain, between.1, inner.1]
          · simp [Parser.parts, between.2, inner.2]
      | andThen g fns =>
          apply builds_of_part (ih g .andThen owners)
          intro later p q tracks
          cases fns with
          | nil => exact .pure ⟨congrArg Argument.parser tracks.1, tracks.2⟩
          | cons fn fns =>
              refine .pure
                (tracks_of_parts ?_ ⟨True.intro, ?_⟩ (by simpa [Parser.parts] using tracks.2))
              · exact congrArg (fun r => Parser.andThen r (fn :: fns)) tracks.1
              · exact fun fn member v => parts _ (.andThenNext member v)
      | memoize g =>
          refine builds_of_part (g := id) (ih g .memoize owners)
            fun later p q tracks s consistent => ?_
          obtain ⟨rfl, placed⟩ := tracks
          let built : Parser := .memoize s.nextCell s.debug p
          have longer : later <+: later ++ [built] := List.prefix_append _ _
          have here : built.Placed scope (later ++ [built]) :=
            ⟨by simp [built, Parser.Owned, consistent.owned.nextCell],
              consistent.free (Nat.le_refl _)⟩
          have all : built.All (Parser.Placed scope (later ++ [built])) :=
            .intro here (by simpa [built, Parser.parts] using placed.mono fun _ => .mono longer)
          exact ⟨later ++ [built], .ok (.parser built), { s with nextCell := s.nextCell + 1 }, rfl,
            longer, consistent.newCell all, .ok ⟨rfl, all⟩⟩
      | lazy g =>
          intro s consistent
          let built : Parser := .lazy s.nextCell g
          have here : built.Placed scope (owners ++ [built]) :=
            ⟨by simp [built, Parser.Owned, consistent.owned.nextCell],
              consistent.free (Nat.le_refl _), parts g .lazy⟩
          have all : built.All (Parser.Placed scope (owners ++ [built])) :=
            .intro here (by simp [built, Parser.parts])
          exact ⟨owners ++ [built], .ok (.parser built), { s with nextCell := s.nextCell + 1 }, rfl,
            List.prefix_append _ _, consistent.newCell all, .ok ⟨rfl, all⟩⟩
      | named label g =>
          apply builds_of_part (ih g .named owners)
          intro later p q tracks s consistent
          refine ⟨later, .ok (.parser (.named label s.debug p)), s, rfl,
            List.prefix_refl _, consistent,
            .ok (tracks_of_parts (congrArg (Parser.named label false) tracks.1) ⟨⟨⟩, ⟨⟩⟩ ?_)⟩
          simpa [Parser.parts] using tracks.2
      | probe event g =>
          exact builds_of_wrapper (ih g .probe owners) (fun _ => rfl) (fun _ _ => ⟨⟨⟩, ⟨⟩⟩)
            fun _ => rfl

theorem parser_builds {g : Grammar} (allowed : g.All scope.Allows) :
    Builds scope names src owners (Parser.Tracks scope) g.parser (g.planned names) :=
  (build_builds allowed owners).bind fun _ _ _ _ tracks => .ofExcept tracks.toParser

end Grammar

end Descent
