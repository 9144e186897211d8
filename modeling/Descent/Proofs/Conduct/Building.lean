import Descent.Proofs.Conduct.Basic
import Descent.Proofs.Conduct.Faults

/-!
Building keeps to a conduct. Main statement: from a sound store, what is built of a permitted
grammar is an orderly parser, if it is one at all, and a choice always has something to choose from.
-/

namespace Descent

variable {C : Conduct}

namespace Conduct.Accepts

theorem other (v : Value) : C.Accepts (.other v) := nofun

theorem parser {p : Parser} (orderly : p.All C.Orderly) : C.Accepts (.parser p) := by
  intro q equal
  cases equal
  exact orderly

/-- A parser of which no part is built yet. -/
theorem leaf {p : Parser} (none : p.parts = []) (here : C.Orderly p) : C.Accepts (.parser p) :=
  parser (.intro here (by simp [none]))

theorem toParser_ensures {a : Argument} (accepts : C.Accepts a) :
    Ensures (Parser.All C.Orderly) a.toParser := by
  cases a with
  | parser p => exact .pure (accepts p rfl)
  | other v => exact (Ensures.trivial v.describe).bind fun _ _ => .error _

theorem toParser {a : Argument} (accepts : C.Accepts a) :
    C.Holds (Action.ofExcept a.toParser) (Parser.All C.Orderly) :=
  .ofExcept accepts.toParser_ensures (a.toParser_faults.mono fun _ => C.ordinary)

theorem toParsers {as : List Argument} (accepts : ∀ a ∈ as, C.Accepts a) :
    C.Holds (Action.ofExcept (Argument.toParsers as))
      fun ps => (∀ p ∈ ps, p.All C.Orderly) ∧ ps.length = as.length := by
  have each := Argument.toParsers_ensures fun a member => (accepts a member).toParser_ensures
  exact .ofExcept (each.and (Argument.toParsers_length as))
    ((Argument.toParsers_faults as).mono fun _ => C.ordinary)

end Conduct.Accepts

namespace Grammar

theorem buildAll_holds {gs : List Grammar} (parts : ∀ g ∈ gs, C.Holds g.build C.Accepts) :
    C.Holds (buildAll gs) fun as => ∀ a ∈ as, C.Accepts a := by
  induction gs with
  | nil => exact .pure (by simp)
  | cons g gs ih =>
      refine (parts g (by simp)).bind fun a here => ?_
      refine (ih fun h member => parts h (by simp [member])).bind fun as rest => .pure ?_
      exact List.forall_mem_cons.mpr ⟨here, rest⟩

private theorem accepts_of_members {m : Action Store (List Argument)} {f : List Parser → Parser}
    (parts : C.Holds m fun as => ∀ a ∈ as, C.Accepts a)
    (whole : ∀ ps, ps ≠ [] → (∀ p ∈ ps, p.All C.Orderly) → (f ps).All C.Orderly) :
    C.Holds (do
      let arguments ← m
      if arguments.isEmpty then Action.raise .parserRequired
      return Argument.parser (f (← Argument.toParsers arguments))) C.Accepts := by
  refine parts.bind fun as each => ?_
  cases as with
  | nil => exact .raise (C.ordinary nofun)
  | cons a as =>
      refine .bind (Conduct.Accepts.toParsers each) fun ps made =>
        .pure (.parser (whole ps ?_ made.1))
      exact List.ne_nil_of_length_pos (by rw [made.2]; exact Nat.succ_pos _)

private theorem accepts_of_part {m : Action Store Argument} (part : C.Holds m C.Accepts)
    {f : Parser → Action Store Argument}
    (whole : ∀ p, p.All C.Orderly → C.Holds (f p) C.Accepts) :
    C.Holds (do f (← (← m).toParser)) C.Accepts :=
  part.bind fun _ here => here.toParser.bind whole

theorem build_holds {g : Grammar} (all : g.All C.Permits) : C.Holds g.build C.Accepts := by
  induction all with
  | @intro g here parts ih =>
      have wrapped {p q : Parser} (inner : q.All C.Orderly) (orderly : C.Orderly p)
        (part : p.parts = [q]) :
          C.Holds (pure (.parser p)) C.Accepts :=
        .pure (.parser (.intro orderly (by simpa [part])))
      have joined {p q r : Parser} (first : q.All C.Orderly) (second : r.All C.Orderly)
          (orderly : C.Orderly p) (both : p.parts = [q, r]) :
            C.Holds (pure (.parser p)) C.Accepts :=
        .pure (.parser (.intro orderly (by simp [both, first, second])))
      cases g with
      | value v =>
          cases v with
          | text t => exact .pure (.leaf rfl True.intro)
          | _ => exact .pure (.other _)
      | ref name =>
          refine Conduct.Holds.state.bind fun s sound => ?_
          cases found : s.named? name with
          | none => exact .raise (C.ordinary nofun)
          | some a => exact .pure (sound.named found)
      | noting event g => exact (Conduct.Holds.record event).bind fun _ _ => ih g .noting
      | faulty e => exact .raise here
      | char t =>
          rcases t with _ | ⟨c, _ | ⟨d, t⟩⟩
          · exact .raise (C.ordinary nofun)
          · exact .pure (.leaf rfl True.intro)
          · exact .raise (C.ordinary nofun)
      | string t => exact .pure (.leaf rfl True.intro)
      | regex flags pattern =>
          have read : C.Holds (Action.ofExcept (Regex.read flags pattern)) fun _ => True :=
            .ofExcept (.trivial _) ((Regex.read_faults flags pattern).mono fun _ => C.ordinary)
          exact read.bind fun r _ => .pure (.leaf rfl True.intro)
      | satisfy test label => exact .pure (.leaf rfl here)
      | whitespaces => exact .pure (.leaf rfl True.intro)
      | succeed v => exact .pure (.leaf rfl True.intro)
      | fail message => exact .pure (.leaf rfl True.intro)
      | custom verdict => exact .pure (.leaf rfl here)
      | seq gs =>
          exact accepts_of_members (buildAll_holds fun g member => ih g (.seq member))
            fun ps _ each => .intro True.intro each
      | alt gs =>
          exact accepts_of_members (buildAll_holds fun g member => ih g (.alt member))
            fun ps some each => .intro some each
      | copies g count =>
          refine (ih g .copies).bind fun a inner => .bind (.ofExcept (.trivial count) here)
            fun n _ => ?_
          have made :
              C.Holds (do return Argument.parser (.seq (List.replicate n.toNat (← a.toParser))))
              C.Accepts :=
            inner.toParser.bind fun p orderly =>
              .pure (.parser (.intro True.intro fun q member => by
              rwa [List.eq_of_mem_replicate member]))
          dsimp only
          split
          · exact .bind (.raise (P := fun _ => True) (C.ordinary nofun)) fun _ _ => made
          · exact made
      | map g fn validate => exact accepts_of_part (ih g .map) fun p inner => wrapped inner here rfl
      | many g => exact accepts_of_part (ih g .many) fun p inner => wrapped inner True.intro rfl
      | many1 g => exact accepts_of_part (ih g .many1) fun p inner => wrapped inner True.intro rfl
      | between left right g =>
          refine (ih left .betweenLeft).bind fun l lead => (ih right .betweenRight).bind
            fun r trail =>
            (ih g .between).bind fun a inner => ?_
          refine lead.toParser.bind fun first lead => inner.toParser.bind fun middle inner =>
            trail.toParser.bind fun last trail => ?_
          have row : (Parser.seq [first, middle, last]).All C.Orderly :=
            .intro True.intro (by simp [Parser.parts, lead, inner, trail])
          have chosen : C.Calls (.silent (Value.item 1)) :=
            fun v => (v.item_faults 1).mono fun _ => C.ordinary
          exact wrapped row ⟨chosen, by simp⟩ rfl
      | upTo stop g =>
          refine (ih stop .upToStop).bind fun s ends => (ih g .upTo).bind fun a inner => ?_
          exact ends.toParser.bind fun q ends => inner.toParser.bind fun p inner =>
            joined ends inner True.intro rfl
      | not g => exact accepts_of_part (ih g .not) fun p inner => wrapped inner True.intro rfl
      | except exclusion g =>
          refine (ih exclusion .exceptExclusion).bind fun x excluded => (ih g .except).bind
            fun a inner => ?_
          exact excluded.toParser.bind fun q excluded => inner.toParser.bind fun p inner =>
            joined excluded inner True.intro rfl
      | peek g => exact accepts_of_part (ih g .peek) fun p inner => wrapped inner True.intro rfl
      | eof g => exact accepts_of_part (ih g .eof) fun p inner => wrapped inner True.intro rfl
      | sepBy separator item =>
          refine (ih separator .sepBySeparator).bind fun s mark => (ih item .sepBy).bind
            fun a inner => ?_
          exact inner.toParser.bind fun p inner => mark.toParser.bind fun q mark =>
            joined mark inner True.intro rfl
      | andThen g fns =>
          refine accepts_of_part (ih g .andThen) fun p inner => ?_
          split
          · exact .pure (.parser inner)
          · exact wrapped inner (fun fn member v => parts _ (.andThenNext member v)) rfl
      | memoize g =>
          refine accepts_of_part (ih g .memoize) fun p inner => ?_
          exact Conduct.Holds.newCell.bind fun cell _ => .bind .state
            fun s _ => wrapped inner True.intro rfl
      | lazy g => exact Conduct.Holds.newCell.bind fun cell _ => .pure (.leaf rfl (parts g .lazy))
      | named label g =>
          refine accepts_of_part (ih g .named) fun p inner => ?_
          exact .bind .state fun s _ => wrapped inner True.intro rfl
      | probe event g =>
          exact accepts_of_part (ih g .probe) fun p inner => wrapped inner True.intro rfl

theorem parser_holds {g : Grammar} (all : g.All C.Permits) :
    C.Holds g.parser (Parser.All C.Orderly) :=
  (build_holds all).bind fun _ accepts => accepts.toParser

end Grammar

end Descent
