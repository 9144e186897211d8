import Descent.Proofs.Parser.Interpretation

/-!
Messages that count, and messages that do not. If they do not, then stores are alike that differ in
the messages written so far, in the switch and in which parsers write messages; if they do, then
only in the messages written so far. One development serves both.
-/

namespace Descent

namespace Parser

mutual

/-- A parser that writes messages as before if they count, and none otherwise. -/
def audible (on : Bool) : Parser → Parser
  | .char c => .char c
  | .string t => .string t
  | .regex r => .regex r
  | .satisfy test label => .satisfy test label
  | .whitespaces => .whitespaces
  | .succeed v => .succeed v
  | .fail message => .fail message
  | .custom verdict => .custom verdict
  | .seq ps => .seq (audibleAll on ps)
  | .alt ps => .alt (audibleAll on ps)
  | .map p fn validate => .map (audible on p) fn validate
  | .many p => .many (audible on p)
  | .many1 p => .many1 (audible on p)
  | .upTo stop p => .upTo (audible on stop) (audible on p)
  | .not p => .not (audible on p)
  | .except exclusion p => .except (audible on exclusion) (audible on p)
  | .peek p => .peek (audible on p)
  | .eof p => .eof (audible on p)
  | .sepBy separator item => .sepBy (audible on separator) (audible on item)
  | .andThen p fns => .andThen (audible on p) fns
  | .memoize cell trace p => .memoize cell (trace && on) (audible on p)
  | .lazy cell g => .lazy cell g
  | .named label trace p => .named label (trace && on) (audible on p)
  | .probe event p => .probe event (audible on p)

def audibleAll (on : Bool) : List Parser → List Parser
  | [] => []
  | p :: ps => audible on p :: audibleAll on ps

end

theorem audibleAll_eq_map (on : Bool) (ps : List Parser) :
    audibleAll on ps = ps.map (audible on) := by
  induction ps with
  | nil => rfl
  | cons p ps ih => rw [audibleAll, ih, List.map_cons]

@[simp] theorem audible_true (p : Parser) : p.audible true = p := by
  induction p using Parser.induction with
  | step p ih =>
      cases p with
      | seq ps | alt ps =>
          have members : ps.map (audible true) = ps :=
            (List.map_congr_left ih).trans (List.map_id ps)
          simp only [audible, audibleAll_eq_map, members]
      | _ =>
          simp only [parts, List.mem_cons, List.not_mem_nil, or_false, forall_eq_or_imp,
            forall_eq] at ih
          simp only [audible, Bool.and_true, ih]

@[simp] theorem name?_audible (on : Bool) (p : Parser) : (p.audible on).name? = p.name? := by
  induction p using Parser.induction with
  | step p ih =>
      cases p with
      | memoize cell trace p => exact ih p (by simp [parts])
      | _ => rfl

/-- The same parser, as far as its messages count. -/
def Alike (on : Bool) (p q : Parser) : Prop :=
  p.audible on = q.audible on

end Parser

namespace Argument

def audible (on : Bool) : Argument → Argument
  | .parser p => .parser (p.audible on)
  | .other v => .other v

def Alike (on : Bool) (a b : Argument) : Prop :=
  a.audible on = b.audible on

variable {on : Bool}

theorem Alike.toParser {a b : Argument} (alike : a.Alike on b) :
    Agree (Parser.Alike on) a.toParser b.toParser := by
  cases a with
  | parser p =>
      cases b with
      | parser q => exact .ok (Argument.parser.inj alike)
      | other w => cases alike
  | other v =>
      cases b with
      | parser q => cases alike
      | other w =>
          cases alike
          simp only [Argument.toParser]
          cases v.describe with
          | error e => exact .error e
          | ok shown => exact .error _

theorem Alike.toParsers {as bs : List Argument}
    (alike : as.map (audible on) = bs.map (audible on)) :
    Agree (fun ps qs => ps.map (Parser.audible on) = qs.map (Parser.audible on)) (toParsers as)
      (toParsers bs) := by
  induction as generalizing bs with
  | nil =>
      obtain rfl := List.map_eq_nil_iff.mp alike.symm
      exact .ok rfl
  | cons a as ih =>
      obtain ⟨b, bs, rfl, here, rest⟩ := List.map_eq_cons_iff.mp alike.symm
      refine Agree.bind (Alike.toParser here.symm) fun p q first => ?_
      refine Agree.bind (ih rest.symm) fun ps qs others => .ok ?_
      rw [List.map_cons, List.map_cons, others, show p.audible on = q.audible on from first]

end Argument

namespace Interpretation

variable {σ : Type}

def audible (on : Bool) (E : Interpretation σ) : Interpretation σ :=
  { E with
    memoize := fun cell trace => E.memoize cell (trace && on)
    named := fun label trace => E.named label (trace && on) }

@[simp] theorem audible_true (E : Interpretation σ) : E.audible true = E := by
  simp [audible]

theorem matcher_audible (E : Interpretation σ) (on : Bool) (p : Parser) :
    E.matcher (p.audible on) = (E.audible on).matcher p := by
  induction p using Parser.induction with
  | step p ih =>
      cases p with
      | seq ps | alt ps =>
          have members :
              (ps.map (Parser.audible on)).map E.matcher = ps.map (E.audible on).matcher := by
            rw [List.map_map]
            exact List.map_congr_left ih
          simp only [Parser.audible, Parser.audibleAll_eq_map, matcher, matchers_eq_map, members]
      | _ =>
          simp only [Parser.parts, List.mem_cons, List.not_mem_nil, or_false, forall_eq_or_imp,
            forall_eq] at ih
          simp only [Parser.audible, matcher, ih, Parser.name?_audible] <;> rfl

end Interpretation

namespace Store

def audible (on : Bool) (s : Store) : Store :=
  { s with
    names := s.names.map fun (name, a) => (name, a.audible on)
    targets := s.targets.map fun (cell, p) => (cell, p.audible on)
    debug := s.debug && on
    log := [] }

/-- Stores that differ in the messages written so far, and if messages do not count, in who writes
them. -/
def Alike (on : Bool) (s t : Store) : Prop :=
  s.audible on = t.audible on

private theorem lookup_map {κ α β : Type} [BEq κ] (f : α → β) (k : κ) (l : List (κ × α)) :
    (l.map fun (k, a) => (k, f a)).lookup k = (l.lookup k).map f := by
  induction l with
  | nil => rfl
  | cons entry l ih =>
      obtain ⟨key, a⟩ := entry
      simp only [List.map_cons, List.lookup_cons, ih]
      cases k == key <;> rfl

namespace Alike

variable {on : Bool} {s t : Store}

theorem refl (s : Store) : s.Alike on s :=
  rfl

/-- Alike stores agree on whatever can be told from them. -/
theorem view {γ : Type} (alike : s.Alike on t) (f : Store → γ) :
    f (s.audible on) = f (t.audible on) :=
  congrArg f alike

theorem record (event : Text) (alike : s.Alike on t) : (s.record event).Alike on (t.record event) :=
  (alike.view (Store.record event) :)

theorem remember (cell : Nat) (pos : Int) (r : Outcome) (alike : s.Alike on t) :
    (s.remember cell pos r).Alike on (t.remember cell pos r) :=
  (alike.view (Store.remember cell pos r) :)

theorem keepTarget (cell : Nat) {p q : Parser} (same : p.Alike on q) (alike : s.Alike on t) :
    (s.keepTarget cell p).Alike on (t.keepTarget cell q) := by
  have kept := alike.view (Store.keepTarget cell (p.audible on))
  exact kept.trans (congrArg (fun r => (t.audible on).keepTarget cell r) same)

theorem keepName (name : Text) {a b : Argument} (same : a.Alike on b) (alike : s.Alike on t) :
    (s.keepName name a).Alike on (t.keepName name b) := by
  have kept := alike.view (Store.keepName name (a.audible on))
  exact kept.trans (congrArg (fun c => (t.audible on).keepName name c) same)

theorem nextCell (alike : s.Alike on t) : s.nextCell = t.nextCell :=
  (alike.view Store.nextCell :)

theorem newCell (alike : s.Alike on t) :
    ({ s with nextCell := s.nextCell + 1 } : Store).Alike on
      { t with nextCell := t.nextCell + 1 } :=
  (alike.view fun s => { s with nextCell := s.nextCell + 1 } :)

theorem debug (alike : s.Alike on t) : (s.debug && on) = (t.debug && on) :=
  (alike.view Store.debug :)

theorem events (alike : s.Alike on t) : s.events = t.events :=
  (alike.view Store.events :)

theorem outcomeAt? (alike : s.Alike on t) (cell : Nat) (pos : Int) :
    s.outcomeAt? cell pos = t.outcomeAt? cell pos :=
  (alike.view fun s => s.outcomeAt? cell pos :)

theorem target? (alike : s.Alike on t) (cell : Nat) :
    (s.target? cell).map (Parser.audible on) = (t.target? cell).map (Parser.audible on) := by
  have found := alike.view fun s => s.target? cell
  simpa only [Store.target?, Store.audible, lookup_map] using found

theorem named? (alike : s.Alike on t) (name : Text) :
    (s.named? name).map (Argument.audible on) = (t.named? name).map (Argument.audible on) := by
  have found := alike.view fun s => s.named? name
  simpa only [Store.named?, Store.audible, lookup_map] using found

end Alike

end Store

end Descent
