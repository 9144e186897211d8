import Descent.Proofs.Conduct.Building
import Descent.Proofs.Conduct.Matchers
import Descent.Proofs.Debug.Observer
import Descent.Proofs.Session.Runs

/-!
Sessions keep to a conduct. Main statement: whatever was requested before, if only permitted
grammars were used, then the store is sound, every answer fits its request, and a request ends with
allowed faults only.
-/

namespace Descent

variable {C : Conduct}

namespace Parser

open Matcher in
theorem matcher_keeps {enter : Parser → Matcher Store}
    (later : ∀ p, p.All C.Orderly → C.Keeps (enter p)) (fuel : Nat) {p : Parser}
    (orderly : p.All C.Orderly) :
    C.Keeps ((Interpretation.ofStore enter fuel).matcher p) := by
  induction orderly with
  | @intro p here _ ih =>
      have members {ps : List Parser}
          (each : ∀ p ∈ ps, C.Keeps ((Interpretation.ofStore enter fuel).matcher p)) :
          ∀ m ∈ ps.map (Interpretation.ofStore enter fuel).matcher, C.Keeps m := by
        intro m member
        obtain ⟨p, inside, rfl⟩ := List.mem_map.mp member
        exact each p inside
      cases p with
      | char c => exact char_keeps c
      | string t => exact string_keeps t
      | regex r => exact regex_keeps r
      | satisfy test label => exact satisfy_keeps label fun c => .callback here (.text [c])
      | whitespaces => exact whitespaces_keeps
      | succeed v => exact succeed_keeps v
      | fail message => exact fail_keeps message
      | custom verdict => exact custom_keeps here
      | seq ps =>
          rw [Interpretation.matcher, Interpretation.matchers_eq_map]
          exact seq_keeps (members ih)
      | alt ps =>
          rw [Interpretation.matcher, Interpretation.matchers_eq_map]
          exact alt_keeps (mt List.map_eq_nil_iff.mp here) (members ih)
      | map p fn validate =>
          refine map_keeps (ih p (by simp [parts])) (fun v => .callback here.1 v) fun test given =>
            ?_
          obtain ⟨callback, used, rfl⟩ := Option.map_eq_some_iff.mp given
          exact fun v => .callback (here.2 callback used) v
      | many p => exact many_keeps fuel (ih p (by simp [parts]))
      | many1 p => exact chain_keeps fuel (ih p (by simp [parts])) (ih p (by simp [parts]))
      | upTo stop p => exact upTo_keeps fuel (ih stop (by simp [parts])) (ih p (by simp [parts]))
      | not p => exact not_keeps (ih p (by simp [parts]))
      | except exclusion p =>
          exact except_keeps (ih exclusion (by simp [parts])) (ih p (by simp [parts]))
      | peek p => exact peek_keeps (ih p (by simp [parts]))
      | eof p => exact eof_keeps (ih p (by simp [parts]))
      | sepBy separator item =>
          have inner := ih item (by simp [parts])
          exact chain_keeps fuel inner (after_keeps (ih separator (by simp [parts])) inner)
      | andThen p fns =>
          refine andThen_keeps (ih p (by simp [parts])) fun fn member v => ?_
          obtain ⟨next, used, rfl⟩ := List.mem_map.mp member
          exact (Grammar.parser_holds (here next used v)).bind fun q orderly =>
            .pure (later q orderly)
      | memoize cell trace p => exact memoize_keeps cell trace _ (ih p (by simp [parts]))
      | lazy cell g => exact lazy_keeps cell (Grammar.parser_holds here) later
      | named label trace p => exact named_keeps label trace (ih p (by simp [parts]))
      | probe event p => exact probe_keeps event (ih p (by simp [parts]))

theorem run_keeps (fuel : Nat) {p : Parser} (orderly : p.All C.Orderly) : C.Keeps (p.run fuel) := by
  induction fuel generalizing p with
  | zero =>
      rw [run_eq_matcher]
      exact matcher_keeps (fun _ _ _ _ _ => .exhausted) 0 orderly
  | succ fuel ih =>
      rw [run_eq_matcher]
      exact matcher_keeps (fun _ => ih) (fuel + 1) orderly

end Parser

theorem Grammar.attempt_holds {g : Grammar} (permitted : g.All C.Permits) (full : Bool) (fuel : Nat)
    {src : Text} (reads : C.Reads src) : C.Holds (g.attempt full fuel src) (C.Fits 0) := by
  refine (Grammar.parser_holds permitted).bind fun p orderly => ?_
  have inner := Parser.run_keeps fuel orderly
  cases full with
  | false => exact inner src reads 0
  | true => exact Matcher.eof_keeps inner src reads 0

namespace Request

/-- All grammars that the request brings along pass a test throughout. -/
def All (test : Grammar → Prop) : Request → Prop
  | .define _ g | .run g _ _ | .parse g _ _ | .inspect g => g.All test
  | .setDebug _ | .takeEvents => True

theorem All.mono {test test' : Grammar → Prop} (weaker : ∀ g, test g → test' g) {r : Request}
    (all : r.All test) : r.All test' := by
  cases r with
  | define _ g | run g _ _ | parse g _ _ | inspect g => exact Grammar.All.mono weaker all
  | setDebug _ | takeEvents => exact True.intro

/-- If the request is about a text, then about one with a property. -/
def Reads (P : Text → Prop) : Request → Prop
  | .run _ src _ | .parse _ src _ => P src
  | _ => True

end Request

/-- What an answer is like to a request that keeps to the conduct. -/
def Conduct.Delivers (C : Conduct) : Request → Answer → Prop
  | .run _ _ pos, .outcome r => C.Fits pos r
  | .parse _ src _, .parsed (.error e) => ∃ f, C.Fits 0 (.failure f) ∧ e = f.report src
  | _, _ => True

theorem Request.perform_holds {r : Request} (permitted : r.All C.Permits) (reads : r.Reads C.Reads)
    (fuel : Nat) : C.Holds (r.perform fuel) (C.Delivers r) := by
  cases r with
  | define name g =>
      refine (Grammar.build_holds permitted).bind fun a accepts => ?_
      refine .bind (.modify (fun _ sound => sound.keepName name accepts) fun _ => ?_)
        fun _ _ => .pure True.intro
      exact C.quiet (Nat.le_refl _) rfl
  | run g src pos =>
      refine (Grammar.parser_holds permitted).bind fun p orderly => ?_
      exact (Parser.run_keeps fuel orderly src reads pos).bind fun _ fits => .pure fits
  | parse g src full =>
      rw [perform_parse_eq]
      refine (Grammar.attempt_holds permitted full fuel reads).bind fun r fits => ?_
      cases r with
      | success r => exact .pure True.intro
      | failure f =>
          exact .bind .state fun s _ => .bind (.writeIf _ _) fun _ _ => .pure ⟨f, fits, rfl⟩
  | inspect g => exact (Grammar.parser_holds permitted).bind fun _ _ => .pure True.intro
  | setDebug on =>
      refine .bind (.modify (fun _ sound => sound.congr rfl rfl rfl) fun _ => ?_)
        fun _ _ => .pure True.intro
      exact C.quiet (Nat.le_refl _) rfl
  | takeEvents =>
      refine .bind .state
        fun s _ => .bind (.modify (fun _ sound => sound.congr rfl rfl rfl) fun _ => ?_)
        fun _ _ => .pure True.intro
      exact C.quiet (Nat.le_refl _) rfl

namespace Conduct

variable {s t : Store}

/-- Nothing is asked of users. -/
structure Open (C : Conduct) : Prop where
  allows (e : Fault) : C.Allows e
  reads (src : Text) : C.Reads src
  reaches (i j : Int) : C.Reaches i j

theorem loose_open : loose.Open :=
  ⟨fun _ => True.intro, fun _ => True.intro, fun _ _ => True.intro⟩

theorem Open.permits (free : C.Open) (g : Grammar) : g.All C.Permits := by
  have any {α : Type} (x : Except Fault α) : Faults C.Allows x := fun e _ => free.allows e
  induction g using Grammar.induction with
  | step g ih =>
      refine .intro ?_ ih
      cases g with
      | satisfy test label => exact fun v => any _
      | custom verdict =>
          exact {
            faults := fun _ _ => any _
            success := fun _ _ => free.reaches _ _
            failure := fun _ _ => ⟨free.reaches _ _, fun _ => free.allows _⟩ }
      | copies g count => exact any _
      | map g fn validate => exact ⟨fun v => any _, fun test _ v => any _⟩
      | faulty e => exact free.allows e
      | _ => exact True.intro

theorem Open.request (free : C.Open) (r : Request) : r.All C.Permits ∧ r.Reads C.Reads := by
  cases r with
  | define _ g | inspect g => exact ⟨free.permits g, True.intro⟩
  | run g src _ | parse g src _ => exact ⟨free.permits g, free.reads src⟩
  | setDebug _ | takeEvents => exact ⟨True.intro, True.intro⟩

theorem Sound.leads (sound : C.Sound s) {rs : List Request}
    (each : ∀ r ∈ rs, r.All C.Permits ∧ r.Reads C.Reads) (leads : s.Leads rs t) :
    C.Sound t ∧ C.Turns s t := by
  induction leads with
  | nil s => exact ⟨sound, same s⟩
  | @cons s t u r rs fuel x answered rest ih =>
      obtain ⟨⟨permitted, reads⟩, others⟩ := List.forall_mem_cons.mp each
      obtain ⟨kept, turns, -⟩ := Request.perform_holds permitted reads fuel s sound x t answered
      obtain ⟨kept, further⟩ := ih kept others
      exact ⟨kept, C.trans turns further⟩

theorem Sound.answers (sound : C.Sound s) {r : Request} (keeps : r.All C.Permits ∧ r.Reads C.Reads)
    {x : Except Fault Answer} (answered : s.Answers r x) :
    Ensures (C.Delivers r) x ∧ Faults C.Allows x := by
  obtain ⟨permitted, reads⟩ := keeps
  obtain ⟨fuel, t, performed⟩ := answered
  exact (Request.perform_holds permitted reads fuel s sound x t performed).2.2

end Conduct

end Descent
