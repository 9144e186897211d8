import Mathlib.Data.List.Induction
import Descent.Proofs.Contract.General
import Descent.Proofs.Parser.Planning
import Descent.Proofs.Session.Definitions

/-!
Legal grammars. A grammar is legal if all that is given to it from outside is: its functions do not
fault on what the grammar comes to on the text, what they make is legal again, and no number is too
long to be read or shown. Main statement: a run of a legal grammar, whenever it ends, ends with an
outcome.
-/

namespace Descent

namespace Value

mutual

def IsShort : Value → Prop
  | .int z => (Numeral.digits 10 z.natAbs).length ≤ Numeral.digitLimit
  | .list vs | .tuple vs => AreShort vs
  | .none | .bool _ | .text _ | .float _ => True

def AreShort : List Value → Prop
  | [] => True
  | v :: vs => IsShort v ∧ AreShort vs

end

mutual

theorem display_of_isShort : ∀ {v : Value}, v.IsShort → ∃ t, v.display = .ok t
  | .none, _ | .bool _, _ | .text _, _ | .float _, _ => ⟨_, rfl⟩
  | .int z, short => ⟨Numeral.decimal z, if_pos short⟩
  | .list vs, short | .tuple vs, short => by
      obtain ⟨ts, shown⟩ := displayAll_of_areShort short
      exact ⟨_, bind_of_ok shown _⟩

theorem displayAll_of_areShort : ∀ {vs : List Value}, AreShort vs → ∃ ts, displayAll vs = .ok ts
  | [], _ => ⟨[], rfl⟩
  | v :: vs, short => by
      obtain ⟨t, here⟩ := display_of_isShort short.1
      obtain ⟨ts, rest⟩ := displayAll_of_areShort short.2
      exact ⟨t :: ts, (bind_of_ok here _).trans (bind_of_ok rest _)⟩

end

mutual

theorem describe_of_isShort : ∀ {v : Value}, v.IsShort → ∃ t, v.describe = .ok t
  | .none, _ | .bool _, _ | .text _, _ | .float _, _ => ⟨_, rfl⟩
  | .int z, short => ⟨Numeral.decimal z, if_pos short⟩
  | .list vs, short | .tuple vs, short => by
      obtain ⟨ts, shown⟩ := describeAll_of_areShort short
      exact ⟨_, bind_of_ok shown _⟩

theorem describeAll_of_areShort : ∀ {vs : List Value}, AreShort vs → ∃ ts, describeAll vs = .ok ts
  | [], _ => ⟨[], rfl⟩
  | v :: vs, short => by
      obtain ⟨t, here⟩ := describe_of_isShort short.1
      obtain ⟨ts, rest⟩ := describeAll_of_areShort short.2
      exact ⟨t :: ts, (bind_of_ok here _).trans (bind_of_ok rest _)⟩

end

mutual

theorem describe_of_not_isShort : ∀ {v : Value}, ¬ v.IsShort → v.describe = .error .badNumber
  | .none, long | .bool _, long | .text _, long | .float _, long => absurd True.intro long
  | .int z, long => if_neg long
  | .list vs, long | .tuple vs, long => by
      rw [describe, describeAll_of_not_areShort long]
      rfl

theorem describeAll_of_not_areShort :
    ∀ {vs : List Value}, ¬ AreShort vs → describeAll vs = .error .badNumber
  | [], long => absurd True.intro long
  | v :: vs, long => by
      by_cases here : v.IsShort
      · obtain ⟨t, shown⟩ := describe_of_isShort here
        rw [describeAll, shown, describeAll_of_not_areShort fun rest => long ⟨here, rest⟩]
        rfl
      · rw [describeAll, describe_of_not_isShort here]
        rfl

end

end Value

namespace Grammar

/-- Grammars on a text whose functions keep to their part. `yields` says which values a grammar may
come to on the text, and `known` which names stand for parsers. -/
inductive Legal (src : Text) (known : Text → Prop) (yields : Grammar → Value → Prop) :
    Grammar → Prop
  | text (t : Text) : Legal src known yields (.value (.text t))
  | ref {name : Text} (knows : known name) : Legal src known yields (.ref name)
  | noting (event : Text) {g : Grammar} (part : Legal src known yields g) :
      Legal src known yields (.noting event g)
  | char (c : CodePoint) : Legal src known yields (.char [c])
  | string (t : Text) : Legal src known yields (.string t)
  | regex {flags : Regex.Flags} {pattern : Text} (reads : ∃ r, Regex.read flags pattern = .ok r) :
      Legal src known yields (.regex flags pattern)
  | satisfy {test : Callback Bool} (label : Text)
      (tests : ∀ c ∈ src, ∃ passed, test.call (.text [c]) = .ok passed) :
      Legal src known yields (.satisfy test label)
  | whitespaces : Legal src known yields .whitespaces
  | succeed (v : Value) : Legal src known yields (.succeed v)
  | fail (message : Text) : Legal src known yields (.fail message)
  | seq {gs : List Grammar} (some : gs ≠ []) (parts : ∀ g ∈ gs, Legal src known yields g) :
      Legal src known yields (.seq gs)
  | alt {gs : List Grammar} (some : gs ≠ []) (parts : ∀ g ∈ gs, Legal src known yields g) :
      Legal src known yields (.alt gs)
  | copies {g : Grammar} {count : Int} (part : Legal src known yields g) (positive : 0 < count) :
      Legal src known yields (.copies g (.ok count))
  | map {g : Grammar} {fn : Callback Value} {validate : Option (Callback Bool)}
      (part : Legal src known yields g)
      (tests : ∀ test ∈ validate, ∀ v, yields g v → ∃ passed, test.call v = .ok passed)
      (calls : ∀ v, yields g v → (∀ test ∈ validate, test.call v = .ok true) →
        ∃ w, fn.call v = .ok w) :
      Legal src known yields (.map g fn validate)
  | many {g : Grammar} (part : Legal src known yields g) : Legal src known yields (.many g)
  | many1 {g : Grammar} (part : Legal src known yields g) : Legal src known yields (.many1 g)
  | between {left right g : Grammar} (lead : Legal src known yields left)
      (trail : Legal src known yields right) (part : Legal src known yields g) :
      Legal src known yields (.between left right g)
  | after {lead g : Grammar} (first : Legal src known yields lead)
      (part : Legal src known yields g) :
      Legal src known yields (.after lead g)
  | token {g : Grammar} (part : Legal src known yields g) : Legal src known yields (.token g)
  | upTo {stop g : Grammar} (ends : Legal src known yields stop) (part : Legal src known yields g) :
      Legal src known yields (.upTo stop g)
  | not {g : Grammar} (part : Legal src known yields g) (shows : ∀ v, yields g v → v.IsShort) :
      Legal src known yields (.not g)
  | except {exclusion g : Grammar} (excluded : Legal src known yields exclusion)
      (shows : ∀ v, yields exclusion v → v.IsShort) (part : Legal src known yields g) :
      Legal src known yields (.except exclusion g)
  | peek {g : Grammar} (part : Legal src known yields g) : Legal src known yields (.peek g)
  | eof {g : Grammar} (part : Legal src known yields g) : Legal src known yields (.eof g)
  | sepBy {separator item : Grammar} (mark : Legal src known yields separator)
      (part : Legal src known yields item) : Legal src known yields (.sepBy separator item)
  /-- Every continuation makes a legal grammar of what the ones before it come to. -/
  | andThen {g : Grammar} {fns : List (Value → Grammar)} (part : Legal src known yields g)
      (next : ∀ before fn after, fns = before ++ fn :: after → ∀ v, yields (.andThen g before) v →
        Legal src known yields (fn v)) : Legal src known yields (.andThen g fns)
  | memoize {g : Grammar} (part : Legal src known yields g) : Legal src known yields (.memoize g)
  | lazy {g : Grammar} (part : Legal src known yields g) : Legal src known yields (.lazy g)
  | named (label : Text) {g : Grammar} (part : Legal src known yields g) :
      Legal src known yields (.named label g)
  | probe (event : Text) {g : Grammar} (part : Legal src known yields g) :
      Legal src known yields (.probe event g)
  | digits : Legal src known yields .digits
  | integer (short : ∀ w ds, yields (.seq [.sign, .digits]) (.tuple [w, .text ds]) →
      ds.length ≤ Numeral.digitLimit) : Legal src known yields .integer
  | float : Legal src known yields .float
  | identifier : Legal src known yields .identifier
  | unicodeEscape : Legal src known yields .unicodeEscape
  | quotedString (quote escape : Text) (escapes : Escapes) :
      Legal src known yields (.quotedString quote escape escapes)

variable {src : Text} {known : Text → Prop} {yields : Grammar → Value → Prop} {names before : Names}
  {fuel : Nat} {g : Grammar}

private theorem planned_pick (index : Int) {gs : List Grammar} (some : gs ≠ [])
    (parts : ∀ g ∈ gs, Planned (g.plan names)) : Planned ((pick index (.seq gs)).plan names) :=
  planned_part (planned_members some parts Parser.seq) _

theorem Legal.planned (parsers : ∀ name, known name → ∃ p, names name = some (.parser p))
    (legal : g.Legal src known yields) : Planned (g.plan names) := by
  induction legal with
  | ref knows =>
      obtain ⟨p, found⟩ := parsers _ knows
      exact ⟨p, by simp only [plan, found]; rfl⟩
  | noting event part ih => exact ih
  | regex reads =>
      obtain ⟨r, read⟩ := reads
      exact ⟨.regex r, by simp only [plan, read]; rfl⟩
  | seq some parts ih => exact planned_members some ih Parser.seq
  | alt some parts ih => exact planned_members some ih Parser.alt
  | @copies g count part positive ih =>
      obtain ⟨p, here⟩ := ih
      refine ⟨.seq (List.replicate count.toNat p), ?_⟩
      simp only [plan, here]
      exact if_neg (Int.not_le.mpr positive)
  | map part tests calls ih => exact planned_part ih _
  | many part ih => exact planned_part ih _
  | many1 part ih => exact planned_part ih _
  | between lead trail part first last middle =>
      obtain ⟨p, first⟩ := first
      obtain ⟨q, last⟩ := last
      obtain ⟨r, middle⟩ := middle
      exact ⟨.map (.seq [p, r, q]) (.silent (Value.item 1)) none, by
        simp only [plan, first, last, middle]; rfl⟩
  | after first part lead inner =>
      exact planned_pick 1 (by simp)
        (List.forall_mem_cons.mpr ⟨lead, List.forall_mem_singleton.mpr inner⟩)
  | token part ih =>
      exact planned_pick 0 (by simp)
        (List.forall_mem_cons.mpr ⟨ih, List.forall_mem_singleton.mpr ⟨_, rfl⟩⟩)
  | upTo ends part stop inner => exact planned_pair stop inner _
  | not part shows ih => exact planned_part ih _
  | except excluded shows part first inner => exact planned_pair first inner _
  | peek part ih => exact planned_part ih _
  | eof part ih => exact planned_part ih _
  | sepBy mark part first second =>
      obtain ⟨p, first⟩ := first
      obtain ⟨q, second⟩ := second
      exact ⟨.sepBy p q, by simp only [plan, first, second]; rfl⟩
  | andThen part next ih _ => exact planned_part ih _
  | memoize part ih => exact planned_part ih id
  | named label part ih => exact planned_part ih _
  | probe event part ih => exact planned_part ih _
  | _ => exact ⟨_, rfl⟩

theorem Legal.meets (given : ∀ name a, before name = some a → names name = some a)
    (yielded : ∀ (g : Grammar) (i : Nat) r, i ≤ src.length →
      g.Means names src i (.ok (.success r)) →
      yields g r.value)
    (late : ∀ g : Grammar, g.Legal src known yields →
      Setting.MeetsMatcher ⟨.faultless, src, names, fuel⟩
      .any (Setting.late ⟨.faultless, src, names, fuel⟩ g))
    (found : before.All (Setting.MeetsArgument ⟨.faultless, src, names, fuel⟩ .any))
    (legal : g.Legal src known yields) :
    Setting.Meets ⟨.faultless, src, names, fuel⟩ before .any g := by
  -- What legality demands of functions is about values that a grammar yields.
  have valued {S : Spec} {g : Grammar}
    (meets : Setting.Meets ⟨.faultless, src, names, fuel⟩ before S g) :
      Setting.Meets ⟨.faultless, src, names, fuel⟩ before (fun _ _ v => yields g v) g :=
    (meets.means given).mono fun i j v _ _ here => yielded g i ⟨v, j⟩ here.2.1 here.2.2
  have shown (v : Value) (short : v.IsShort) :
      Guarantee.faultless.Holds (Action.ofExcept (Matcher.unwanted v)) fun _ => True := by
    obtain ⟨t, display⟩ := Value.display_of_isShort short
    exact Guarantee.of_ok _ ⟨_, bind_of_ok display _, True.intro⟩
  induction legal with
  | text t => exact .text fun _ _ _ => True.intro
  | ref knows => exact .ref fun a => found _ a
  | noting event part ih => exact .noting event ih
  | char c => exact .char fun _ _ _ => True.intro
  | string t => exact .string fun _ _ _ => True.intro
  | regex reads => exact .regex fun _ _ _ _ => True.intro
  | satisfy label tests =>
      refine .satisfy fun i c seen => Guarantee.of_ok _ ?_
      obtain ⟨passed, called⟩ := tests c (List.mem_of_getElem? seen)
      exact ⟨passed, called, fun _ => True.intro⟩
  | whitespaces => exact .whitespaces fun _ _ _ _ => True.intro
  | succeed v => exact .succeed fun _ => True.intro
  | fail message => exact .fail message
  | seq some parts ih => exact (Setting.Meets.row ih).any
  | alt some parts ih => exact .alt ih
  | copies part positive ih => exact (Setting.Meets.copies ih).any
  | map part tests calls ih =>
      refine .map (valued ih) (fun test member i j v here => Guarantee.of_ok _ ?_)
        fun i j v here passed => Guarantee.of_ok _ ?_
      · obtain ⟨passed, called⟩ := tests test member v here
        exact ⟨passed, called, True.intro⟩
      · obtain ⟨w, called⟩ := calls v here passed
        exact ⟨w, called, True.intro⟩
  | many part ih => exact (Setting.Meets.many ih).any
  | many1 part ih => exact (Setting.Meets.many1 ih).any
  | between lead trail part first last middle => exact (Setting.Meets.between first last middle).any
  | after first part lead inner => exact (Setting.Meets.after lead inner).any
  | token part ih => exact (Setting.Meets.token ih).any
  | upTo ends part stop inner => exact (Setting.Meets.upTo stop inner).any
  | not part shows ih =>
      exact .not (valued ih) (fun _ _ v here => shown v (shows v here)) fun _ => True.intro
  | except excluded shows part first inner =>
      exact .except (valued first) (fun _ _ v here => shown v (shows v here)) inner
  | peek part ih => exact .peek ih fun _ _ _ _ => True.intro
  | eof part ih => exact .eof ih
  | sepBy mark part first second => exact (Setting.Meets.sepBy first second).any
  | @andThen g fns part next ih _ =>
      -- A continuation is legal for what the ones before it come to, so they are taken in from the
      -- front.
      have fronts (front : List (Value → Grammar)) : ∀ back, fns = front ++ back →
          Setting.Meets ⟨.faultless, src, names, fuel⟩ before .any (.andThen g front) := by
        induction front using List.reverseRecOn with
        | nil => exact fun _ _ => .andThen_nil ih
        | append_singleton front fn earlier =>
            intro back split
            have split : fns = front ++ fn :: back := by rw [split, List.append_assoc]; rfl
            refine (valued (earlier _ split)).andThen_append fun i k v within here => ?_
            exact late _ (next front fn back split v here) k within
      exact fronts fns [] (List.append_nil fns).symm
  | memoize part ih => exact .memoize ih
  | lazy part => exact .lazy (late _ part)
  | named label part ih => exact .named label ih
  | probe event part ih => exact .probe event ih
  | digits => exact Setting.Meets.digits.any
  | integer short =>
      exact (Setting.Meets.integer given fun i j w ds inside means =>
        short w ds (yielded _ i ⟨_, j⟩ inside means)).any
  | float => exact Setting.Meets.float.any
  | identifier => exact Setting.Meets.identifier.any
  | unicodeEscape => exact Setting.Meets.unicodeEscape.any
  | quotedString quote escape escapes => exact (Setting.Meets.quotedString quote escape escapes).any

end Grammar

namespace Store

/-- On a text that is short itself, no whole number is too long. -/
theorem legal_integer {rs : List Request} {s : Store} {src : Text} (prepare : ∀ r ∈ rs, r.Prepares)
    (prepared : empty.Leads rs s) (short : src.length ≤ Numeral.digitLimit) :
    Grammar.integer.Legal src s.Knows (s.Yields src) := by
  refine .integer fun w ds yields => ?_
  obtain ⟨i, j, inside, means⟩ := yields.means prepare prepared
  exact Nat.le_trans (Setting.Meets.digits_length_le inside means) short

/-- A run of a legal grammar within a text, whenever it ends, answers with a match or a failure,
whatever was run on the text before. -/
theorem answer_outcome {rs runs : List Request} {s t : Store} {src : Text} {g : Grammar} {pos : Int}
    (prepare : ∀ r ∈ rs, r.Prepares) (once : ((Request.definitions rs).map Prod.fst).Nodup)
    (prepared : empty.Leads rs s)
    (define : ∀ d ∈ Request.definitions rs, d.2.Legal src s.Knows (s.Yields src))
    (on : ∀ r ∈ runs, r.On src) (ran : s.Leads runs t) (legal : g.Legal src s.Knows (s.Yields src))
    (nonneg : 0 ≤ pos) (inside : pos ≤ src.length) {x : Except Fault Answer}
    (answered : t.Answers (.run g src pos) x) : ∃ r, x = .ok (.outcome r) := by
  obtain ⟨y, ⟨fuel, ended⟩, rfl⟩ := (answers_iff_means prepare prepared on ran).mp answered
  have parsers : ∀ name, s.Knows name → ∃ p, Request.namesAfter .empty rs name = some (.parser p) :=
    fun _ knows => knows.namesAfter prepare prepared
  have yielded : ∀ (g : Grammar) (i : Nat) r, i ≤ src.length →
      g.Means (Request.namesAfter .empty rs) src i (.ok (.success r)) → s.Yields src g r.value :=
    fun _ _ _ => yields_of_means prepare prepared
  have meets : (g.meaning (Request.namesAfter .empty rs) fuel).Meets .faultless src .any := by
    refine Grammar.meaning_meets (fun g legal P ensures => ?_)
      (fun fuel late g legal => ?_) fuel legal
    · obtain ⟨p, planned⟩ := legal.planned parsers
      have asParser : g.planned (Request.namesAfter .empty rs) = .ok p := bind_of_ok planned _
      exact Guarantee.of_ok _ ⟨p, asParser, ensures p asParser⟩
    · refine legal.meets (fun _ _ found => found) yielded late ?_
      exact Request.namesAfter_forall once (fun _ _ => rfl) rfl
        (fun _ given found d member => (define d member).meets given yielded late found) nofun
  lift pos to Nat using nonneg
  obtain ⟨r, rfl, _⟩ := meets pos (by omega) y ended
  exact ⟨r, rfl⟩

/-- Whole numbers and strings, or lists of such things in round brackets. -/
private def entry : Grammar :=
  .memoize (.alt [
    .between (.char ['(']) (.char [')']) (.sepBy (.token (.char [','])) (.lazy (.ref ['e']))),
    .token .integer,
    .quotedString ['*'] ['/'] Grammar.generalEscapes])

/-- An entry up to the end, which no bracket follows. -/
private def lastEntry : Grammar :=
  .eof (.andThen (.ref ['e']) [fun v => .after (.not (.char [')'])) (.succeed v)])

private def entries : Text :=
  ['(', '1', ' ', ',', '*', 'a', '*', ')']

private theorem entry_legal {rs : List Request} {s : Store} {src : Text}
    (prepare : ∀ r ∈ rs, r.Prepares) (prepared : empty.Leads rs s)
    (short : src.length ≤ Numeral.digitLimit) (knows : s.Knows ['e']) :
    entry.Legal src s.Knows (s.Yields src) := by
  refine .memoize (.alt (by simp) ?_)
  simp only [List.forall_mem_cons]
  refine ⟨?_, .token (legal_integer prepare prepared short), .quotedString _ _ _, by simp⟩
  exact .between (.char _) (.char _) (.sepBy (.token (.char _)) (.lazy (.ref knows)))

private theorem lastEntry_legal {rs : List Request} {s : Store} {src : Text}
    (prepare : ∀ r ∈ rs, r.Prepares) (prepared : empty.Leads rs s) (knows : s.Knows ['e']) :
    lastEntry.Legal src s.Knows (s.Yields src) := by
  have shows : ∀ v, s.Yields src (.char [')']) v → v.IsShort := by
    intro v yields
    obtain ⟨i, j, inside, means⟩ := yields.means prepare prepared
    obtain ⟨_, _, _, _, t, rfl, _⟩ := means.meets (S := .text fun _ => True) inside
      fun _ => .char fun _ c _ => ⟨[c], rfl, True.intro⟩
    exact True.intro
  refine .eof (.andThen (.ref knows) fun before fn after split v _ => ?_)
  cases before with
  | nil =>
      cases split
      exact .after (.not (.char _) shows) (.succeed v)
  | cons first before =>
      have lengths := congrArg List.length split
      simp at lengths

private def defined : Store :=
  (empty.performAll 0 [.define ['e'] entry]).getD empty

private def used : Store :=
  (defined.performAll 5 [.run (.ref ['e']) entries 1]).getD defined

theorem answer_outcome_entries :
    ∃ s t, empty.Leads [.define ['e'] entry] s ∧ s.Leads [.run (.ref ['e']) entries 1] t ∧
      (∃ x, t.Answers (.run lastEntry entries 0) x) ∧
      ∀ x, t.Answers (.run lastEntry entries 0) x → ∃ r, x = .ok (.outcome r) := by
  have prepare : ∀ r ∈ [Request.define ['e'] entry], r.Prepares := by simp [Request.Prepares]
  have prepared : empty.Leads [.define ['e'] entry] defined :=
    leads_performAll 0 (by decide +kernel)
  have ran : defined.Leads [.run (.ref ['e']) entries 1] used :=
    leads_performAll 5 (by decide +kernel)
  have answered : ∃ x, used.Answers (.run lastEntry entries 0) x :=
    exists_answer 5 (by decide +kernel)
  have knows : defined.Knows ['e'] := ⟨_, rfl⟩
  refine ⟨defined, used, prepared, ran, answered, fun x answered => ?_⟩
  refine answer_outcome prepare ?_ prepared ?_ ?_ ran (lastEntry_legal prepare prepared knows)
    (by decide) (by decide) answered
  · simp [Request.definitions, Request.definition?]
  · intro d member
    obtain rfl := List.mem_singleton.mp member
    exact entry_legal prepare prepared (by decide) knows
  · simp [Request.On]

end Store

end Descent
