import Mathlib.Data.List.Forall2
import Descent.Proofs.Peg.Basic
import Descent.Proofs.Contract.Guarantee
import Descent.Proofs.Correspondence.Matchers
import Descent.Proofs.Matcher.Stretch

/-!
Matchers that recognise parsing expressions. A matcher recognises an expression if it answers as the
expression derives, whenever it ends. Every way to put matchers together recognises the expression
that is put together likewise.
-/

namespace Descent

namespace Peg

/-- An outcome states what is derived. A failure expects something. -/
inductive Agrees (rules : Text → Peg) (src : Text) (e : Peg) (i : Nat) : Outcome → Prop
  | matched {v : Value} {j : Nat} (derives : Derives rules src e i (some j)) :
      Agrees rules src e i (.matched v j)
  | failed {labels : List Text} {pos : Int} (nonempty : labels ≠ [])
      (derives : Derives rules src e i none) : Agrees rules src e i (.failure ⟨labels, pos⟩)

/-- Within a text the matcher answers as the expression derives, if it ends. -/
def Recognises (rules : Text → Peg) (src : Text) (m : Matcher Unit) (e : Peg) : Prop :=
  ∀ i, i ≤ src.length → (m src i).Delivers (Agrees rules src e i)

variable {rules : Text → Peg} {src : Text} {m n : Matcher Unit} {e f : Peg} {i j : Nat}
  {x : Option Nat}

theorem Agrees.single (label : Text) (pos : Int) (derives : Derives rules src e i none) :
    Agrees rules src e i (.failed label pos) :=
  .failed (by simp) derives

theorem Agrees.rule {name : Text} {r : Outcome} (agrees : Agrees rules src (rules name) i r) :
    Agrees rules src (.rule name) i r := by
  cases agrees with
  | matched derives => exact .matched (.rule derives)
  | failed nonempty derives => exact .failed nonempty (.rule derives)

/-! Matchers that look at the text themselves. -/

theorem satisfy_recognises {label : Text} {test : CodePoint → Action Unit Bool}
    {p : CodePoint → Bool} (tests : ∀ c ∈ src, (test c).Delivers (· = p c)) :
    Recognises rules src (Matcher.satisfy label test) (.test p) := by
  intro i inside
  unfold Matcher.satisfy
  rw [Text.lookAt_eq]
  cases seen : src[i]? with
  | none => exact .pure (.single _ _ (.testEnd seen))
  | some c =>
      apply (tests c (List.mem_of_getElem? seen)).bind
      intro _ same
      subst same
      cases passed : p c with
      | false => exact .pure (.single _ _ (.testOther seen passed))
      | true => exact .pure (.matched (.test seen passed))

theorem char_recognises (c : CodePoint) : Recognises rules src (Matcher.char c) (.test (· == c)) :=
  satisfy_recognises fun _ _ => .pure rfl

theorem string_recognises (t : Text) : Recognises rules src (Matcher.string t) (string t) := by
  intro i inside
  unfold Matcher.string
  split
  · rename_i stands
    exact .pure (.matched (derives_string ((Text.standsAt_iff inside).mp stands)))
  · rename_i differs
    refine .pure (.single _ _ (derives_string_none fun stands => ?_))
    exact differs ((Text.standsAt_iff inside).mpr stands)

theorem succeed_recognises (v : Value) : Recognises rules src (Matcher.succeed v) .empty :=
  fun _ _ => .pure (.matched .empty)

theorem fail_recognises (message : Text) : Recognises rules src (Matcher.fail message) .fail :=
  fun _ _ => .pure (.single _ _ .fail)

theorem derives_spaces (stretch : src.Stretch CodePoint.isBlank i j) :
    Derives rules src spaces i (some j) := by
  induction left : j - i generalizing i with
  | zero =>
      have onward := stretch.onward
      obtain rfl : i = j := by omega
      cases seen : src[i]? with
      | none => exact .starFail (.testEnd seen)
      | some c => exact .starFail (.testOther seen (stretch.ends seen))
  | succ left ih =>
      obtain ⟨c, seen, blank⟩ := stretch.passes (Nat.le_refl i) (by omega)
      exact .starMore (.test seen blank) (by omega) (ih (stretch.next (by omega)) (by omega))

theorem whitespaces_recognises : Recognises rules src Matcher.whitespaces spaces := by
  intro i _
  obtain ⟨j, stretch⟩ := Text.exists_stretch CodePoint.isBlank src i
  rw [Matcher.whitespaces_eq stretch]
  exact .pure (.matched (derives_spaces stretch))

/-! Sequences and choices. -/

theorem stages_recognises {ms : List (Matcher Unit)} {es : List Peg}
    (members : List.Forall₂ (Recognises rules src) ms es) (values : List Value)
    (inside : i ≤ src.length) :
    (Matcher.stages src ms values i).Delivers (Agrees rules src (sequence es) i) := by
  induction members generalizing values i with
  | nil => exact .pure (.matched .empty)
  | cons here _ ih =>
      apply (here i inside).bind
      intro r agrees
      cases agrees with
      | @matched v j derives =>
          apply (ih (v :: values) (derives.bounds inside j rfl).2).mono
          intro r agrees
          cases agrees with
          | matched rest => exact .matched (derives_sequence derives rest)
          | failed nonempty rest => exact .failed nonempty (derives_sequence derives rest)
      | failed nonempty derives => exact .pure (.failed nonempty (derives_sequence_none derives))

theorem seq_recognises {ms : List (Matcher Unit)} {es : List Peg}
    (members : List.Forall₂ (Recognises rules src) ms es) :
    Recognises rules src (Matcher.seq ms) (sequence es) :=
  fun _ inside => stages_recognises members [] inside

theorem stages_tuple {ms : List (Matcher Unit)} {values : List Value} {pos : Int} {s : Success}
    (run : (Matcher.stages src ms values pos).run () = some (.ok (.success s), ())) :
    ∃ vs, s.value = .tuple vs ∧ vs.length = values.length + ms.length := by
  induction ms generalizing values pos with
  | nil =>
      cases run
      exact ⟨values.reverse, rfl, by simp⟩
  | cons m ms ih =>
      rcases Action.run_bind_eq_some.mp run with ⟨e, _, equal⟩ | ⟨r, ⟨⟩, _, continued⟩
      · cases equal
      · cases r with
        | failure f => cases continued
        | success r =>
            obtain ⟨vs, tuple, length⟩ := ih continued
            exact ⟨vs, tuple, by simp only [length, List.length_cons]; omega⟩

theorem item_tuple {vs : List Value} {index : Int} (nonneg : 0 ≤ index) (lt : index < vs.length) :
    ∃ v, Value.item index (.tuple vs) = .ok v := by
  have found : index.toNat < vs.length := by omega
  refine ⟨vs[index.toNat], ?_⟩
  simp [Value.item, Value.memberAt, if_neg (Int.not_lt.mpr nonneg), nonneg,
    List.getElem?_eq_getElem found]

theorem map_recognises (inner : Recognises rules src m e) {fn : Value → Action Unit Value}
    (calls : ∀ i, i ≤ src.length → ∀ s, (m src i).run () = some (.ok (.success s), ()) →
      ∃ w, (fn s.value).run () = some (.ok w, ())) :
    Recognises rules src (Matcher.map m fn none) e := by
  intro i inside
  refine (inner i inside).self.bind fun r ⟨agrees, run⟩ => ?_
  cases agrees with
  | failed nonempty derives => exact .pure (.failed nonempty derives)
  | @matched v j derives =>
      obtain ⟨w, called⟩ := calls i inside _ run
      have applied : (fn v).Delivers fun _ => True := .of_run called True.intro
      simp only [pure_bind, ↓reduceIte]
      exact applied.bind fun w _ => .pure (.matched derives)

theorem pick_recognises {ms : List (Matcher Unit)} {es : List Peg}
    (members : List.Forall₂ (Recognises rules src) ms es) {index : Int} (nonneg : 0 ≤ index)
    (lt : index < ms.length) {fn : Value → Action Unit Value}
    (item : ∀ v, fn v = Action.ofExcept (v.item index)) :
    Recognises rules src (Matcher.map (Matcher.seq ms) fn none) (sequence es) := by
  apply map_recognises (seq_recognises members)
  intro i inside s run
  obtain ⟨vs, tuple, length⟩ := stages_tuple run
  have inRange : index < vs.length := by simp [length, lt]
  obtain ⟨w, found⟩ := item_tuple nonneg inRange
  exact ⟨w, by rw [item, tuple, found]; rfl⟩

theorem alternatives_recognises {ms : List (Matcher Unit)} {es : List Peg}
    (members : List.Forall₂ (Recognises rules src) ms es) (inside : i ≤ src.length)
    (labels : List Text) (some : labels ≠ [] ∨ ms ≠ []) :
    (Matcher.alternatives src i ms labels).Delivers (Agrees rules src (firstOf es) i) := by
  induction members generalizing labels with
  | nil =>
      obtain ⟨f, equal, nonempty, _⟩ :=
        Failure.ofLabels_ok (some.resolve_right fun none => none rfl) i
      simp only [Matcher.alternatives, equal]
      exact .pure (.failed nonempty .fail)
  | cons here _ ih =>
      apply (here i inside).bind
      intro r agrees
      cases agrees with
      | matched derives => exact .pure (.matched (derives_firstOf derives))
      | @failed more pos nonempty derives =>
          apply (ih (labels ++ more) (.inl (by simp [nonempty]))).mono
          intro r agrees
          cases agrees with
          | matched rest => exact .matched (derives_firstOf_next derives rest)
          | failed nonempty rest => exact .failed nonempty (derives_firstOf_next derives rest)

theorem alt_recognises {ms : List (Matcher Unit)} {es : List Peg}
    (members : List.Forall₂ (Recognises rules src) ms es) (some : ms ≠ []) :
    Recognises rules src (Matcher.alt ms) (firstOf es) :=
  fun _ inside => alternatives_recognises members inside [] (.inr some)

/-! Repetition. -/

theorem repeatFrom_recognises (inner : Recognises rules src m e) (fuel : Nat) (values : List Value)
    (inside : i ≤ src.length) :
    (Matcher.repeatFrom m src fuel values i).Delivers (Agrees rules src (.star e) i) := by
  induction fuel generalizing values i with
  | zero => exact .exhausted
  | succ fuel ih =>
      apply (inner i inside).bind
      intro r agrees
      cases agrees with
      | failed nonempty derives => exact .pure (.matched (.starFail derives))
      | @matched v j derives =>
          change Action.Delivers (if (j : Int) = i then _ else _) _
          split
          · rename_i same
            obtain rfl : j = i := Int.ofNat_inj.mp same
            exact .pure (.matched (.starStay derives))
          · rename_i moved
            apply (ih (v :: values) (derives.bounds inside j rfl).2).mono
            intro r agrees
            have apart : j ≠ i := fun same => moved (congrArg Nat.cast same)
            cases agrees with
            | matched rest => exact .matched (.starMore derives apart rest)
            | failed nonempty rest => exact .failed nonempty (.starMore derives apart rest)

theorem many_recognises (inner : Recognises rules src m e) (fuel : Nat) :
    Recognises rules src (Matcher.many fuel m) (.star e) :=
  fun _ inside => repeatFrom_recognises inner fuel [] inside

theorem chain_recognises (first : Recognises rules src m e) (rest : Recognises rules src n f)
    (fuel : Nat) :
    Recognises rules src (Matcher.chain fuel m n) (.seq e (.star f)) := by
  intro i inside
  apply (first i inside).bind
  intro r agrees
  cases agrees with
  | failed nonempty derives => exact .pure (.failed nonempty (.seqFail derives))
  | @matched v j derives =>
      refine (repeatFrom_recognises rest fuel [v] (derives.bounds inside j rfl).2).mono
        fun r agrees => ?_
      cases agrees with
      | matched more => exact .matched (.seq derives more)
      | failed nonempty more => exact .failed nonempty (.seq derives more)

theorem many1_recognises (inner : Recognises rules src m e) (fuel : Nat) :
    Recognises rules src (Matcher.many1 fuel m) (many1 e) :=
  chain_recognises inner inner fuel

theorem sepBy_recognises (separator : Recognises rules src m e) (item : Recognises rules src n f)
    (fuel : Nat) : Recognises rules src (Matcher.sepBy fuel m n) (sepBy e f) := by
  have both : List.Forall₂ (Recognises rules src) [m, n] [e, f] := .cons separator (.cons item .nil)
  exact chain_recognises item (pick_recognises both (by decide) (by simp) fun _ => rfl) fuel

private theorem derives_upTo_more (failed : Derives rules src e i none)
    (round : Derives rules src f i (some j)) (moved : j ≠ i)
    (rest : Derives rules src (upTo e f) j x) :
    Derives rules src (upTo e f) i x := by
  have step : Derives rules src (.seq (.not e) f) i (some j) := .seq (.notFail failed) round
  cases rest with
  | seq rounds last => exact .seq (.starMore step moved rounds) last
  | seqFail rounds => exact .seqFail (.starMore step moved rounds)

theorem upToFrom_recognises (stop : Recognises rules src m e) (inner : Recognises rules src n f)
    (fuel : Nat) (values : List Value) (inside : i ≤ src.length) :
    (Matcher.upToFrom m n src fuel values i).Delivers (Agrees rules src (upTo e f) i) := by
  induction fuel generalizing values i with
  | zero => exact .exhausted
  | succ fuel ih =>
      apply (stop i inside).bind
      intro r agrees
      cases agrees with
      | matched stops =>
          have none : Derives rules src (.star (.seq (.not e) f)) i (some i) :=
            .starFail (.seqFail (.not stops))
          exact .pure (.matched (.seq none (.choice (derives_ahead stops))))
      | failed _ goesOn =>
          apply (inner i inside).bind
          intro r agrees
          cases agrees with
          | failed nonempty derives =>
              -- The rounds end here, and so does the whole: neither end can be seen ahead.
              have none : Derives rules src (.star (.seq (.not e) f)) i (some i) :=
                .starFail (.seq (.notFail goesOn) derives)
              exact .pure (.failed nonempty
                (.seq none (.choiceNext (derives_ahead_none goesOn) (derives_ahead_none derives))))
          | @matched v j derives =>
              change Action.Delivers (if (j : Int) = i then _ else _) _
              split
              · rename_i same
                obtain rfl : j = i := Int.ofNat_inj.mp same
                have none : Derives rules src (.star (.seq (.not e) f)) j (some j) :=
                  .starStay (.seq (.notFail goesOn) derives)
                exact .pure (.matched
                  (.seq none (.choiceNext (derives_ahead_none goesOn) (derives_ahead derives))))
              · rename_i moved
                apply (ih (v :: values) (derives.bounds inside j rfl).2).mono
                intro r agrees
                have apart : j ≠ i := fun same => moved (congrArg Nat.cast same)
                cases agrees with
                | matched rest => exact .matched (derives_upTo_more goesOn derives apart rest)
                | failed nonempty rest =>
                    exact .failed nonempty (derives_upTo_more goesOn derives apart rest)

theorem upTo_recognises (stop : Recognises rules src m e) (inner : Recognises rules src n f)
    (fuel : Nat) :
    Recognises rules src (Matcher.upTo fuel m n) (upTo e f) :=
  fun _ inside => upToFrom_recognises stop inner fuel [] inside

/-! Looking ahead. -/

def Shows (src : Text) (m : Matcher Unit) : Prop :=
  ∀ i : Nat, i ≤ src.length → ∀ s, (m src i).run () = some (.ok (.success s), ()) →
    ∃ t, s.value.display = .ok t

theorem unwanted_delivers {v : Value} (shown : ∃ t, v.display = .ok t) :
    (Action.ofExcept (Matcher.unwanted v)).Delivers fun _ => True := by
  obtain ⟨t, shown⟩ := shown
  exact .ofExcept ⟨_, by rw [Matcher.unwanted, shown]; rfl, True.intro⟩

theorem not_recognises (inner : Recognises rules src m e) (shows : Shows src m) :
    Recognises rules src (Matcher.not m) (.not e) := by
  intro i inside
  refine (inner i inside).self.bind fun r ⟨agrees, run⟩ => ?_
  cases agrees with
  | failed _ derives => exact .pure (.matched (.notFail derives))
  | matched derives =>
      exact (unwanted_delivers (shows i inside _ run)).bind
        fun _ _ => .pure (.single _ _ (.not derives))

theorem except_recognises (exclusion : Recognises rules src m e) (inner : Recognises rules src n f)
    (shows : Shows src m) : Recognises rules src (Matcher.except m n) (except e f) := by
  intro i inside
  refine (exclusion i inside).self.bind fun r ⟨agrees, run⟩ => ?_
  cases agrees with
  | failed _ excluded =>
      apply (inner i inside).mono
      intro r agrees
      cases agrees with
      | matched derives => exact .matched (.seq (.notFail excluded) derives)
      | failed nonempty derives => exact .failed nonempty (.seq (.notFail excluded) derives)
  | matched excluded =>
      apply (unwanted_delivers (shows i inside _ run)).bind
      intro _ _
      exact .pure (.single _ _ (.seqFail (.not excluded)))

theorem peek_recognises (inner : Recognises rules src m e) :
    Recognises rules src (Matcher.peek m) (ahead e) := by
  intro i inside
  apply (inner i inside).bind
  intro r agrees
  cases agrees with
  | matched derives => exact .pure (.matched (derives_ahead derives))
  | failed nonempty derives => exact .pure (.failed nonempty (derives_ahead_none derives))

theorem eof_recognises (inner : Recognises rules src m e) :
    Recognises rules src (Matcher.eof m) (eof e) := by
  intro i inside
  apply (inner i inside).bind
  intro r agrees
  cases agrees with
  | failed nonempty derives => exact .pure (.failed nonempty (.seqFail derives))
  | @matched v j derives =>
      have within := (derives.bounds inside j rfl).2
      change Action.Delivers (if (j : Int) = src.length then _ else _) _
      split
      · have ended : src[j]? = none := List.getElem?_eq_none (by omega)
        exact .pure (.matched (.seq derives (.notFail (.testEnd ended))))
      · have seen := List.getElem?_eq_getElem (l := src) (i := j) (by omega)
        exact .pure (.single _ _ (.seq derives (.not (.test seen rfl))))

theorem relabel_recognises (label : Text) (inner : Recognises rules src m e) :
    Recognises rules src (Matcher.relabel label m) e := by
  intro i inside
  apply (inner i inside).bind
  intro r agrees
  cases agrees with
  | matched derives => exact .pure (.matched derives)
  | failed nonempty derives =>
      dsimp only
      split
      · exact .pure (.single _ _ derives)
      · exact .pure (.failed nonempty derives)

end Peg

end Descent
