import Descent.Proofs.Number.Matchers

/-!
Digits and names as matchers. Both take code points of one kind as far as these go, a name behind a
first code point of its own kind. Main statement: they match where they can start, as far as they
can go, and the value is the text in between.
-/

namespace Descent

open Text

namespace CodePoint

def isNameStart (c : CodePoint) : Bool :=
  c.isLetter || c == '_'

def isNamePart (c : CodePoint) : Bool :=
  c.isLetter || c.isDigit || c == '_'

end CodePoint

theorem Grammar.joinHeadAndRest_letters (c : CodePoint) (t : Text) :
    joinHeadAndRest (.tuple [.text [c], .list (t.map fun c => .text [c])]) = .ok (c :: t) :=
  bind_of_ok (Value.joinPresent_singles t) _

namespace Matcher

variable {σ : Type}

def letter : Matcher σ :=
  codePoint CodePoint.isLetter (Text.ofString "letter")

def nameStart : Matcher σ :=
  alt [letter, string (Text.ofString "_")]

def namePart : Matcher σ :=
  alt [letter, digit, string (Text.ofString "_")]

def identifier (fuel : Nat) : Matcher σ :=
  mapText (seq [nameStart, many fuel namePart]) Grammar.joinHeadAndRest

variable {src : Text} {i stop fuel : Nat} {c : CodePoint}

theorem letter_takes (src : Text) : Takes CodePoint.isLetter src (letter (σ := σ)) :=
  codePoint_takes _ _ src

theorem nameStart_takes (src : Text) : Takes CodePoint.isNameStart src (nameStart (σ := σ)) := by
  have kind : CodePoint.isNameStart = fun c => [CodePoint.isLetter, (· == '_')].any
    fun test => test c := by
    funext c
    simp [CodePoint.isNameStart]
  rw [kind]
  exact alt_takes (.cons (letter_takes src) (.cons (one_takes '_' src) .nil))

theorem namePart_takes (src : Text) : Takes CodePoint.isNamePart src (namePart (σ := σ)) := by
  have kind : CodePoint.isNamePart =
      fun c => [CodePoint.isLetter, CodePoint.isDigit, (· == '_')].any fun test => test c := by
    funext c
    simp [CodePoint.isNamePart, Bool.or_assoc]
  rw [kind]
  exact alt_takes
    (.cons (letter_takes src) (.cons (digit_takes src) (.cons (one_takes '_' src) .nil)))

theorem identifier_matched (seen : src[i]? = some c) (starts : c.isNameStart = true)
    (stretch : src.Stretch CodePoint.isNamePart (i + 1) stop) (enough : stop - (i + 1) < fuel) :
    identifier fuel src i =
      (pure (.matched (.text (src.slice i stop)) stop) : Action σ Outcome) := by
  have within := stretch.le_length (List.getElem?_eq_some_iff.mp seen).1
  have row : seq [nameStart, many fuel namePart] src i = (pure (.matched (.tuple
      [.text [c], .list ((src.slice (i + 1 : Nat) stop).map fun c => .text [c])]) stop) :
        Action σ Outcome) := by
    rw [seq, stages_matched ((nameStart_takes src).matched seen starts),
      stages_matched ((namePart_takes src).many stretch enough)]
    rfl
  rw [slice_cons seen stretch.onward within]
  exact mapText_matched row (Grammar.joinHeadAndRest_letters c _)

theorem nameStart_refused (refused : ∀ c, src[i]? = some c → c.isNameStart = false) :
    ∃ label labels,
      nameStart src i = (pure (.failure ⟨label :: labels, i⟩) : Action σ Outcome) := by
  have noLetter := (letter_takes (σ := σ) src).failed fun c seen =>
    (Bool.or_eq_false_iff.mp (refused c seen)).1
  have noLine := (one_takes (σ := σ) '_' src).failed fun c seen =>
    (Bool.or_eq_false_iff.mp (refused c seen)).2
  exact noLetter.alt_here (List.forall_mem_singleton.mpr noLine)

theorem identifier_refused (fuel : Nat) (refused : ∀ c, src[i]? = some c → c.isNameStart = false) :
    ∃ f : Failure, f.pos = i ∧ identifier fuel src i = (pure (.failure f) : Action σ Outcome) := by
  obtain ⟨label, labels, failed⟩ := nameStart_refused (σ := σ) refused
  exact ⟨⟨label :: labels, i⟩, rfl, mapText_failed (stages_failed failed) _⟩

end Matcher

namespace Request

variable {fuel : Nat} {src : Text} {pos : Int} {x : Except Fault Outcome}

theorem run_digits
    (inner : Matcher.digits fuel src pos = (Action.ofExcept x : Action Store Outcome)) (s : Store) :
    ((run .digits src pos).perform fuel).run s = some (x.map .outcome, s) := by
  have built : (run .digits src pos).perform fuel = do
    return .outcome (← Matcher.digits fuel src pos) := by
    cases fuel <;> rfl
  rw [built, inner]
  cases x <;> rfl

theorem run_identifier
    (inner : Matcher.identifier fuel src pos = (Action.ofExcept x : Action Store Outcome))
    (s : Store) :
    ((run .identifier src pos).perform fuel).run s =
      some (x.map fun r => .outcome (r.renamed (Text.ofString "identifier") pos),
        s.tried (Text.ofString "identifier") pos) := by
  refine run_named ?_ inner s
  cases fuel <;> rfl

end Request

/-- Matches from a position if it can start there, and then as far as all code points but the first
`k` are of the right kind. -/
structure Outcome.Longest (starts : CodePoint → Bool) (k : Nat) (goesOn : CodePoint → Bool)
    (label src : Text) (pos : Nat) (r : Outcome) : Prop where
  matched_iff : (∃ m, r = .success m) ↔ ∃ c, src[pos]? = some c ∧ starts c = true
  longest : ∀ m, r = .success m → ∃ stop : Nat, m = ⟨.text (src.slice pos stop), stop⟩ ∧
    IsGreatest {j | pos ≤ j ∧ j ≤ src.length ∧ ∀ c ∈ (src.slice pos j).drop k, goesOn c = true} stop
  failed : (∀ m, r ≠ .success m) → r = .failed label pos

namespace Outcome.Longest

variable {starts goesOn : CodePoint → Bool} {k : Nat} {label src : Text} {pos stop : Nat}
  {c : CodePoint}

theorem of_matched (seen : src[pos]? = some c) (start : starts c = true) (few : k ≤ 1)
    (stretch : src.Stretch goesOn (pos + k) stop) :
    Longest starts k goesOn label src pos (.matched (.text (src.slice pos stop)) stop) where
  matched_iff := ⟨fun _ => ⟨c, seen, start⟩, fun _ => ⟨_, rfl⟩⟩
  longest m same := by
    cases same
    have inside := (List.getElem?_eq_some_iff.mp seen).1
    exact ⟨stop, rfl, stretch.isGreatest (by omega)⟩
  failed other := absurd rfl (other _)

theorem of_refused (refused : ∀ c, src[pos]? = some c → starts c = false) :
    Longest starts k goesOn label src pos (.failed label pos) where
  matched_iff := by
    constructor
    · rintro ⟨m, ⟨⟩⟩
    · rintro ⟨c, seen, start⟩
      cases start.symm.trans (refused c seen)
  longest _ same := nomatch same
  failed _ := rfl

/-- It is enough to know the answer where there is a first code point, and where there is none. -/
theorem exists_longest {answers : Outcome → Prop} (few : k ≤ 1)
    (matched : ∀ c stop, src[pos]? = some c → starts c = true → src.Stretch goesOn (pos + k) stop →
      answers (.matched (.text (src.slice pos stop)) stop))
    (refused : (∀ c, src[pos]? = some c → starts c = false) → answers (.failed label pos)) :
    ∃ r, answers r ∧ Longest starts k goesOn label src pos r := by
  by_cases start : ∃ c, src[pos]? = some c ∧ starts c = true
  · obtain ⟨c, seen, start⟩ := start
    obtain ⟨stop, stretch⟩ := exists_stretch goesOn src (pos + k)
    exact ⟨_, matched c stop seen start stretch, of_matched seen start few stretch⟩
  · have none (c : CodePoint) (seen : src[pos]? = some c) : starts c = false :=
      Bool.eq_false_iff.mpr fun here => start ⟨c, seen, here⟩
    exact ⟨_, refused none, of_refused none⟩

end Outcome.Longest

namespace Grammar

variable {src : Text} {pos fuel : Nat}

theorem digits_longest (enough : src.length - pos ≤ fuel) (s : Store) :
    ∃ r, ((Request.run digits src pos).perform fuel).run s = some (.ok (.outcome r), s) ∧
      r.Longest CodePoint.isDigit 0 CodePoint.isDigit (ofString "digit") src pos := by
  refine Outcome.Longest.exists_longest (Nat.zero_le 1) (fun c stop seen start stretch => ?_)
    fun refused => ?_
  · have few := stretch.sub_le
    have some : pos < stop := stretch.lt_of_passes seen start
    exact Request.run_digits (x := .ok _) (Matcher.digits_stretch stretch some (by omega)) s
  · exact Request.run_digits (x := .ok _) (Matcher.digits_refused fuel refused) s

theorem identifier_longest (enough : src.length - pos ≤ fuel) (s : Store) :
    ∃ r, ((Request.run identifier src pos).perform fuel).run s =
        some (.ok (.outcome r), s.tried (ofString "identifier") pos) ∧
      r.Longest CodePoint.isNameStart 1 CodePoint.isNamePart (ofString "identifier") src pos := by
  refine Outcome.Longest.exists_longest (Nat.le_refl 1) (fun c stop seen start stretch => ?_)
    fun refused => ?_
  · have few := stretch.sub_le
    have inside := (List.getElem?_eq_some_iff.mp seen).1
    exact Request.run_identifier (x := .ok _)
      (Matcher.identifier_matched seen start stretch (by omega)) s
  · obtain ⟨f, here, failed⟩ := Matcher.identifier_refused fuel refused
    have named := Request.run_identifier (x := .ok _) failed s
    rwa [Except.map, Outcome.renamed_here here] at named

/-- A name may start where digits may not, and goes on with them. -/
theorem digits_identifier_longest (src : Text) (pos fuel : Nat) (s : Store)
    (enough : src.length - pos ≤ fuel) :
    (∃ r, ((Request.run digits src pos).perform fuel).run s = some (.ok (.outcome r), s) ∧
      r.Longest CodePoint.isDigit 0 CodePoint.isDigit (ofString "digit") src pos) ∧
    ∃ r, ((Request.run identifier src pos).perform fuel).run s =
        some (.ok (.outcome r), s.tried (ofString "identifier") pos) ∧
      r.Longest CodePoint.isNameStart 1 CodePoint.isNamePart (ofString "identifier") src pos :=
  ⟨digits_longest enough s, identifier_longest enough s⟩

/-- What follows the name is a letter, but none of ASCII. -/
theorem digits_identifier_longest_accented :
    ((Request.run identifier (ofString "x_1é") 0).perform 4).run .empty =
      some (.ok (.outcome (.matched (.text (ofString "x_1")) 3)), .empty) ∧
    IsGreatest
      {j : Nat | 0 ≤ j ∧ j ≤ 4 ∧ ∀ c ∈ ((ofString "x_1é").slice 0 j).drop 1, c.isNamePart = true}
        3 ∧
    ((Request.run digits (ofString "x_1é") 0).perform 4).run .empty =
      some (.ok (.outcome (.failed (ofString "digit") 0)), .empty) := by
  have ran : ((Request.run identifier (ofString "x_1é") 0).perform 4).run .empty =
    some (.ok (.outcome (.matched (.text (ofString "x_1")) 3)), .empty) := rfl
  obtain ⟨⟨r, answered, number⟩, ⟨q, named, name⟩⟩ :=
    digits_identifier_longest (ofString "x_1é") 0 4 .empty (by decide)
  cases ran.symm.trans named
  obtain ⟨stop, same, greatest⟩ := name.longest _ rfl
  obtain rfl : stop = 3 := Int.ofNat.inj (congrArg Success.pos same).symm
  have refused (m : Success) : r ≠ .success m := fun matched => by
    obtain ⟨c, seen, digit⟩ := number.matched_iff.mp ⟨m, matched⟩
    cases Option.some.inj seen
    revert digit
    decide
  rw [number.failed refused] at answered
  exact ⟨ran, greatest, answered⟩

end Grammar

end Descent
