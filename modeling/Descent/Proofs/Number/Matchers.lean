import Descent.Proofs.Matcher.Longest
import Descent.Proofs.Matcher.Stretch

/-!
Numbers as matchers. The grammars for numbers remember nothing, so what is built from them is a
matcher that can be written down, with a message before it if debugging is on. Signs and digits
answer by what stands at their position.
-/

namespace Descent

namespace Matcher

variable {σ : Type}

def digit : Matcher σ :=
  codePoint CodePoint.isDigit (Text.ofString "digit")

def digits (fuel : Nat) : Matcher σ :=
  joined (many1 fuel digit)

def sign : Matcher σ :=
  optional (codePoint CodePoint.isSign (Text.ofString "sign"))

def signedDigits (fuel : Nat) : Matcher σ :=
  map (seq [sign, digits fuel]) (fun v => Action.ofExcept (Grammar.readInteger v)) none

def exponent (fuel : Nat) : Matcher σ :=
  joined (seq [alt [string (Text.ofString "e"), string (Text.ofString "E")], sign, digits fuel])

def fraction (fuel : Nat) : Matcher σ :=
  joined (seq [string (Text.ofString "."), digits fuel])

def unsignedFloat (fuel : Nat) : Matcher σ :=
  alt [
    joined (seq [digits fuel, fraction fuel, optional (exponent fuel)]),
    joined (seq [digits fuel, exponent fuel]),
    joined (seq [fraction fuel, optional (exponent fuel)])]

def signedFloat (fuel : Nat) : Matcher σ :=
  map (seq [sign, unsignedFloat fuel]) (fun v => Action.ofExcept (Grammar.readFloat v)) none

end Matcher

/-- With the message that a named parser writes if debugging is on when it is built. -/
def Store.tried (label : Text) (pos : Int) (s : Store) : Store :=
  if s.debug then s.write (.trying label pos) else s

/-- What a named parser makes of the outcome at a position. -/
def Outcome.renamed (label : Text) (pos : Int) : Outcome → Outcome
  | .success r => .success r
  | .failure f => if f.pos = pos then .failed label pos else .failure f

namespace Outcome

theorem renamed_here {f : Failure} {pos : Int} (here : f.pos = pos) (label : Text) :
    (Outcome.failure f).renamed label pos = .failed label pos :=
  if_pos here

theorem renamed_later {f : Failure} {pos : Int} (later : f.pos ≠ pos) (label : Text) :
    (Outcome.failure f).renamed label pos = .failure f :=
  if_neg later

end Outcome

namespace Request

variable {fuel : Nat} {src : Text} {pos : Int} {x : Except Fault Outcome} {p : Matcher Store}

theorem run_named {label : Text} {r : Action Store Answer} (built : r = do
      let s ← Action.state
      return .outcome (← Matcher.named label s.debug p src pos))
    (inner : p src pos = Action.ofExcept x) (s : Store) :
    r.run s = some (x.map fun r => .outcome (r.renamed label pos), s.tried label pos) := by
  subst built
  rw [Action.run_bind, Action.run_state]
  unfold Matcher.named Store.tried
  dsimp only
  rw [inner]
  rcases x with e | ⟨r | f⟩ <;> cases s.debug <;> rfl

theorem run_integer
    (inner : Matcher.signedDigits fuel src pos = (Action.ofExcept x : Action Store Outcome))
    (s : Store) :
    ((run .integer src pos).perform fuel).run s =
      some (x.map fun r => .outcome (r.renamed (Text.ofString "integer") pos),
        s.tried (Text.ofString "integer") pos) := by
  refine run_named ?_ inner s
  cases fuel <;> rfl

theorem run_float
    (inner : Matcher.signedFloat fuel src pos = (Action.ofExcept x : Action Store Outcome))
    (s : Store) :
    ((run .float src pos).perform fuel).run s =
      some (x.map fun r => .outcome (r.renamed (Text.ofString "float") pos),
        s.tried (Text.ofString "float") pos) := by
  refine run_named ?_ inner s
  cases fuel <;> rfl

theorem run_unsignedFloat
    (inner : Matcher.unsignedFloat fuel src pos = (Action.ofExcept x : Action Store Outcome))
    (s : Store) :
    ((run .unsignedFloat src pos).perform fuel).run s = some (x.map .outcome, s) := by
  have built : (run .unsignedFloat src pos).perform fuel =
      do return .outcome (← Matcher.unsignedFloat fuel src pos) := by
    cases fuel <;> rfl
  rw [built, inner]
  cases x <;> rfl

end Request

namespace Text

/-- The sign at a position, or the empty text. -/
def signAt (src : Text) (pos : Nat) : Text :=
  (src[pos]?.filter CodePoint.isSign).toList

theorem signAt_isSign (src : Text) (pos : Nat) : (src.signAt pos).IsSign := by
  unfold signAt
  cases found : src[pos]?.filter CodePoint.isSign with
  | none => exact .inl rfl
  | some c => exact .inr ⟨c, rfl, (Option.filter_eq_some_iff.mp found).2⟩

theorem signAt_inside {src : Text} {pos : Nat} (inside : pos ≤ src.length) :
    pos + (src.signAt pos).length ≤ src.length := by
  unfold signAt
  cases found : src[pos]?.filter CodePoint.isSign with
  | none => exact inside
  | some c =>
      obtain ⟨lt, -⟩ := List.getElem?_eq_some_iff.mp (Option.filter_eq_some_iff.mp found).1
      exact lt

end Text

/-- What an optional text is matched with. -/
def Value.ofPiece : Text → Value
  | [] => .none
  | t => .text t

namespace Value

theorem ofPiece_isPiece (t : Text) : (ofPiece t).IsPiece := by
  cases t with
  | nil => exact .inl rfl
  | cons c t => exact .inr ⟨_, rfl⟩

theorem spelling_ofPiece (t : Text) : (ofPiece t).spelling = t := by
  cases t <;> rfl

theorem joinPresent_ofPiece (s : Text) {v : Value} (piece : v.IsPiece) :
    joinPresent (.tuple [ofPiece s, v]) = .ok (s ++ v.spelling) := by
  have pieces : ∀ w ∈ [ofPiece s, v], w.IsPiece := by
    simpa using ⟨ofPiece_isPiece s, piece⟩
  rw [joinPresent_tuple pieces, spellingAll, spellingAll, spellingAll, spelling_ofPiece,
    List.append_nil]

theorem joinPresent_singles (t : Text) : joinPresent (.list (t.map fun c => .text [c])) = .ok t :=
  concatenate_singles true t

end Value

namespace Matcher

variable {σ : Type} {src rest : Text} {i fuel : Nat} {c : CodePoint}

theorem sign_matched (remains : src.Remains i (c :: rest)) (signed : c.isSign = true) :
    sign src i = (pure (.matched (.text [c]) (i + 1 : Nat)) : Action σ Outcome) := by
  rw [sign, optional_eq, codePoint_matched _ remains signed, pure_bind]
  rfl

theorem sign_missing (remains : src.Remains i rest)
    (unsigned : ∀ c, rest.head? = some c → c.isSign = false) :
    sign src i = (pure (.matched .none i) : Action σ Outcome) := by
  rw [sign, optional_eq, codePoint_failed _ remains unsigned, pure_bind]
  rfl

theorem sign_eq (inside : i ≤ src.length) : sign src i =
    (pure (.matched (.ofPiece (src.signAt i)) (i + (src.signAt i).length : Nat)) :
      Action σ Outcome) := by
  have remains : src.Remains i (src.drop i) := ⟨inside, rfl⟩
  unfold Text.signAt
  rw [remains.getElem?]
  cases rest_eq : src.drop i with
  | nil =>
      rw [rest_eq] at remains
      exact sign_missing remains nofun
  | cons c rest =>
      rw [rest_eq] at remains
      cases signed : c.isSign with
      | false =>
          rw [sign_missing remains fun _ same => Option.some.inj same ▸ signed, List.head?_cons,
            Option.filter_some_neg (by simp [signed])]
          rfl
      | true =>
          rw [sign_matched remains signed, List.head?_cons, Option.filter_some_pos signed]
          rfl

theorem map_onward {p : Matcher σ} {start stop : Int} {v : Value}
    (inner : p src start = pure (.matched v stop)) (fn : Value → Action σ Value) :
    map p fn none src start = do return .matched (← fn v) stop := by
  unfold map
  rw [inner, pure_bind]
  rfl

theorem digit_takes (src : Text) : Takes CodePoint.isDigit src (digit (σ := σ)) :=
  codePoint_takes _ _ src

theorem digits_refused (fuel : Nat) (refused : ∀ c, src[i]? = some c → c.isDigit = false) :
    digits fuel src i = (pure (.failed (Text.ofString "digit") i) : Action σ Outcome) := by
  have first :
      many1 fuel digit src i = (pure (.failed (Text.ofString "digit") i) : Action σ Outcome) := by
    rw [many1, chain, digit, codePoint_refused _ refused, pure_bind]
    rfl
  exact mapText_failed first _

theorem digits_stretch {stop : Nat} (stretch : src.Stretch CodePoint.isDigit i stop)
    (some : i < stop) (enough : stop - i ≤ fuel) :
    digits fuel src i = (pure (.matched (.text (src.slice i stop)) stop) : Action σ Outcome) :=
  mapText_matched ((digit_takes src).many1 stretch some enough) (Value.joinPresent_singles _)

theorem digits_failed (remains : src.Remains i rest)
    (none : rest.takeWhile CodePoint.isDigit = []) :
    digits fuel src i = (pure (.failed (Text.ofString "digit") i) : Action σ Outcome) := by
  have stretch := remains.stretch CodePoint.isDigit
  rw [none] at stretch
  exact digits_refused fuel stretch.ends

theorem digits_matched (remains : src.Remains i rest) (some : rest.takeWhile CodePoint.isDigit ≠ [])
    (enough : rest.length ≤ fuel) :
    digits fuel src i = (pure (.matched (.text (rest.takeWhile CodePoint.isDigit))
      (i + (rest.takeWhile CodePoint.isDigit).length : Nat)) : Action σ Outcome) := by
  have stands := List.takeWhile_prefix (l := rest) CodePoint.isDigit
  have few := stands.length_le
  have filled := List.length_pos_iff.mpr some
  have slice : src.slice i (i + (rest.takeWhile CodePoint.isDigit).length : Nat) =
    rest.takeWhile CodePoint.isDigit :=
    Text.slice_of_prefix remains.inside (by rwa [remains.drop])
  have taken :=
    digits_stretch (σ := σ) (remains.stretch CodePoint.isDigit) (by omega) (show _ ≤ fuel by omega)
  rwa [slice] at taken

end Matcher

end Descent
