import Descent.Proofs.Contract.General
import Descent.Proofs.Quoted.Matchers

/-!
Quoted strings, read by scanning. A scan goes over the content one step after the other, and needs
no matchers for it. Main statement: the grammar of quoted strings reads what a scan reads, and stops
where it stops, for quotes and escapes of any form.
-/

namespace Descent

/-- How strings are quoted: what stands around them, what goes before an escaped code point, and
what escaped code points stand for. -/
structure Quoting where
  quote : Text
  escape : Text
  escapes : Grammar.Escapes

namespace CodePoint

/-- What a hexadecimal digit counts. -/
def hexValue? (c : CodePoint) : Option Nat :=
  if 0x30 ≤ c.val ∧ c.val ≤ 0x39 then some (c.val - 0x30)
  else if 0x41 ≤ c.val ∧ c.val ≤ 0x46 then some (c.val - 0x41 + 10)
  else if 0x61 ≤ c.val ∧ c.val ≤ 0x66 then some (c.val - 0x61 + 10)
  else none

/-- The code point whose number four hexadecimal digits are. -/
def ofHex? : Text → Option CodePoint
  | [a, b, c, d] => do
    ofNat? ((((← a.hexValue?) * 16 + (← b.hexValue?)) * 16 + (← c.hexValue?)) * 16 +
      (← d.hexValue?))
  | _ => none

variable {c code : CodePoint} {n : Nat} {digits : Text}

theorem isHex_of_hexValue? (value : c.hexValue? = some n) : c.IsHex n := by
  unfold hexValue? at value
  split at value
  next decimal =>
    cases value
    exact .decimal (by omega) (by omega)
  next =>
    split at value
    next upper =>
      cases value
      rw [Nat.add_comm]
      exact .upper (by omega) (by omega)
    next =>
      split at value
      next lower =>
        cases value
        rw [Nat.add_comm]
        exact .lower (by omega) (by omega)
      next => cases value

theorem IsHex.hexValue? (hex : c.IsHex n) : c.hexValue? = some n := by
  unfold CodePoint.hexValue?
  cases hex with
  | decimal below digit => rw [if_pos (by omega), digit, Nat.add_sub_cancel_left]
  | upper below letter =>
      rw [if_neg (by omega), if_pos (by omega), letter, Nat.add_sub_cancel_left, Nat.add_comm]
  | lower below letter =>
      rw [if_neg (by omega), if_neg (by omega), if_pos (by omega), letter, Nat.add_sub_cancel_left,
        Nat.add_comm]

theorem hexValue?_lt (hex : c.isHexDigit = true) : ∃ n < 16, c.hexValue? = some n := by
  simp only [isHexDigit, isDigit, isWithin, Bool.or_eq_true, Bool.and_eq_true,
    decide_eq_true_eq] at hex
  unfold hexValue?
  split
  next decimal => exact ⟨_, by omega, rfl⟩
  next =>
    split
    next upper => exact ⟨_, by omega, rfl⟩
    next => exact ⟨c.val - 0x61 + 10, by omega, if_pos (by omega)⟩

theorem ofHex?_eq_some (read : ofHex? digits = some code) :
    ∃ a b c d j k l m, digits = [a, b, c, d] ∧ a.IsHex j ∧ b.IsHex k ∧ c.IsHex l ∧ d.IsHex m ∧
      code.val = ((j * 16 + k) * 16 + l) * 16 + m := by
  unfold ofHex? at read
  split at read
  next a b c d =>
    simp only [Option.bind_eq_bind, Option.bind_eq_some_iff] at read
    obtain ⟨j, first, k, second, l, third, m, fourth, number⟩ := read
    refine ⟨a, b, c, d, j, k, l, m, rfl, isHex_of_hexValue? first, isHex_of_hexValue? second,
      isHex_of_hexValue? third, isHex_of_hexValue? fourth, ?_⟩
    unfold ofNat? at number
    split at number
    · cases number
      rfl
    · cases number
  next => cases read

theorem ofHex?_of_isHex {a b d : CodePoint} {j k l m : Nat} (first : a.IsHex j) (second : b.IsHex k)
    (third : c.IsHex l) (fourth : d.IsHex m)
    (number : code.val = ((j * 16 + k) * 16 + l) * 16 + m) :
    ofHex? [a, b, c, d] = some code := by
  rw [ofHex?, first.hexValue?, second.hexValue?, third.hexValue?, fourth.hexValue?]
  change ofNat? _ = some code
  rw [← number, ofNat?, dif_pos code.isLt]

theorem ofHex?_eq_none (unread : ofHex? digits = none) (four : digits.length = 4) :
    ∃ c ∈ digits, c.isHexDigit = false := by
  by_contra! hex
  simp only [ne_eq, Bool.not_eq_false] at hex
  obtain ⟨a, b, c, d, rfl⟩ := List.length_eq_four.mp four
  obtain ⟨j, jlt, first⟩ := hexValue?_lt (hex a (by simp))
  obtain ⟨k, klt, second⟩ := hexValue?_lt (hex b (by simp))
  obtain ⟨l, llt, third⟩ := hexValue?_lt (hex c (by simp))
  obtain ⟨m, mlt, fourth⟩ := hexValue?_lt (hex d (by simp))
  rw [ofHex?, first, second, third, fourth] at unread
  change ofNat? _ = none at unread
  rw [ofNat?, dif_pos (by omega)] at unread
  cases unread

end CodePoint

namespace Quoting

variable (q : Quoting) (src : Text)

/-- What the content at `i` stands for, and where it goes on. None if it ends there or cannot go
on. -/
def step? (i : Nat) : Option (Text × Nat) :=
  if q.escape <+: src.drop i then
    let k := i + q.escape.length
    src[k]?.bind fun c =>
      if c = 'u' then (CodePoint.ofHex? ((src.drop (k + 1)).take 4)).map fun code => ([code], k + 5)
      else some ((q.escapes.lookup [c]).getD [c], k + 1)
  else if q.quote <+: src.drop i then none
  else src[i]?.map fun c => ([c], i + 1)

variable {q src} {i j : Nat} {t : Text}

theorem step?_escape {rest : Text} (remains : src.Remains i (q.escape ++ rest)) :
    q.step? src i = rest.head?.bind fun c =>
      if c = 'u' then (CodePoint.ofHex? (rest.tail.take 4)).map fun code =>
        ([code], i + q.escape.length + 5)
      else some ((q.escapes.lookup [c]).getD [c], i + q.escape.length + 1) := by
  have next : src.drop (i + q.escape.length + 1) = rest.tail := by
    rw [← List.drop_drop, remains.skip.drop, List.drop_one]
  rw [step?, remains.drop, if_pos (List.prefix_append _ _)]
  dsimp only
  rw [remains.skip.getElem?, next]

theorem step?_plain {rest : Text} (remains : src.Remains i rest) (differs : ¬ q.escape <+: rest) :
    q.step? src i = if q.quote <+: rest then none else rest.head?.map fun c => ([c], i + 1) := by
  rw [step?, remains.drop, if_neg differs, remains.getElem?]

theorem step?_onward (step : q.step? src i = some (t, j)) : i < j ∧ j ≤ src.length := by
  have within {k : Nat} {c : CodePoint} (seen : src[k]? = some c) : k + 1 ≤ src.length :=
    (List.getElem?_eq_some_iff.mp seen).1
  unfold step? at step
  split at step
  next =>
    obtain ⟨c, seen, step⟩ := Option.bind_eq_some_iff.mp step
    split at step
    next =>
      obtain ⟨code, read, ends⟩ := Option.map_eq_some_iff.mp step
      obtain ⟨_, _, _, _, _, _, _, _, four, -⟩ := CodePoint.ofHex?_eq_some read
      have lengths := congrArg List.length four
      simp only [List.length_take, List.length_drop, List.length_cons, List.length_nil] at lengths
      cases ends
      omega
    next =>
      have := within seen
      cases step
      omega
  next =>
    split at step
    next => cases step
    next =>
      obtain ⟨c, seen, ends⟩ := Option.map_eq_some_iff.mp step
      have := within seen
      cases ends
      omega

variable (q src) in
/-- The content from `i` on, step by step, and where it ends. -/
def scan (i : Nat) : List Text × Nat :=
  match _step : q.step? src i with
  | some (t, j) =>
    let more := scan j
    (t :: more.1, more.2)
  | none => ([], i)
termination_by src.length - i
decreasing_by
  have := step?_onward _step
  omega

variable (q src) in
/-- What a quoted string at `pos` is read as. It has to end with the quote that it begins with. -/
def read (pos : Nat) : Outcome :=
  if q.quote <+: src.drop pos then
    let content := q.scan src (pos + q.quote.length)
    if q.quote <+: src.drop content.2 then
      .matched (.text content.1.flatten) (content.2 + q.quote.length : Nat)
    else .failed (Text.inQuotes q.quote) content.2
  else .failed (Text.inQuotes q.quote) pos

theorem scan_next (step : q.step? src i = some (t, j)) :
    q.scan src i = (t :: (q.scan src j).1, (q.scan src j).2) := by
  rw [scan]
  split
  next same =>
    cases step.symm.trans same
    rfl
  next stopped => cases step.symm.trans stopped

theorem scan_stop (stopped : q.step? src i = none) : q.scan src i = ([], i) := by
  rw [scan]
  split
  next step => cases stopped.symm.trans step
  next => rfl

theorem scan_length : (q.scan src i).1.length ≤ src.length - i := by
  fun_induction q.scan src i with
  | case1 i t j step more ih =>
      have onward := step?_onward step
      calc (q.scan src j).1.length + 1
        _ ≤ src.length - j + 1 := Nat.succ_le_succ ih
        _ ≤ src.length - i := by omega
  | case2 i stopped => exact Nat.zero_le _

theorem scan_inside (inside : i ≤ src.length) : (q.scan src i).2 ≤ src.length := by
  fun_induction q.scan src i with
  | case1 i t j step more ih => exact ih (step?_onward step).2
  | case2 i stopped => exact inside

end Quoting

namespace Matcher

variable {σ : Type} {q : Quoting} {src : Text} {i j : Nat} {t : Text}

theorem quotedChar_step (inside : i ≤ src.length) (step : q.step? src i = some (t, j)) :
    quotedChar q.quote q.escape q.escapes src i =
      (pure (.matched (.text t) j) : Action σ Outcome) := by
  by_cases escaped : q.escape <+: src.drop i
  · obtain ⟨rest, rest_eq⟩ := escaped
    have remains : src.Remains i (q.escape ++ rest) := ⟨inside, rest_eq.symm⟩
    rw [Quoting.step?_escape remains] at step
    refine alternatives_matched ?_
    cases rest with
    | nil => cases step
    | cons c rest =>
        rw [List.head?_cons, Option.bind_some] at step
        split at step
        next number =>
          subst number
          obtain ⟨code, read, ends⟩ := Option.map_eq_some_iff.mp step
          obtain ⟨a, b, c, d, j, k, l, m, four, first, second, third, fourth, value⟩ :=
            CodePoint.ofHex?_eq_some read
          rw [List.tail_cons] at four
          rw [← List.take_append_drop 4 rest, four] at remains
          cases ends
          exact escapeSequence_matched_number first second third fourth value remains
        next other =>
          cases step
          exact escapeSequence_matched_char remains other
  · have remains : src.Remains i (src.drop i) := ⟨inside, rfl⟩
    obtain ⟨_, _, _, noEscape⟩ :
      Fails (escapeSequence q.escape q.escapes src i : Action σ Outcome) :=
      escapeSequence_fails remains escaped
    rw [Quoting.step?_plain remains escaped] at step
    rw [quotedChar, alt, alternatives_failed noEscape]
    split at step
    next => cases step
    next notQuote =>
      cases rest_eq : src.drop i with
      | nil =>
          rw [rest_eq] at step
          cases step
      | cons c rest =>
          rw [rest_eq] at step remains notQuote escaped
          cases step
          exact alternatives_matched (plainChar_matched remains notQuote escaped)

theorem quotedChar_stop (inside : i ≤ src.length) (stopped : q.step? src i = none) :
    Fails (quotedChar q.quote q.escape q.escapes src i : Action σ Outcome) := by
  by_cases escaped : q.escape <+: src.drop i
  · obtain ⟨rest, rest_eq⟩ := escaped
    have remains : src.Remains i (q.escape ++ rest) := ⟨inside, rest_eq.symm⟩
    have noPlain : Fails (plainChar q.quote q.escape src i : Action σ Outcome) :=
      plainChar_fails remains (.inr (.inl (List.prefix_append _ _)))
    refine Fails.alt ?_ (List.forall_mem_singleton.mpr noPlain)
    rw [Quoting.step?_escape remains] at stopped
    cases rest with
    | nil => exact escapeSequence_fails_behind remains nofun nofun
    | cons c rest =>
        rw [List.head?_cons, Option.bind_some] at stopped
        split at stopped
        next number =>
          refine escapeSequence_fails_behind remains (fun _ same => Option.some.inj same ▸ number)
            fun four => ?_
          exact CodePoint.ofHex?_eq_none (Option.map_eq_none_iff.mp stopped) four
        next => cases stopped
  · have remains : src.Remains i (src.drop i) := ⟨inside, rfl⟩
    rw [Quoting.step?_plain remains escaped] at stopped
    have noPlain : Fails (plainChar q.quote q.escape src i : Action σ Outcome) := by
      refine plainChar_fails remains ?_
      split at stopped
      next quoted => exact .inl quoted
      next => exact .inr (.inr (List.head?_eq_none_iff.mp (Option.map_eq_none_iff.mp stopped)))
    exact (escapeSequence_fails remains escaped).alt (List.forall_mem_singleton.mpr noPlain)

/-- One round for each step of the scan, and one more that fails where it stops. -/
theorem repeatFrom_quotedChar {fuel : Nat} (inside : i ≤ src.length)
    (enough : (q.scan src i).1.length < fuel) (values : List Value) :
    repeatFrom (quotedChar q.quote q.escape q.escapes) src fuel values i =
      (pure (.matched (.list (values.reverse ++ (q.scan src i).1.map .text)) (q.scan src i).2) :
        Action σ Outcome) := by
  induction fuel generalizing i values with
  | zero => exact absurd enough (Nat.not_lt_zero _)
  | succ fuel ih =>
      cases step : q.step? src i with
      | none =>
          obtain ⟨_, _, _, failed⟩ := quotedChar_stop (σ := σ) inside step
          rw [repeatFrom_failed failed, Quoting.scan_stop step, List.map_nil, List.append_nil]
      | some next =>
          obtain ⟨t, j⟩ := next
          obtain ⟨onward, within⟩ := Quoting.step?_onward step
          rw [Quoting.scan_next step] at enough ⊢
          rw [repeatFrom_next (quotedChar_step inside step) (by omega),
            ih within (Nat.lt_of_succ_lt_succ enough)]
          simp

theorem quotedString_read {fuel pos : Nat} (inside : pos ≤ src.length)
    (enough : (q.scan src (pos + q.quote.length)).1.length < fuel) :
    quotedString fuel q.quote q.escape q.escapes src pos =
      (pure (q.read src pos) : Action σ Outcome) := by
  have remains : src.Remains pos (src.drop pos) := ⟨inside, rfl⟩
  unfold Quoting.read
  split
  next opens =>
    obtain ⟨rest, rest_eq⟩ := opens
    rw [← rest_eq] at remains
    have opened := string_matched (σ := σ) remains (List.prefix_append _ _)
    have contentInside := remains.skip.inside
    have content := repeatFrom_quotedChar (σ := σ) contentInside enough []
    have behind : src.Remains (q.scan src (pos + q.quote.length)).2 _ :=
      ⟨Quoting.scan_inside contentInside, rfl⟩
    dsimp only
    split
    next closes =>
      have row :
          seq [string q.quote, many fuel (quotedChar q.quote q.escape q.escapes), string q.quote]
            src pos =
          (pure (.matched (.tuple [.text q.quote,
            .list ((q.scan src (pos + q.quote.length)).1.map .text), .text q.quote])
            ((q.scan src (pos + q.quote.length)).2 + q.quote.length : Nat)) :
              Action σ Outcome) := by
        rw [seq, stages_matched opened, stages_matched content,
          stages_matched (string_matched behind closes)]
        rfl
      exact mapText_matched (pick_matched row rfl) (Value.joinPresent_texts _)
    next unclosed =>
      have row :
          seq [string q.quote, many fuel (quotedChar q.quote q.escape q.escapes), string q.quote]
            src pos =
          (pure (.failed (Text.inQuotes q.quote) (q.scan src (pos + q.quote.length)).2) :
            Action σ Outcome) := by
        rw [seq, stages_matched opened, stages_matched content]
        exact stages_failed (string_failed behind unclosed)
      exact mapText_failed (pick_failed row 1) _
  next other =>
    have row :
        seq [string q.quote, many fuel (quotedChar q.quote q.escape q.escapes), string q.quote]
          src pos =
        (pure (.failed (Text.inQuotes q.quote) pos) : Action σ Outcome) :=
      stages_failed (string_failed remains other)
    exact mapText_failed (pick_failed row 1) _

end Matcher

namespace Grammar

theorem quotedString_scans (quote escape : Text) (escapes : Escapes) (src : Text) (pos fuel : Nat)
    (s : Store) (inside : pos ≤ src.length) (enough : src.length - pos < fuel) :
    ((Request.run (quotedString quote escape escapes) src pos).perform fuel).run s =
      some (.ok (.outcome (Quoting.read ⟨quote, escape, escapes⟩ src pos)), s) := by
  have rounds : (Quoting.scan ⟨quote, escape, escapes⟩ src (pos + quote.length)).1.length < fuel :=
    Nat.lt_of_le_of_lt Quoting.scan_length (by omega)
  rw [Request.perform_run_quotedString,
    Matcher.quotedString_read (q := ⟨quote, escape, escapes⟩) inside rounds]
  rfl

/-- The quote begins with the escape here, so it is an escape that has no number behind it that ends
the content. -/
theorem quotedString_scans_unnumbered :
    ((Request.run (quotedString (Text.ofString "\\u") (Text.ofString "\\") generalEscapes)
      (Text.ofString "x\\ua\\n\\u0041\\u!") 1).perform 15).run .empty =
    some (.ok (.outcome (.matched (.text (Text.ofString "a\nA")) 14)), .empty) := by
  have read : Quoting.read ⟨Text.ofString "\\u", Text.ofString "\\", generalEscapes⟩
      (Text.ofString "x\\ua\\n\\u0041\\u!") 1 = .matched (.text (Text.ofString "a\nA")) 14 := by
    with_unfolding_all rfl
  rw [← read]
  exact quotedString_scans _ _ _ _ 1 15 .empty (by decide) (by decide)

end Grammar

end Descent
