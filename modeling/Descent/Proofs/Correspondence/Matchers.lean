import Descent.Proofs.Correspondence.Alignment

/-!
Every way to put matchers together respects every correspondence: if the parts answer alike at
aligned places, so does the whole.
-/

namespace Descent

namespace Matcher

variable {ι σ τ : Type} {K : Correspondence ι σ τ} {src dst : Text} {A : Alignment src dst}

/-! Matchers that look at the text themselves. -/

theorem succeed_corresponds (v : Value) :
    Corresponds K A (succeed v) fun _ => succeed v := by
  intro i j place
  exact K.pure (.success place)

theorem fail_corresponds {message message' : Text} (alike : A.Alike [message] [message']) :
    Corresponds K A (fail message) fun _ => fail message' := by
  intro i j place
  exact K.pure (.failure alike place)

theorem satisfy_corresponds {label label' : Text} (alike : A.Alike [label] [label'])
    {test : CodePoint → Action σ Bool} {test' : ι → CodePoint → Action τ Bool}
    (tests : ∀ c, K.Rel Eq (test c) fun x => test' x c) :
    Corresponds K A (satisfy label test) fun x => satisfy label' (test' x) := by
  intro i j place
  have seen : Agree (fun a b => a = b ∧ dst.lookAt j = .ok b) (src.lookAt i) (dst.lookAt j) := by
    rw [A.lookAt place]
    cases dst.lookAt j with
    | error e => exact .error e
    | ok c? => exact .ok ⟨rfl, rfl⟩
  apply K.bind (K.ofExcept seen)
  intro c? _ seen
  obtain ⟨rfl, found⟩ := seen
  cases c? with
  | none => exact K.pure (.failure alike place)
  | some c =>
      apply K.bind (tests c)
      intro passed _ same
      subst same
      cases passed with
      | false => exact K.pure (.failure alike place)
      | true => exact K.pure (.success (A.succ place found))

theorem char_corresponds (c : CodePoint) :
    Corresponds K A (char c) fun _ => char c :=
  satisfy_corresponds (A.alike_single _) fun _ => K.pure rfl

theorem string_corresponds (t : Text) :
    Corresponds K A (string t) fun _ => string t := by
  intro i j place
  unfold string
  rw [A.standsAt t place]
  cases stands : dst.standsAt t j with
  | false =>
      simp only [stands, Bool.false_eq_true, ↓reduceIte]
      exact K.pure (A.outcomes_failed _ place)
  | true =>
      simp only [stands, ↓reduceIte]
      exact K.pure (.success (A.skip place stands))

theorem blanksEnd_agrees (left : Nat) {i j : Int} (place : A.Place i j) :
    Agree A.Place (blanksEnd src left i) (blanksEnd dst left j) := by
  induction left generalizing i j with
  | zero => exact .ok place
  | succ left ih =>
      simp only [blanksEnd, A.lookAt place]
      cases found : dst.lookAt j with
      | error e => exact .error e
      | ok c? =>
          cases c? with
          | none => exact .ok place
          | some c =>
              change Agree A.Place (if c.isBlank then _ else _) (if c.isBlank then _ else _)
              split
              · exact ih (A.succ place found)
              · exact .ok place

theorem whitespaces_corresponds : Corresponds K A whitespaces fun _ => whitespaces := by
  intro i j place
  unfold whitespaces
  rw [A.remaining place]
  apply K.bind (K.ofExcept (blanksEnd_agrees _ place))
  intro stop stop' stops
  rw [A.slice place stops]
  exact K.pure (.success stops)

/-! Matchers that may look anywhere in the text answer alike at the same place of the same text. -/

theorem regex_corresponds_of_eq {A : Alignment src src} (places : ∀ i j, A.Place i j → i = j)
    (inside : ∀ i, A.Place i i) (r : Regex) :
    Corresponds K A (regex r) fun _ => regex r := by
  intro i j place
  obtain rfl := places i j place
  unfold regex
  cases found : r.endOf? src (min i.toNat src.length) with
  | none =>
      simp only [found]
      exact K.pure (A.outcomes_failed _ (inside _))
  | some stop =>
      simp only [found]
      exact K.pure (.success (inside _))

theorem custom_corresponds_of_eq {A : Alignment src src} (places : ∀ i j, A.Place i j → i = j)
    (inside : ∀ i, A.Place i i) (verdict : Text → Int → Except Fault Verdict) :
    Corresponds K A (custom verdict) fun _ => custom verdict := by
  intro i j place
  obtain rfl := places i j place
  apply K.bind (K.ofExcept (agree_eq_iff.mpr rfl))
  intro v _ same
  subst same
  apply K.ofExcept
  cases v with
  | success v stop => exact .ok (.success (inside _))
  | failure labels stop =>
      simp only [Verdict.outcome, Failure.ofLabels]
      split
      · exact .error _
      · rename_i expected nonempty
        exact .ok (.failure (A.alike_refl nonempty) (inside _))

theorem regex_corresponds_identity (r : Regex) :
    Corresponds K (.identity src) (regex r) fun _ => regex r :=
  regex_corresponds_of_eq (fun _ _ same => same) (fun _ => rfl) r

theorem custom_corresponds_identity (verdict : Text → Int → Except Fault Verdict) :
    Corresponds K (.identity src) (custom verdict) fun _ => custom verdict :=
  custom_corresponds_of_eq (fun _ _ same => same) (fun _ => rfl) verdict

/-! Matchers made of others. -/

theorem stages_correspond {κ : Type} {P : κ → Matcher σ} {Q : ι → κ → Matcher τ} {l : List κ}
    (parts : ∀ k ∈ l, Corresponds K A (P k) fun x => Q x k) (values : List Value) {i j : Int}
    (place : A.Place i j) :
    K.Rel A.Outcomes (stages src (l.map P) values i) fun x =>
      stages dst (l.map (Q x)) values j := by
  induction l generalizing values i j with
  | nil => exact K.pure (.success place)
  | cons k l ih =>
      apply K.bind (parts k (by simp) i j place)
      intro r s related
      cases related with
      | success place => exact ih (fun k member => parts k (by simp [member])) _ place
      | failure alike place => exact K.pure (.failure alike place)

theorem seq_corresponds {κ : Type} {P : κ → Matcher σ} {Q : ι → κ → Matcher τ} {l : List κ}
    (parts : ∀ k ∈ l, Corresponds K A (P k) fun x => Q x k) :
    Corresponds K A (seq (l.map P)) fun x => seq (l.map (Q x)) :=
  fun _ _ place => stages_correspond parts [] place

theorem ofLabels_agrees {labels labels' : List Text}
    (alike : labels = [] ∧ labels' = [] ∨ A.Alike labels labels') {i j : Int}
    (place : A.Place i j) :
    Agree (fun f g => A.Alike f.expected g.expected ∧ A.Place f.pos g.pos)
      (Failure.ofLabels labels i) (Failure.ofLabels labels' j) := by
  unfold Failure.ofLabels
  rcases alike with ⟨rfl, rfl⟩ | alike
  · exact .error _
  · obtain ⟨expected, empty⟩ := A.alike_unique alike
    cases first : unique labels with
    | nil =>
        rw [empty.mp first]
        exact .error _
    | cons l ls =>
        cases second : unique labels' with
        | nil =>
            rw [empty.mpr second] at first
            cases first
        | cons m ms =>
            rw [first, second] at expected
            exact .ok ⟨expected, place⟩

theorem alternatives_correspond {κ : Type} {P : κ → Matcher σ} {Q : ι → κ → Matcher τ} {l : List κ}
    (parts : ∀ k ∈ l, Corresponds K A (P k) fun x => Q x k) {labels labels' : List Text}
    (alike : labels = [] ∧ labels' = [] ∨ A.Alike labels labels') {i j : Int}
    (place : A.Place i j) :
    K.Rel A.Outcomes (alternatives src i (l.map P) labels)
      fun x => alternatives dst j (l.map (Q x)) labels' := by
  induction l generalizing labels labels' with
  | nil =>
      apply K.bind (K.ofExcept (ofLabels_agrees alike place))
      intro f g related
      exact K.pure (.failure related.1 related.2)
  | cons k l ih =>
      apply K.bind (parts k (by simp) i j place)
      intro r s related
      cases related with
      | success place => exact K.pure (.success place)
      | failure further _ =>
          refine ih (fun k member => parts k (by simp [member])) (.inr ?_)
          rcases alike with ⟨rfl, rfl⟩ | alike
          · exact further
          · exact A.alike_append alike further

theorem alt_corresponds {κ : Type} {P : κ → Matcher σ} {Q : ι → κ → Matcher τ} {l : List κ}
    (parts : ∀ k ∈ l, Corresponds K A (P k) fun x => Q x k) :
    Corresponds K A (alt (l.map P)) fun x => alt (l.map (Q x)) :=
  fun _ _ place => alternatives_correspond parts (.inl ⟨rfl, rfl⟩) place

section

variable {p p' : Matcher σ} {q q' : ι → Matcher τ}

theorem map_none_corresponds (inner : Corresponds K A p q) {fn : Value → Action σ Value}
    {fn' : ι → Value → Action τ Value} (functions : ∀ v, K.Rel Eq (fn v) fun x => fn' x v) :
    Corresponds K A (map p fn none) fun x => map (q x) (fn' x) none := by
  intro i j place
  apply K.bind (inner i j place)
  intro r s related
  cases related with
  | failure alike place => exact K.pure (.failure alike place)
  | success further =>
      simp only [pure_bind, ↓reduceIte]
      apply K.bind (functions _)
      intro w _ same
      subst same
      exact K.pure (.success further)

theorem map_some_corresponds (inner : Corresponds K A p q) {fn : Value → Action σ Value}
    {fn' : ι → Value → Action τ Value} (functions : ∀ v, K.Rel Eq (fn v) fun x => fn' x v)
    {test : Value → Action σ Bool} {test' : ι → Value → Action τ Bool}
    (tests : ∀ v, K.Rel Eq (test v) fun x => test' x v) :
    Corresponds K A (map p fn (some test)) fun x => map (q x) (fn' x) (some (test' x)) := by
  intro i j place
  apply K.bind (inner i j place)
  intro r s related
  cases related with
  | failure alike place => exact K.pure (.failure alike place)
  | success further =>
      apply K.bind (tests _)
      intro valid _ same
      subst same
      cases valid with
      | false => exact K.pure (A.outcomes_failed _ place)
      | true =>
          apply K.bind (functions _)
          intro w _ same
          subst same
          exact K.pure (.success further)

private theorem exists_eq_succ {f : ι → Nat} {n : Nat} (enough : ∀ x, n + 1 ≤ f x) :
    ∃ g : ι → Nat, f = (fun x => g x + 1) ∧ ∀ x, n ≤ g x :=
  ⟨fun x => f x - 1,
    funext fun x => (Nat.sub_add_cancel (Nat.le_trans (Nat.le_add_left 1 n) (enough x))).symm,
    fun x => Nat.le_sub_one_of_lt (enough x)⟩

theorem repeatFrom_corresponds (inner : Corresponds K A p q) {fuel : Nat} {fuel' : ι → Nat}
    (enough : ∀ x, fuel ≤ fuel' x) (values : List Value) {i j : Int} (place : A.Place i j) :
    K.Rel A.Outcomes (repeatFrom p src fuel values i)
      fun x => repeatFrom (q x) dst (fuel' x) values j := by
  induction fuel generalizing fuel' values i j with
  | zero => exact K.exhausted _
  | succ fuel ih =>
      obtain ⟨fuel', rfl, left⟩ := exists_eq_succ enough
      apply K.bind (inner i j place)
      intro r s related
      cases related with
      | failure _ _ => exact K.pure (.success place)
      | success further =>
          rename_i v k l
          change K.Rel A.Outcomes (if k = i then _ else _) fun x => if l = j then _ else _
          -- Aligned places are equal on one side exactly if they are on the other.
          by_cases still : l = j
          · simp only [if_pos still, if_pos ((A.eq_iff further place).mpr still)]
            exact K.pure (.success place)
          · simp only [if_neg still, if_neg (mt (A.eq_iff further place).mp still)]
            exact ih left _ further

theorem many_corresponds (inner : Corresponds K A p q) {fuel : Nat} {fuel' : ι → Nat}
    (enough : ∀ x, fuel ≤ fuel' x) :
    Corresponds K A (many fuel p) fun x => many (fuel' x) (q x) :=
  fun _ _ place => repeatFrom_corresponds inner enough [] place

theorem chain_corresponds (first : Corresponds K A p q) (rest : Corresponds K A p' q') {fuel : Nat}
    {fuel' : ι → Nat} (enough : ∀ x, fuel ≤ fuel' x) :
    Corresponds K A (chain fuel p p') fun x => chain (fuel' x) (q x) (q' x) := by
  intro i j place
  apply K.bind (first i j place)
  intro r s related
  cases related with
  | failure alike place => exact K.pure (.failure alike place)
  | success place => exact repeatFrom_corresponds rest enough _ place

theorem after_corresponds (lead : Corresponds K A p q) (inner : Corresponds K A p' q') :
    Corresponds K A (after p p') fun x => after (q x) (q' x) := by
  have both : Corresponds K A (seq ([true, false].map fun b => cond b p p'))
      fun x => seq ([true, false].map fun b => cond b (q x) (q' x)) := by
    apply seq_corresponds
    intro b _
    cases b with
    | true => exact lead
    | false => exact inner
  exact map_none_corresponds both fun v => K.ofExcept (x := v.item 1) (agree_eq_iff.mpr rfl)

theorem upToFrom_corresponds (stop : Corresponds K A p q) (inner : Corresponds K A p' q')
    {fuel : Nat} {fuel' : ι → Nat} (enough : ∀ x, fuel ≤ fuel' x) (values : List Value) {i j : Int}
    (place : A.Place i j) :
    K.Rel A.Outcomes (upToFrom p p' src fuel values i)
      fun x => upToFrom (q x) (q' x) dst (fuel' x) values j := by
  induction fuel generalizing fuel' values i j with
  | zero => exact K.exhausted _
  | succ fuel ih =>
      obtain ⟨fuel', rfl, left⟩ := exists_eq_succ enough
      apply K.bind (stop i j place)
      intro r s related
      cases related with
      | success _ => exact K.pure (.success place)
      | failure _ _ =>
          apply K.bind (inner i j place)
          intro r s related
          cases related with
          | failure alike further => exact K.pure (.failure alike further)
          | success further =>
              rename_i v k l
              change K.Rel A.Outcomes (if k = i then _ else _) fun x => if l = j then _ else _
              by_cases still : l = j
              · simp only [if_pos still, if_pos ((A.eq_iff further place).mpr still)]
                exact K.pure (.success place)
              · simp only [if_neg still, if_neg (mt (A.eq_iff further place).mp still)]
                exact ih left _ further

theorem upTo_corresponds (stop : Corresponds K A p q) (inner : Corresponds K A p' q') {fuel : Nat}
    {fuel' : ι → Nat} (enough : ∀ x, fuel ≤ fuel' x) :
    Corresponds K A (upTo fuel p p') fun x => upTo (fuel' x) (q x) (q' x) :=
  fun _ _ place => upToFrom_corresponds stop inner enough [] place

theorem not_corresponds (inner : Corresponds K A p q) :
    Corresponds K A (not p) fun x => not (q x) := by
  intro i j place
  apply K.bind (inner i j place)
  intro r s related
  cases related with
  | failure _ _ => exact K.pure (.success place)
  | success _ =>
      apply K.bind (K.ofExcept (agree_eq_iff.mpr rfl))
      intro label _ same
      subst same
      exact K.pure (A.outcomes_failed _ place)

theorem except_corresponds (exclusion : Corresponds K A p q) (inner : Corresponds K A p' q') :
    Corresponds K A (except p p') fun x => except (q x) (q' x) := by
  intro i j place
  apply K.bind (exclusion i j place)
  intro r s related
  cases related with
  | failure _ _ => exact inner i j place
  | success _ =>
      apply K.bind (K.ofExcept (agree_eq_iff.mpr rfl))
      intro label _ same
      subst same
      exact K.pure (A.outcomes_failed _ place)

theorem peek_corresponds (inner : Corresponds K A p q) :
    Corresponds K A (peek p) fun x => peek (q x) := by
  intro i j place
  apply K.bind (inner i j place)
  intro r s related
  cases related with
  | failure alike further => exact K.pure (.failure alike further)
  | success _ => exact K.pure (.success place)

theorem eof_corresponds (inner : Corresponds K A p q) :
    Corresponds K A (eof p) fun x => eof (q x) := by
  intro i j place
  apply K.bind (inner i j place)
  intro r s related
  cases related with
  | failure alike further => exact K.pure (.failure alike further)
  | success further =>
      rename_i v k l
      change K.Rel A.Outcomes (if k = src.length then _ else _)
        fun x => if l = dst.length then _ else _
      by_cases finished : l = dst.length
      · simp only [if_pos finished, if_pos ((A.eq_length_iff further).mpr finished)]
        exact K.pure (.success further)
      · simp only [if_neg finished, if_neg (mt (A.eq_length_iff further).mp finished)]
        exact K.pure (A.outcomes_failed _ further)

theorem eofIf_corresponds (full : Bool) (inner : Corresponds K A p q) :
    Corresponds K A (if full then eof p else p) fun x => if full then eof (q x) else q x := by
  cases full with
  | false => exact inner
  | true => exact eof_corresponds inner

end

/-- Makes the next matcher and runs it at once. -/
def thenRun (next : Action σ (Matcher σ)) : Matcher σ := fun src pos => do
  (← next) src pos

theorem continueWith_corresponds {κ : Type} {F : κ → Value → Action σ (Matcher σ)}
    {G : ι → κ → Value → Action τ (Matcher τ)} {l : List κ}
    (next : ∀ k ∈ l, ∀ v, Corresponds K A (thenRun (F k v)) fun x => thenRun (G x k v))
    {r s : Outcome} (related : A.Outcomes r s) :
    K.Rel A.Outcomes (continueWith src (l.map F) r) fun x => continueWith dst (l.map (G x)) s := by
  induction l generalizing r s with
  | nil => exact K.pure related
  | cons k l ih =>
      cases related with
      | failure alike place => exact K.pure (.failure alike place)
      | success place =>
          rename_i v i j
          have stage := next k (by simp) v _ _ place
          have whole := K.bind stage fun r s related =>
            ih (fun k member => next k (by simp [member])) related
          simpa only [thenRun, bind_assoc, List.map_cons, continueWith] using whole

theorem andThen_corresponds {κ : Type} {p : Matcher σ} {q : ι → Matcher τ}
    {F : κ → Value → Action σ (Matcher σ)} {G : ι → κ → Value → Action τ (Matcher τ)} {l : List κ}
    (first : Corresponds K A p q)
    (next : ∀ k ∈ l, ∀ v, Corresponds K A (thenRun (F k v)) fun x => thenRun (G x k v)) :
    Corresponds K A (andThen p (l.map F)) fun x => andThen (q x) (l.map (G x)) := by
  intro i j place
  exact K.bind (first i j place) fun r s related => continueWith_corresponds next related

def relabel (label : Text) (p : Matcher σ) : Matcher σ := fun src pos => do
  match ← p src pos with
  | .success r => return .success r
  | .failure f => return if f.pos = pos then .failed label pos else .failure f

theorem relabel_corresponds (label : Text) {p : Matcher σ} {q : ι → Matcher τ}
    (inner : Corresponds K A p q) :
    Corresponds K A (relabel label p) fun x => relabel label (q x) := by
  intro i j place
  apply K.bind (inner i j place)
  intro r s related
  cases related with
  | success further => exact K.pure (.success further)
  | failure alike further =>
      rename_i labels others k l
      apply K.pure
      change A.Outcomes (if k = i then _ else _) (if l = j then _ else _)
      by_cases still : l = j
      · rw [if_pos still, if_pos ((A.eq_iff further place).mpr still)]
        exact A.outcomes_failed _ place
      · rw [if_neg still, if_neg (mt (A.eq_iff further place).mp still)]
        exact .failure alike further

end Matcher

end Descent
