import Descent.Parser.Basic

/-!
The parts that grammars and parsers are made of, and induction along them.
-/

namespace Descent

namespace Grammar

/-- The grammars that a grammar is directly made of. Those that depend on a value count for every
value. -/
inductive HasPart : Grammar → Grammar → Prop
  | noting {event : Text} {g : Grammar} : HasPart (.noting event g) g
  | seq {gs : List Grammar} {g : Grammar} (member : g ∈ gs) : HasPart (.seq gs) g
  | alt {gs : List Grammar} {g : Grammar} (member : g ∈ gs) : HasPart (.alt gs) g
  | copies {g : Grammar} {count : Except Fault Int} : HasPart (.copies g count) g
  | map {g : Grammar} {fn : Callback Value} {validate : Option (Callback Bool)} :
      HasPart (.map g fn validate) g
  | many {g : Grammar} : HasPart (.many g) g
  | many1 {g : Grammar} : HasPart (.many1 g) g
  | betweenLeft {left right g : Grammar} : HasPart (.between left right g) left
  | betweenRight {left right g : Grammar} : HasPart (.between left right g) right
  | between {left right g : Grammar} : HasPart (.between left right g) g
  | upToStop {stop g : Grammar} : HasPart (.upTo stop g) stop
  | upTo {stop g : Grammar} : HasPart (.upTo stop g) g
  | not {g : Grammar} : HasPart (.not g) g
  | exceptExclusion {exclusion g : Grammar} : HasPart (.except exclusion g) exclusion
  | except {exclusion g : Grammar} : HasPart (.except exclusion g) g
  | peek {g : Grammar} : HasPart (.peek g) g
  | eof {g : Grammar} : HasPart (.eof g) g
  | sepBySeparator {separator item : Grammar} : HasPart (.sepBy separator item) separator
  | sepBy {separator item : Grammar} : HasPart (.sepBy separator item) item
  | andThen {g : Grammar} {fns : List (Value → Grammar)} : HasPart (.andThen g fns) g
  | andThenNext {g : Grammar} {fns : List (Value → Grammar)} {fn : Value → Grammar}
      (member : fn ∈ fns) (v : Value) : HasPart (.andThen g fns) (fn v)
  | memoize {g : Grammar} : HasPart (.memoize g) g
  | lazy {g : Grammar} : HasPart (.lazy g) g
  | named {label : Text} {g : Grammar} : HasPart (.named label g) g
  | probe {event : Text} {g : Grammar} : HasPart (.probe event g) g

inductive All (ok : Grammar → Prop) : Grammar → Prop
  | intro {g : Grammar} (here : ok g) (parts : ∀ h, g.HasPart h → All ok h) : All ok g

mutual

theorem induction {motive : Grammar → Prop}
    (step : ∀ g, (∀ h, HasPart g h → motive h) → motive g) : ∀ g, motive g
  | .noting _ g => step _ fun | _, .noting => induction step g
  | .seq gs => step _ fun | _, .seq member => inductionList step gs _ member
  | .alt gs => step _ fun | _, .alt member => inductionList step gs _ member
  | .copies g _ => step _ fun | _, .copies => induction step g
  | .map g _ _ => step _ fun | _, .map => induction step g
  | .many g => step _ fun | _, .many => induction step g
  | .many1 g => step _ fun | _, .many1 => induction step g
  | .between left right g => step _ fun
      | _, .betweenLeft => induction step left
      | _, .betweenRight => induction step right
      | _, .between => induction step g
  | .upTo stop g => step _ fun
      | _, .upToStop => induction step stop
      | _, .upTo => induction step g
  | .not g => step _ fun | _, .not => induction step g
  | .except exclusion g => step _ fun
      | _, .exceptExclusion => induction step exclusion
      | _, .except => induction step g
  | .peek g => step _ fun | _, .peek => induction step g
  | .eof g => step _ fun | _, .eof => induction step g
  | .sepBy separator item => step _ fun
      | _, .sepBySeparator => induction step separator
      | _, .sepBy => induction step item
  | .andThen g fns => step _ fun _ part => by
      cases part with
      | andThen => exact induction step g
      | andThenNext member v => exact inductionNext step fns _ member v
  | .memoize g => step _ fun | _, .memoize => induction step g
  | .lazy g => step _ fun | _, .lazy => induction step g
  | .named _ g => step _ fun | _, .named => induction step g
  | .probe _ g => step _ fun | _, .probe => induction step g
  | .value _ | .ref _ | .faulty _ | .char _ | .string _ | .regex _ _ | .satisfy _ _ | .whitespaces
  | .succeed _ | .fail _ | .custom _ => step _ nofun

theorem inductionList {motive : Grammar → Prop}
    (step : ∀ g, (∀ h, HasPart g h → motive h) → motive g) : ∀ gs : List Grammar, ∀ g ∈ gs, motive g
  | g :: _, _, .head _ => induction step g
  | _ :: gs, _, .tail _ member => inductionList step gs _ member

theorem inductionNext {motive : Grammar → Prop}
    (step : ∀ g, (∀ h, HasPart g h → motive h) → motive g) :
    ∀ fns : List (Value → Grammar), ∀ fn ∈ fns, ∀ v, motive (fn v)
  | fn :: _, _, .head _, v => induction step (fn v)
  | _ :: fns, _, .tail _ member, v => inductionNext step fns _ member v

end

theorem All.mono {ok ok' : Grammar → Prop} (weaker : ∀ g, ok g → ok' g) {g : Grammar}
    (all : g.All ok) : g.All ok' := by
  induction all with
  | intro here _ ih => exact .intro (weaker _ here) ih

section

variable {ok : Grammar → Prop}

@[simp] theorem all_ref {name : Text} : (ref name).All ok ↔ ok (.ref name) :=
  ⟨fun | .intro here _ => here, fun here => .intro here nofun⟩

@[simp] theorem all_char {t : Text} : (char t).All ok ↔ ok (.char t) :=
  ⟨fun | .intro here _ => here, fun here => .intro here nofun⟩

@[simp] theorem all_string {t : Text} : (string t).All ok ↔ ok (.string t) :=
  ⟨fun | .intro here _ => here, fun here => .intro here nofun⟩

@[simp] theorem all_custom {verdict : Text → Int → Except Fault Verdict} :
    (custom verdict).All ok ↔ ok (.custom verdict) :=
  ⟨fun | .intro here _ => here, fun here => .intro here nofun⟩

@[simp] theorem all_regex {flags : Regex.Flags} {pattern : Text} :
    (regex flags pattern).All ok ↔ ok (.regex flags pattern) :=
  ⟨fun | .intro here _ => here, fun here => .intro here nofun⟩

@[simp] theorem all_satisfy {test : Callback Bool} {label : Text} :
    (satisfy test label).All ok ↔ ok (.satisfy test label) :=
  ⟨fun | .intro here _ => here, fun here => .intro here nofun⟩

@[simp] theorem all_succeed {v : Value} : (succeed v).All ok ↔ ok (.succeed v) :=
  ⟨fun | .intro here _ => here, fun here => .intro here nofun⟩

@[simp] theorem all_fail {message : Text} : (fail message).All ok ↔ ok (.fail message) :=
  ⟨fun | .intro here _ => here, fun here => .intro here nofun⟩

@[simp] theorem all_whitespaces : whitespaces.All ok ↔ ok .whitespaces :=
  ⟨fun | .intro here _ => here, fun here => .intro here nofun⟩

@[simp] theorem all_seq {gs : List Grammar} : (seq gs).All ok ↔ ok (.seq gs) ∧ ∀ g ∈ gs, g.All ok :=
  ⟨fun | .intro here parts => ⟨here, fun g member => parts g (.seq member)⟩,
    fun ⟨here, members⟩ => .intro here fun | g, .seq member => members g member⟩

@[simp] theorem all_alt {gs : List Grammar} : (alt gs).All ok ↔ ok (.alt gs) ∧ ∀ g ∈ gs, g.All ok :=
  ⟨fun | .intro here parts => ⟨here, fun g member => parts g (.alt member)⟩,
    fun ⟨here, members⟩ => .intro here fun | g, .alt member => members g member⟩

@[simp] theorem all_map {g : Grammar} {fn : Callback Value} {validate : Option (Callback Bool)} :
    (map g fn validate).All ok ↔ ok (.map g fn validate) ∧ g.All ok :=
  ⟨fun | .intro here parts => ⟨here, parts g .map⟩,
    fun ⟨here, part⟩ => .intro here fun | _, .map => part⟩

@[simp] theorem all_many {g : Grammar} : (many g).All ok ↔ ok (.many g) ∧ g.All ok :=
  ⟨fun | .intro here parts => ⟨here, parts g .many⟩,
    fun ⟨here, part⟩ => .intro here fun | _, .many => part⟩

@[simp] theorem all_many1 {g : Grammar} : (many1 g).All ok ↔ ok (.many1 g) ∧ g.All ok :=
  ⟨fun | .intro here parts => ⟨here, parts g .many1⟩,
    fun ⟨here, part⟩ => .intro here fun | _, .many1 => part⟩

@[simp] theorem all_between {left right g : Grammar} :
    (between left right g).All ok ↔ ok (.between left right g) ∧ left.All ok ∧ right.All ok ∧
    g.All ok :=
  ⟨fun | .intro here parts => ⟨here, parts _ .betweenLeft, parts _ .betweenRight, parts _ .between⟩,
    fun ⟨here, first, last, part⟩ => .intro here fun
      | _, .betweenLeft => first
      | _, .betweenRight => last
      | _, .between => part⟩

@[simp] theorem all_upTo {stop g : Grammar} :
    (upTo stop g).All ok ↔ ok (.upTo stop g) ∧ stop.All ok ∧ g.All ok :=
  ⟨fun | .intro here parts => ⟨here, parts _ .upToStop, parts _ .upTo⟩,
    fun ⟨here, mark, part⟩ => .intro here fun
      | _, .upToStop => mark
      | _, .upTo => part⟩

@[simp] theorem all_except {exclusion g : Grammar} :
    (except exclusion g).All ok ↔ ok (.except exclusion g) ∧ exclusion.All ok ∧ g.All ok :=
  ⟨fun | .intro here parts => ⟨here, parts _ .exceptExclusion, parts _ .except⟩,
    fun ⟨here, excluded, part⟩ => .intro here fun
      | _, .exceptExclusion => excluded
      | _, .except => part⟩

@[simp] theorem all_not {g : Grammar} : (not g).All ok ↔ ok (.not g) ∧ g.All ok :=
  ⟨fun | .intro here parts => ⟨here, parts g .not⟩,
    fun ⟨here, part⟩ => .intro here fun | _, .not => part⟩

@[simp] theorem all_eof {g : Grammar} : (eof g).All ok ↔ ok (.eof g) ∧ g.All ok :=
  ⟨fun | .intro here parts => ⟨here, parts g .eof⟩,
    fun ⟨here, part⟩ => .intro here fun | _, .eof => part⟩

@[simp] theorem all_sepBy {separator item : Grammar} : (sepBy separator item).All ok ↔
    ok (.sepBy separator item) ∧ separator.All ok ∧ item.All ok :=
  ⟨fun | .intro here parts => ⟨here, parts _ .sepBySeparator, parts _ .sepBy⟩,
    fun ⟨here, mark, part⟩ => .intro here fun
      | _, .sepBySeparator => mark
      | _, .sepBy => part⟩

@[simp] theorem all_memoize {g : Grammar} : (memoize g).All ok ↔ ok (.memoize g) ∧ g.All ok :=
  ⟨fun | .intro here parts => ⟨here, parts g .memoize⟩,
    fun ⟨here, part⟩ => .intro here fun | _, .memoize => part⟩

@[simp] theorem all_lazy {g : Grammar} : (lazy g).All ok ↔ ok (.lazy g) ∧ g.All ok :=
  ⟨fun | .intro here parts => ⟨here, parts g .lazy⟩,
    fun ⟨here, part⟩ => .intro here fun | _, .lazy => part⟩

@[simp] theorem all_named {label : Text} {g : Grammar} :
    (named label g).All ok ↔ ok (.named label g) ∧ g.All ok :=
  ⟨fun | .intro here parts => ⟨here, parts g .named⟩,
    fun ⟨here, part⟩ => .intro here fun | _, .named => part⟩

end

end Grammar

namespace Parser

/-- The parsers that a parser is directly made of. What is built late is not among them. -/
def parts : Parser → List Parser
  | .seq ps | .alt ps => ps
  | .map p _ _ | .many p | .many1 p | .not p | .peek p | .eof p | .andThen p _ | .memoize _ _ p
  | .named _ _ p | .probe _ p => [p]
  | .upTo first second | .except first second | .sepBy first second => [first, second]
  | .char _ | .string _ | .regex _ | .satisfy _ _ | .whitespaces | .succeed _ | .fail _ | .custom _
  | .lazy _ _ => []

inductive All (ok : Parser → Prop) : Parser → Prop
  | intro {p : Parser} (here : ok p) (parts : ∀ q ∈ p.parts, All ok q) : All ok p

mutual

theorem induction {motive : Parser → Prop} (step : ∀ p, (∀ q ∈ p.parts, motive q) → motive p) :
    ∀ p, motive p
  | .seq ps => step _ (inductionList step ps)
  | .alt ps => step _ (inductionList step ps)
  | .map p _ _ => step _ fun | _, .head _ => induction step p
  | .many p => step _ fun | _, .head _ => induction step p
  | .many1 p => step _ fun | _, .head _ => induction step p
  | .upTo first second => step _ fun
      | _, .head _ => induction step first
      | _, .tail _ (.head _) => induction step second
  | .not p => step _ fun | _, .head _ => induction step p
  | .except first second => step _ fun
      | _, .head _ => induction step first
      | _, .tail _ (.head _) => induction step second
  | .peek p => step _ fun | _, .head _ => induction step p
  | .eof p => step _ fun | _, .head _ => induction step p
  | .sepBy first second => step _ fun
      | _, .head _ => induction step first
      | _, .tail _ (.head _) => induction step second
  | .andThen p _ => step _ fun | _, .head _ => induction step p
  | .memoize _ _ p => step _ fun | _, .head _ => induction step p
  | .named _ _ p => step _ fun | _, .head _ => induction step p
  | .probe _ p => step _ fun | _, .head _ => induction step p
  | .char _ | .string _ | .regex _ | .satisfy _ _ | .whitespaces | .succeed _ | .fail _ | .custom _
  | .lazy _ _ => step _ nofun

theorem inductionList {motive : Parser → Prop} (step : ∀ p, (∀ q ∈ p.parts, motive q) → motive p) :
    ∀ ps : List Parser, ∀ p ∈ ps, motive p
  | p :: _, _, .head _ => induction step p
  | _ :: ps, _, .tail _ member => inductionList step ps _ member

end

theorem All.mono {ok ok' : Parser → Prop} (weaker : ∀ p, ok p → ok' p) {p : Parser}
    (all : p.All ok) : p.All ok' := by
  induction all with
  | intro here _ ih => exact .intro (weaker _ here) ih

theorem all_iff {ok : Parser → Prop} {p : Parser} :
    p.All ok ↔ ok p ∧ ∀ q ∈ p.parts, q.All ok := by
  constructor
  · intro all
    cases all with
    | intro here parts => exact ⟨here, parts⟩
  · intro both
    obtain ⟨here, parts⟩ := both
    exact .intro here parts

theorem all_true (p : Parser) : p.All fun _ => True := by
  induction p using Parser.induction with
  | step p ih => exact .intro True.intro ih

end Parser

end Descent
