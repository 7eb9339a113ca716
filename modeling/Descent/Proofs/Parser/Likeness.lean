import Descent.Proofs.Parser.Composition
import Mathlib.Data.List.Forall2

/-!
# Runs that are alike

Two parsers that are put together in the same way from parsers that are alike are alike themselves,
for any kind of likeness that looks at how a run ends and, event by event, at what it reports. A
`Likeness` says what the two runs must have in common: how their failures and their events go
together, and whether the first may have been cut short. It also says what a failure may say. Every
combinator makes parsers that are alike from such parsers (`Likeness.Parsers`).
-/

namespace Descent

/-! ## Words of diagnostics -/

/-- Words of a diagnostic that came with the parser. -/
inductive Wording where
  /-- Why a conversion refuses a value. -/
  | reason (words : String)
  | expectation (words : String)
  | pattern (source : String)
  /-- A reason in words of its own. -/
  | message (words : String)
deriving DecidableEq

/-! ## Ends of runs -/

/-- Two runs end with the same success, or with failures that are related, or both not at all. -/
inductive Outcome.Rel {α : Type} (failures : Failure → Failure → Prop) :
    Outcome α → Outcome α → Prop
  | success (a : α) (t : Text) : Rel failures (.success a t) (.success a t)
  | failure {f f' : Failure} (h : failures f f') : Rel failures (.failure f) (.failure f')
  | diverges : Rel failures .diverges .diverges

theorem Outcome.Rel.eq {α : Type} {o o' : Outcome α} (h : Rel Eq o o') : o' = o := by
  cases h with
  | failure h => rw [h]
  | success | diverges => rfl

/-! ## Spans -/

/-- What a traced run says at its end, if it has an end. -/
def Outcome.finish {α : Type} : Outcome α → Option Notice
  | success _ remaining => some (.matched remaining)
  | failure f => some (.failed f)
  | diverges => none

/-- The events of a run, with those of the span around it if it has a title. -/
def Event.spanned (title : Option String) (input : Text) (inside : List Event)
    (finish : Option Notice) : List Event :=
  match title with
  | none => inside
  | some name =>
    ⟨.attempt input, [name]⟩ ::
      (inside.map (Event.within name) ++ finish.toList.map fun notice => ⟨notice, [name]⟩)

namespace Parser

variable {α : Type}

/-- A parser with a span around its runs if it has a title. -/
def titled (title : Option String) (p : Parser α) : Parser α :=
  match title with
  | none => p
  | some name => p.traced name

theorem titled_eq (title : Option String) (p : Parser α) (s : Text) :
    p.titled title s =
      ⟨(p s).outcome, Event.spanned title s (p s).events (p s).outcome.finish⟩ := by
  cases title with
  | none => rfl
  | some name =>
    rcases h : (p s).outcome with ⟨a, r⟩ | f | _ <;>
      simp [titled, traced, Event.spanned, Outcome.finish, h]

end Parser

/-! ## Rules -/

namespace Rules

variable {ι α : Type}

/-- What a rule does, which may have no body. -/
def body (rules : Rules ι α) (name : ι) : (ι → Parser α) → Parser α :=
  (rules name).getD fun _ => Parser.undefinedRule

theorem nested_succ (rules : Rules ι α) (n : Nat) (name : ι) :
    rules.nested (n + 1) name = rules.body name (rules.nested n) := by
  funext s
  rw [nested, body]
  cases rules name <;> rfl

end Rules

/-! ## Likeness -/

theorem Failure.or_congr {f g f' g' : Failure} (hf : f = f') (hg : g = g') : f.or g = f'.or g' :=
  congrArg₂ Failure.or hf hg

/-- What two runs have in common. -/
structure Likeness where
  /-- The text that the runs have to do with. -/
  text : Text
  /-- The words that a failure may use. -/
  words : Wording → Prop
  /-- The forms of values that a failure may show. -/
  forms : String → Prop
  /-- The limits of nesting that a failure may report. -/
  limits : Nat → Prop
  /-- How a failure of the first run goes together with one of the second. -/
  failures : Failure → Failure → Prop := Eq
  /-- How the events of the first run go together with those of the second. -/
  logs : List Event → List Event → Prop
  /-- Whether the first run may have been cut short. -/
  cut : Prop
  failures_refl : ∀ f, failures f f := by exact @Eq.refl Failure
  failures_or : ∀ {f g f' g' : Failure},
    failures f f' → failures g g' → failures (f.or g) (f'.or g') := by exact @Failure.or_congr
  logs_nil : logs [] []
  logs_append {a b c d : List Event} : logs a c → logs b d → logs (a ++ b) (c ++ d)
  logs_undefinedRule : logs [⟨.undefinedRule, []⟩] [⟨.undefinedRule, []⟩]

namespace Likeness

variable (R : Likeness) {α β γ : Type}

/-- A failure may have this cause: it quotes suffixes of the text, and it says what it may say. -/
def Allows : Cause → Prop
  | .emptyInput | .undefinedRule => True
  | .unexpected input | .trailing input => input <:+ R.text
  | .unconvertible reason input => input <:+ R.text ∧ R.words (.reason reason)
  | .rejected expectation found before after =>
    (before <:+ R.text ∧ after <:+ before) ∧ R.words (.expectation expectation) ∧ R.forms found
  | .mismatch pattern input => input <:+ R.text ∧ R.words (.pattern pattern)
  | .nesting limit input => input <:+ R.text ∧ R.limits limit
  | .reported message => R.words (.message message)

/-- Two runs on a text are alike: they end alike, with events that go together, unless the first was
cut short. -/
structure Runs (s : Text) (r r' : Reply α) : Prop where
  suffix {a : α} {t : Text} : r.outcome = .success a t → t <:+ s
  allows {f : Failure} : r.outcome = .failure f → ∀ c ∈ f.causes, R.Allows c
  akin : Outcome.Rel R.failures r.outcome r'.outcome ∧ R.logs r.events r'.events ∨
    R.cut ∧ r.outcome = .diverges

/-- Two parsers are alike: so are their runs on each suffix of the text. -/
def Parsers (p q : Parser α) : Prop := ∀ s, s <:+ R.text → R.Runs s (p s) (q s)

/-- Two titles are alike: the spans that they give to runs that end alike, with events that go
together, have events that go together. -/
def Titles (a b : Option String) : Prop :=
  ∀ (α : Type) (s : Text) (inside inside' : List Event) (outcome outcome' : Outcome α),
    Outcome.Rel R.failures outcome outcome' → R.logs inside inside' →
      R.logs (Event.spanned a s inside outcome.finish) (Event.spanned b s inside' outcome'.finish)

namespace Runs

variable {R} {s t : Text} {r r' : Reply α}

/-- Runs on a suffix of a text are runs that have to do with the text. -/
theorem mono (h : R.Runs t r r') (hts : t <:+ s) : R.Runs s r r' :=
  ⟨fun ha => (h.suffix ha).trans hts, h.allows, h.akin⟩

/-- Where no failures but equal ones go together, runs that are alike end in the same way. -/
theorem agree (h : R.Runs t r r') (heq : R.failures = Eq := by rfl) :
    r'.outcome = r.outcome ∧ R.logs r.events r'.events ∨ R.cut ∧ r.outcome = .diverges := by
  have hakin := h.akin
  rw [heq] at hakin
  exact hakin.imp_left fun ⟨houtcome, hlogs⟩ => ⟨houtcome.eq, hlogs⟩

/-! ### Ends of runs -/

theorem success (a : α) (h : t <:+ s) : R.Runs s (Reply.success a t) (Reply.success a t) where
  suffix ha := by
    cases ha
    exact h
  allows hf := by cases hf
  akin := Or.inl ⟨.success a t, R.logs_nil⟩

theorem failure {f f' : Failure} (h : ∀ c ∈ f.causes, R.Allows c) (hf : R.failures f f') :
    R.Runs s (Reply.failure f : Reply α) (Reply.failure f') where
  suffix ha := by cases ha
  allows hf := by
    cases hf
    exact h
  akin := Or.inl ⟨.failure hf, R.logs_nil⟩

theorem cause {c : Cause} (h : R.Allows c) :
    R.Runs s (Reply.failure c : Reply α) (Reply.failure c) := by
  refine failure (fun d hd => ?_) (R.failures_refl _)
  rw [List.mem_singleton.mp hd]
  exact h

theorem diverges : R.Runs s (Reply.diverges : Reply α) Reply.diverges where
  suffix ha := by cases ha
  allows hf := by cases hf
  akin := Or.inl ⟨.diverges, R.logs_nil⟩

theorem undefinedRule (t : Text) :
    R.Runs s (Parser.undefinedRule t : Reply α) (Parser.undefinedRule t) where
  suffix ha := by cases ha
  allows hf := by
    cases hf
    intro c hc
    rw [List.mem_singleton.mp hc]
    trivial
  akin := Or.inl ⟨.failure (R.failures_refl _), R.logs_undefinedRule⟩

/-! ### Going on -/

theorem after (h : R.Runs s r r') {a b : List Event} (hlogs : R.logs a b) :
    R.Runs s (r.after a) (r'.after b) where
  suffix := h.suffix
  allows := h.allows
  akin := h.akin.imp_left fun ⟨houtcome, hevents⟩ => ⟨houtcome, R.logs_append hlogs hevents⟩

theorem either {ok ok' : α → Text → Reply β} {bad bad' : Failure → Reply β} (h : R.Runs s r r')
    (hok : ∀ a t, t <:+ s → R.Runs s (ok a t) (ok' a t))
    (hbad : ∀ f f', (∀ c ∈ f.causes, R.Allows c) → R.failures f f' → R.Runs s (bad f) (bad' f')) :
    R.Runs s (r.either ok bad) (r'.either ok' bad') := by
  rcases h.akin with ⟨houtcome, hlogs⟩ | ⟨hcut, hdiverges⟩
  · generalize hr : r.outcome = o, hr' : r'.outcome = o' at houtcome
    cases houtcome with
    | success a t =>
      rw [Reply.either_of_success hr, Reply.either_of_success hr']
      exact (hok a t (h.suffix hr)).after hlogs
    | failure hf =>
      rw [Reply.either_of_failure hr, Reply.either_of_failure hr']
      exact (hbad _ _ (h.allows hr) hf).after hlogs
    | diverges =>
      simp only [Reply.either, hr, hr']
      exact ⟨by simp, by simp, Or.inl ⟨.diverges, hlogs⟩⟩
  · -- What would come after a run that was cut short does not happen.
    have hleft : (r.either ok bad).outcome = .diverges := by simp only [Reply.either, hdiverges]
    exact ⟨by simp [hleft], by simp [hleft], Or.inr ⟨hcut, hleft⟩⟩

theorem next {go go' : α → Text → Reply β} (h : R.Runs s r r')
    (hgo : ∀ a t, t <:+ s → R.Runs s (go a t) (go' a t)) :
    R.Runs s (r.next go) (r'.next go') := by
  rw [Reply.next_eq_either, Reply.next_eq_either]
  exact h.either hgo fun _ _ => failure

theorem recover {go go' : Failure → Reply α} (h : R.Runs s r r')
    (hgo : ∀ f f', (∀ c ∈ f.causes, R.Allows c) → R.failures f f' → R.Runs s (go f) (go' f')) :
    R.Runs s (r.recover go) (r'.recover go') := by
  rw [Reply.recover_eq_either, Reply.recover_eq_either]
  exact h.either (fun a _ => success a) hgo

theorem map (h : R.Runs s r r') (f : α → β) : R.Runs s (r.map f) (r'.map f) := by
  rw [Reply.map_eq_either, Reply.map_eq_either]
  exact h.either (fun a _ => success (f a)) fun _ _ => failure

theorem mapFailure (h : R.Runs s r r') {f f' : Failure → Failure}
    (hf : ∀ g, (∀ c ∈ g.causes, R.Allows c) → ∀ c ∈ (f g).causes, R.Allows c)
    (hfailures : ∀ g g', R.failures g g' → R.failures (f g) (f' g')) :
    R.Runs s (r.mapFailure f) (r'.mapFailure f') := by
  rw [Reply.mapFailure_eq_either, Reply.mapFailure_eq_either]
  exact h.either (fun a _ => success a) fun g g' hg hgg => failure (hf g hg) (hfailures g g' hgg)

/-- A span around runs that are alike. -/
theorem titled {p q : Parser α} {a b : Option String} (h : R.Runs s (p s) (q s))
    (hab : R.Titles a b) : R.Runs s (p.titled a s) (q.titled b s) := by
  rw [Parser.titled_eq, Parser.titled_eq]
  refine ⟨h.suffix, h.allows, h.akin.imp_left fun ⟨houtcome, hlogs⟩ => ⟨houtcome, ?_⟩⟩
  exact hab _ _ _ _ _ _ houtcome hlogs

end Runs

namespace Parsers

variable {R} {s t : Text} {p p' : Parser α} {q q' : Parser β}

/-- What is alike on all suffixes of the text is so on what a run leaves. -/
theorem runs (h : R.Parsers p p') (hs : s <:+ R.text) (ht : t <:+ s) : R.Runs s (p t) (p' t) :=
  (h t (ht.trans hs)).mono ht

/-! ## Primitive parsers -/

theorem succeed (a : α) : R.Parsers (Parser.succeed a) (Parser.succeed a) :=
  fun s _ => .success a (List.suffix_refl s)

theorem fail : R.Parsers (Parser.fail : Parser α) Parser.fail := fun _ hs => .cause hs

theorem item : R.Parsers Parser.item Parser.item
  | [], _ => .cause trivial
  | c :: t, _ => .success c (List.suffix_cons c t)

theorem satisfy (test : Char → Bool) : R.Parsers (Parser.satisfy test) (Parser.satisfy test) := by
  intro s hs
  refine (item s hs).next fun c t ht => ?_
  split
  · exact .success c ht
  · exact .cause hs

theorem char (c : Char) : R.Parsers (Parser.char c) (Parser.char c) := satisfy _

theorem satisfyExpecting (test : Char → Bool) {expectation : String}
    (hwords : R.words (.expectation expectation)) (hforms : ∀ c : Char, R.forms (inspect c)) :
    R.Parsers (Parser.satisfyExpecting test expectation)
      (Parser.satisfyExpecting test expectation) := by
  intro s hs
  refine (item s hs).next fun c t ht => ?_
  split
  · exact .success c ht
  · exact .cause ⟨⟨hs, ht⟩, hwords, hforms c⟩

theorem characters (w : Text) : R.Parsers (Parser.characters w) (Parser.characters w) := by
  induction w with
  | nil => exact succeed ()
  | cons c w ih =>
    intro s hs
    cases s with
    | nil => exact .cause trivial
    | cons d s =>
      rw [Parser.characters]
      split
      · exact ih.runs hs (List.suffix_cons d s)
      · exact .cause hs

theorem literal (word : String) : R.Parsers (Parser.literal word) (Parser.literal word) :=
  fun s hs => (characters word.toList s hs).map _

theorem ending : R.Parsers Parser.ending Parser.ending
  | [], _ => .success () (List.suffix_refl [])
  | _ :: _, hs => .cause hs

/-! ## Values and sequences -/

theorem map (h : R.Parsers p p') (f : α → β) : R.Parsers (p.map f) (p'.map f) :=
  fun s hs => (h s hs).map f

theorem convert (h : R.Parsers p p') {f : α → Except String β}
    (hwords : ∀ a e, f a = .error e → R.words (.reason e)) :
    R.Parsers (p.convert f) (p'.convert f) := by
  intro s hs
  refine (h s hs).next fun a t ht => ?_
  split
  · exact .success _ ht
  · next e he => exact .cause ⟨hs, hwords a e he⟩

theorem filterExpecting [Inspect α] (h : R.Parsers p p') (test : α → Bool) {expectation : String}
    (hwords : R.words (.expectation expectation)) (hforms : ∀ a : α, R.forms (inspect a)) :
    R.Parsers (p.filterExpecting test expectation) (p'.filterExpecting test expectation) := by
  intro s hs
  refine (h s hs).next fun a t ht => ?_
  split
  · exact .success a ht
  · exact .cause ⟨⟨hs, ht⟩, hwords, hforms a⟩

theorem andThen {k k' : α → Parser β} (h : R.Parsers p p') (hk : ∀ a, R.Parsers (k a) (k' a)) :
    R.Parsers (p.andThen k) (p'.andThen k') :=
  fun s hs => (h s hs).next fun a _ ht => (hk a).runs hs ht

theorem both (hp : R.Parsers p p') (hq : R.Parsers q q') : R.Parsers (p.both q) (p'.both q') :=
  fun s hs => (hp s hs).next fun _ _ ht => (hq.runs hs ht).map _

theorem skipThen (hp : R.Parsers p p') (hq : R.Parsers q q') :
    R.Parsers (p.skipThen q) (p'.skipThen q') :=
  fun s hs => (hp s hs).next fun _ _ ht => hq.runs hs ht

theorem thenSkip (hp : R.Parsers p p') (hq : R.Parsers q q') :
    R.Parsers (p.thenSkip q) (p'.thenSkip q') :=
  fun s hs => (hp s hs).next fun _ _ ht => (hq.runs hs ht).map _

theorem bracket {closing closing' : Parser γ} (hp : R.Parsers p p') (hq : R.Parsers q q')
    (hclosing : R.Parsers closing closing') :
    R.Parsers (Parser.bracket p q closing) (Parser.bracket p' q' closing') := by
  rw [Parser.bracket_eq_skipThen, Parser.bracket_eq_skipThen]
  exact hp.skipThen (hq.thenSkip hclosing)

theorem sequence {ps ps' : List (Parser α)} (h : List.Forall₂ R.Parsers ps ps') :
    R.Parsers (Parser.sequence ps) (Parser.sequence ps') := by
  have hfrom (values : List α) :
      R.Parsers (Parser.sequenceFrom ps values []) (Parser.sequenceFrom ps' values []) := by
    induction h generalizing values with
    | nil => exact succeed values.reverse
    | cons hp _ ih =>
      intro s hs
      rw [Parser.sequenceFrom_cons, Parser.sequenceFrom_cons]
      exact (hp s hs).next fun a _ ht => (ih (a :: values)).runs hs ht
  exact hfrom []

theorem times (n : Nat) (h : R.Parsers p p') :
    R.Parsers (Parser.times n p) (Parser.times n p') := by
  have hlists : List.Forall₂ R.Parsers (List.replicate n p) (List.replicate n p') := by
    induction n with
    | zero => exact .nil
    | succ n ih => exact .cons h ih
  intro s hs
  rw [Parser.times, Parser.times, Parser.timesFrom_eq_sequenceFrom,
    Parser.timesFrom_eq_sequenceFrom]
  exact sequence hlists s hs

theorem titled {a b : Option String} (h : R.Parsers p p') (hab : R.Titles a b) :
    R.Parsers (p.titled a) (p'.titled b) := fun s hs => (h s hs).titled hab

/-! ## Alternatives -/

theorem allows_or {f g : Failure} (hf : ∀ c ∈ f.causes, R.Allows c)
    (hg : ∀ c ∈ g.causes, R.Allows c) : ∀ c ∈ (f.or g).causes, R.Allows c := by
  rw [Failure.causes_or]
  exact List.forall_mem_append.mpr ⟨hf, hg⟩

theorem choice {ps ps' : List (Parser α)} (h : List.Forall₂ R.Parsers ps ps') :
    R.Parsers (Parser.choice ps) (Parser.choice ps') := by
  intro s hs
  -- The alternatives that failed may have said no more than those that are left.
  have hfrom (failed failed' : Option Failure) (hrel : Option.Rel R.failures failed failed')
      (hfailed : ∀ f ∈ failed, ∀ c ∈ f.causes, R.Allows c) :
      R.Runs s (Parser.choiceFrom ps failed [] s) (Parser.choiceFrom ps' failed' [] s) := by
    induction h generalizing failed failed' with
    | nil =>
      cases hrel with
      | none => exact .cause hs
      | some hf => exact .failure (hfailed _ rfl) hf
    | cons hp _ ih =>
      rw [Parser.choiceFrom_cons, Parser.choiceFrom_cons]
      refine (hp s hs).recover fun f f' hf hff => ?_
      cases hrel with
      | none =>
        refine ih _ _ (.some hff) fun g hg => ?_
        cases hg
        exact hf
      | some he =>
        refine ih _ _ (.some (R.failures_or he hff)) fun g hg => ?_
        cases hg
        exact allows_or (hfailed _ rfl) hf
  exact hfrom none none .none fun f hf => by cases hf

theorem orElse {q q' : Parser α} (hp : R.Parsers p p') (hq : R.Parsers q q') :
    R.Parsers (p.orElse q) (p'.orElse q') :=
  fun s hs => (hp s hs).recover fun _ _ hf hff =>
    (hq s hs).mapFailure (fun _ hg => allows_or hf hg) fun _ _ hgg => R.failures_or hff hgg

theorem optional (h : R.Parsers p p') : R.Parsers p.optional p'.optional :=
  fun s hs => ((h s hs).map some).recover fun _ _ _ _ => .success none (List.suffix_refl s)

/-! ## Repetition -/

theorem atLeastFrom (h : R.Parsers p p') (rounds : Text) (least : Nat) (values : List α) :
    R.Parsers (Parser.atLeastFrom p rounds least values [])
      (Parser.atLeastFrom p' rounds least values []) := by
  have hstop (least : Nat) (values : List α) (s : Text) (f f' : Failure)
      (hf : ∀ c ∈ f.causes, R.Allows c) (hff : R.failures f f') :
      R.Runs s (Parser.atLeastStop least values s f) (Parser.atLeastStop least values s f') := by
    unfold Parser.atLeastStop
    split
    · exact .success _ (List.suffix_refl s)
    · exact .failure hf hff
  induction rounds generalizing least values with
  | nil =>
    intro s hs
    rw [Parser.atLeastFrom_nil, Parser.atLeastFrom_nil]
    exact (h s hs).either (fun _ _ _ => .diverges) (hstop least values s)
  | cons c rounds ih =>
    intro s hs
    rw [Parser.atLeastFrom_cons, Parser.atLeastFrom_cons]
    exact (h s hs).either (fun a _ ht => (ih (least - 1) (a :: values)).runs hs ht)
      (hstop least values s)

theorem atLeast (n : Nat) (h : R.Parsers p p') :
    R.Parsers (Parser.atLeast n p) (Parser.atLeast n p') :=
  fun s hs => h.atLeastFrom s n [] s hs

theorem many (h : R.Parsers p p') : R.Parsers (Parser.many p) (Parser.many p') := h.atLeast 0

theorem many1 (h : R.Parsers p p') : R.Parsers (Parser.many1 p) (Parser.many1 p') := h.atLeast 1

theorem sepBy1 (hp : R.Parsers p p') (hq : R.Parsers q q') :
    R.Parsers (p.sepBy1 q) (p'.sepBy1 q') := by
  intro s hs
  rw [Parser.sepBy1_eq, Parser.sepBy1_eq]
  exact (hp s hs).next fun a t ht => ((hq.skipThen hp).atLeastFrom t 0 [a]).runs hs ht

theorem sepBy (hp : R.Parsers p p') (hq : R.Parsers q q') :
    R.Parsers (p.sepBy q) (p'.sepBy q') := by
  intro s hs
  rw [Parser.sepBy_eq, Parser.sepBy_eq]
  exact (hp s hs).either (fun a t ht => ((hq.skipThen hp).atLeastFrom t 0 [a]).runs hs ht)
    fun _ _ _ _ => .success [] (List.suffix_refl s)

/-! ## Rules -/

theorem undefinedRule : R.Parsers (Parser.undefinedRule : Parser α) Parser.undefinedRule :=
  fun s _ => .undefinedRule s

theorem fix {body body' : Parser α → Parser α}
    (h : ∀ self self', R.Parsers self self' → R.Parsers (body self) (body' self')) :
    R.Parsers (Parser.fix body) (Parser.fix body') := by
  -- Both are cut off at the same depth, which the text decides.
  have hnested (n : Nat) : R.Parsers (Parser.nested body n) (Parser.nested body' n) := by
    induction n with
    | zero => exact fun _ _ => .diverges
    | succ n ih => exact h _ _ ih
  exact fun s hs => hnested (s.length + 1) s hs

end Parsers

/-- Two bodies of rules are alike: they make parsers that are alike from such parsers. -/
def Bodies {ι : Type} (body body' : (ι → Parser α) → Parser α) : Prop :=
  ∀ call call' : ι → Parser α, (∀ name, R.Parsers (call name) (call' name)) →
    R.Parsers (body call) (body' call')

/-- What rules do is alike, where a rule may also have no body on one side. Then they have parsers
that are alike, however deep their calls may nest. -/
theorem nested_bodies {R : Likeness} {ι : Type} {rules rules' : Rules ι α}
    (h : ∀ name, R.Bodies (rules.body name) (rules'.body name)) (n : Nat) (name : ι) :
    R.Parsers (rules.nested n name) (rules'.nested n name) := by
  induction n generalizing name with
  | zero => exact fun _ _ => .diverges
  | succ n ih =>
    rw [Rules.nested_succ, Rules.nested_succ]
    exact h name _ _ ih

/-- Rules whose bodies are alike have parsers that are alike, however deep their calls may nest. -/
theorem nested_rules {R : Likeness} {ι : Type} {rules rules' : Rules ι α}
    (h : ∀ name, Option.Rel R.Bodies (rules name) (rules' name)) (n : Nat) (name : ι) :
    R.Parsers (rules.nested n name) (rules'.nested n name) := by
  refine nested_bodies (fun name => ?_) n name
  have hname := h name
  unfold Rules.body
  generalize rules name = body, rules' name = body' at hname ⊢
  cases hname with
  | none => exact fun _ _ _ => .undefinedRule
  | some hbody => exact hbody

end Likeness
end Descent
