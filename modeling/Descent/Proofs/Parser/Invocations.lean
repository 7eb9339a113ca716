import Descent.Proofs.Parser.Composition
import Descent.Proofs.Parser.SpanTree

/-!
# The traced runs that parsers make

For each combinator there is a forest of the traced runs that it makes on a text, given those that
its parsers make (`Invocations`). It is put together from how the runs of these parsers end, and not
from what they report. The log is that of the forest (`Parser.Invokes`): each traced run adds an
attempt before all that is inside it and its end after it, and nothing else is added, dropped or
moved. This is shown for one combinator after the other.
-/

namespace Descent

/-- The traced runs and warnings for a run on each text, in the order in which they are made. -/
abbrev Invocations : Type := Text → List SpanTree

namespace Invocations

variable {α β ι : Type}

/-! ## Forests of combinators -/

/-- No traced run is made, on any text. -/
def none : Invocations := fun _ => []

/-- A rule without a body warns. -/
def warning : Invocations := fun _ => [.warning]

/-- A parser and, where it succeeds, the next on what it left. -/
def seq (p : Parser α) (first : Invocations) (next : α → Invocations) : Invocations := fun s =>
  first s ++
    match (p s).outcome with
    | .success a r => next a r
    | .failure _ | .diverges => []

/-- A parser and, where it fails, another one on the same text. -/
def alt (p : Parser α) (first other : Invocations) : Invocations := fun s =>
  first s ++
    match (p s).outcome with
    | .failure _ => other s
    | .success _ _ | .diverges => []

/-- A traced parser: one run, around all that its parser makes, that ends as this one does. -/
def span (name : String) (p : Parser α) (inside : Invocations) : Invocations := fun s =>
  match (p s).outcome with
  | .success _ r => [.invocation name s (inside s) (.ok r)]
  | .failure f => [.invocation name s (inside s) (.error f)]
  | .diverges => []

/-- Parsers one after the other, as long as they succeed. -/
def inTurn : List (Parser α) → List Invocations → Invocations
  | p :: ps, first :: others => seq p first fun _ => inTurn ps others
  | _, _ => none

/-- Alternatives one after the other, as long as they fail. -/
def oneOf : List (Parser α) → List Invocations → Invocations
  | p :: ps, first :: others => alt p first (oneOf ps others)
  | _, _ => none

/-- The rounds of a repetition, as many as there are characters in the first text and one more. -/
def rounds (p : Parser α) (round : Invocations) : Text → Invocations
  | [] => round
  | _ :: more => seq p round fun _ => rounds p round more

/-- As many rounds as a text allows. -/
def repeated (p : Parser α) (round : Invocations) : Invocations := fun s => rounds p round s s

/-- A value, and then separators with values. -/
def separated (p : Parser α) (item : Invocations) (separator : Parser β) (gap : Invocations) :
    Invocations :=
  seq p item fun _ => repeated (separator.skipThen p) (seq separator gap fun _ => item)

/-- A rule whose calls nest at most so deep, given the runs that its body makes. -/
def nested (body : Parser α → Parser α) (inside : Parser α → Invocations → Invocations) :
    Nat → Invocations
  | 0 => none
  | n + 1 => inside (Parser.nested body n) (nested body inside n)

def fix (body : Parser α → Parser α) (inside : Parser α → Invocations → Invocations) :
    Invocations := fun s => nested body inside (s.length + 1) s

/-- The runs that the bodies of rules make, given the parsers of the rules and the runs that these
make. -/
abbrev OfBodies (ι α : Type) : Type :=
  ι → Option ((ι → Parser α) → (ι → Invocations) → Invocations)

/-- Rules whose calls nest at most so deep. -/
def nestedRules (rules : Rules ι α) (inside : OfBodies ι α) : Nat → ι → Invocations
  | 0, _ => none
  | n + 1, name =>
    match inside name with
    | some body => body (rules.nested n) (nestedRules rules inside n)
    | Option.none => warning

def ofRules (rules : Rules ι α) (inside : OfBodies ι α) (count : Nat) (name : ι) : Invocations :=
  fun s => nestedRules rules inside (count * (s.length + 1) + 1) name s

theorem mem_seq {p : Parser α} {first : Invocations} {next : α → Invocations} {s : Text}
    {tree : SpanTree} :
    tree ∈ seq p first next s ↔ tree ∈ first s ∨ ∃ a r, p.Reads s a r ∧ tree ∈ next a r := by
  rw [seq, List.mem_append]
  refine or_congr Iff.rfl ?_
  simp only [Parser.Reads]
  rcases (p s).outcome with ⟨a, r⟩ | f | _ <;> simp

/-- A traced parser makes no other run on its own. -/
theorem exists_of_mem_span {name : String} {p : Parser α} {inside : Invocations} {s : Text}
    {tree : SpanTree} (h : tree ∈ span name p inside s) :
    ∃ finish, tree = .invocation name s (inside s) finish := by
  rw [span] at h
  split at h
  · exact ⟨_, List.mem_singleton.mp h⟩
  · exact ⟨_, List.mem_singleton.mp h⟩
  · cases h

/-- A sequence that ends with a parser without traced runs. -/
theorem seq_none (p : Parser α) (first : Invocations) : (seq p first fun _ => none) = first := by
  funext s
  rw [seq]
  cases (p s).outcome <;> exact List.append_nil _

/-- An alternative without traced runs. -/
theorem alt_none (p : Parser α) (first : Invocations) : alt p first none = first := by
  funext s
  rw [alt]
  cases (p s).outcome <;> exact List.append_nil _

end Invocations

/-! ## Replies -/

/-- What a run reports, if it ends, is the log of a forest. -/
def Reply.Invokes {α : Type} (reply : Reply α) (trees : List SpanTree) : Prop :=
  reply.outcome ≠ .diverges → reply.events = SpanTree.allEvents trees

namespace Reply.Invokes

variable {α β : Type} {reply : Reply α} {first later : List SpanTree}

theorem success (a : α) (r : Text) : (Reply.success a r).Invokes [] := fun _ => rfl

theorem failure (f : Failure) : (Reply.failure f : Reply α).Invokes [] := fun _ => rfl

theorem diverges (trees : List SpanTree) : (Reply.diverges : Reply α).Invokes trees :=
  fun h => absurd rfl h

/-- A run that goes on makes the runs that it has made before, also if these have failed. -/
theorem either {ok : α → Text → Reply β} {bad : Failure → Reply β} (h : reply.Invokes first)
    (hok : ∀ a r, reply.outcome = .success a r → (ok a r).Invokes later)
    (hbad : ∀ f, reply.outcome = .failure f → (bad f).Invokes later) :
    (reply.either ok bad).Invokes (first ++ later) := by
  intro hends
  have hevents : reply.outcome ≠ .diverges → reply.events = SpanTree.allEvents first := h
  rw [SpanTree.allEvents_append]
  rcases hr : reply.outcome with ⟨a, r⟩ | f | _
  · rw [Reply.either_of_success hr] at hends ⊢
    rw [← hevents (by simp [hr]), ← hok a r hr hends]
    rfl
  · rw [Reply.either_of_failure hr] at hends ⊢
    rw [← hevents (by simp [hr]), ← hbad f hr hends]
    rfl
  · exact absurd (by simp only [Reply.either, hr]) hends

theorem map (h : reply.Invokes first) (f : α → β) : (reply.map f).Invokes first := by
  intro hends
  refine h fun hd => hends ?_
  rw [Reply.map, hd]
  rfl

theorem mapFailure (h : reply.Invokes first) (f : Failure → Failure) :
    (reply.mapFailure f).Invokes first := by
  intro hends
  refine h fun hd => hends ?_
  rw [Reply.mapFailure, hd]
  rfl

end Reply.Invokes

/-! ## Parsers -/

namespace Parser

variable {α β γ ι : Type} {p : Parser α} {q : Parser β} {first later : Invocations}

/-- On every text, the parser makes the traced runs that are given for it, and reports them. -/
def Invokes (p : Parser α) (runs : Invocations) : Prop := ∀ s, (p s).Invokes (runs s)

/-- A body makes the given traced runs, whatever parsers it is given that make theirs. -/
def BodyInvokes (body : (ι → Parser α) → Parser α)
    (runs : (ι → Parser α) → (ι → Invocations) → Invocations) : Prop :=
  ∀ (call : ι → Parser α) (calls : ι → Invocations),
    (∀ other, (call other).Invokes (calls other)) → (body call).Invokes (runs call calls)

namespace Invokes

open Invocations

/-- A silent parser makes no traced run. -/
theorem of_silent (h : p.Composed true) : p.Invokes none := fun s _ => (h s).events_eq_nil

/-! ### Going on -/

theorem next {go : Text → α → Text → Reply β} {after : α → Invocations} (h : p.Invokes first)
    (hgo : ∀ s a r, (go s a r).Invokes (after a r)) :
    Parser.Invokes (fun s => (p s).next (go s)) (seq p first after) := by
  intro s
  show ((p s).next (go s)).Invokes (seq p first after s)
  rw [Reply.next_eq_either, seq]
  refine .either (h s) (fun a r ha => ?_) fun f hf => ?_
  · rw [ha]
    exact hgo s a r
  · rw [hf]
    exact .failure f

theorem recover {go : Text → Failure → Reply α} (h : p.Invokes first)
    (hgo : ∀ s f, (go s f).Invokes (later s)) :
    Parser.Invokes (fun s => (p s).recover (go s)) (alt p first later) := by
  intro s
  show ((p s).recover (go s)).Invokes (alt p first later s)
  rw [Reply.recover_eq_either, alt]
  refine .either (h s) (fun a r ha => ?_) fun f hf => ?_
  · rw [ha]
    exact .success a r
  · rw [hf]
    exact hgo s f

/-! ### Values and sequences -/

theorem map (h : p.Invokes first) (f : α → β) : (p.map f).Invokes first := fun s => (h s).map f

theorem convert (h : p.Invokes first) (f : α → Except String β) : (p.convert f).Invokes first := by
  rw [← seq_none p first]
  refine h.next fun s a r => ?_
  split
  · exact .success _ r
  · exact .failure _

theorem filterExpecting [Inspect α] (h : p.Invokes first) (test : α → Bool)
    (expectation : String) : (p.filterExpecting test expectation).Invokes first := by
  rw [← seq_none p first]
  refine h.next fun s a r => ?_
  split
  · exact .success a r
  · exact .failure _

theorem filter [Inspect α] (h : p.Invokes first) (test : α → Bool) :
    (p.filter test).Invokes first := h.filterExpecting test _

theorem andThen {q : α → Parser β} {after : α → Invocations} (hp : p.Invokes first)
    (hq : ∀ a, (q a).Invokes (after a)) : (p.andThen q).Invokes (seq p first after) :=
  hp.next fun _ a r => hq a r

theorem both (hp : p.Invokes first) (hq : q.Invokes later) :
    (p.both q).Invokes (seq p first fun _ => later) :=
  hp.next fun _ _ r => (hq r).map _

theorem skipThen (hp : p.Invokes first) (hq : q.Invokes later) :
    (p.skipThen q).Invokes (seq p first fun _ => later) :=
  hp.next fun _ _ r => hq r

theorem thenSkip (hp : p.Invokes first) (hq : q.Invokes later) :
    (p.thenSkip q).Invokes (seq p first fun _ => later) :=
  hp.next fun _ _ r => (hq r).map _

theorem bracket {closing : Parser γ} {last : Invocations} (hp : p.Invokes first)
    (hq : q.Invokes later) (hclosing : closing.Invokes last) :
    (Parser.bracket p q closing).Invokes
      (seq p first fun _ => seq q later fun _ => last) := by
  rw [bracket_eq_skipThen]
  exact hp.skipThen (hq.thenSkip hclosing)

theorem sequenceFrom {ps : List (Parser α)} {runs : List Invocations}
    (h : List.Forall₂ Parser.Invokes ps runs) (values : List α) :
    Parser.Invokes (Parser.sequenceFrom ps values []) (inTurn ps runs) := by
  induction h generalizing values with
  | nil => exact fun s => .success values.reverse s
  | cons hp _ ih =>
    rw [funext (sequenceFrom_cons _ _ values)]
    exact hp.next fun _ a r => ih (a :: values) r

theorem sequence {ps : List (Parser α)} {runs : List Invocations}
    (h : List.Forall₂ Parser.Invokes ps runs) : (Parser.sequence ps).Invokes (inTurn ps runs) :=
  sequenceFrom h []

theorem times (n : Nat) (h : p.Invokes first) :
    (Parser.times n p).Invokes (inTurn (List.replicate n p) (List.replicate n first)) := by
  have hall : List.Forall₂ Parser.Invokes (List.replicate n p) (List.replicate n first) := by
    induction n with
    | zero => exact .nil
    | succ n ih => exact .cons h ih
  rw [Parser.times, timesFrom_eq_sequenceFrom]
  exact sequenceFrom hall []

/-- A traced run reports its attempt, what is reported inside, and how it finished. -/
theorem traced (name : String) (h : p.Invokes first) :
    (Parser.traced name p).Invokes (span name p first) := by
  intro s hends
  rw [span]
  rcases hp : (p s).outcome with ⟨a, r⟩ | f | _
  · have hevents := h s (by simp [hp])
    simp [Parser.traced, hp, hevents, SpanTree.allEvents, SpanTree.events, SpanTree.notice]
  · have hevents := h s (by simp [hp])
    simp [Parser.traced, hp, hevents, SpanTree.allEvents, SpanTree.events, SpanTree.notice]
  · exact absurd hp hends

/-! ### Alternatives -/

theorem choice {ps : List (Parser α)} {runs : List Invocations}
    (h : List.Forall₂ Parser.Invokes ps runs) : (Parser.choice ps).Invokes (oneOf ps runs) := by
  suffices hfrom : ∀ failed, Parser.Invokes (Parser.choiceFrom ps failed []) (oneOf ps runs) from
    hfrom Option.none
  induction h with
  | nil => exact fun failed s => .failure _
  | cons hp _ ih =>
    intro failed
    rw [funext (choiceFrom_cons _ _ failed)]
    exact hp.recover fun s f => ih _ s

theorem orElse {q : Parser α} (hp : p.Invokes first) (hq : q.Invokes later) :
    (p.orElse q).Invokes (alt p first later) :=
  hp.recover fun s f => (hq s).mapFailure f.or

theorem optional (h : p.Invokes first) : p.optional.Invokes first := by
  rw [← alt_none (p.map some) first]
  exact (h.map some).recover fun s _ => .success Option.none s

/-! ### Repetition -/

theorem atLeastFrom (h : p.Invokes first) (more : Text) (least : Nat) (values : List α) :
    Parser.Invokes (Parser.atLeastFrom p more least values []) (rounds p first more) := by
  have hstop (least : Nat) (values : List α) (s : Text) (f : Failure) :
      (atLeastStop least values s f).Invokes [] := by
    unfold atLeastStop
    split
    · exact .success _ s
    · exact .failure f
  induction more generalizing least values with
  | nil =>
    intro s
    rw [atLeastFrom_nil, rounds, ← List.append_nil (first s)]
    exact .either (h s) (fun _ _ _ => .diverges _) fun f _ => hstop least values s f
  | cons c more ih =>
    intro s
    rw [atLeastFrom_cons, rounds, seq]
    refine .either (h s) (fun a r ha => ?_) fun f hf => ?_
    · rw [ha]
      exact ih (least - 1) (a :: values) r
    · rw [hf]
      exact hstop least values s f

theorem atLeast (n : Nat) (h : p.Invokes first) : (Parser.atLeast n p).Invokes (repeated p first) :=
  fun s => h.atLeastFrom s n [] s

theorem sepBy1 (hp : p.Invokes first) (hq : q.Invokes later) :
    (Parser.sepBy1 p q).Invokes (separated p first q later) := by
  rw [funext (sepBy1_eq p q)]
  exact hp.next fun _ a r => (hq.skipThen hp).atLeastFrom r 0 [a] r

theorem sepBy (hp : p.Invokes first) (hq : q.Invokes later) :
    (Parser.sepBy p q).Invokes (separated p first q later) := by
  intro s
  rw [sepBy_eq, separated, seq]
  refine .either (hp s) (fun a r ha => ?_) fun f hf => ?_
  · rw [ha]
    exact (hq.skipThen hp).atLeastFrom r 0 [a] r
  · rw [hf]
    exact .success [] s

/-! ### Rules -/

theorem undefinedRule : (Parser.undefinedRule : Parser α).Invokes warning := fun _ _ => rfl

theorem nested {body : Parser α → Parser α} {inside : Parser α → Invocations → Invocations}
    (h : ∀ self runs, self.Invokes runs → (body self).Invokes (inside self runs)) (n : Nat) :
    (Parser.nested body n).Invokes (Invocations.nested body inside n) := by
  induction n with
  | zero => exact fun _ => .diverges _
  | succ n ih => exact h _ _ ih

theorem fix {body : Parser α → Parser α} {inside : Parser α → Invocations → Invocations}
    (h : ∀ self runs, self.Invokes runs → (body self).Invokes (inside self runs)) :
    (Parser.fix body).Invokes (Invocations.fix body inside) :=
  fun s => nested h (s.length + 1) s

/-- Rules make the runs that are given for their bodies. -/
theorem ofRules {rules : Rules ι α} {inside : Invocations.OfBodies ι α}
    (h : ∀ name, Option.Rel BodyInvokes (rules name) (inside name)) (count : Nat) (name : ι) :
    (rules.parser count name).Invokes (Invocations.ofRules rules inside count name) := by
  have hnested (n : Nat) :
      ∀ name, (rules.nested n name).Invokes (nestedRules rules inside n name) := by
    induction n with
    | zero => exact fun _ _ => .diverges _
    | succ n ih =>
      intro name s
      have hname := h name
      rw [Rules.nested, nestedRules]
      generalize rules name = body, inside name = runs at hname ⊢
      cases hname with
      | none => exact undefinedRule s
      | some hbody => exact hbody _ _ ih s
  exact fun s => hnested _ name s

end Invokes
end Parser
end Descent
