import Descent.Proofs.Grammar.Completion
import Descent.Proofs.Parser.Invocations
import Mathlib.Data.List.Forall2

/-!
# The forest of a description

What traced runs a described parser makes on a text can be told from its description: a name for a
span is a tree, and every other part of a description puts the trees of its parts together
(`Description.invocations`). How the runs of the parts end decides which of them come next, and
nothing else is taken from them. The parser reports just these trees (`Description.invokes`).
-/

namespace Descent

open Descent.Parser

/-! ## Ready-made parsers -/

namespace Json

open Invocations

/-- The values of an array, one after the other. -/
def arrayInvocations (p : Parser Json) (inside : Invocations) : Invocations :=
  seq (symbol '[') none fun _ => separated p inside (symbol ',') none

/-- The values of an object, each behind its key. -/
def objectInvocations (p : Parser Json) (inside : Invocations) : Invocations :=
  seq (symbol '\x7b') none fun _ =>
    separated (member p) (seq ((token stringLiteral).thenSkip (symbol ':')) none fun _ => inside)
      (symbol ',') none

/-- The alternatives for a value. Only the first two have values inside. -/
def alternativeInvocations (p : Parser Json) (inside : Invocations) : Invocations :=
  oneOf (objectOf p :: arrayOf p :: scalars)
    (objectInvocations p inside :: arrayInvocations p inside :: scalars.map fun _ => none)

/-- A value is one traced run, around those of the values inside. -/
def valueInvocations (p : Parser Json) (inside : Invocations) : Invocations :=
  span valueName (choice (objectOf p :: arrayOf p :: scalars)) (alternativeInvocations p inside)

/-- The traced runs of the JSON grammar. -/
def invocations : Invocations :=
  seq blanks none fun _ => seq depthLimit none fun _ => fix valueBody valueInvocations

theorem invokes_separated {α : Type} {p : Parser α} {inside : Invocations} (opening closing : Char)
    (h : p.Invokes inside) :
    (bracket (symbol opening) (p.sepBy (symbol ',')) (symbol closing)).Invokes
      (seq (symbol opening) none fun _ => separated p inside (symbol ',') none) := by
  have hsymbol (c : Char) : (symbol c).Invokes none := .of_silent (composed_symbol c)
  have hlist := (hsymbol opening).bracket (h.sepBy (hsymbol ',')) (hsymbol closing)
  rwa [seq_none] at hlist

theorem invokes_alternatives {p : Parser Json} {inside : Invocations} (h : p.Invokes inside) :
    (choice (objectOf p :: arrayOf p :: scalars)).Invokes (alternativeInvocations p inside) := by
  have hkey : ((token stringLiteral).thenSkip (symbol ':')).Invokes none :=
    .of_silent composed_memberKey
  have hobject : (objectOf p).Invokes (objectInvocations p inside) :=
    (invokes_separated '\x7b' '\x7d' (hkey.both h)).map _
  have harray : (arrayOf p).Invokes (arrayInvocations p inside) :=
    (invokes_separated '[' ']' h).map _
  have hscalars : List.Forall₂ Parser.Invokes scalars (scalars.map fun _ => none) :=
    List.forall₂_map_right_iff.mpr (List.forall₂_same.mpr fun q hq =>
      .of_silent (composed_scalars q hq))
  exact .choice (.cons hobject (.cons harray hscalars))

theorem invokes_valueBody {p : Parser Json} {inside : Invocations} (h : p.Invokes inside) :
    (valueBody p).Invokes (valueInvocations p inside) := by
  rw [valueBody_eq]
  exact (invokes_alternatives h).traced valueName

theorem invokes_nested (n : Nat) :
    (nested valueBody n).Invokes (Invocations.nested valueBody valueInvocations n) :=
  .nested (fun _ _ => invokes_valueBody) n

/-- The JSON grammar makes a traced run for each value that it tries. -/
theorem parser_invokes : parser.Invokes invocations :=
  (Invokes.of_silent composed_blanks).skipThen
    ((Invokes.of_silent composed_depthLimit).skipThen (.fix fun _ _ => invokes_valueBody))

end Json

namespace Version

/-- The version grammar is one traced run. -/
def invocations : Invocations := Invocations.span versionName parser Invocations.none

theorem parser_invokes : parser.Invokes invocations := by
  obtain ⟨hpreRelease, hbuild⟩ : preReleaseIdentifiers.Composed true ∧
      buildIdentifiers.Composed true := composed_identifiers
  exact .traced versionName (.of_silent (((composed_core.both ((Composed.char '-').skipThen
    hpreRelease).optional).both ((Composed.char '+').skipThen hbuild).optional).map _))

end Version

/-! ## Names -/

/-- The traced runs of the parsers that names stand for. -/
abbrev Calls : Type := String → Invocations

namespace Calls

def bind (calls : Calls) (name : String) (runs : Invocations) : Calls :=
  fun other => if other == name then runs else calls other

/-- Give the names of a list to the runs of the slots of the same order. -/
def bindSlots (calls : Calls) (names : List String) (slots : Nat → Invocations) : Calls :=
  fun name =>
    match names.idxOf? name with
    | some slot => slots slot
    | none => calls name

/-- What the names in the body of a rule in an arena call, given the runs of handles. -/
def ofHandles (handles : List (String × Handle)) (runs : Handle → Invocations) : Calls :=
  fun name =>
    match handles.lookup name with
    | some h => runs h
    | none => Invocations.warning

end Calls

/-- Every name stands for a parser that makes the traced runs that are given for the name. -/
def Scope.Invokes (scope : Scope) (calls : Calls) : Prop :=
  ∀ name, (scope name).Invokes (calls name)

namespace Scope.Invokes

variable {scope : Scope} {calls : Calls}

theorem bind (h : scope.Invokes calls) (name : String) {p : Parser Value} {runs : Invocations}
    (hp : p.Invokes runs) : (scope.bind name p).Invokes (calls.bind name runs) := by
  intro other
  rw [Scope.bind, Calls.bind]
  split
  · exact hp
  · exact h other

theorem bindSlots (h : scope.Invokes calls) (names : List String) {slots : Nat → Parser Value}
    {runs : Nat → Invocations} (hslots : ∀ slot, (slots slot).Invokes (runs slot)) :
    (scope.bindSlots names slots).Invokes (calls.bindSlots names runs) := by
  intro name
  rw [Scope.bindSlots, Calls.bindSlots]
  cases names.idxOf? name with
  | some slot => exact hslots slot
  | none => exact h name

theorem ofHandles {call : Handle → Parser Value} {runs : Handle → Invocations}
    (h : ∀ g, (call g).Invokes (runs g)) (handles : List (String × Handle)) :
    Scope.Invokes (Store.bodyScope handles call) (.ofHandles handles runs) := by
  intro name
  rw [Store.bodyScope, Calls.ofHandles]
  cases handles.lookup name with
  | some g => exact h g
  | none => exact .undefinedRule

end Scope.Invokes

/-! ## Descriptions of grammars -/

section
open Invocations

mutual

/-- The traced runs that the parser of a description makes, given those of the names in scope. -/
def Grammar.invocations (g : Grammar) (scope : Scope) (calls : Calls) : Invocations :=
  match g with
  | .succeed _ | .fail | .item | .satisfy _ | .satisfyExpecting _ _ | .char _ | .literal _
  | .ending | .rest | .strip _ _ | .report _ | .spell _ | .lexeme _ | .pattern _ => none
  | .map _ p | .convert _ p | .filter _ p | .filterExpecting _ _ p | .optional p | .wrapped _ p =>
    p.invocations scope calls
  | .andThen next p =>
    seq (p.parser scope) (p.invocations scope calls) fun value => next.invocations scope calls value
  | .both p q | .skipThen p q | .thenSkip p q =>
    seq (p.parser scope) (p.invocations scope calls) fun _ => q.invocations scope calls
  | .bracket opening p closing =>
    seq (opening.parser scope) (opening.invocations scope calls) fun _ =>
      seq (p.parser scope) (p.invocations scope calls) fun _ => closing.invocations scope calls
  | .sequence parsers =>
    inTurn (Grammar.parsers parsers scope) (Grammar.allInvocations parsers scope calls)
  | .choice parsers =>
    oneOf (Grammar.parsers parsers scope) (Grammar.allInvocations parsers scope calls)
  | .orElse p q => alt (p.parser scope) (p.invocations scope calls) (q.invocations scope calls)
  | .many p | .many1 p => repeated (p.parser scope) (p.invocations scope calls)
  | .sepBy p separator | .sepBy1 p separator =>
    separated (p.parser scope) (p.invocations scope calls) (separator.parser scope)
      (separator.invocations scope calls)
  | .traced name p => span name (p.parser scope) (p.invocations scope calls)
  | .rule name => calls name
  | .fix name p =>
    Invocations.fix (fun self => p.parser (scope.bind name self)) fun self runs =>
      p.invocations (scope.bind name self) (calls.bind name runs)
  | .rules start declarations =>
    let names := declarations.map Declaration.name
    let bodies := Declaration.bodies declarations names scope
    let inside := Declaration.invocations declarations names scope calls
    calls.bindSlots names
      (ofRules (fun slot => bodies[slot]?.join) (fun slot => inside[slot]?.join) names.length) start
  | .json => Json.invocations
  | .version => Version.invocations

def Grammar.allInvocations (gs : List Grammar) (scope : Scope) (calls : Calls) :
    List Invocations :=
  match gs with
  | [] => []
  | g :: others => g.invocations scope calls :: Grammar.allInvocations others scope calls

/-- The traced runs of the parser that a continuation chooses for a value. -/
def Continuation.invocations (k : Continuation) (scope : Scope) (calls : Calls) (value : Value) :
    Invocations :=
  match k with
  | .same | .sameUpper | .succeed | .fail => none
  | .repeated p =>
    inTurn (List.replicate value.count (p.parser scope))
      (List.replicate value.count (p.invocations scope calls))
  | .cases branches otherwise =>
    match Branch.invocations? branches scope calls value.text with
    | some runs => runs
    | Option.none => otherwise.invocations scope calls

/-- Those of the first branch for a text. -/
def Branch.invocations? (branches : List Branch) (scope : Scope) (calls : Calls) (text : Text) :
    Option Invocations :=
  match branches with
  | [] => Option.none
  | .mk label p :: others =>
    if label == text then some (p.invocations scope calls)
    else Branch.invocations? others scope calls text

/-- The traced runs of the bodies of rules, in which the given names stand for slots. -/
def Declaration.invocations (declarations : List Declaration) (names : List String) (scope : Scope)
    (calls : Calls) : List (Option ((Nat → Parser Value) → (Nat → Invocations) → Invocations)) :=
  match declarations with
  | [] => []
  | .undefined _ :: others => Option.none :: Declaration.invocations others names scope calls
  | .defined _ body :: others =>
    some (fun slots runs =>
      body.invocations (scope.bindSlots names slots) (calls.bindSlots names runs)) ::
        Declaration.invocations others names scope calls

end

end

/-- Lists whose items correspond have items that correspond in each place, or none in both. -/
theorem rel_join_getElem? {α β : Type} {r : α → β → Prop} {as : List (Option α)}
    {bs : List (Option β)} (h : List.Forall₂ (Option.Rel r) as bs) (i : Nat) :
    Option.Rel r as[i]?.join bs[i]?.join := by
  induction h generalizing i with
  | nil => exact .none
  | cons hab _ ih =>
    cases i with
    | zero => simpa using hab
    | succ i => simpa using ih i

mutual

/-- The parser of a description makes the traced runs that are told from the description. -/
theorem Grammar.invokes (g : Grammar) {scope : Scope} {calls : Calls} (h : scope.Invokes calls) :
    (g.parser scope).Invokes (g.invocations scope calls) :=
  match g with
  | .succeed value => .of_silent (.succeed value)
  | .fail => .of_silent .fail
  | .item => .of_silent (Composed.item.map _)
  | .satisfy _ => .of_silent ((Composed.satisfy _).map _)
  | .satisfyExpecting _ expectation => .of_silent ((Composed.satisfyExpecting _ expectation).map _)
  | .char c => .of_silent ((Composed.char c).map _)
  | .literal word => .of_silent ((Composed.literal word).map _)
  | .ending => .of_silent (Composed.ending.map _)
  | .rest => .of_silent composed_restParser
  | .strip start value => .of_silent (composed_stripParser start value)
  | .report message => .of_silent (composed_failWith message)
  | .spell _ =>
    .of_silent ((Composed.sequence (List.forall_mem_map.mpr fun c _ => Composed.char c)).map _)
  | .lexeme name => .of_silent name.parser_composed
  | .pattern p => .of_silent (p.parser_composed.map _)
  | .map _ p => (p.invokes h).map _
  | .convert _ p => (p.invokes h).convert _
  | .filter _ p => (p.invokes h).filter _
  | .filterExpecting _ expectation p => (p.invokes h).filterExpecting _ expectation
  | .andThen next p => (p.invokes h).andThen (next.invokes h)
  | .both p q => ((p.invokes h).both (q.invokes h)).map _
  | .skipThen p q => (p.invokes h).skipThen (q.invokes h)
  | .thenSkip p q => (p.invokes h).thenSkip (q.invokes h)
  | .bracket opening p closing => (opening.invokes h).bracket (p.invokes h) (closing.invokes h)
  | .sequence parsers => (Invokes.sequence (Grammar.all_invoke parsers h)).map _
  | .choice parsers => .choice (Grammar.all_invoke parsers h)
  | .orElse p q => (p.invokes h).orElse (q.invokes h)
  | .optional p => (p.invokes h).optional.map _
  | .many p => ((p.invokes h).atLeast 0).map _
  | .many1 p => ((p.invokes h).atLeast 1).map _
  | .sepBy p separator => ((p.invokes h).sepBy (separator.invokes h)).map _
  | .sepBy1 p separator => ((p.invokes h).sepBy1 (separator.invokes h)).map _
  | .traced name p => (p.invokes h).traced name
  | .wrapped _ p => p.invokes h
  | .rule name => h name
  | .fix name p => .fix fun _ _ hself => p.invokes (h.bind name hself)
  | .rules start declarations =>
    h.bindSlots _ (Invokes.ofRules (fun slot =>
      rel_join_getElem? (Declaration.invoke declarations _ h) slot) _) start
  | .json => Json.parser_invokes.map _
  | .version => Version.parser_invokes.map _

theorem Grammar.all_invoke (gs : List Grammar) {scope : Scope} {calls : Calls}
    (h : scope.Invokes calls) :
    List.Forall₂ Parser.Invokes (Grammar.parsers gs scope)
      (Grammar.allInvocations gs scope calls) :=
  match gs with
  | [] => .nil
  | g :: others => .cons (g.invokes h) (Grammar.all_invoke others h)

theorem Continuation.invokes (k : Continuation) {scope : Scope} {calls : Calls}
    (h : scope.Invokes calls) (value : Value) :
    (k.parser scope value).Invokes (k.invocations scope calls value) :=
  match k with
  | .same | .sameUpper => .of_silent ((Composed.literal _).map _)
  | .succeed => .of_silent (.succeed value)
  | .fail => .of_silent .fail
  | .repeated p => ((p.invokes h).times _).map _
  | .cases branches otherwise => by
    have hbranch := Branch.invoke? branches h value.text
    rw [Continuation.parser, Continuation.invocations]
    generalize Branch.find? branches scope value.text = p,
      Branch.invocations? branches scope calls value.text = runs at hbranch ⊢
    cases hbranch with
    | none => exact otherwise.invokes h
    | some hp => exact hp

theorem Branch.invoke? (branches : List Branch) {scope : Scope} {calls : Calls}
    (h : scope.Invokes calls) (text : Text) :
    Option.Rel Parser.Invokes (Branch.find? branches scope text)
      (Branch.invocations? branches scope calls text) :=
  match branches with
  | [] => .none
  | .mk label g :: others => by
    rw [Branch.find?, Branch.invocations?]
    split
    · exact .some (g.invokes h)
    · exact Branch.invoke? others h text

theorem Declaration.invoke (declarations : List Declaration) (names : List String) {scope : Scope}
    {calls : Calls} (h : scope.Invokes calls) :
    List.Forall₂ (Option.Rel BodyInvokes) (Declaration.bodies declarations names scope)
      (Declaration.invocations declarations names scope calls) :=
  match declarations with
  | [] => .nil
  | .undefined _ :: others => .cons .none (Declaration.invoke others names h)
  | .defined _ g :: others =>
    .cons (.some fun _ _ hslots => g.invokes (h.bindSlots names hslots))
      (Declaration.invoke others names h)

end

/-! ## Rules in arenas -/

namespace Store

/-- The traced runs of the rule of a handle. -/
def invocations (s : Store) (handle : Handle) : Invocations :=
  Invocations.ofRules s.rules (fun h => (s.body? h).map fun body call runs =>
    body.grammar.invocations (bodyScope body.handles call) (.ofHandles body.handles runs))
    s.ruleCount handle

theorem parser_invokes (s : Store) (handle : Handle) :
    (s.parser handle).Invokes (s.invocations handle) := by
  refine Invokes.ofRules (fun h => ?_) _ handle
  rw [rules]
  cases s.body? h with
  | none => exact .none
  | some body => exact .some fun _ _ hcall => body.grammar.invokes (.ofHandles hcall body.handles)

end Store

/-! ## Descriptions of parsers -/

/-- A way to describe a parser: as a rule without a definition, as the rule of a handle in some
arenas, or by a description of a grammar among names that are described in turn. -/
inductive Description where
  | undefinedRule
  | rule (s : Store) (handle : Handle)
  | grammar (g : Grammar) (scope : String → Description)

namespace Description

/-- A description of a grammar of its own, without names for other parsers. -/
def closed (g : Grammar) : Description := grammar g fun _ => undefinedRule

/-- The parser that is described. -/
def parser : Description → Parser Value
  | undefinedRule => Parser.undefinedRule
  | rule s handle => s.parser handle
  | grammar g scope => g.parser fun name => (scope name).parser

/-- The traced runs that it makes on a text, in the order in which they are made. -/
def invocations : Description → Invocations
  | undefinedRule => Invocations.warning
  | rule s handle => s.invocations handle
  | grammar g scope =>
    g.invocations (fun name => (scope name).parser) fun name => (scope name).invocations

/-- The parsers that are described are those that there are ways to describe. -/
theorem described_iff {p : Parser Value} : p.Described ↔ ∃ d : Description, d.parser = p := by
  constructor
  · intro h
    induction h with
    | undefinedRule => exact ⟨undefinedRule, rfl⟩
    | rule s handle => exact ⟨rule s handle, rfl⟩
    | grammar g _ ih =>
      choose scope hscope using ih
      exact ⟨grammar g scope, congrArg g.parser (funext hscope)⟩
  · rintro ⟨d, rfl⟩
    induction d with
    | undefinedRule => exact .undefinedRule
    | rule s handle => exact .rule s handle
    | grammar g _ ih => exact .grammar g ih

/-- A described parser makes the traced runs that are told from its description. -/
theorem invokes (d : Description) : d.parser.Invokes d.invocations := by
  induction d with
  | undefinedRule => exact .undefinedRule
  | rule s handle => exact s.parser_invokes handle
  | grammar g _ ih => exact g.invokes ih

end Description
end Descent
