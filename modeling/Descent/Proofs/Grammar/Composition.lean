import Descent.Arena.Basic
import Descent.Proofs.Json.Silence

/-!
# Described grammars are composed

Whatever a description of a grammar says, the parser it stands for is composed, provided that the
parsers of the rules in scope are (`Grammar.composed`). The induction is on the description; a rule
that is bound in it goes into the scope of its own body. Rules in arenas are composed whatever their
bodies refer to, since a reference that leads nowhere is a rule without a definition.
-/

namespace Descent

open Descent.Parser

/-! ## Ready-made parsers -/

namespace Version

theorem composed_identifiers {silent : Bool} : preReleaseIdentifiers.Composed silent ∧
    buildIdentifiers.Composed silent := by
  have hnonDigit : nonDigit.Composed silent := (Composed.satisfy _).orElse (.char _)
  have hchar : identifierChar.Composed silent := (Composed.satisfy _).orElse hnonDigit
  have halphanumeric : alphanumericIdentifier.Composed silent :=
    (((Composed.satisfy _).many.both hnonDigit).both hchar.many).map _
  have hnumeric : numericIdentifier.Composed silent :=
    (Composed.literal "0").orElse (((Composed.satisfy _).both (Composed.satisfy _).many).map _)
  have hdigits : (Lexeme.digits.map String.ofList).Composed silent :=
    (Composed.satisfy _).many1.map _
  exact ⟨(halphanumeric.orElse hnumeric).sepBy1 (.char _),
    (halphanumeric.orElse hdigits).sepBy1 (.char _)⟩

theorem composed_core {silent : Bool} : core.Composed silent := by
  have hnumber : coreNumber.Composed silent :=
    ((Composed.literal "0").orElse
      (((Composed.satisfy _).both (Composed.satisfy _).many).map _)).convert _
  exact ((((hnumber.thenSkip (.char _)).both hnumber).thenSkip (.char _)).both hnumber).map _

theorem parser_composed : parser.Composed false := by
  obtain ⟨hpreRelease, hbuild⟩ : preReleaseIdentifiers.Composed false ∧
      buildIdentifiers.Composed false := composed_identifiers
  exact .traced versionName (((composed_core.both ((Composed.char '-').skipThen
    hpreRelease).optional).both ((Composed.char '+').skipThen hbuild).optional).map _)

end Version

theorem Pattern.parser_composed {silent : Bool} (p : Pattern) : p.parser.Composed silent := by
  intro s
  unfold Pattern.parser
  split
  · next n _ => exact .success _ (List.drop_suffix n s)
  · exact .cause (List.suffix_refl s)

theorem LexemeName.parser_composed {silent : Bool} (name : LexemeName) :
    name.parser.Composed silent := by
  have hclass (test : Char → Bool) : (Parser.satisfy test).Composed silent := .satisfy test
  cases name with
  | digit | lower | upper | letter | alphanumeric | whitespace => exact (hclass _).map _
  | word => exact ((hclass _).many.map _).map _
  | natural => exact ((hclass _).many1.convert _).map _
  | integer => exact (((Composed.char _).optional.both (hclass _).many1).convert _).map _

theorem composed_stripParser {silent : Bool} (start : String) (value : Value) :
    (stripParser start value).Composed silent := by
  intro s
  unfold stripParser
  split
  · exact .success value (List.drop_suffix _ s)
  · exact .cause trivial

theorem composed_restParser {silent : Bool} : restParser.Composed silent :=
  fun _ => .success _ List.nil_suffix

theorem composed_failWith {α : Type} {silent : Bool} (message : String) :
    (Parser.failWith (.reported message) : Parser α).Composed silent :=
  fun _ => .cause trivial

/-! ## Scopes -/

namespace Scope

/-- Every name stands for a composed parser. -/
def Composed (scope : Scope) : Prop := ∀ name, (scope name).Composed false

theorem Composed.bind {scope : Scope} (h : scope.Composed) (name : String) {p : Parser Value}
    (hp : p.Composed false) : (scope.bind name p).Composed := by
  intro other
  rw [Scope.bind]
  split
  · exact hp
  · exact h other

theorem Composed.bindSlots {scope : Scope} (h : scope.Composed) (names : List String)
    {slots : Nat → Parser Value} (hslots : ∀ slot, (slots slot).Composed false) :
    (scope.bindSlots names slots).Composed := by
  intro name
  rw [Scope.bindSlots]
  split
  · exact hslots _
  · exact h name

end Scope

/-! ## Descriptions -/

mutual

/-- A description stands for a composed parser. -/
theorem Grammar.composed (g : Grammar) {scope : Scope} (h : scope.Composed) :
    (g.parser scope).Composed false :=
  match g with
  | .succeed value => .succeed value
  | .fail => .fail
  | .item => Composed.item.map _
  | .satisfy _ => (Composed.satisfy _).map _
  | .satisfyExpecting _ expectation => (Composed.satisfyExpecting _ expectation).map _
  | .char c => (Composed.char c).map _
  | .literal word => (Composed.literal word).map _
  | .ending => Composed.ending.map _
  | .rest => composed_restParser
  | .strip start value => composed_stripParser start value
  | .report message => composed_failWith message
  | .map _ p => (p.composed h).map _
  | .convert _ p => (p.composed h).convert _
  | .filter _ p => (p.composed h).filter _
  | .filterExpecting _ expectation p => (p.composed h).filterExpecting _ expectation
  | .andThen next p => (p.composed h).andThen (next.composed h)
  | .both p q => ((p.composed h).both (q.composed h)).map _
  | .skipThen p q => (p.composed h).skipThen (q.composed h)
  | .thenSkip p q => (p.composed h).thenSkip (q.composed h)
  | .bracket opening p closing => (opening.composed h).bracket (p.composed h) (closing.composed h)
  | .sequence parsers => (Composed.sequence (Grammar.composed_parsers parsers h)).map _
  | .spell _ => (Composed.sequence (List.forall_mem_map.mpr fun c _ => .char c)).map _
  | .choice parsers => .choice (Grammar.composed_parsers parsers h)
  | .orElse p q => (p.composed h).orElse (q.composed h)
  | .optional p => (p.composed h).optional.map _
  | .many p => (p.composed h).many.map _
  | .many1 p => (p.composed h).many1.map _
  | .sepBy p separator => ((p.composed h).sepBy (separator.composed h)).map _
  | .sepBy1 p separator => ((p.composed h).sepBy1 (separator.composed h)).map _
  | .traced name p => (p.composed h).traced name
  | .wrapped _ p => p.composed h
  | .rule name => h name
  | .fix name p => .fix fun _ hself => p.composed (h.bind name hself)
  | .rules _ declarations =>
    h.bindSlots _ (Rules.composed (fun _ body hbody call hcall =>
      Declaration.composed_bodies declarations _ h body
        (List.mem_of_getElem? (Option.join_eq_some_iff.mp hbody)) call hcall) _) _
  | .lexeme name => name.parser_composed
  | .pattern p => p.parser_composed.map _
  | .json => Json.parser_composed.map _
  | .version => Version.parser_composed.map _

theorem Grammar.composed_parsers (gs : List Grammar) {scope : Scope} (h : scope.Composed) :
    ∀ p ∈ Grammar.parsers gs scope, p.Composed false :=
  match gs with
  | [] => by simp [Grammar.parsers]
  | g :: others => by
    rw [Grammar.parsers]
    exact List.forall_mem_cons.mpr ⟨g.composed h, Grammar.composed_parsers others h⟩

theorem Continuation.composed (k : Continuation) {scope : Scope} (h : scope.Composed)
    (value : Value) : (k.parser scope value).Composed false :=
  match k with
  | .same | .sameUpper => (Composed.literal _).map _
  | .succeed => .succeed value
  | .fail => .fail
  | .repeated p => ((p.composed h).times _).map _
  | .cases branches otherwise => by
    rw [Continuation.parser]
    split
    · next p hp => exact Branch.composed_of_find? branches h hp
    · exact otherwise.composed h

theorem Branch.composed_of_find? (branches : List Branch) {scope : Scope} (h : scope.Composed)
    {text : Text} {p : Parser Value} (hp : Branch.find? branches scope text = some p) :
    p.Composed false :=
  match branches with
  | [] => by simp [Branch.find?] at hp
  | .mk label g :: others => by
    rw [Branch.find?] at hp
    split at hp
    · cases hp
      exact g.composed h
    · exact Branch.composed_of_find? others h hp

theorem Declaration.composed_bodies (declarations : List Declaration) (names : List String)
    {scope : Scope} (h : scope.Composed) :
    ∀ body, some body ∈ Declaration.bodies declarations names scope →
      ∀ slots : Nat → Parser Value, (∀ slot, (slots slot).Composed false) →
        (body slots).Composed false :=
  match declarations with
  | [] => by simp [Declaration.bodies]
  | .undefined _ :: others => by
    simp only [Declaration.bodies, List.mem_cons, reduceCtorEq, false_or]
    exact Declaration.composed_bodies others names h
  | .defined _ g :: others => by
    intro body hbody slots hslots
    simp only [Declaration.bodies, List.mem_cons, Option.some.injEq] at hbody
    rcases hbody with rfl | hbody
    · exact g.composed (h.bindSlots names hslots)
    · exact Declaration.composed_bodies others names h body hbody slots hslots

end

/-! ## Rules in arenas -/

/-- The rule of a handle is composed, whatever the arenas hold. -/
theorem Store.parser_composed (s : Store) (handle : Handle) :
    (s.parser handle).Composed false := by
  refine Rules.composed (fun _ body hbody call hcall => ?_) _ handle
  obtain ⟨b, -, rfl⟩ := Option.map_eq_some_iff.mp hbody
  refine b.grammar.composed fun name => ?_
  rw [bodyScope]
  split
  · exact hcall _
  · exact .undefinedRule

end Descent
