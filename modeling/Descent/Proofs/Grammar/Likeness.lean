import Descent.Proofs.Grammar.Composition
import Descent.Proofs.Grammar.Titles

/-!
# Descriptions that differ in their titles

Whatever kind of likeness there is between the spans of two ways to give titles, there is between
the parsers that one description stands for under these titles, and among names of parsers that are
alike (`Grammar.parsers_alike`). The induction is on the description, and each case is one of a
combinator. The ready-made grammars have titles of their own, which are never changed.
-/

namespace Descent

namespace Likeness

variable (R : Likeness)

/-- Two ways to give titles are alike: so are the titles for each name, and those of the ready-made
grammars go together with themselves. Failures may show any value, and the limit of nesting. -/
structure Retitles (a b : String → Option String) : Prop where
  titles (name : String) : R.Titles (a name) (b name)
  json : R.Titles (some Json.valueName) (some Json.valueName)
  version : R.Titles (some Version.versionName) (some Version.versionName)
  value (v : Value) : R.forms (inspect v)
  code (n : Nat) : R.forms (inspect n)
  limit : R.limits Json.maxDepth

end Likeness

open Likeness

/-! ## Ready-made parsers -/

section ReadyMade

variable {R : Likeness}

theorem words_of_convertNumeral (hwords : ∀ w ∈ NumeralError.wordings, R.words w)
    {range : IntRange} {digits : Text} {α : Type} {f : Int → α} {e : String}
    (h : (Lexeme.convertNumeral range digits).map f = .error e) : R.words (.reason e) := by
  unfold Lexeme.convertNumeral at h
  cases hread : Numeral.read range digits with
  | ok n =>
    rw [hread] at h
    cases h
  | error error =>
    rw [hread] at h
    cases h
    exact hwords _ error.mem_wordings

theorem Conversion.words_of_apply {f : Conversion} (hwords : ∀ w ∈ f.wordings, R.words w)
    (v : Value) (e : String) (h : f.apply v = .error e) : R.words (.reason e) := by
  cases f with
  | unsigned | signed => exact words_of_convertNumeral hwords h
  | reject reason =>
    cases h
    exact hwords _ (List.mem_singleton_self _)

theorem Pattern.parsers_alike (p : Pattern) (hwords : R.words (.pattern p.source)) :
    R.Parsers p.parser p.parser := by
  intro s hs
  unfold Pattern.parser
  split
  · next n _ => exact .success _ (List.drop_suffix n s)
  · exact .cause ⟨hs, hwords⟩

theorem LexemeName.parsers_alike (name : LexemeName)
    (hwords : ∀ w ∈ NumeralError.wordings, R.words w) : R.Parsers name.parser name.parser := by
  have hclass (test : Char → Bool) : R.Parsers (Parser.satisfy test) (Parser.satisfy test) :=
    .satisfy test
  cases name with
  | digit | lower | upper | letter | alphanumeric | whitespace => exact (hclass _).map _
  | word => exact ((hclass _).many.map _).map _
  | natural =>
    exact ((hclass _).many1.convert fun _ _ h => words_of_convertNumeral hwords h).map _
  | integer =>
    exact (((Parsers.char _).optional.both (hclass _).many1).convert
      fun _ _ h => words_of_convertNumeral hwords h).map _

theorem parsers_alike_stripParser (start : String) (value : Value)
    (hwords : R.words (.message (expectedMessage start))) :
    R.Parsers (stripParser start value) (stripParser start value) := by
  intro s hs
  unfold stripParser
  split
  · exact .success value (List.drop_suffix _ s)
  · exact .cause hwords

theorem parsers_alike_restParser : R.Parsers restParser restParser :=
  fun _ _ => .success _ List.nil_suffix

theorem parsers_alike_failWith {α : Type} {message : String} (hwords : R.words (.message message)) :
    R.Parsers (Parser.failWith (.reported message) : Parser α)
      (Parser.failWith (.reported message)) :=
  fun _ _ => .cause hwords

theorem Version.parsers_alike (htitle : R.Titles (some versionName) (some versionName))
    (hwords : ∀ w ∈ NumeralError.wordings, R.words w) : R.Parsers parser parser := by
  have hclass (test : Char → Bool) : R.Parsers (Parser.satisfy test) (Parser.satisfy test) :=
    .satisfy test
  have hchar (c : Char) : R.Parsers (Parser.char c) (Parser.char c) := .char c
  have hnonDigit : R.Parsers nonDigit nonDigit := (hclass _).orElse (hchar _)
  have hidentifierChar : R.Parsers identifierChar identifierChar := (hclass _).orElse hnonDigit
  have hnumeric : R.Parsers numericIdentifier numericIdentifier :=
    (Parsers.literal "0").orElse (((hclass _).both (hclass _).many).map _)
  have halphanumeric : R.Parsers alphanumericIdentifier alphanumericIdentifier :=
    (((hclass _).many.both hnonDigit).both hidentifierChar.many).map _
  have hpreRelease : R.Parsers preReleaseIdentifiers preReleaseIdentifiers :=
    (halphanumeric.orElse hnumeric).sepBy1 (hchar _)
  have hbuild : R.Parsers buildIdentifiers buildIdentifiers :=
    (halphanumeric.orElse ((hclass _).many1.map _)).sepBy1 (hchar _)
  have hnumber : R.Parsers coreNumber coreNumber :=
    hnumeric.convert fun _ _ h => words_of_convertNumeral hwords h
  have hcore : R.Parsers core core :=
    ((((hnumber.thenSkip (hchar _)).both hnumber).thenSkip (hchar _)).both hnumber).map _
  exact (((hcore.both ((hchar '-').skipThen hpreRelease).optional).both
    ((hchar '+').skipThen hbuild).optional).map _).titled htitle

end ReadyMade

namespace Json

/-- Failures may use the words of the JSON grammar, and show any code. -/
structure Worded (R : Likeness) : Prop where
  wordings : ∀ w ∈ wordings, R.words w
  code (n : Nat) : R.forms (inspect n)
  limit : R.limits maxDepth

variable {R : Likeness}

theorem blanks_alike : R.Parsers blanks blanks := (Parsers.satisfy _).many.map _

theorem token_alike {α : Type} {p p' : Parser α} (h : R.Parsers p p') :
    R.Parsers (token p) (token p') := h.thenSkip blanks_alike

theorem symbol_alike (c : Char) : R.Parsers (symbol c) (symbol c) := token_alike (.char c)

theorem keyword_alike (word : String) (v : Json) : R.Parsers (keyword word v) (keyword word v) :=
  (token_alike (.literal word)).map _

theorem unicodeEscape_alike (hwords : Worded R) :
    R.Parsers unicodeEscape unicodeEscape := by
  have hcode : R.Parsers hexQuadCode hexQuadCode := ((Parsers.satisfy _).times 4).map _
  have hlow : R.Parsers lowSurrogate lowSurrogate :=
    (Parsers.literal _).skipThen
      (hcode.filterExpecting _ (hwords.wordings _ (by simp [wordings])) hwords.code)
  refine (((Parsers.char 'u').skipThen hcode).both hlow.optional).convert fun (high, low) e h => ?_
  have hcodes (code : Nat) (e : String) (h : decodeUnits.ofCode code = .error e) :
      R.words (.reason e) := by
    unfold decodeUnits.ofCode at h
    split at h
    · cases h
    · cases h
      exact hwords.wordings _ (by simp [wordings])
  cases low with
  | none => exact hcodes high e h
  | some low =>
    dsimp only [decodeUnits] at h
    split at h
    · exact hcodes _ e h
    · cases h
      exact hwords.wordings _ (by simp [wordings])

theorem stringLiteral_alike (hwords : Worded R) :
    R.Parsers stringLiteral stringLiteral := by
  have hchar (c : Char) : R.Parsers (Parser.char c) (Parser.char c) := .char c
  have hescape : R.Parsers escape escape :=
    (hchar '\\').skipThen (.choice (.cons (hchar _) (.cons (hchar _) (.cons (hchar _)
      (.cons ((hchar _).map _) (.cons ((hchar _).map _) (.cons ((hchar _).map _)
        (.cons ((hchar _).map _) (.cons ((hchar _).map _)
          (.cons (unicodeEscape_alike hwords) .nil))))))))))
  have hstringChar := Parsers.choice (.cons (Parsers.satisfy isUnescaped) (.cons hescape .nil))
  exact ((hchar _).bracket hstringChar.many (hchar _)).map _

theorem numeral_alike (hwords : Worded R) : R.Parsers numeral numeral := by
  have hchar (c : Char) : R.Parsers (Parser.char c) (Parser.char c) := .char c
  have hclass (test : Char → Bool) : R.Parsers (Parser.satisfy test) (Parser.satisfy test) :=
    .satisfy test
  have hdigits : R.Parsers Lexeme.digits Lexeme.digits := (hclass _).many1
  have hwhole : R.Parsers wholeDigits wholeDigits :=
    ((Parsers.literal "0").map _).orElse (((hclass _).both (hclass _).many).map _)
  have hfraction : R.Parsers fractionDigits fractionDigits := (hchar '.').skipThen hdigits
  have hsign := Parsers.choice (.cons (hchar '+') (.cons (hchar '-') .nil))
  have hexponent : R.Parsers exponentDigits exponentDigits :=
    ((hclass _).skipThen hsign.optional).both hdigits
  refine ((((hchar '-').optional.both hwhole).both hfraction.optional).both
    hexponent.optional).convert fun (((sign, whole), fraction), exponent) e h => ?_
  dsimp only [convertNumber] at h
  split at h
  · split at h
    · cases h
    · cases h
      exact hwords.wordings _ (by simp [wordings])
  · cases h
    exact hwords.wordings _ (by simp [wordings])

theorem depthLimit_alike (hwords : Worded R) : R.Parsers depthLimit depthLimit := by
  intro s hs
  unfold depthLimit
  split
  · exact .success () (List.suffix_refl s)
  · exact .cause ⟨hs, hwords.limit⟩

theorem valueBody_alike (htitle : R.Titles (some valueName) (some valueName))
    (hwords : Worded R) {p p' : Parser Json} (h : R.Parsers p p') :
    R.Parsers (valueBody p) (valueBody p') := by
  have hstring := token_alike (stringLiteral_alike hwords)
  have hmember : R.Parsers (member p) (member p') := (hstring.thenSkip (symbol_alike _)).both h
  have harray : R.Parsers (arrayOf p) (arrayOf p') :=
    ((symbol_alike _).bracket (h.sepBy (symbol_alike _)) (symbol_alike _)).map _
  have hobject : R.Parsers (objectOf p) (objectOf p') :=
    ((symbol_alike _).bracket (hmember.sepBy (symbol_alike _)) (symbol_alike _)).map _
  exact (Parsers.choice (.cons hobject (.cons harray (.cons (hstring.map _)
    (.cons ((token_alike (numeral_alike hwords)).map _) (.cons (keyword_alike _ _)
      (.cons (keyword_alike _ _) (.cons (keyword_alike _ _) .nil)))))))).titled htitle

theorem parsers_alike (htitle : R.Titles (some valueName) (some valueName))
    (hwords : Worded R) : R.Parsers parser parser :=
  blanks_alike.skipThen ((depthLimit_alike hwords).skipThen
    (.fix fun _ _ => valueBody_alike htitle hwords))

end Json

/-! ## Scopes -/

namespace Likeness

variable {R : Likeness}

/-- Every name stands for parsers that are alike. -/
def Scopes (R : Likeness) (scope scope' : Scope) : Prop :=
  ∀ name, R.Parsers (scope name) (scope' name)

theorem Scopes.bind {scope scope' : Scope} (h : R.Scopes scope scope') (name : String)
    {p p' : Parser Value} (hp : R.Parsers p p') :
    R.Scopes (scope.bind name p) (scope'.bind name p') := by
  intro other
  rw [Scope.bind, Scope.bind]
  split
  · exact hp
  · exact h other

theorem Scopes.bindSlots {scope scope' : Scope} (h : R.Scopes scope scope') (names : List String)
    {slots slots' : Nat → Parser Value} (hslots : ∀ slot, R.Parsers (slots slot) (slots' slot)) :
    R.Scopes (scope.bindSlots names slots) (scope'.bindSlots names slots') := by
  intro name
  rw [Scope.bindSlots, Scope.bindSlots]
  split
  · exact hslots _
  · exact h name

end Likeness

/-! ## Descriptions -/

variable {R : Likeness} {a b : String → Option String}

mutual

/-- One description under titles that are alike. -/
theorem Grammar.parsers_alike (g : Grammar) (h : R.Retitles a b)
    (hwords : ∀ w ∈ g.wordings, R.words w) {scope scope' : Scope} (hscope : R.Scopes scope scope') :
    R.Parsers ((g.retitle a).parser scope) ((g.retitle b).parser scope') :=
  match g with
  | .succeed value => .succeed value
  | .fail => .fail
  | .item => Parsers.item.map _
  | .satisfy _ => (Parsers.satisfy _).map _
  | .satisfyExpecting _ _ =>
    (Parsers.satisfyExpecting _ (hwords _ (List.mem_singleton_self _)) fun c =>
      h.value (.char c)).map _
  | .char c => (Parsers.char c).map _
  | .literal word => (Parsers.literal word).map _
  | .ending => Parsers.ending.map _
  | .rest => parsers_alike_restParser
  | .strip start value =>
    parsers_alike_stripParser start value (hwords _ (List.mem_singleton_self _))
  | .report _ => parsers_alike_failWith (hwords _ (List.mem_singleton_self _))
  | .map _ p => (p.parsers_alike h hwords hscope).map _
  | .convert _ p =>
    have hparts := List.forall_mem_append.mp hwords
    (p.parsers_alike h hparts.2 hscope).convert (Conversion.words_of_apply hparts.1)
  | .filter _ p | .filterExpecting _ _ p =>
    have hparts := List.forall_mem_cons.mp hwords
    (p.parsers_alike h hparts.2 hscope).filterExpecting _ hparts.1 h.value
  | .andThen next p =>
    have hparts := List.forall_mem_append.mp hwords
    (p.parsers_alike h hparts.2 hscope).andThen (next.parsers_alike h hparts.1 hscope)
  | .both p q =>
    have hparts := List.forall_mem_append.mp hwords
    ((p.parsers_alike h hparts.1 hscope).both (q.parsers_alike h hparts.2 hscope)).map _
  | .skipThen p q =>
    have hparts := List.forall_mem_append.mp hwords
    (p.parsers_alike h hparts.1 hscope).skipThen (q.parsers_alike h hparts.2 hscope)
  | .thenSkip p q =>
    have hparts := List.forall_mem_append.mp hwords
    (p.parsers_alike h hparts.1 hscope).thenSkip (q.parsers_alike h hparts.2 hscope)
  | .bracket opening p closing =>
    have hparts := List.forall_mem_append.mp hwords
    have hlater := List.forall_mem_append.mp hparts.2
    (opening.parsers_alike h hparts.1 hscope).bracket (p.parsers_alike h hlater.1 hscope)
      (closing.parsers_alike h hlater.2 hscope)
  | .sequence parsers => (Parsers.sequence (Grammar.all_alike parsers h hwords hscope)).map _
  | .spell chars =>
    have hchars : List.Forall₂ R.Parsers (chars.map Parser.char) (chars.map Parser.char) :=
      List.forall₂_same.mpr (List.forall_mem_map.mpr fun c _ => .char c)
    (Parsers.sequence hchars).map _
  | .choice parsers => .choice (Grammar.all_alike parsers h hwords hscope)
  | .orElse p q =>
    have hparts := List.forall_mem_append.mp hwords
    (p.parsers_alike h hparts.1 hscope).orElse (q.parsers_alike h hparts.2 hscope)
  | .optional p => (p.parsers_alike h hwords hscope).optional.map _
  | .many p => (p.parsers_alike h hwords hscope).many.map _
  | .many1 p => (p.parsers_alike h hwords hscope).many1.map _
  | .sepBy p separator =>
    have hparts := List.forall_mem_append.mp hwords
    ((p.parsers_alike h hparts.1 hscope).sepBy (separator.parsers_alike h hparts.2 hscope)).map _
  | .sepBy1 p separator =>
    have hparts := List.forall_mem_append.mp hwords
    ((p.parsers_alike h hparts.1 hscope).sepBy1 (separator.parsers_alike h hparts.2 hscope)).map _
  | .traced name p => by
    rw [Grammar.retitle, Grammar.retitle, Grammar.parser_titled, Grammar.parser_titled]
    exact (p.parsers_alike h hwords hscope).titled (h.titles name)
  | .wrapped _ p => p.parsers_alike h hwords hscope
  | .rule name => hscope name
  | .fix name p => .fix fun _ _ hself => p.parsers_alike h hwords (hscope.bind name hself)
  | .rules start declarations => by
    simp only [Grammar.retitle, Grammar.parser, Declaration.names_retitleAll]
    exact hscope.bindSlots _ (fun slot s hs => nested_rules
      (Declaration.bodies_alike declarations h hwords _ hscope) _ slot s hs) start
  | .lexeme name => name.parsers_alike hwords
  | .pattern p => (p.parsers_alike (hwords _ (List.mem_singleton_self _))).map _
  | .json => (Json.parsers_alike h.json ⟨hwords, h.code, h.limit⟩).map _
  | .version => (Version.parsers_alike h.version hwords).map _

theorem Grammar.all_alike (gs : List Grammar) (h : R.Retitles a b)
    (hwords : ∀ w ∈ Grammar.allWordings gs, R.words w) {scope scope' : Scope}
    (hscope : R.Scopes scope scope') :
    List.Forall₂ R.Parsers (Grammar.parsers (Grammar.retitleAll a gs) scope)
      (Grammar.parsers (Grammar.retitleAll b gs) scope') :=
  match gs with
  | [] => .nil
  | g :: others =>
    have hparts := List.forall_mem_append.mp hwords
    .cons (g.parsers_alike h hparts.1 hscope) (Grammar.all_alike others h hparts.2 hscope)

theorem Continuation.parsers_alike (k : Continuation) (h : R.Retitles a b)
    (hwords : ∀ w ∈ k.wordings, R.words w) {scope scope' : Scope} (hscope : R.Scopes scope scope')
    (value : Value) :
    R.Parsers ((k.retitle a).parser scope value) ((k.retitle b).parser scope' value) :=
  match k with
  | .same | .sameUpper => (Parsers.literal _).map _
  | .succeed => .succeed value
  | .fail => .fail
  | .repeated p => ((p.parsers_alike h hwords hscope).times _).map _
  | .cases branches otherwise => by
    have hparts := List.forall_mem_append.mp hwords
    rw [Continuation.retitle, Continuation.retitle, Continuation.parser, Continuation.parser]
    have hbranch := Branch.find?_alike branches h hparts.1 hscope value.text
    generalize Branch.find? (Branch.retitleAll a branches) scope value.text = p,
      Branch.find? (Branch.retitleAll b branches) scope' value.text = p' at hbranch ⊢
    cases hbranch with
    | none => exact otherwise.parsers_alike h hparts.2 hscope
    | some hp => exact hp

theorem Branch.find?_alike (branches : List Branch) (h : R.Retitles a b)
    (hwords : ∀ w ∈ Branch.allWordings branches, R.words w) {scope scope' : Scope}
    (hscope : R.Scopes scope scope') (text : Text) :
    Option.Rel R.Parsers (Branch.find? (Branch.retitleAll a branches) scope text)
      (Branch.find? (Branch.retitleAll b branches) scope' text) :=
  match branches with
  | [] => .none
  | .mk label p :: others => by
    have hparts := List.forall_mem_append.mp hwords
    rw [Branch.retitleAll, Branch.retitleAll, Branch.find?, Branch.find?]
    split
    · exact .some (p.parsers_alike h hparts.1 hscope)
    · exact Branch.find?_alike others h hparts.2 hscope text

theorem Declaration.bodies_alike (declarations : List Declaration) (h : R.Retitles a b)
    (hwords : ∀ w ∈ Declaration.allWordings declarations, R.words w) (names : List String)
    {scope scope' : Scope} (hscope : R.Scopes scope scope') (slot : Nat) :
    Option.Rel R.Bodies
      (Declaration.bodies (Declaration.retitleAll a declarations) names scope)[slot]?.join
      (Declaration.bodies (Declaration.retitleAll b declarations) names scope')[slot]?.join :=
  match declarations, slot with
  | [], _ => .none
  | .undefined _ :: _, 0 => .none
  | .defined _ body :: _, 0 =>
    have hparts := List.forall_mem_append.mp hwords
    .some fun _ _ hcall => body.parsers_alike h hparts.1 (hscope.bindSlots names hcall)
  | .undefined _ :: others, slot + 1 => Declaration.bodies_alike others h hwords names hscope slot
  | .defined _ _ :: others, slot + 1 =>
    have hparts := List.forall_mem_append.mp hwords
    Declaration.bodies_alike others h hparts.2 names hscope slot

end

/-- A description with its own titles, where any words may be used. -/
theorem Grammar.alike (g : Grammar) (h : R.Retitles some some) (hwords : ∀ w, R.words w)
    {scope scope' : Scope} (hscope : R.Scopes scope scope') :
    R.Parsers (g.parser scope) (g.parser scope') := by
  have halike := g.parsers_alike h (fun w _ => hwords w) hscope
  rwa [parser_retitle_some, parser_retitle_some] at halike

end Descent
