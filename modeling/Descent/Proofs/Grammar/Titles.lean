import Descent.Grammar.Meaning
import Descent.Proofs.Parser.Likeness

/-!
# The titles and the words of a description

The title of a span is the name that a traced parser gives it. `Grammar.retitle` gives the spans of
a description other titles, or takes some of them away, and it drops the ways to refer to a parser
that do not change what it does. Titles alone do not matter to a parser: a description with the
titles that it had stands for the parser that it stood for (`Grammar.parser_retitle_some`).

`Grammar.wordings` lists the words that a description brings into diagnostics.
-/

namespace Descent

/-! ## Titles -/

/-- A description with a span around it if there is a title. -/
def Grammar.titled (title : Option String) (p : Grammar) : Grammar :=
  match title with
  | none => p
  | some name => .traced name p

theorem Grammar.parser_titled (title : Option String) (p : Grammar) (scope : Scope) :
    (p.titled title).parser scope = (p.parser scope).titled title := by
  cases title <;> rfl

mutual

/-- The description in which each span has the title that is given for its name, if one is, and no
parser is wrapped. -/
def Grammar.retitle (title : String → Option String) (g : Grammar) : Grammar :=
  match g with
  | .succeed value => .succeed value
  | .fail => .fail
  | .item => .item
  | .satisfy test => .satisfy test
  | .satisfyExpecting test expectation => .satisfyExpecting test expectation
  | .char c => .char c
  | .literal word => .literal word
  | .ending => .ending
  | .rest => .rest
  | .strip start value => .strip start value
  | .report message => .report message
  | .map f p => .map f (p.retitle title)
  | .convert f p => .convert f (p.retitle title)
  | .filter test p => .filter test (p.retitle title)
  | .filterExpecting test expectation p => .filterExpecting test expectation (p.retitle title)
  | .andThen next p => .andThen (next.retitle title) (p.retitle title)
  | .both p q => .both (p.retitle title) (q.retitle title)
  | .skipThen p q => .skipThen (p.retitle title) (q.retitle title)
  | .thenSkip p q => .thenSkip (p.retitle title) (q.retitle title)
  | .bracket opening p closing =>
    .bracket (opening.retitle title) (p.retitle title) (closing.retitle title)
  | .sequence parsers => .sequence (Grammar.retitleAll title parsers)
  | .spell chars => .spell chars
  | .choice parsers => .choice (Grammar.retitleAll title parsers)
  | .orElse p q => .orElse (p.retitle title) (q.retitle title)
  | .optional p => .optional (p.retitle title)
  | .many p => .many (p.retitle title)
  | .many1 p => .many1 (p.retitle title)
  | .sepBy p separator => .sepBy (p.retitle title) (separator.retitle title)
  | .sepBy1 p separator => .sepBy1 (p.retitle title) (separator.retitle title)
  | .traced name p => (p.retitle title).titled (title name)
  | .wrapped _ p => p.retitle title
  | .rule name => .rule name
  | .fix name p => .fix name (p.retitle title)
  | .rules start declarations => .rules start (Declaration.retitleAll title declarations)
  | .lexeme name => .lexeme name
  | .pattern p => .pattern p
  | .json => .json
  | .version => .version

def Grammar.retitleAll (title : String → Option String) (gs : List Grammar) : List Grammar :=
  match gs with
  | [] => []
  | g :: others => g.retitle title :: Grammar.retitleAll title others

def Continuation.retitle (title : String → Option String) (k : Continuation) : Continuation :=
  match k with
  | .same => .same
  | .sameUpper => .sameUpper
  | .succeed => .succeed
  | .fail => .fail
  | .repeated p => .repeated (p.retitle title)
  | .cases branches otherwise =>
    .cases (Branch.retitleAll title branches) (otherwise.retitle title)

def Branch.retitleAll (title : String → Option String) (branches : List Branch) : List Branch :=
  match branches with
  | [] => []
  | .mk label p :: others => .mk label (p.retitle title) :: Branch.retitleAll title others

def Declaration.retitleAll (title : String → Option String) (declarations : List Declaration) :
    List Declaration :=
  match declarations with
  | [] => []
  | .undefined name :: others => .undefined name :: Declaration.retitleAll title others
  | .defined name body :: others =>
    .defined name (body.retitle title) :: Declaration.retitleAll title others

end

theorem Declaration.names_retitleAll (title : String → Option String)
    (declarations : List Declaration) :
    (Declaration.retitleAll title declarations).map Declaration.name =
      declarations.map Declaration.name := by
  induction declarations with
  | nil => rfl
  | cons declaration others ih =>
    cases declaration with
    | undefined name => exact congrArg (name :: ·) ih
    | defined name body => exact congrArg (name :: ·) ih

mutual

/-- A description with its own titles stands for the parser that it stood for. -/
theorem Grammar.parser_retitle_some (g : Grammar) (scope : Scope) :
    (g.retitle some).parser scope = g.parser scope :=
  match g with
  | .succeed _ | .fail | .item | .satisfy _ | .satisfyExpecting .. | .char _ | .literal _ | .ending
  | .rest | .strip .. | .report _ | .spell _ | .rule _ | .lexeme _ | .pattern _ | .json
  | .version => rfl
  | .map _ p | .convert _ p | .filter _ p | .filterExpecting _ _ p | .optional p | .many p
  | .many1 p => by
    simp only [Grammar.retitle, Grammar.parser, p.parser_retitle_some scope]
  | .andThen next p => by
    simp only [Grammar.retitle, Grammar.parser, p.parser_retitle_some scope,
      next.parser_retitle_some scope]
  | .both p q | .skipThen p q | .thenSkip p q | .orElse p q | .sepBy p q | .sepBy1 p q => by
    simp only [Grammar.retitle, Grammar.parser, p.parser_retitle_some scope,
      q.parser_retitle_some scope]
  | .bracket opening p closing => by
    simp only [Grammar.retitle, Grammar.parser, opening.parser_retitle_some scope,
      p.parser_retitle_some scope, closing.parser_retitle_some scope]
  | .sequence parsers | .choice parsers => by
    simp only [Grammar.retitle, Grammar.parser, Grammar.parsers_retitle_some parsers scope]
  | .traced name p => by
    rw [Grammar.retitle, Grammar.parser_titled, p.parser_retitle_some scope]
    rfl
  | .wrapped _ p => p.parser_retitle_some scope
  | .fix name p => by
    simp only [Grammar.retitle, Grammar.parser, p.parser_retitle_some]
  | .rules start declarations => by
    simp only [Grammar.retitle, Grammar.parser, Declaration.names_retitleAll,
      Declaration.bodies_retitle_some declarations]

theorem Grammar.parsers_retitle_some (gs : List Grammar) (scope : Scope) :
    Grammar.parsers (Grammar.retitleAll some gs) scope = Grammar.parsers gs scope :=
  match gs with
  | [] => rfl
  | g :: others => by
    simp only [Grammar.retitleAll, Grammar.parsers, g.parser_retitle_some scope,
      Grammar.parsers_retitle_some others scope]

theorem Continuation.parser_retitle_some (k : Continuation) (scope : Scope) :
    (k.retitle some).parser scope = k.parser scope :=
  match k with
  | .same | .sameUpper | .succeed | .fail => rfl
  | .repeated p => by
    funext value
    simp only [Continuation.retitle, Continuation.parser, p.parser_retitle_some scope]
  | .cases branches otherwise => by
    funext value
    simp only [Continuation.retitle, Continuation.parser, otherwise.parser_retitle_some scope,
      Branch.find?_retitle_some branches scope]

theorem Branch.find?_retitle_some (branches : List Branch) (scope : Scope) (text : Text) :
    Branch.find? (Branch.retitleAll some branches) scope text =
      Branch.find? branches scope text :=
  match branches with
  | [] => rfl
  | .mk label p :: others => by
    simp only [Branch.retitleAll, Branch.find?, p.parser_retitle_some scope,
      Branch.find?_retitle_some others scope text]

theorem Declaration.bodies_retitle_some (declarations : List Declaration) (names : List String)
    (scope : Scope) :
    Declaration.bodies (Declaration.retitleAll some declarations) names scope =
      Declaration.bodies declarations names scope :=
  match declarations with
  | [] => rfl
  | .undefined _ :: others => by
    simp only [Declaration.retitleAll, Declaration.bodies,
      Declaration.bodies_retitle_some others names scope]
  | .defined _ body :: others => by
    simp only [Declaration.retitleAll, Declaration.bodies, body.parser_retitle_some,
      Declaration.bodies_retitle_some others names scope]

end

/-! ## Words -/

/-- The words of a numeral that could not be read. -/
def NumeralError.wordings : List Wording :=
  [empty, invalidDigit, tooLarge, tooSmall].map fun e => .reason e.message

theorem NumeralError.mem_wordings (e : NumeralError) : .reason e.message ∈ wordings := by
  cases e <;> simp [wordings]

/-- The words of a conversion. -/
def Conversion.wordings : Conversion → List Wording
  | .unsigned _ | .signed _ => NumeralError.wordings
  | .reject reason => [.reason reason]

/-- The words of the JSON grammar. -/
def Json.wordings : List Wording := [
  .expectation "a low surrogate",
  .reason "Unpaired surrogate in unicode escape",
  .reason "Invalid unicode escape",
  .reason "Number out of range",
  .reason "invalid float literal"]

mutual

/-- The words that a description brings into diagnostics. -/
def Grammar.wordings (g : Grammar) : List Wording :=
  match g with
  | .succeed _ | .fail | .item | .satisfy _ | .char _ | .literal _ | .ending | .rest | .spell _
  | .rule _ => []
  | .satisfyExpecting _ expectation => [.expectation expectation]
  | .strip start _ => [.message (expectedMessage start)]
  | .report message => [.message message]
  | .convert f p => f.wordings ++ p.wordings
  | .filter _ p => .expectation Parser.defaultExpectation :: p.wordings
  | .filterExpecting _ expectation p => .expectation expectation :: p.wordings
  | .andThen next p => next.wordings ++ p.wordings
  | .both p q | .skipThen p q | .thenSkip p q | .orElse p q | .sepBy p q | .sepBy1 p q =>
    p.wordings ++ q.wordings
  | .bracket opening p closing => opening.wordings ++ (p.wordings ++ closing.wordings)
  | .sequence parsers | .choice parsers => Grammar.allWordings parsers
  | .map _ p | .optional p | .many p | .many1 p | .traced _ p | .wrapped _ p | .fix _ p =>
    p.wordings
  | .rules _ declarations => Declaration.allWordings declarations
  | .lexeme _ | .version => NumeralError.wordings
  | .pattern p => [.pattern p.source]
  | .json => Json.wordings

def Grammar.allWordings (gs : List Grammar) : List Wording :=
  match gs with
  | [] => []
  | g :: others => g.wordings ++ Grammar.allWordings others

def Continuation.wordings (k : Continuation) : List Wording :=
  match k with
  | .same | .sameUpper | .succeed | .fail => []
  | .repeated p => p.wordings
  | .cases branches otherwise => Branch.allWordings branches ++ otherwise.wordings

def Branch.allWordings (branches : List Branch) : List Wording :=
  match branches with
  | [] => []
  | .mk _ p :: others => p.wordings ++ Branch.allWordings others

def Declaration.allWordings (declarations : List Declaration) : List Wording :=
  match declarations with
  | [] => []
  | .undefined _ :: others => Declaration.allWordings others
  | .defined _ body :: others => body.wordings ++ Declaration.allWordings others

end

end Descent
