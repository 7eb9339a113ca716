import Descent.Grammar.Basic
import Descent.Json.Grammar
import Descent.Parser.Recursion
import Descent.Semver.Grammar

/-!
# What descriptions of grammars mean

The parser that a description stands for, given the parsers that the rules in scope stand for. The
rules of a group are kept in slots, in the order in which they are declared, and a name in their
bodies stands for the slot of the rule.
-/

namespace Descent

/-- The parsers that names of rules stand for. -/
abbrev Scope : Type := String → Parser Value

namespace Scope

/-- No rule has a name. -/
def empty : Scope := fun _ => Parser.undefinedRule

def bind (scope : Scope) (name : String) (p : Parser Value) : Scope :=
  fun other => if other == name then p else scope other

/-- Give the names of a list to the parsers in the slots of the same order. -/
def bindSlots (scope : Scope) (names : List String) (slots : Nat → Parser Value) : Scope :=
  fun name =>
    match names.idxOf? name with
    | some slot => slots slot
    | none => scope name

end Scope

def LexemeName.parser : LexemeName → Parser Value
  | digit => Lexeme.digit.map .char
  | lower => Lexeme.lower.map .char
  | upper => Lexeme.upper.map .char
  | letter => Lexeme.letter.map .char
  | alphanumeric => Lexeme.alphanumeric.map .char
  | whitespace => Lexeme.whitespace.map .char
  | word => Lexeme.word.map .str
  | natural => Lexeme.natural.map .nat
  | integer => Lexeme.integer.map .int

def Value.ofOption (value : Option Value) : Value :=
  match value with
  | Option.some value => Value.some value
  | Option.none => Value.none

/-- What `strip` expects. -/
def expectedMessage (start : String) : String := "expected " ++ start

/-- Reads a fixed text and yields a value. -/
def stripParser (start : String) (value : Value) : Parser Value := fun input =>
  if start.toList.isPrefixOf input then .success value (input.drop start.length)
  else .failure (Cause.reported (expectedMessage start))

def restParser : Parser Value := fun input => .success (.str (String.ofList input)) []

mutual

/-- The parser that a description stands for. -/
def Grammar.parser (g : Grammar) (scope : Scope) : Parser Value :=
  match g with
  | .succeed value => Parser.succeed value
  | .fail => Parser.fail
  | .item => Parser.item.map .char
  | .satisfy test => (Parser.satisfy test.accepts).map .char
  | .satisfyExpecting test expectation =>
    (Parser.satisfyExpecting test.accepts expectation).map .char
  | .char c => (Parser.char c).map .char
  | .literal word => (Parser.literal word).map .str
  | .ending => Parser.ending.map fun _ => .unit
  | .rest => restParser
  | .strip start value => stripParser start value
  | .report message => Parser.failWith (.reported message)
  | .map f p => (p.parser scope).map f.apply
  | .convert f p => (p.parser scope).convert f.apply
  | .filter test p => (p.parser scope).filter test.accepts
  | .filterExpecting test expectation p =>
    (p.parser scope).filterExpecting test.accepts expectation
  | .andThen next p => (p.parser scope).andThen (next.parser scope)
  | .both p q =>
    ((p.parser scope).both (q.parser scope)).map fun (first, second) => .pair first second
  | .skipThen p q => (p.parser scope).skipThen (q.parser scope)
  | .thenSkip p q => (p.parser scope).thenSkip (q.parser scope)
  | .bracket opening p closing =>
    Parser.bracket (opening.parser scope) (p.parser scope) (closing.parser scope)
  | .sequence parsers => (Parser.sequence (Grammar.parsers parsers scope)).map .list
  | .spell chars => (Parser.sequence (chars.map Parser.char)).map fun cs => .list (cs.map .char)
  | .choice parsers => Parser.choice (Grammar.parsers parsers scope)
  | .orElse p q => (p.parser scope).orElse (q.parser scope)
  | .optional p => (p.parser scope).optional.map Value.ofOption
  | .many p => (Parser.many (p.parser scope)).map .list
  | .many1 p => (Parser.many1 (p.parser scope)).map .list
  | .sepBy p separator => ((p.parser scope).sepBy (separator.parser scope)).map .list
  | .sepBy1 p separator => ((p.parser scope).sepBy1 (separator.parser scope)).map .list
  | .traced name p => Parser.traced name (p.parser scope)
  | .wrapped _ p => p.parser scope
  | .rule name => scope name
  | .fix name p => Parser.fix fun self => p.parser (scope.bind name self)
  | .rules start declarations =>
    let names := declarations.map Declaration.name
    let bodies := Declaration.bodies declarations names scope
    let slots := Rules.parser (fun slot => bodies[slot]?.join) names.length
    scope.bindSlots names slots start
  | .lexeme name => name.parser
  | .pattern p => p.parser.map .str
  | .json => Json.parser.map .json
  | .version => Version.parser.map .version

def Grammar.parsers (gs : List Grammar) (scope : Scope) : List (Parser Value) :=
  match gs with
  | [] => []
  | g :: others => g.parser scope :: Grammar.parsers others scope

/-- The parser that a continuation chooses for a value. -/
def Continuation.parser (k : Continuation) (scope : Scope) (value : Value) : Parser Value :=
  match k with
  | .same => (Parser.literal (String.ofList value.text)).map .str
  | .sameUpper => (Parser.literal (String.ofList (value.text.map Char.toUpper))).map .str
  | .succeed => Parser.succeed value
  | .fail => Parser.fail
  | .repeated p => (Parser.times value.count (p.parser scope)).map .list
  | .cases branches otherwise =>
    match Branch.find? branches scope value.text with
    | some p => p
    | none => otherwise.parser scope

/-- The parser of the first branch for a text. -/
def Branch.find? (branches : List Branch) (scope : Scope) (text : Text) :
    Option (Parser Value) :=
  match branches with
  | [] => none
  | .mk label p :: others =>
    if label == text then some (p.parser scope) else Branch.find? others scope text

/-- The bodies of rules, in which the given names stand for slots. -/
def Declaration.bodies (declarations : List Declaration) (names : List String) (scope : Scope) :
    List (Option ((Nat → Parser Value) → Parser Value)) :=
  match declarations with
  | [] => []
  | .undefined _ :: others => none :: Declaration.bodies others names scope
  | .defined _ body :: others =>
    some (fun slots => body.parser (scope.bindSlots names slots)) ::
      Declaration.bodies others names scope

end

end Descent
