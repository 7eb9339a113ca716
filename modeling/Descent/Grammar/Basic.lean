import Descent.Grammar.Function
import Descent.Pattern.Basic

/-!
# Descriptions of grammars

A grammar as a value: a tree of the parsers it is made of, with names where rules are used. What it
means is in `Grammar.parser`.
-/

namespace Descent

/-- The lexemes that a grammar can name. -/
inductive LexemeName where
  | digit
  | lower
  | upper
  | letter
  | alphanumeric
  | whitespace
  | word
  | natural
  | integer
deriving DecidableEq, Inhabited

/-- Ways to refer to a parser that do not change what it does. -/
inductive Wrapping where
  | shared
  | referred
  | deferred
deriving DecidableEq, Inhabited

mutual

inductive Grammar where
  -- primitive parsers
  | succeed (value : Value)
  | fail
  | item
  | satisfy (test : CharTest)
  | satisfyExpecting (test : CharTest) (expectation : String)
  | char (c : Char)
  | literal (word : String)
  | ending
  | rest
  /-- Reads a fixed text and yields a value, and otherwise says what it expected. -/
  | strip (start : String) (value : Value)
  | report (message : String)
  -- values
  | map (f : Mapping) (p : Grammar)
  | convert (f : Conversion) (p : Grammar)
  | filter (test : ValueTest) (p : Grammar)
  | filterExpecting (test : ValueTest) (expectation : String) (p : Grammar)
  -- sequences
  | andThen (next : Continuation) (p : Grammar)
  | both (p q : Grammar)
  | skipThen (p q : Grammar)
  | thenSkip (p q : Grammar)
  | bracket (opening p closing : Grammar)
  | sequence (parsers : List Grammar)
  /-- Reads the given characters, one parser for each. -/
  | spell (chars : Text)
  -- alternatives
  | choice (parsers : List Grammar)
  | orElse (p q : Grammar)
  | optional (p : Grammar)
  -- repetition
  | many (p : Grammar)
  | many1 (p : Grammar)
  | sepBy (p separator : Grammar)
  | sepBy1 (p separator : Grammar)
  -- references
  | traced (name : String) (p : Grammar)
  | wrapped (w : Wrapping) (p : Grammar)
  /-- The rule of that name in the innermost scope that has one. -/
  | rule (name : String)
  /-- A parser in which its own name stands for itself. -/
  | fix (name : String) (p : Grammar)
  /-- Rules that may all refer to each other, and the name of the one to start with. -/
  | rules (start : String) (declarations : List Declaration)
  -- ready-made parsers
  | lexeme (name : LexemeName)
  | pattern (p : Pattern)
  | json
  | version

/-- How to choose the next parser from a value. -/
inductive Continuation where
  /-- The text of the value again. -/
  | same
  /-- The text of the value in upper case. -/
  | sameUpper
  | succeed
  | fail
  /-- As many runs of a parser as the text of the value says. -/
  | repeated (p : Grammar)
  /-- The parser of the first branch for the text of the value. -/
  | cases (branches : List Branch) (otherwise : Grammar)

/-- A branch of a continuation: the text it is for, and its parser. -/
inductive Branch where
  | mk (label : Text) (p : Grammar)

/-- A rule that is declared. It may remain undefined. -/
inductive Declaration where
  | undefined (name : String)
  | defined (name : String) (body : Grammar)

end

instance : Inhabited Grammar := ⟨.fail⟩

instance : Inhabited Continuation := ⟨.fail⟩

instance : Inhabited Branch := ⟨.mk [] .fail⟩

instance : Inhabited Declaration := ⟨.undefined ""⟩

def Declaration.name : Declaration → String
  | undefined name => name
  | defined name _ => name

end Descent
