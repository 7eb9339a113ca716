import Descent.Parser.Basic
import Descent.Text.Inspect

/-!
# Primitive parsers

Parsers that are not made from other parsers: those that consume nothing, those for one character,
those for a fixed text, and `ending` for the end of the text.
-/

namespace Descent.Parser

variable {α : Type}

/-- Succeeds with a value and consumes nothing. -/
def succeed (value : α) : Parser α := fun input => .success value input

def fail : Parser α := fun input => .failure (Cause.unexpected input)

/-- Always fails for the given cause. -/
def failWith (cause : Cause) : Parser α := fun _ => .failure cause

def item : Parser Char
  | [] => .failure Cause.emptyInput
  | c :: rest => .success c rest

/-- Reads one character that has a property. -/
def satisfy (p : Char → Bool) : Parser Char := fun input =>
  (item input).next fun c rest =>
    if p c then .success c rest else .failure (Cause.unexpected input)

/-- Reads one character that has a property; another character is rejected by naming what was
expected in its place. -/
def satisfyExpecting (p : Char → Bool) (expectation : String) : Parser Char := fun input =>
  (item input).next fun c rest =>
    if p c then .success c rest
    else .failure (Cause.rejected expectation (inspect c) input rest)

def char (c : Char) : Parser Char := satisfy (· == c)

/-- Reads the given characters one by one. A failure quotes the text from the first character on
that differs. -/
def characters : Text → Parser Unit
  | [], input => .success () input
  | _ :: _, [] => .failure Cause.emptyInput
  | c :: word, d :: rest =>
    if d == c then characters word rest else .failure (Cause.unexpected (d :: rest))

def literal (word : String) : Parser String := fun input =>
  (characters word.toList input).map fun _ => word

def ending : Parser Unit
  | [] => .success () []
  | c :: rest => .failure (Cause.trailing (c :: rest))

end Descent.Parser
