import Descent.Parser.Basic
import Descent.Pattern.Program
import Descent.Pattern.Tree

/-!
# Patterns

A pattern is a regular expression as a parser: it matches at the beginning of the text, and of
several matches it takes the one that its alternatives and repetitions prefer.
-/

namespace Descent

/-- A pattern that has been read and compiled. -/
structure Pattern where
  source : String
  program : Pattern.Program
deriving Inhabited

namespace Pattern

inductive Refusal where
  | malformed
  | tooLarge
deriving DecidableEq, Inhabited

/-- What there is to say about a text that is no pattern. -/
def Refusal.message : Refusal → String
  | malformed => "error parsing pattern 0"
  | tooLarge => "error building NFA"

/-- The room that a pattern may take, in bytes. -/
def maxSize : Nat := 10 * 1024 * 1024

def ofSource (source : String) : Except Refusal Pattern :=
  match Expr.read? source.toList with
  | none => .error .malformed
  | some expr =>
    if maxSize < expr.size then .error .tooLarge else .ok ⟨source, Program.ofExpr expr⟩

/-- Reads the text that a pattern matches. -/
def parser (p : Pattern) : Parser String := fun input =>
  match p.program.matchLength? input with
  | some n => .success (String.ofList (input.take n)) (input.drop n)
  | none => .failure (Cause.mismatch p.source input)

end Pattern
end Descent
