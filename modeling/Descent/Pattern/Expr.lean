import Descent.Pattern.CharClass

/-!
# Pattern expressions

The meaning of a pattern as a tree: characters of classes, assertions about a position, sequences,
alternatives in order of preference, and repetitions.
-/

namespace Descent.Pattern

/-- A condition on the characters around a position. It consumes nothing. -/
inductive Assertion where
  | textStart
  | textEnd
  | lineStart
  | lineEnd
  | wordBoundary
  | notWordBoundary
  | wordStart
  | wordEnd
  /-- No character of a word comes before. -/
  | noWordBefore
  /-- No character of a word comes after. -/
  | noWordAfter
deriving DecidableEq, Inhabited

namespace Assertion

/-- Whether there is a character and it is one of a word. -/
def isWord (c : Option Char) : Bool := c.any CharSet.wordChar.contains

/-- Whether an assertion holds between two characters, each missing at an end of the text. -/
def holds (a : Assertion) (before after : Option Char) : Bool :=
  match a with
  | textStart => before.isNone
  | textEnd => after.isNone
  | lineStart => before.isNone || before == some '\n'
  | lineEnd => after.isNone || after == some '\n'
  | wordBoundary => isWord before != isWord after
  | notWordBoundary => isWord before == isWord after
  | wordStart => !isWord before && isWord after
  | wordEnd => isWord before && !isWord after
  | noWordBefore => !isWord before
  | noWordAfter => !isWord after

end Assertion

/-- How often a repetition may run, and whether it prefers to run more often. -/
structure Repeats where
  least : Nat
  /-- The greatest number of runs, if there is one. -/
  most : Option Nat
  greedy : Bool
deriving DecidableEq, Inhabited

/-- The repetition that runs at most once, and only if it must have run or may have. -/
def Repeats.atMostOnce (r : Repeats) : Repeats :=
  { r with
    least := if r.least = 0 then 0 else 1
    most := if r.most = some 0 then some 0 else some 1 }

inductive Expr where
  | empty
  | char (ignoreCase : Bool) (c : CharClass)
  | assertion (a : Assertion)
  | seq (first second : Expr)
  /-- Matches one of two expressions and prefers the first. -/
  | alt (first second : Expr)
  | repeated (e : Expr) (r : Repeats)
deriving Inhabited

namespace Expr

/-- The sequence of a list of expressions. -/
def seqs : List Expr → Expr
  | [] => empty
  | [e] => e
  | e :: rest => seq e (seqs rest)

/-- The alternatives of a list, the first preferred to those after it. -/
def alts : List Expr → Expr
  | [] => empty
  | [e] => e
  | e :: rest => alt e (alts rest)

/-- Whether an expression may match the empty text. -/
def nullable : Expr → Bool
  | empty => true
  | char _ _ => false
  | assertion _ => true
  | seq e f => e.nullable && f.nullable
  | alt e f => e.nullable || f.nullable
  | repeated e r => r.least == 0 || e.nullable

/-- Whether an expression may consume a character. One that may not matches the empty text alone. -/
def consumes : Expr → Bool
  | empty => false
  | char _ _ => true
  | assertion _ => false
  | seq e f => e.consumes || f.consumes
  | alt e f => e.consumes || f.consumes
  | repeated e _ => e.consumes

/-- The repetition of an expression, in its simplest form. To repeat what consumes nothing more than
once is the same as to do so once. No runs at all are the empty expression, and exactly one is the
expression itself. -/
def repeatBy (e : Expr) (r : Repeats) : Expr :=
  let r := if e.consumes then r else r.atMostOnce
  match r.least, r.most with
  | _, some 0 => empty
  | 1, some 1 => e
  | _, _ => repeated e r

/-- The room that an expression takes at least, in bytes, in an automaton over the bytes of UTF-8.
A state takes 32 bytes and a way out of a fork 4. Alternatives may have states in common, so that
only the larger one counts. -/
def size : Expr → Nat
  | empty => 0
  | char _ c => c.size
  | assertion _ => 32
  | seq e f => e.size + f.size
  | alt e f => Nat.max e.size f.size
  | repeated e r =>
    match r.most with
    | none => Nat.max r.least 1 * e.size + 40
    | some most => most * e.size + (most - r.least) * 40

end Expr
end Descent.Pattern
