import Descent.Pattern.Token

/-!
# From tokens to expressions

The second stage of reading a pattern builds its expression. A level is kept for each group that is
open; flags that a group sets hold to its end, also in the branches after a bar. There is no
expression if a group is not closed or not opened, if a repetition operator has nothing to repeat,
if two groups have one name, or if the pattern nests too deeply.
-/

namespace Descent.Pattern

structure Flags where
  ignoreCase : Bool := false
  multiLine : Bool := false
  dotAll : Bool := false
  swapGreed : Bool := false
deriving DecidableEq, Inhabited

namespace Flags

/-- Set or clear a flag. Patterns always match all of Unicode. -/
def change (f : Flags) : Flag × Bool → Flags
  | (.ignoreCase, value) => { f with ignoreCase := value }
  | (.multiLine, value) => { f with multiLine := value }
  | (.dotAll, value) => { f with dotAll := value }
  | (.swapGreed, value) => { f with swapGreed := value }
  | (.unicode, _) => f

end Flags

/-- What stands in a branch: something to match, or flags. -/
inductive BranchItem where
  | piece (p : Nested Expr)
  | flags
deriving Inhabited

namespace BranchItem

def toPiece : BranchItem → Nested Expr
  | piece p => p
  | flags => .leaf .empty

end BranchItem

/-- A group that is open, or the pattern as a whole: the flags to go back to at its end, the
branches before the last bar and the items after it, both latest first. -/
structure Level where
  outerFlags : Flags := {}
  branches : List (Nested Expr) := []
  items : List BranchItem := []
deriving Inhabited

namespace Level

def add (l : Level) (p : Nested Expr) : Level := { l with items := .piece p :: l.items }

def branch (l : Level) : Nested Expr := .join .seqs (l.items.reverse.map BranchItem.toPiece)

def bar (l : Level) : Level := { l with branches := l.branch :: l.branches, items := [] }

/-- The content of a level when it is closed. -/
def close (l : Level) : Nested Expr := .join .alts (l.branch :: l.branches).reverse

/-- Repeat the last item. Flags cannot be repeated. -/
def repeatLast? (l : Level) (r : Repeats) : Option Level :=
  match l.items with
  | .piece p :: items =>
    some { l with items := .piece (p.wrap (p.part.repeatBy r)) :: items }
  | _ => none

end Level

/-- The deepest nesting of a pattern. -/
def maxNesting : Nat := 250

/-- The state of a reader: the flags that are set, the level that is open and those around it, and
the names of groups. -/
structure TreeBuilder where
  flags : Flags := {}
  level : Level := {}
  outer : List Level := []
  names : List (List Char) := []
deriving Inhabited

namespace TreeBuilder

/-- Add an expression in which nothing nests at the open level. -/
def addLeaf (b : TreeBuilder) (e : Expr) : TreeBuilder :=
  { b with level := b.level.add (.leaf e) }

def addName? (b : TreeBuilder) : Option (List Char) → Option TreeBuilder
  | none => some b
  | some name => if b.names.contains name then none else some { b with names := name :: b.names }

def step? (b : TreeBuilder) (token : Token) : Option TreeBuilder :=
  match token with
  | .char c => some (b.addLeaf (.char b.flags.ignoreCase c))
  | .bracketed c =>
    some { b with level := b.level.add ⟨.char b.flags.ignoreCase c.part, c.depth⟩ }
  | .dot => some (b.addLeaf (.char false (if b.flags.dotAll then .any else .anyBut '\n')))
  | .caret => some (b.addLeaf (.assertion (if b.flags.multiLine then .lineStart else .textStart)))
  | .dollar => some (b.addLeaf (.assertion (if b.flags.multiLine then .lineEnd else .textEnd)))
  | .assertion a => some (b.addLeaf (.assertion a))
  | .bar => some { b with level := b.level.bar }
  | .flags changes =>
    some { b with
      flags := changes.foldl Flags.change b.flags
      level := { b.level with items := .flags :: b.level.items } }
  | .groupStart name changes =>
    (b.addName? name).map fun b =>
      { b with
        flags := changes.foldl Flags.change b.flags
        level := { outerFlags := b.flags }
        outer := b.level :: b.outer }
  | .groupEnd =>
    match b.outer with
    | [] => none
    | around :: outer =>
      let content := b.level.close
      some { b with
        flags := b.level.outerFlags
        level := around.add (content.wrap content.part)
        outer }
  | .repeats least most isLazy =>
    (b.level.repeatLast? ⟨least, most, isLazy == b.flags.swapGreed⟩).map fun level =>
      { b with level }

/-- The expression, if all groups are closed. -/
def finish? (b : TreeBuilder) : Option Expr :=
  let content := b.level.close
  if b.outer.isEmpty && content.depth ≤ maxNesting then some content.part else none

end TreeBuilder

def Expr.read? (source : List Char) : Option Expr := do
  let tokens ← Token.readAll? source
  let builder ← tokens.foldlM TreeBuilder.step? {}
  builder.finish?

end Descent.Pattern
