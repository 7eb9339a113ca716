/-!
# Depth of nesting

The parts of a pattern nest in groups, repetitions, sequences, alternatives and classes. A part
carries its depth while the pattern is read, because the depth belongs to the text: an expression
that is simplified afterwards has lost it.
-/

namespace Descent.Pattern

/-- A part of a pattern and how deeply it nests. -/
structure Nested (α : Type) where
  part : α
  depth : Nat
deriving Inhabited

namespace Nested

variable {α : Type}

/-- A part in which nothing nests. -/
def leaf (part : α) : Nested α := ⟨part, 0⟩

/-- A part that nests in another, which takes its place. -/
def wrap (p : Nested α) (part : α) : Nested α := ⟨part, p.depth + 1⟩

/-- The depth of parts side by side. Two or more nest in what joins them; one stands for itself. -/
def depthOf : List (Nested α) → Nat
  | [] => 0
  | [p] => p.depth
  | parts => parts.foldl (fun depth p => Nat.max depth p.depth) 0 + 1

def join (combine : List α → α) (parts : List (Nested α)) : Nested α :=
  ⟨combine (parts.map Nested.part), depthOf parts⟩

end Nested
end Descent.Pattern
