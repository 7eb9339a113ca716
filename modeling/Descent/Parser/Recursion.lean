import Descent.Parser.Basic

/-!
# Recursive rules

A rule may use itself and other rules. It is given by its *body*, a function from the parsers that
its references stand for to the parser it is. The parser of a rule is approximated from below: the
approximation at `n` allows calls to nest `n` deep and does not end when they nest deeper.

Calls that nest without anything being read between them repeat a call that is already under way,
and then the run has no end. So a text of `n` characters allows `n + 1` nested calls of one rule,
and `k` rules allow `k` times as many; no run that ends is cut short by these bounds.
-/

namespace Descent

namespace Parser

variable {α : Type}

/-- The parser of a rule whose calls nest at most `n` deep. -/
def nested (body : Parser α → Parser α) : Nat → Parser α
  | 0 => fun _ => .diverges
  | n + 1 => fun input => body (nested body n) input

/-- The parser of the rule with the given body. -/
def fix (body : Parser α → Parser α) : Parser α := fun input =>
  nested body (input.length + 1) input

/-- The parser of a rule without a body: it warns, and fails. -/
def undefinedRule : Parser α := fun _ =>
  ⟨.failure Cause.undefinedRule, [⟨.undefinedRule, []⟩]⟩

end Parser

/-- Rules that refer to each other by names from `ι`. A rule without a body is declared only. -/
abbrev Rules (ι α : Type) : Type := ι → Option ((ι → Parser α) → Parser α)

namespace Rules

variable {ι α : Type}

/-- The parsers of rules whose calls nest at most `n` deep. -/
def nested (rules : Rules ι α) : Nat → ι → Parser α
  | 0, _ => fun _ => .diverges
  | n + 1, name => fun input =>
    match rules name with
    | some body => body (nested rules n) input
    | none => Parser.undefinedRule input

/-- The parser of a rule among `count` rules. -/
def parser (rules : Rules ι α) (count : Nat) (name : ι) : Parser α := fun input =>
  rules.nested (count * (input.length + 1) + 1) name input

end Rules
end Descent
