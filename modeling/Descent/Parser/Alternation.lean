import Descent.Parser.Basic

/-!
# Alternatives

Combinators that try another parser on the same text after one has failed. The first alternative
that succeeds wins, and those after it are not run. When none succeeds, the failure has the causes
of all, in order.
-/

namespace Descent.Parser

variable {α : Type}

/-- Runs a parser, and a second one on the same text if the first fails. -/
def orElse (p q : Parser α) : Parser α := fun input =>
  (p input).recover fun f => (q input).mapFailure f.or

/-- The failure of the alternatives so far, after one more has failed. -/
def addAlternative : Option Failure → Failure → Failure
  | none, f => f
  | some earlier, f => earlier.or f

/-- The rest of a choice, after the failures and events of the alternatives so far, the events
latest first. -/
def choiceFrom : List (Parser α) → Option Failure → List Event → Parser α
  | [], failed, log, input =>
    ⟨.failure (failed.getD (Failure.ofCause (.unexpected input))), log.reverse⟩
  | p :: parsers, failed, log, input =>
    let reply := p input
    let log := reply.events.reverseAux log
    match reply.outcome with
    | .success value rest => ⟨.success value rest, log.reverse⟩
    | .failure f => choiceFrom parsers (some (addAlternative failed f)) log input
    | .diverges => ⟨.diverges, log.reverse⟩

/-- Tries the parsers of a list in order. The empty choice fails. -/
def choice (parsers : List (Parser α)) : Parser α := choiceFrom parsers none []

/-- The choice between the components of a tuple from a place on, after the failures of those before
it. -/
def tupleChoiceFrom {n : Nat} (tuple : Fin n → Parser α) (i : Nat) (failed : Option Failure) :
    Parser α := fun input =>
  if h : i < n then
    (tuple ⟨i, h⟩ input).recover fun f =>
      tupleChoiceFrom tuple (i + 1) (some (addAlternative failed f)) input
  else .failure (failed.getD (Cause.unexpected input))
termination_by n - i

/-- Tries the components of a tuple, each in its place. -/
def tupleChoice {n : Nat} (tuple : Fin n → Parser α) : Parser α := tupleChoiceFrom tuple 0 none

/-- Reads a value or, where there is none, consumes nothing. -/
def optional (p : Parser α) : Parser (Option α) := fun input =>
  ((p input).map some).recover fun _ => .success none input

end Descent.Parser
