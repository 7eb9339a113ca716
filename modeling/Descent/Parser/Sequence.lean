import Descent.Parser.Primitive

/-!
# Values and sequences

Combinators that run each of their parsers once, one after the other, and that change or test the
values they read. The first failure ends a sequence and is its failure.
-/

namespace Descent.Parser

variable {α β γ : Type}

/-! ## Values -/

/-- Changes the value that a parser reads. -/
def map (f : α → β) (p : Parser α) : Parser β := fun input => (p input).map f

/-- Converts the value that a parser reads. A value that cannot be converted is a failure, which
gives the reason and quotes the text from where the value began. -/
def convert (f : α → Except String β) (p : Parser α) : Parser β := fun input =>
  (p input).next fun value rest =>
    match f value with
    | .ok converted => .success converted rest
    | .error reason => .failure (Cause.unconvertible reason input)

/-- Accepts only values that pass a test. The failure of another value names what was expected and
shows the value, the text it was read from and the text left after it. -/
def filterExpecting [Inspect α] (p : Parser α) (test : α → Bool) (expectation : String) :
    Parser α := fun input =>
  (p input).next fun value rest =>
    if test value then .success value rest
    else .failure (Cause.rejected expectation (inspect value) input rest)

/-- What `filter` says that it expected. -/
def defaultExpectation : String := "a value satisfying the predicate"

/-- Accepts only values that pass a test. -/
def filter [Inspect α] (p : Parser α) (test : α → Bool) : Parser α :=
  p.filterExpecting test defaultExpectation

/-! ## Two parsers, one after the other -/

/-- Runs a parser, and on the text it leaves the parser chosen by the value that it read. -/
def andThen (p : Parser α) (q : α → Parser β) : Parser β := fun input =>
  (p input).next fun value rest => q value rest

/-- Runs two parsers and keeps both values. -/
def both (p : Parser α) (q : Parser β) : Parser (α × β) := fun input =>
  (p input).next fun value rest => (q rest).map fun other => (value, other)

/-- Runs two parsers and keeps the value of the second. -/
def skipThen (p : Parser α) (q : Parser β) : Parser β := fun input =>
  (p input).next fun _ rest => q rest

/-- Runs two parsers and keeps the value of the first. -/
def thenSkip (p : Parser α) (q : Parser β) : Parser α := fun input =>
  (p input).next fun value rest => (q rest).map fun _ => value

/-- Runs three parsers and keeps the value of the middle one. -/
def bracket (opening : Parser α) (p : Parser β) (closing : Parser γ) : Parser β := fun input =>
  (opening input).next fun _ inside =>
    (p inside).next fun value rest =>
      (closing rest).map fun _ => value

/-! ## Many parsers, one after the other -/

/-- The rest of a sequence, after the given values and events, latest first. -/
def sequenceFrom : List (Parser α) → List α → List Event → Parser (List α)
  | [], values, log, input => ⟨.success values.reverse input, log.reverse⟩
  | p :: parsers, values, log, input =>
    let reply := p input
    let log := reply.events.reverseAux log
    match reply.outcome with
    | .success value rest => sequenceFrom parsers (value :: values) log rest
    | .failure f => ⟨.failure f, log.reverse⟩
    | .diverges => ⟨.diverges, log.reverse⟩

/-- Runs the parsers of a list in order and keeps all values. -/
def sequence (parsers : List (Parser α)) : Parser (List α) := sequenceFrom parsers [] []

/-- The rest of a fixed number of runs, after the given values and events, latest first. -/
def timesFrom (p : Parser α) : Nat → List α → List Event → Parser (List α)
  | 0, values, log, input => ⟨.success values.reverse input, log.reverse⟩
  | n + 1, values, log, input =>
    let reply := p input
    let log := reply.events.reverseAux log
    match reply.outcome with
    | .success value rest => timesFrom p n (value :: values) log rest
    | .failure f => ⟨.failure f, log.reverse⟩
    | .diverges => ⟨.diverges, log.reverse⟩

/-- Runs a parser a fixed number of times and keeps all values. -/
def times (n : Nat) (p : Parser α) : Parser (List α) := timesFrom p n [] []

/-! ## Spans -/

/-- Reports each run of a parser: the attempt, and then whether it matched. Both, and all that the
run itself reports, are enclosed in a span with the given name. -/
def traced (name : String) (p : Parser α) : Parser α := fun input =>
  let reply := p input
  let attempt : Event := ⟨.attempt input, [name]⟩
  let inside := reply.events.map (Event.within name)
  let finish : List Event := match reply.outcome with
    | .success _ rest => [⟨.matched rest, [name]⟩]
    | .failure f => [⟨.failed f, [name]⟩]
    | .diverges => []
  ⟨reply.outcome, attempt :: (inside ++ finish)⟩

end Descent.Parser
