import Descent.Parser.Basic

/-!
# Repetition

Combinators that run a parser again and again, as long as it succeeds, and collect the values in
order. A round that consumes nothing would be followed by the same round again, so a text allows as
many productive rounds as it has characters. The loops count them off along the text itself; one
that has no rounds left although its parser still succeeds does not end.
-/

namespace Descent.Parser

variable {α β : Type}

/-- A run that does not end, after the given events, latest first. -/
def endless (log : List Event) : Reply (List α) := ⟨.diverges, log.reverse⟩

/-- One round of `atLeast`, after the given values and events, latest first, and with `least` more
values to be read. After a success it goes on as `again` says. -/
@[inline] def atLeastRound (p : Parser α) (least : Nat) (values : List α) (log : List Event)
    (again : α → List Event → Parser (List α)) : Parser (List α) := fun input =>
  let reply := p input
  let log := reply.events.reverseAux log
  match reply.outcome with
  | .success value rest => again value log rest
  | .failure f =>
    if least = 0 then ⟨.success values.reverse input, log.reverse⟩
    else ⟨.failure f, log.reverse⟩
  | .diverges => ⟨.diverges, log.reverse⟩

/-- The rounds of `atLeast`, as many as there are characters in the first argument. -/
def atLeastFrom (p : Parser α) : Text → Nat → List α → List Event → Parser (List α)
  | [], least, values, log, input =>
    atLeastRound p least values log (fun _ log _ => endless log) input
  | _ :: rounds, least, values, log, input =>
    atLeastRound p least values log
      (fun value log rest => atLeastFrom p rounds (least - 1) (value :: values) log rest) input

/-- Runs a parser as often as it succeeds, and at least `n` times. -/
def atLeast (n : Nat) (p : Parser α) : Parser (List α) := fun input =>
  atLeastFrom p input n [] [] input

/-- Zero or more values. -/
def many (p : Parser α) : Parser (List α) := atLeast 0 p

/-- One or more values. -/
def many1 (p : Parser α) : Parser (List α) := atLeast 1 p

/-- One round of a separated list, after the given values and events, latest first. A separator only
counts when a value follows it; otherwise the list ends before the separator. After a value it goes
on as `again` says. -/
@[inline] def sepByRound (p : Parser α) (separator : Parser β) (values : List α)
    (log : List Event) (again : α → List Event → Parser (List α)) : Parser (List α) := fun input =>
  let gap := separator input
  let log := gap.events.reverseAux log
  match gap.outcome with
  | .success _ afterGap =>
    let reply := p afterGap
    let log := reply.events.reverseAux log
    match reply.outcome with
    | .success value rest => again value log rest
    | .failure _ => ⟨.success values.reverse input, log.reverse⟩
    | .diverges => ⟨.diverges, log.reverse⟩
  | .failure _ => ⟨.success values.reverse input, log.reverse⟩
  | .diverges => ⟨.diverges, log.reverse⟩

/-- The rounds of a separated list after its first value, as many as there are characters in the
first argument. -/
def sepByFrom (p : Parser α) (separator : Parser β) :
    Text → List α → List Event → Parser (List α)
  | [], values, log, input =>
    sepByRound p separator values log (fun _ log _ => endless log) input
  | _ :: rounds, values, log, input =>
    sepByRound p separator values log
      (fun value log rest => sepByFrom p separator rounds (value :: values) log rest) input

/-- One or more values with a separator between any two. -/
def sepBy1 (p : Parser α) (separator : Parser β) : Parser (List α) := fun input =>
  let reply := p input
  match reply.outcome with
  | .success value rest => sepByFrom p separator rest [value] reply.events.reverse rest
  | .failure f => ⟨.failure f, reply.events⟩
  | .diverges => ⟨.diverges, reply.events⟩

/-- Zero or more values with a separator between any two. -/
def sepBy (p : Parser α) (separator : Parser β) : Parser (List α) := fun input =>
  let reply := p input
  match reply.outcome with
  | .success value rest => sepByFrom p separator rest [value] reply.events.reverse rest
  | .failure _ => ⟨.success [] input, reply.events⟩
  | .diverges => ⟨.diverges, reply.events⟩

end Descent.Parser
