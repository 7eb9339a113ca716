import Descent.Parser.Basic

/-!
# Reading a whole text

`Parser.complete` runs a parser and wants it to read the text to its end. What is in the way is
either a failure or text that was left over, and the events say which.
-/

namespace Descent

/-- The result of reading a whole text. -/
inductive Completion (α : Type) where
  | complete (value : α)
  | rejected (failure : Failure)
  /-- The parser succeeded after `offset` bytes and left the remaining text. -/
  | incomplete (offset : Nat) (remaining : Text)
  | diverges
deriving DecidableEq, Inhabited

namespace Completion

variable {α β : Type}

def map (f : α → β) : Completion α → Completion β
  | complete value => complete (f value)
  | rejected f => rejected f
  | incomplete offset remaining => incomplete offset remaining
  | diverges => diverges

/-- The value, if the whole text was read. -/
def value? : Completion α → Option α
  | complete value => some value
  | _ => none

/-- Results are equal when they are of one kind and have equal values, equal messages, or the same
offset and remaining text. A run that does not end equals nothing. -/
protected def beq [BEq α] : Completion α → Completion α → Bool
  | complete a, complete b => a == b
  | rejected f, rejected g => f == g
  | incomplete m r, incomplete n s => m == n && r == s
  | _, _ => false

instance [BEq α] : BEq (Completion α) := ⟨Completion.beq⟩

/-- The diagnostic for text that was left over. -/
def unconsumedMessage (offset : Nat) (remaining : Text) : String :=
  "Unconsumed input at offset " ++ toString offset ++ ": " ++ remaining.snippet

/-- The advice that goes with text that was left over. -/
def unconsumedHelp : String :=
  "the grammar matched a prefix of the input; check what follows it"

end Completion

namespace Parser

variable {α : Type}

/-- Runs a parser on a whole text. One event is added where the text was not read to its end. -/
def complete (p : Parser α) (input : Text) : Completion α × List Event :=
  let reply := p input
  match reply.outcome with
  | .success value [] => (.complete value, reply.events)
  | .success _ remaining =>
    let offset := input.byteLength - remaining.byteLength
    (.incomplete offset remaining, reply.events ++ [⟨.unconsumed offset, []⟩])
  | .failure f => (.rejected f, reply.events ++ [⟨.rejected f, []⟩])
  | .diverges => (.diverges, reply.events)

/-- The result of running a parser on a whole text. -/
def parseComplete (p : Parser α) (input : Text) : Completion α := (p.complete input).1

/-- Runs parsers one after the other, each on what the last that succeeded left. A parser that fails
consumes nothing, and one that could not be built is passed over with its error. -/
def chain {ε : Type} (parsers : List (Except ε (Parser α))) (input : Text) :
    List (Except ε (Outcome α)) :=
  match parsers with
  | [] => []
  | .error e :: rest => .error e :: chain rest input
  | .ok p :: rest =>
    let outcome := (p input).outcome
    let remaining := match outcome with
      | .success _ remaining => remaining
      | _ => input
    .ok outcome :: chain rest remaining

end Parser
end Descent
