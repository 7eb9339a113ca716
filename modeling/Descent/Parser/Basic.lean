import Descent.Event

/-!
# Parsers

A parser is a function from a text to a *reply*: how the run ends, and the events that it reports.
A run either succeeds with a value and the text it leaves, or fails, or does not end. Endlessness is
an outcome of its own, so every parser is a total function; it arises only where a repetition stops
making progress and where a rule calls itself without having read anything.

`Reply.next` and `Reply.recover` are the two ways to go on after a run, and every combinator is
built from them or from a loop that keeps the same record of events: all events of a run are kept,
also those of alternatives that failed.
-/

namespace Descent

/-- How a run of a parser ends. -/
inductive Outcome (α : Type) where
  /-- The run read a value and left the remaining text. -/
  | success (value : α) (remaining : Text)
  | failure (failure : Failure)
  | diverges
deriving DecidableEq, Inhabited

namespace Outcome

variable {α β : Type}

def map (f : α → β) : Outcome α → Outcome β
  | success value remaining => success (f value) remaining
  | failure f => failure f
  | diverges => diverges

/-- Change the failure of a run that failed. -/
def mapFailure (f : Failure → Failure) : Outcome α → Outcome α
  | success value remaining => success value remaining
  | failure g => failure (f g)
  | diverges => diverges

end Outcome

/-- The outcome of a run and the events that it reported, in order. -/
structure Reply (α : Type) where
  outcome : Outcome α
  events : List Event := []
deriving DecidableEq, Inhabited

namespace Reply

variable {α β : Type}

/-- Success without events. -/
def success (value : α) (remaining : Text) : Reply α := ⟨.success value remaining, []⟩

/-- Failure without events. -/
def failure (f : Failure) : Reply α := ⟨.failure f, []⟩

def diverges : Reply α := ⟨.diverges, []⟩

def map (f : α → β) (reply : Reply α) : Reply β := ⟨reply.outcome.map f, reply.events⟩

/-- Change the failure of a run that failed. -/
def mapFailure (f : Failure → Failure) (reply : Reply α) : Reply α :=
  ⟨reply.outcome.mapFailure f, reply.events⟩

/-- The same reply, after earlier events. -/
def after (earlier : List Event) (reply : Reply α) : Reply α :=
  ⟨reply.outcome, earlier ++ reply.events⟩

/-- Go on after a success, with its value and the text it left. -/
def next (reply : Reply α) (go : α → Text → Reply β) : Reply β :=
  match reply.outcome with
  | .success value remaining => (go value remaining).after reply.events
  | .failure f => ⟨.failure f, reply.events⟩
  | .diverges => ⟨.diverges, reply.events⟩

/-- Go on after a failure. -/
def recover (reply : Reply α) (go : Failure → Reply α) : Reply α :=
  match reply.outcome with
  | .success value remaining => ⟨.success value remaining, reply.events⟩
  | .failure f => (go f).after reply.events
  | .diverges => ⟨.diverges, reply.events⟩

/-! ### What a run that is known leads to -/

@[simp] theorem next_success (value : α) (remaining : Text) (go : α → Text → Reply β) :
    (success value remaining).next go = go value remaining := rfl

@[simp] theorem next_failure (f : Failure) (go : α → Text → Reply β) :
    (failure f : Reply α).next go = failure f := rfl

@[simp] theorem next_diverges (go : α → Text → Reply β) :
    (diverges : Reply α).next go = diverges := rfl

@[simp] theorem recover_success (value : α) (remaining : Text) (go : Failure → Reply α) :
    (success value remaining).recover go = success value remaining := rfl

@[simp] theorem recover_failure (f : Failure) (go : Failure → Reply α) :
    (failure f).recover go = go f := rfl

@[simp] theorem recover_diverges (go : Failure → Reply α) :
    (diverges : Reply α).recover go = diverges := rfl

/-- A run that goes on with success has succeeded, and so has what came after it. -/
theorem exists_of_next_eq_success {reply : Reply α} {go : α → Text → Reply β} {value : β}
    {remaining : Text} (h : (reply.next go).outcome = .success value remaining) :
    ∃ first rest, reply.outcome = .success first rest ∧
      (go first rest).outcome = .success value remaining := by
  unfold next at h
  split at h
  · exact ⟨_, _, ‹_›, h⟩
  · cases h
  · cases h

end Reply

/-- A parser for values of type `α`. -/
abbrev Parser (α : Type) : Type := Text → Reply α

end Descent
