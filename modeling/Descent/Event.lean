import Descent.Failure

/-!
# Events

What a run of a parser reports about itself. An event is a *notice* together with the spans that
enclose it; a span is opened by each run of a traced parser and bears that parser's name.
-/

namespace Descent

inductive Level where
  | trace
  | debug
  | warn
deriving DecidableEq, Inhabited

/-- The name of a level as a log shows it. -/
def Level.name : Level → String
  | trace => "TRACE"
  | debug => "DEBUG"
  | warn => "WARN"

inductive Notice where
  /-- A traced parser starts on this text. -/
  | attempt (input : Text)
  /-- A traced parser has succeeded and left this text. -/
  | matched (remaining : Text)
  | failed (failure : Failure)
  /-- A rule without a definition was used. -/
  | undefinedRule
  /-- A whole text was to be read, and the parser failed. -/
  | rejected (failure : Failure)
  /-- A whole text was to be read, and the parser stopped after so many bytes. -/
  | unconsumed (offset : Nat)
deriving DecidableEq, Inhabited

namespace Notice

/-- The level at which a notice is given. -/
def level : Notice → Level
  | attempt _ | matched _ | failed _ => .trace
  | undefinedRule => .warn
  | rejected _ | unconsumed _ => .debug

def message : Notice → String
  | attempt _ => "attempt"
  | matched _ => "matched"
  | failed _ => "failed"
  | undefinedRule => "recursive parser invoked before it was defined"
  | rejected _ => "parse rejected"
  | unconsumed _ => "parse left input unconsumed"

/-- What a notice says besides its message, by name. -/
def details : Notice → List (String × String)
  | attempt input => [("input", input.snippet)]
  | matched remaining => [("remaining", remaining.snippet)]
  | failed failure => [("failure", failure.message)]
  | undefinedRule => []
  | rejected failure => [("failure", failure.message)]
  | unconsumed offset => [("offset", toString offset)]

end Notice

/-- A notice and the names of the spans that enclose it, outermost first. -/
structure Event where
  notice : Notice
  spans : List String := []
deriving DecidableEq, Inhabited

namespace Event

def spanTitle : String := "parse"

def spanLevel : Level := .trace

/-- The event seen from outside a span that was opened around all of its spans. -/
def within (name : String) (e : Event) : Event := { e with spans := name :: e.spans }

end Event
end Descent
