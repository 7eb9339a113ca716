import Descent.Text.Snippet

/-!
# Failures

Why a parser did not succeed. A failure is a non-empty list of *causes*, one for each alternative
that was tried, in the order in which they were tried. The wording of a diagnostic is in
`Cause.message` and `Failure.message` and nowhere else; two failures are equal when their messages
are.
-/

namespace Descent

/-- One reason for a parser to fail, with the texts that its diagnostic quotes. -/
inductive Cause where
  /-- A character was wanted where the text ends. -/
  | emptyInput
  /-- The text does not start as it should. -/
  | unexpected (input : Text)
  /-- The text should have ended where this begins. -/
  | trailing (input : Text)
  /-- A value was read, but it could not be converted, for the given reason. -/
  | unconvertible (reason : String) (input : Text)
  /-- A value was read, and shown as `found`, that is not what was expected. -/
  | rejected (expectation found : String) (before after : Text)
  /-- The text does not start with a match of a pattern. -/
  | mismatch (pattern : String) (input : Text)
  | nesting (limit : Nat) (input : Text)
  /-- A rule was used that has no definition. -/
  | undefinedRule
  /-- A reason in words of its own. -/
  | reported (message : String)
deriving DecidableEq, Inhabited

/-- The diagnostic of a cause. Texts are quoted as snippets. -/
def Cause.message : Cause → String
  | emptyInput => "Empty input"
  | unexpected input => "Invalid input: " ++ input.snippet
  | trailing input => "Unconsumed input: " ++ input.snippet
  | unconvertible reason input => reason ++ ". Invalid input: " ++ input.snippet
  | rejected expectation found before after =>
    "Expected " ++ expectation ++ ", found " ++ found ++ " (input: " ++ before.snippet ++
      ", remaining: " ++ after.snippet ++ ")"
  | mismatch pattern input => "Expected /" ++ pattern ++ "/. Invalid input: " ++ input.snippet
  | nesting limit input =>
    "Nesting deeper than " ++ toString limit ++ " levels. Invalid input: " ++ input.snippet
  | undefinedRule => "Recursive parser invoked before it was defined"
  | reported message => message

/-- A failure: the cause of the first alternative and those of the others after it. -/
structure Failure where
  first : Cause
  others : List Cause := []
deriving DecidableEq, Inhabited

namespace Failure

def ofCause (cause : Cause) : Failure := ⟨cause, []⟩

instance : Coe Cause Failure := ⟨ofCause⟩

/-- The causes of a failure in order. -/
def causes (f : Failure) : List Cause := f.first :: f.others

/-- The failure of two alternatives of which neither succeeded. -/
def or (f g : Failure) : Failure := ⟨f.first, f.others ++ g.causes⟩

/-- The diagnostic of a failure: those of its causes in order, joined by `OR`. -/
def message (f : Failure) : String :=
  f.others.foldl (fun joined cause => joined ++ " OR " ++ cause.message) f.first.message

instance : BEq Failure := ⟨fun f g => f.message == g.message⟩

/-! ## Alternatives -/

/-- The failure of two alternatives has the causes of both, in order. -/
@[simp] theorem causes_or (f g : Failure) : (f.or g).causes = f.causes ++ g.causes := rfl

theorem or_assoc (f g h : Failure) : (f.or g).or h = f.or (g.or h) := by
  simp [or, causes]

/-- Joining the messages of causes to a text leaves its beginning alone. -/
theorem foldl_message_append (a b : String) (causes : List Cause) :
    causes.foldl (fun joined cause => joined ++ " OR " ++ cause.message) (a ++ b) =
      a ++ causes.foldl (fun joined cause => joined ++ " OR " ++ cause.message) b := by
  induction causes generalizing b with
  | nil => rfl
  | cons c rest ih =>
    have h : a ++ b ++ " OR " ++ c.message = a ++ (b ++ " OR " ++ c.message) := by
      simp only [String.append_assoc]
    rw [List.foldl_cons, h, ih, List.foldl_cons]

/-- The message of two alternatives is that of both, joined by `OR`. -/
theorem message_or (f g : Failure) : (f.or g).message = f.message ++ " OR " ++ g.message := by
  simp only [message, or, causes, List.foldl_append, List.foldl_cons, foldl_message_append]

/-- The failure of a list of alternatives, if there are any. -/
def ofAlternatives : List Failure → Option Failure
  | [] => none
  | f :: rest => some (rest.foldl or f)

end Failure
end Descent
