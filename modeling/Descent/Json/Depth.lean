import Descent.Parser.Primitive

/-!
# The limit on nesting

Every level of arrays and objects is a level of recursion in the grammar. Before a value is read,
its text is scanned to the end of that value, and one that nests too deeply is refused before any
part of it is read. The scan counts brackets, and skips those inside strings.
-/

namespace Descent.Json

/-- The deepest nesting of arrays and objects that is read. -/
def maxDepth : Nat := 128

/-- Where a scan stands with regard to strings. -/
inductive ScanMode where
  | outside
  | inString
  | escaped
deriving DecidableEq, Inhabited

/-- The state of a scan: the number of brackets that are open, and the mode. -/
structure Scan where
  depth : Nat
  mode : ScanMode
deriving DecidableEq, Inhabited

/-- What a scan does after a character. -/
inductive ScanStep where
  /-- The scan goes on. -/
  | go (scan : Scan)
  /-- The value ends here. -/
  | stop
  /-- The value nests too deeply. -/
  | tooDeep
deriving DecidableEq, Inhabited

namespace Scan

/-- The state in which a scan starts. -/
def start : Scan := ⟨0, .outside⟩

/-- Whether a character opens an array or an object. -/
def isOpening (c : Char) : Bool := c == '[' || c == '\x7b'

/-- Whether a character closes an array or an object. -/
def isClosing (c : Char) : Bool := c == ']' || c == '\x7d'

/-- One character of a scan. Outside strings, a value ends where the last open bracket is closed, or
at a character that is part of neither bracket nor string when none is open. -/
def step (s : Scan) (c : Char) : ScanStep :=
  match s.mode with
  | .escaped => .go ⟨s.depth, .inString⟩
  | .inString =>
    if c == '\\' then .go ⟨s.depth, .escaped⟩
    else if c == '"' then .go ⟨s.depth, .outside⟩
    else .go s
  | .outside =>
    if c == '"' then .go ⟨s.depth, .inString⟩
    else if isOpening c then
      if maxDepth < s.depth + 1 then .tooDeep else .go ⟨s.depth + 1, .outside⟩
    else if isClosing c then
      if s.depth - 1 = 0 then .stop else .go ⟨s.depth - 1, .outside⟩
    else if s.depth = 0 then .stop
    else .go s

/-- Whether the value whose text starts here nests no deeper than allowed. -/
def accepts (s : Scan) : Text → Bool
  | [] => true
  | c :: rest =>
    match s.step c with
    | .go next => next.accepts rest
    | .stop => true
    | .tooDeep => false

end Scan

/-- Refuses a value that nests too deeply. Consumes nothing. -/
def depthLimit : Parser Unit := fun input =>
  if Scan.start.accepts input then .success () input
  else .failure (Cause.nesting maxDepth input)

end Descent.Json
