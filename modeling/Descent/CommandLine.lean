import Descent.Json.Grammar
import Descent.Json.Printer
import Descent.Semver.Grammar
import Descent.Text.Inspect

/-!
# Reports of the command line

Two tools: one reads a JSON text and writes it compactly, the other reads version strings and shows
their parts. Both have an example to work on when they are given nothing. What they print, and
whether they succeed, is a *report*.
-/

namespace Descent

/-- What a run of a tool prints, and whether it succeeds. -/
structure Report where
  succeeded : Bool
  output : String
deriving DecidableEq, Inhabited

def Report.exitCode (r : Report) : UInt32 := if r.succeeded then 0 else 1

namespace Json

/-- The JSON text to read when none is given. -/
def exampleText : String :=
  "\n   \x7b\n     \"foo\"   :    \"bar\"   ,\n     \"hello\": \x7b\n        \"world\": true\n" ++
  "     \x7d,\n     \"stuff\":  [  \"something\" ,   true, null]\n\x7d\n"

/-- Read a JSON text, the first argument if there is one, and write it compactly. -/
def report (arguments : List String) : Report :=
  match parse ((arguments.head?.getD exampleText).toList) with
  | .complete value => ⟨true, value.render ++ "\n"⟩
  | _ => ⟨false, ""⟩

end Json

namespace Version

/-- The version string to read when none is given. -/
def exampleText : String := "1.0.0-alpha.beta+exp.sha.5114f85"

/-- The line that shows the parts of a version, after the text that it was read from. -/
def reportLine (input : String) (v : Version) : String :=
  input ++ ": major " ++ toString v.major ++ " minor " ++ toString v.minor ++ " patch " ++
    toString v.patch ++ " pre-release " ++ inspect v.preRelease ++ " build " ++
    inspect v.build ++ "\n"

def reportOne (input : String) : Report :=
  match parse input.toList with
  | .complete v => ⟨true, reportLine input v⟩
  | _ => ⟨false, ""⟩

/-- Two reports, one after the other. Both have to succeed. -/
def reportBoth (r s : Report) : Report := ⟨r.succeeded && s.succeeded, r.output ++ s.output⟩

/-- Show the parts of all version strings among the arguments that are valid. The report succeeds if
all of them are. -/
def report (arguments : List String) : Report :=
  let inputs := if arguments.isEmpty then [exampleText] else arguments
  (inputs.map reportOne).foldl reportBoth ⟨true, ""⟩

end Version
end Descent
