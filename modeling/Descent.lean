import Descent.Arena.Session
import Descent.Main
import Descent.Proofs.Arena.Store
import Descent.Proofs.Json.RoundTrip
import Descent.Proofs.Json.Silence
import Descent.Proofs.Semver.Language
import Descent.Proofs.Arena.WriteOnce
import Descent.Proofs.Grammar.Composition
import Descent.Proofs.Grammar.Completion
import Descent.Proofs.Json.Termination
import Descent.Proofs.Parser.Events
import Descent.Proofs.Json.Calls
import Descent.Proofs.Json.Nesting
import Descent.Proofs.Json.Tracking
import Descent.Proofs.Json.Attempts
import Descent.Proofs.Parser.Likeness
import Descent.Proofs.Grammar.Titles
import Descent.Proofs.Grammar.Likeness
import Descent.Proofs.Arena.Likeness
import Descent.Proofs.Grammar.Transparency
import Descent.Proofs.Grammar.Spans
import Descent.Proofs.Grammar.Diagnostics
import Descent.Proofs.Arena.Resolution
import Descent.Proofs.Arena.Ownership
import Descent.Proofs.Grammar.Rules
import Descent.Proofs.Grammar.Undefined
import Descent.Proofs.Arena.Group
import Descent.Proofs.Arena.Arrangement
import Descent.Proofs.Arena.Thunk
import Descent.Proofs.Arena.RuleOrder
import Descent.Proofs.Json.NormalForm
import Descent.Proofs.Json.Walk
import Descent.Proofs.Grammar.Forest
import Descent.Proofs.Semver.Longest
import Descent.Proofs.Termination
import Descent.Proofs.Brevity
import Descent.Proofs.Json.CodeUnits
import Descent.Proofs.Parser.Laws
import Descent.Proofs.Json.LongestNumber
import Descent.Proofs.Json.Duplicates
import Descent.Proofs.Parser.Greedy
import Descent.Proofs.Parser.Bracketing
import Descent.Proofs.Parser.Literal
import Descent.Proofs.Integer
import Descent.Proofs.CommandLine
