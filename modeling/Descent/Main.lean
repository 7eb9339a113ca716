import Descent.CommandLine

/-!
# The command line

`descent json [text]` writes a JSON text compactly, and `descent semver [version ...]` shows the
parts of versions.
-/

namespace Descent

/-- Print a report and give its exit code. -/
def Report.finish (r : Report) : IO UInt32 := do
  IO.print r.output
  return r.exitCode

end Descent

/-- Run the tool that the first argument names. -/
def main (arguments : List String) : IO UInt32 :=
  match arguments with
  | "json" :: rest => (Descent.Json.report rest).finish
  | "semver" :: rest => (Descent.Version.report rest).finish
  | _ => do
    IO.eprintln "usage: descent json [text] | descent semver [version ...]"
    return 2
