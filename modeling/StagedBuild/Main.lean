import StagedBuild.CommandLine.LogLevel
import StagedBuild.CommandLine.Program

/-!
The program as it is started: it does what the words of the command line ask for and ends with the
exit code of the command. It has no tools, no servers and no toolchains at hand, so a command that
needs one ends in the report that says so.
-/

namespace StagedBuild.CommandLine

/-- The variables of the environment that commands look at. -/
def variableNames : List String := [
  "HOME", "PATH", "CLANG_PATH", "CLANGPP_PATH", Build.jobsVariable, Artifact.cacheVariable]

def readVariables : IO (List (String × String)) :=
  variableNames.filterMapM fun name => do
    return (← IO.getEnv name).map fun value => (name, value)

def showEvent : Event → IO Unit
  | .printed .output text => do (← IO.getStdout).putStr text
  | .printed .errors text => do (← IO.getStderr).putStr text
  | .warned warning => do
    (← IO.getStderr).putStr (LogLevel.line .warning warning.source warning.text)
  | _ => pure ()

end StagedBuild.CommandLine

open StagedBuild StagedBuild.CommandLine in
def main (words : List String) : IO UInt32 := do
  let around := { Surroundings.still [] with environment := ← readVariables }
  let (outcome, w) := (run words).perform around (.ofTree .empty)
  w.events.forM showEvent
  match outcome with
  | .ok code => return UInt32.ofNat code.toNat
  | .error _ => return UInt32.ofNat Report.failedCode.toNat
