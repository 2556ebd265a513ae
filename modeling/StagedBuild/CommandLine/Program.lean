import StagedBuild.Artifact.Resolver
import StagedBuild.Build.Whole
import StagedBuild.CommandLine.Command
import StagedBuild.CommandLine.Report

/-!
The program: what each command does and the exit code in which it ends. A command that has done all
its work ends in 0, an interrupted one in 130, and any other in 1 with a report of what went wrong.
-/

namespace StagedBuild.CommandLine

/-- Fetches the manifest of a tool and the jars that it leads to. -/
def install (order : GetOrder) : Action Unit := do
  let properties ← PublishedTool.fetch .default order.repository
  if order.verbose then Action.say ("Artifact: " ++ properties.coordinate.text)
  let resolver ← Artifact.Resolver.ofEnvironment
  let jars ← Artifact.obtainJars resolver properties.coordinate
  Action.say ("Fetched jars:\n  " ++ "\n  ".intercalate (jars.map Path.text))

/-- Reports the fault in which the installation of a tool ended. -/
def reportInstallFault (verbose : Bool) : Fault → Action Int
  | .manifest fault => Report.expected "Invalid tool manifest" fault.message
  | .resolution fault => Report.expected "Artifact not found" fault.message
  | .download fault => Report.expected "Download failed" fault.message
  | .interrupted => Report.interrupt
  | fault => Report.unexpectedFault fault verbose

def GetOrder.run (order : GetOrder) : Action Int := do
  Action.say ("Installing " ++ order.repository.text ++ "...")
  match ← Action.outcome (install order) with
  | .ok _ => return Report.doneCode
  | .error fault => reportInstallFault order.verbose fault

/-- A number of hundredths with two places. -/
def hundredthsText (n : Nat) : String :=
  let places := toString (n % 100)
  toString (n / 100) ++ "." ++ (if n % 100 < 10 then "0" ++ places else places)

def clock : Action Nat :=
  return (← read).clock (← get)

/-- The work directory of a build that names none. -/
def usualWorkdir : Path := Path.parse "target/native"

/-- How a work directory is shown that may be set to nothing. -/
def workdirText : Setting Path → String
  | .unsaid => usualWorkdir.text
  | .nothing => "[]"
  | .value workdir => workdir.text

/-- The work directory that is meant; nothing is no directory. -/
def workdirOf : Setting Path → Action Path
  | .unsaid => return usualWorkdir
  | .nothing => throw .wrongType
  | .value workdir => return workdir

/-- Settles the plan and builds, and reports success. -/
def buildExecutable (order : LinkOrder) (classpath : List Path) : Action Unit := do
  let tools ← Intermediate.load order.irTools
  let builder ← Build.Builder.ofEnvironment tools order.verbose
  if order.verbose then
    Action.say ("Building " ++ order.main ++ " in " ++ workdirText order.workdir)
    Action.say ""
  let start ← clock
  let plan ← Build.settle builder
    { classpath, workdir := ← workdirOf order.workdir, main := order.main,
      gc := order.gc.value?, mode := order.mode.value?, jobs := order.jobs }
  let result ← Build.build plan tools
  let finish ← clock
  Report.success "Build successful!"
  Action.say ""
  Action.say ("Executable: " ++ result.output.text)
  if order.verbose then
    Action.say ("Units: " ++ toString result.units.length ++ ", runtime objects: "
      ++ toString result.library.objects.length)
  Action.say ("Build time: " ++ hundredthsText (finish - start) ++ "s")

/-- Reports the fault in which a build ended. -/
def reportBuildFault (verbose : Bool) : Fault → Action Int
  | .build fault => Report.expected "Build failed!" fault.message
  | .interrupted => Report.interrupt
  | fault => Report.unexpectedFault fault verbose

/-- Builds an executable. A classpath that is set to nothing cannot be taken apart, which is found
before anything else is done. -/
def LinkOrder.run (order : LinkOrder) : Action Int := do
  let entries ←
    match order.classpath.mapM id with
    | some written => pure (CommandLine.classpath written)
    | none => throw .noAttribute
  match ← Action.outcome (buildExecutable order entries) with
  | .ok _ => return Report.doneCode
  | .error fault => reportBuildFault order.verbose fault

/-- Runs a command, and gives its exit code. -/
def Command.run : Command → Action Int
  | .get order => order.run
  | .link order => order.run
  | .version => do
    Action.say programVersion
    return Report.doneCode
  | .help => do
    Action.print .output programHelp
    return Report.doneCode

/-- Shows what ended the reading of a command line, and gives the exit code. -/
def Stop.show : Stop → Action Int
  | .shown text => do
    Action.print .output text
    return Report.doneCode
  | .refused usage program complaint => do
    Action.print .errors (usage ++ program ++ ": error: " ++ complaint ++ "\n")
    return Report.misusedCode

/-- Runs the program with the words of a command line, and gives its exit code. Without a command it
shows help. -/
def run (words : List String) : Action Int := do
  match readCommandLine words with
  | .ok command => (command.getD .help).run
  | .error stop => stop.show

end StagedBuild.CommandLine
