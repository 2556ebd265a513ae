import StagedBuild.Action.Disk
import StagedBuild.Pool
import StagedBuild.Tool.Run

/-!
Compiling units. Each unit is compiled to an object beside it, on every build.
-/

namespace StagedBuild.Units

/-- The command that compiles a unit. -/
def command (plan : Plan) (u : Path) : List String :=
  [plan.clangpp.text, "-c", u.text, "-o", u.objectPath.text] ++ plan.compileFlags

def compileOne (plan : Plan) (u : Path) : Action ToolResult := do
  if plan.verbose then Action.say ("      [unit] " ++ u.name)
  Tool.run (command plan u) (some plan.workdir)

/-- The fault of a unit that does not compile. -/
def compileFault (u : Path) (r : ToolResult) : BuildFault :=
  .tool .unitCompile ("Failed to compile " ++ u.name) (some r)

/-- Compiles all units and gives their objects, in the order of the units. -/
def compileEach (plan : Plan) (units : List Path) : Action (List Path) := do
  let run ← Pool.run (fun u => some <$> compileOne plan u) units plan.jobs
  match run.earliestFailure? with
  | some (u, r) => throw (.build (compileFault u r))
  | none => return units.map Path.objectPath

end StagedBuild.Units
