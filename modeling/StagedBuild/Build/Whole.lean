import StagedBuild.Build.Stages
import StagedBuild.Compiler.Target
import StagedBuild.Setting

/-!
A whole build: settling the plan, and running the stages up to the executable.
-/

namespace StagedBuild.Build

/-- What a build has to work with: a toolchain for the intermediate representation, the environment
that counts, and the way of finding compilers. -/
structure Builder where
  tools : IrTools
  verbose : Bool
  environment : List (String × String)
  finder : Compiler.Finder

/-- The result of a whole build. -/
structure Result where
  output : Path
  units : List Path
  unitObjects : List Path
  library : NativeLibrary.Assembled
  stages : List Stage

/-- What a user asks a build for. What is left open has a default. -/
structure Order where
  classpath : List Path
  workdir : Path
  main : String
  gc : Option Collector
  mode : Option Mode
  jobs : Setting Int

/-- The variable that says how many compilers run at a time. -/
def jobsVariable : String := "NATIVEBUILD_JOBS"

/-- The number of compilers that run at a time: what is asked for, what the environment says, or one
for each processor. -/
def jobCount (environment : List (String × String)) (asked : Setting Int) : Action Int := do
  let around ← read
  let fallback : Int := usualJobs around.processors
  match asked with
  | .value jobs => return max 1 jobs
  | .nothing => throw .wrongType
  | .unsaid =>
    match (environment.lookup jobsVariable).filter (· ≠ "") with
    | none => return fallback
    | some value =>
      match Text.readInt value with
      | .ok jobs => return max 1 jobs
      | .error _ =>
        Action.warn (.invalidJobs value)
        return fallback

/-- Settles the plan of a build. -/
def settle (o : Builder) (order : Order) : Action Plan := do
  let workdir ← Disk.absolute order.workdir
  Disk.makeDirectories workdir
  let archive ← Compiler.findArchive order.classpath
  let clang ← o.finder.clang
  let clangpp ← o.finder.clangpp
  let target ← Compiler.detectTarget clang workdir
  let compileFlags ← Compiler.compileFlags
  let linkFlags ← Compiler.linkFlags
  let around ← read
  let jobs ← jobCount o.environment order.jobs
  let plan : Plan :=
    { clang, clangpp, target, entry := order.main, workdir, archive,
      classpath := order.classpath, compileFlags, linkFlags,
      gc := order.gc.getD .default, mode := order.mode.getD .default,
      systemName := around.systemName, linkStubs := true, jobs, verbose := o.verbose }
  if o.verbose then
    plan.description.forM fun (key, value) =>
      Action.say ("      " ++ key ++ ": " ++ value)
  return plan

def stages (plan : Plan) (tools : IrTools) : StageResults.Staged Result := do
  let output ← StageResults.outputStage plan tools
  let units ← StageResults.unitsStage plan tools
  let unitObjects ← StageResults.unitObjectsStage plan tools
  let library ← StageResults.libraryStage plan tools
  return ⟨output, units, unitObjects, library, (← get).finished⟩

/-- Runs all stages of a build. -/
def build (plan : Plan) (tools : IrTools) : Action Result := do
  let (outcome, _) ← StageResults.runFrom .empty (stages plan tools)
  Action.ofExcept id outcome

/-- Settles the plan, runs all stages, and gives the executable. -/
def link (o : Builder) (order : Order) : Action Path := do
  let plan ← settle o order
  return (← build plan o.tools).output

/-- The builder that goes by the environment of the process. -/
def Builder.ofEnvironment (tools : IrTools) (verbose : Bool) : Action Builder := do
  let around ← read
  return ⟨tools, verbose, around.environment, ⟨around.environment, none⟩⟩

end StagedBuild.Build
