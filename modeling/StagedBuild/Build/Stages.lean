import StagedBuild.Executable
import StagedBuild.NativeLibrary.Assembly
import StagedBuild.Units.Compilation
import StagedBuild.Units.Generation

/-!
The stages of one build. A stage asks for the results of the stages that it depends on, and is run
at most once: a result that is there is given again. A stage that fails leaves no result and may be
tried again.
-/

namespace StagedBuild

/-- The stages of a build. -/
inductive Stage where
  | linkIr
  | optimize
  | generate
  | compileUnits
  | compileLibrary
  | linkExecutable
  deriving DecidableEq, Repr

namespace Stage

/-- All stages, in the order in which they are counted. -/
def all : List Stage := [linkIr, optimize, generate, compileUnits, compileLibrary, linkExecutable]

def title : Stage → String
  | linkIr => "Linking IR"
  | optimize => "Optimizing"
  | generate => "Generating code"
  | compileUnits => "Compiling units"
  | compileLibrary => "Compiling native library"
  | linkExecutable => "Linking native executable"

/-- The line that announces a stage. -/
def announcement (stage : Stage) : String :=
  "[" ++ toString (all.idxOf stage + 1) ++ "/" ++ toString all.length ++ "] " ++ stage.title
    ++ "..."

end Stage

/-- The results of the stages that have one, and these stages in the order in which they ended. -/
structure StageResults where
  linked : Option Linked
  optimized : Option (List Definition)
  units : Option (List Path)
  unitObjects : Option (List Path)
  library : Option NativeLibrary.Assembled
  output : Option Path
  finished : List Stage

namespace StageResults

/-- The results before any stage has run. -/
def empty : StageResults :=
  ⟨none, none, none, none, none, none, []⟩

/-- Something that runs stages. The results so far stay also when it ends in a fault. -/
abbrev Staged := ExceptT Fault (StateT StageResults Action)

/-- Does an action that leaves the results as they are. -/
def ofAction {α : Type} (action : Action α) : Staged α :=
  fun results => do
    let outcome ← Action.outcome action
    return (outcome, results)

/-- Where the result of a stage is kept. -/
structure Slot (α : Type) where
  stage : Stage
  result? : StageResults → Option α
  keep : α → StageResults → StageResults

/-- Gives the result of a stage, and runs the stage first if there is none. -/
def demand {α : Type} (plan : Plan) (slot : Slot α) (compute : Action α) : Staged α := do
  match slot.result? (← get) with
  | some result => return result
  | none =>
    if plan.verbose then ofAction (Action.say slot.stage.announcement)
    let result ← ofAction compute
    modify fun s =>
      let s := slot.keep result s
      { s with finished := s.finished ++ [slot.stage] }
    return result

def linkedStage (plan : Plan) (tools : IrTools) : Staged Linked :=
  demand plan ⟨.linkIr, linked, fun r s => { s with linked := some r }⟩
    (Intermediate.link plan tools)

def optimizedStage (plan : Plan) (tools : IrTools) : Staged (List Definition) := do
  let l ← linkedStage plan tools
  demand plan ⟨.optimize, optimized, fun r s => { s with optimized := some r }⟩
    (Intermediate.optimize plan tools l)

def unitsStage (plan : Plan) (tools : IrTools) : Staged (List Path) := do
  let defns ← optimizedStage plan tools
  demand plan ⟨.generate, units, fun r s => { s with units := some r }⟩
    (Units.generate plan tools defns)

def unitObjectsStage (plan : Plan) (tools : IrTools) : Staged (List Path) := do
  let us ← unitsStage plan tools
  demand plan ⟨.compileUnits, unitObjects, fun r s => { s with unitObjects := some r }⟩
    (Units.compileEach plan us)

def libraryStage (plan : Plan) (tools : IrTools) : Staged NativeLibrary.Assembled := do
  let l ← linkedStage plan tools
  demand plan ⟨.compileLibrary, library, fun r s => { s with library := some r }⟩
    (NativeLibrary.assemble plan l.links)

def outputStage (plan : Plan) (tools : IrTools) : Staged Path := do
  let l ← linkedStage plan tools
  let objects ← unitObjectsStage plan tools
  let library ← libraryStage plan tools
  demand plan ⟨.linkExecutable, output, fun r s => { s with output := some r }⟩
    (Executable.link plan objects library.objects l.links)

/-- Runs stages from given results; the results that are left go with the outcome. -/
def runFrom {α : Type} (results : StageResults) (staged : Staged α) :
    Action (Except Fault α × StageResults) :=
  staged.run.run results

end StageResults

end StagedBuild
