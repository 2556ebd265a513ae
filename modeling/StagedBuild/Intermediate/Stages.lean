import StagedBuild.Action
import StagedBuild.Setting

/-!
The toolchain for the intermediate representation: finding it among the registered ones, and the two
stages before code generation.
-/

namespace StagedBuild.Intermediate

/-- The group under which toolchains are registered. -/
def group : String := "nativebuild.ir_toolchains"

/-- The fault of a toolchain that is not registered. -/
def notRegistered (name : Setting String) : BuildFault :=
  let wanted :=
    match name with
    | .value name => if name = "" then "any" else "'" ++ name ++ "'"
    | .unsaid | .nothing => "any"
  .irToolsNotFound
    ("No IR toolchain (" ++ wanted ++ ") registered under '" ++ group ++ "'")

/-- The plugin that is meant by a name, or the first one. None is registered under nothing. -/
def find? (plugins : List Plugin) (name : Setting String) : Option Plugin :=
  plugins.find? fun p =>
    p.group == group &&
      match name with
      | .unsaid => true
      | .nothing => false
      | .value name => p.name == name

/-- Loads the toolchain with a name, or the first one that is registered. -/
def load (name : Setting String) : Action IrTools := do
  let around ← read
  match find? around.plugins name with
  | some plugin => Action.ofExcept id plugin.load
  | none => throw (.build (notRegistered name))

/-- Links what the entry point reaches. Symbols that nothing defines are a fault. -/
def link (plan : Plan) (tools : IrTools) : Action Linked := do
  Action.note (.called (.link plan.entry))
  let linked ← Action.ofExcept id (tools.link plan (← get))
  if linked.unresolved ≠ [] then throw (.build (.ofSymbols linked.unresolved))
  return linked

def optimize (plan : Plan) (tools : IrTools) (linked : Linked) :
    Action (List Definition) := do
  Action.note (.called (.optimize linked.defns plan.mode))
  Action.ofExcept id (tools.optimize plan linked (← get))

/-- Generates code, which leaves files in the work directory. -/
def generate (plan : Plan) (tools : IrTools) (defns : List Definition) : Action Unit := do
  Action.note (.called (.generate defns))
  let (tree, ended) := tools.generate plan defns (← get)
  Action.setTree tree
  Action.ofExcept id ended

end StagedBuild.Intermediate
