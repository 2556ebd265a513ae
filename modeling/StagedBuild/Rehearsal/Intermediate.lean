import StagedBuild.Action.Disk
import StagedBuild.Intermediate.Stages
import StagedBuild.Rehearsal.Tools

/-!
Toolchains for the intermediate representation that follow a script.
-/

namespace StagedBuild.Rehearsal

/-- The stages of a toolchain. -/
inductive IrStage where
  | link
  | optimize
  | generate
  deriving DecidableEq, Repr

/-- What a toolchain does. Definitions that are left open are those that go in; `units` are written
below the work directory after the `deleted` files have been taken away. A failure of code
generation comes last. -/
structure IrScript where
  defns : Option (List Definition)
  links : List String
  unresolved : List String
  optimized : Option (List Definition)
  units : List (String × String)
  deleted : List String
  failure : Option (IrStage × Fault)

/-- The script of a toolchain of which nothing is said. -/
def IrScript.plain : IrScript where
  defns := none
  links := []
  unresolved := []
  optimized := none
  units := [("main.ll", "; main\n")]
  deleted := []
  failure := none

namespace IrScript

/-- Ends in the failure of a stage, if the script has one. -/
def failAt (script : IrScript) (stage : IrStage) : Except Fault Unit :=
  match script.failure with
  | some (failing, fault) => if failing = stage then .error fault else .ok ()
  | none => .ok ()

/-- Takes a file or a whole directory away if it is there. -/
def delete (p : Path) : Action Unit := do
  if ← Disk.isDirectory p then Disk.removeTree p else Disk.unlinkIfPresent p

/-- Writes a file, in a directory that is made if it is missing. -/
def writeBelow (workdir : Path) (relative text : String) : Action Unit := do
  let target := workdir / relative
  Disk.makeDirectories target.parent
  Disk.writeText target text

def generate (script : IrScript) (workdir : Path) : Action Unit := do
  script.deleted.forM fun (relative : String) => delete (workdir / relative)
  script.units.forM fun (relative, text) => writeBelow workdir relative text
  Action.ofExcept id (script.failAt .generate)

/-- The toolchain that follows a script. -/
def tools (script : IrScript) (label : String) (directory : Location) : IrTools where
  label := label
  link plan _ := do
    script.failAt .link
    return .ofLists (script.defns.getD [plan.entry]) script.links script.unresolved
  optimize _ linked _ := do
    script.failAt .optimize
    return script.optimized.getD linked.defns
  generate plan _ w :=
    let (outcome, tree) := changeAlone directory w.tree (script.generate plan.workdir)
    (tree, outcome)

end IrScript

/-- A toolchain that is registered, or one that cannot be loaded. -/
structure PluginScript where
  group : Option String
  name : String
  id : String
  content : Except String IrScript

/-- The plugin that follows a script. -/
def PluginScript.plugin (script : PluginScript) (directory : Location) : Plugin where
  group := script.group.getD Intermediate.group
  name := script.name
  load :=
    match script.content with
    | .ok ir => .ok (ir.tools (script.name ++ "#" ++ script.id) directory)
    | .error text => .error (.unloadable text)

end StagedBuild.Rehearsal
