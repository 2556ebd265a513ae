import StagedBuild.Rehearsal.Shell.Run
import StagedBuild.Surroundings

/-!
Processes: a command is looked up and started as an operating system does it. There are a shell and
a few programs; files that may be run are scripts.
-/

namespace StagedBuild.Rehearsal

/-- The directory in which a command runs. -/
def runDirectory (directory : Location) (tree : FileTree) (asked : Option Path) :
    Except SystemFault Location :=
  match asked with
  | none => .ok directory
  | some p =>
    match tree.lookup directory p with
    | .ok (loc, .directory) => .ok loc
    | .ok _ => .error (.on .notDirectory p.text)
    | .error e => .error (.on e p.text)

/-- Most steps that are taken one inside the other. -/
def stepLimit : Nat := 200

/-- Runs a program to its end. Its input is empty. -/
def runToEnd (directory : Location) (environment : List (String × String)) (tree : FileTree)
    (started : Shell.Started) : ToolReply × FileTree :=
  let beginning : Shell.State := {
    name := "", arguments := [], environment, directory, tree, input := []
    printed := [], complaints := [], status := 0 }
  let (ended, s) := (Shell.runStarted stepLimit started).run.run beginning
  let code : Int :=
    match ended with
    | .error (.leave code) => code
    | .error (.killed signal) => -(signal : Int)
    | .ok _ => s.status
  (.exited code s.printed s.complaints, s.tree)

/-- Runs a command as a process. -/
def process (directory : Location) (environment : List (String × String)) (call : Invocation)
    (w : World) : ToolReply × FileTree :=
  match call.command with
  | [] => (.raised .noItem, w.tree)
  | name :: arguments =>
    if call.command.any fun word => word.toList.contains '\x00' then
      (.raised (.value .embeddedNull), w.tree)
    else
      match runDirectory directory w.tree call.directory with
      | .error fault => (.notStarted fault, w.tree)
      | .ok inside =>
        let paths := Shell.programPaths environment name
        match Shell.startFirst w.tree inside name arguments none paths with
        | .error e => (.notStarted (.on e name), w.tree)
        | .ok started => runToEnd inside environment w.tree started

end StagedBuild.Rehearsal
