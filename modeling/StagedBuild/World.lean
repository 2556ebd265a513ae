import StagedBuild.Plan
import StagedBuild.Fault
import StagedBuild.FileTree.Basic
import StagedBuild.Intermediate.Linked

/-!
What a build acts on and what is seen of it: the disk, and everything that happened, the latest
first. Every change of the disk is among the events with the tree that it left, so the events show
each state in which the program can have been stopped.
-/

namespace StagedBuild

/-- A call of an external tool. Without a directory it runs in the current one. -/
structure Invocation where
  command : List String
  directory : Option Path
  deriving DecidableEq, Repr

/-- A request to a server. A streamed body is read in pieces. -/
structure Request where
  url : String
  streamed : Bool
  timeout : Int
  deriving DecidableEq, Repr

/-- A call of the toolchain for the intermediate representation. -/
inductive IrCall where
  | link (entry : String)
  | optimize (defns : List Definition) (mode : Mode)
  | generate (defns : List Definition)
  deriving DecidableEq, Repr

/-- What the user should know although the action goes on. -/
inductive Warning where
  | unreadableRecord (record : Path) (cause : Fault)
  | invalidJobs (value : String)
  | unresolvedDependency (group artifact : Option String) (dependent : String)
  deriving DecidableEq, Repr

namespace Warning

/-- The part of the program that warns. -/
def source : Warning → String
  | unreadableRecord _ _ => "nativebuild.build.ir"
  | invalidJobs _ => "nativebuild.build.orchestrator"
  | unresolvedDependency _ _ _ => "nativebuild.packages.maven"

/-- The text of a warning. A cause is shown by its name. -/
def text : Warning → String
  | unreadableRecord record cause => "Ignoring unreadable " ++ record.text ++ ": " ++ cause.kind
  | invalidJobs value => "Ignoring invalid NATIVEBUILD_JOBS=" ++ Text.quoted value
  | unresolvedDependency group artifact dependent =>
    "Skipping dependency " ++ group.getD "None" ++ ":" ++ artifact.getD "None" ++ " of "
      ++ dependent ++ " (unresolved version)"

end Warning

/-- Where text is printed. -/
inductive Stream where
  | output
  | errors
  deriving DecidableEq, Repr

/-- Something that happened. -/
inductive Event where
  | changed (tree : FileTree)
  | ran (call : Invocation) (before : FileTree)
  | requested (request : Request)
  | called (call : IrCall)
  | warned (warning : Warning)
  | printed (stream : Stream) (text : String)
  | started (task : Nat)
  | barOpened (total : Int) (label : String)
  | barMoved (count : Nat)
  | barClosed
  | interrupted

/-- The disk and what happened so far, the latest first. -/
structure World where
  tree : FileTree
  history : List Event

namespace World

/-- A disk to which nothing has happened. -/
def ofTree (tree : FileTree) : World :=
  ⟨tree, []⟩

def events (w : World) : List Event :=
  w.history.reverse

/-- The tools that were called, in order. -/
def invocations (w : World) : List Invocation :=
  w.events.filterMap fun
    | .ran call _ => some call
    | _ => none

/-- The requests that were made, in order. -/
def requests (w : World) : List Request :=
  w.events.filterMap fun
    | .requested request => some request
    | _ => none

/-- The calls of the toolchain for the intermediate representation, in order. -/
def irCalls (w : World) : List IrCall :=
  w.events.filterMap fun
    | .called call => some call
    | _ => none

def warnings (w : World) : List Warning :=
  w.events.filterMap fun
    | .warned warning => some warning
    | _ => none

/-- The tasks that were started, in order. -/
def startedTasks (w : World) : List Nat :=
  w.events.filterMap fun
    | .started task => some task
    | _ => none

/-- All text printed to a stream. -/
def printed (w : World) (stream : Stream) : String :=
  String.join (w.events.filterMap fun
    | .printed s text => if s = stream then some text else none
    | _ => none)

end World

/-- A bar that shows how far a transfer is. -/
structure ProgressBar where
  total : Int
  label : String
  moves : List Nat
  closed : Bool
  deriving DecidableEq, Repr

namespace World

/-- The bars as an event leaves them, the latest first. Only the latest one moves. -/
def barsAfter (bars : List ProgressBar) : Event → List ProgressBar
  | .barOpened total label => ⟨total, label, [], false⟩ :: bars
  | .barMoved n =>
    match bars with
    | bar :: rest => { bar with moves := bar.moves ++ [n] } :: rest
    | [] => []
  | .barClosed =>
    match bars with
    | bar :: rest => { bar with closed := true } :: rest
    | [] => []
  | _ => bars

/-- The bars that were shown, in order. -/
def progressBars (w : World) : List ProgressBar :=
  (w.events.foldl barsAfter []).reverse

end World

end StagedBuild
