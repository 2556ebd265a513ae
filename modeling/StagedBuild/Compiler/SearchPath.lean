import StagedBuild.Action.Disk

/-!
Looking a command up in a search path: the directories are tried in order, each once, and a file
counts when it may be run. A name with a slash in it is not searched for.
-/

namespace StagedBuild.Compiler

/-- A file that may be run is at this path. A path that asks for a directory names no file. -/
def isRunnable (written : String) : Action Bool := do
  match ← Disk.nodeIfAny (Path.parse written) with
  | some (.file f) => return f.executable && !Path.asksForDirectory written
  | _ => return false

/-- A name in a directory of a search path. -/
def inDirectory (directory name : String) : String :=
  if directory = "" then name
  else if directory.toList.getLast? = some '/' then directory ++ name
  else directory ++ "/" ++ name

/-- The first of the written paths at which a file may be run. -/
def firstRunnable : List String → Action (Option String)
  | [] => return none
  | written :: rest => do
    if ← isRunnable written then return some written else firstRunnable rest

/-- The search path of a process that has none. -/
def standardSearchPath : String := "/bin:/usr/bin"

/-- Where a command is found in a search path. An empty search path finds nothing. -/
def search (searchPath name : String) : Action (Option String) := do
  if name.toList.contains '/' then
    return if ← isRunnable name then some name else none
  else if searchPath = "" then return none
  else firstRunnable (((Text.pieces ':' searchPath).eraseDups).map fun d => inDirectory d name)

end StagedBuild.Compiler
