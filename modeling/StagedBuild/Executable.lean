import StagedBuild.Tool.Run

/-!
The final link. The libraries come first: those of the platform, then those that the program needs
in order, then those of the collector. Objects of the program come before those of the native
library.
-/

namespace StagedBuild.Executable

/-- The systems that have a separate library for clocks and timers. -/
def realtimeSystems : List String := ["Linux"]

/-- The systems whose standard library unwinds the stack. -/
def unwindingSystems : List String := ["Darwin", "Mac OS X"]

/-- The libraries that the runtime needs of the platform. -/
def systemLibraries (systemName architecture : String) : List String :=
  (if systemName ∈ realtimeSystems then ["rt"] else [])
    ++ (if systemName ∈ unwindingSystems then [] else ["unwind", "unwind-" ++ architecture])

/-- All libraries, in the order in which they are linked. -/
def libraries (plan : Plan) (links : List String) : List String :=
  systemLibraries plan.systemName plan.architecture
    ++ links.mergeSort (fun a b => decide (a ≤ b)) ++ plan.gc.links

/-- The command that links the executable. -/
def command (plan : Plan) (unitObjects libraryObjects : List Path) (links : List String) :
    List String :=
  [plan.clangpp.text, "-o", plan.outputPath.text]
    ++ (libraries plan links).map ("-l" ++ ·)
    ++ plan.linkFlags
    ++ ["-target", plan.target]
    ++ unitObjects.map Path.text ++ libraryObjects.map Path.text

/-- The fault of a link that failed. -/
def linkFault (r : ToolResult) : BuildFault :=
  .tool .finalLink "Failed to link native executable." (some r)

/-- Links the executable and gives its path. -/
def link (plan : Plan) (unitObjects libraryObjects : List Path) (links : List String) :
    Action Path := do
  let r ← Tool.run (command plan unitObjects libraryObjects links) (some plan.workdir)
  if r.success then return plan.outputPath
  else throw (.build (linkFault r))

end StagedBuild.Executable
