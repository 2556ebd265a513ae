import StagedBuild.Archive.Copy
import StagedBuild.Pool
import StagedBuild.NativeLibrary.Manifest
import StagedBuild.Tool.Run

/-!
Assembling the native library: the archive is unpacked unless the copy is current, objects of
sources that the build does not need are taken away, and sources that have no object yet are
compiled. An object that is there is used as it is.
-/

namespace StagedBuild.NativeLibrary

/-- The compiled library. -/
structure Assembled where
  directory : Path
  objects : List Path
  compiled : List Path
  removed : List Path

/-- The command that compiles a source. -/
def command (plan : Plan) (s : Source) : List String :=
  (if s.isCpp then [plan.clangpp.text, "-std=c++11"] else [plan.clang.text])
    ++ plan.compileFlags ++ ["-O2", "-c", s.path.text, "-o", s.objectPath.text]

def compile (plan : Plan) (s : Source) : Action ToolResult := do
  if plan.verbose then Action.say ("      [runtime] " ++ s.path.name)
  Tool.run (command plan s) (some plan.workdir)

/-- The fault of a source that does not compile. -/
def compileFault (s : Source) (r : ToolResult) : BuildFault :=
  .tool .libraryCompile ("Failed to compile native library runtime code: " ++ s.path.name) (some r)

/-- The copy of the archive of a build. -/
def copyOf (plan : Plan) : ArchiveCopy :=
  ArchiveCopy.ofArchive plan.archive plan.libraryDirectory

/-- Writes the manifest of a new copy. -/
def writeManifest (root : Path) : Action Unit := do
  let m ← Manifest.scan root
  let _ ← m.write
  return ()

/-- Sees to it that the copy is current, and gives its manifest. -/
def unpack (plan : Plan) : Action Manifest := do
  match ← Action.outcome ((copyOf plan).freshen writeManifest) with
  | .ok refreshed =>
    if plan.verbose then
      let state := if refreshed.isSome then "unpacked" else "up to date"
      Action.say ("      Native library " ++ state ++ ": " ++ plan.libraryDirectory.text)
    Manifest.load plan.libraryDirectory
  | .error (.extraction fault) =>
    throw (.build (.unpackFailed
      ("Failed to unpack " ++ plan.archive.name ++ ": " ++ fault.message)))
  | .error fault => throw fault

/-- Takes away the objects of sources, and gives those that were there. -/
def removeObjects (sources : List Source) : Action (List Path) := do
  let removed ← sources.filterMapM fun s => do
    if ← Disk.isOccupied s.objectPath then
      Disk.unlink s.objectPath
      return some s.objectPath
    else return none
  return removed

/-- The sources that have no object. -/
def withoutObject (sources : List Source) : Action (List Source) :=
  sources.filterM fun s => return !(← Disk.isOccupied s.objectPath)

/-- Assembles the native library for a build that links the given libraries. -/
def assemble (plan : Plan) (links : List String) : Action Assembled := do
  let manifest ← unpack plan
  let (included, excluded) ← Action.ofExcept id (manifest.select plan.gc links)
  let removed ← removeObjects excluded
  let pending ← withoutObject included
  let run ← Pool.run (fun s => some <$> compile plan s) pending plan.jobs
  match run.earliestFailure? with
  | some (s, r) => throw (.build (compileFault s r))
  | none =>
    return ⟨plan.libraryDirectory, included.map Source.objectPath,
      pending.map Source.objectPath, removed⟩

end StagedBuild.NativeLibrary
