import StagedBuild.Compiler.Discovery

/-!
The target triple of the platform. A file is compiled to the intermediate representation, and the
triple is read off the result.
-/

namespace StagedBuild.Compiler

/-- How the line with the triple begins. -/
def targetMarker : String := "target triple"

/-- What stands between the first two double quotes of a line, unless it is empty. -/
def quotedPart (line : String) : Option String :=
  match Text.pieces '"' line with
  | _ :: part :: _ => if part = "" then none else some part
  | _ => none

/-- The triple in the first line that begins with the marker. -/
def parseTriple (text : String) : Option String :=
  ((Text.lines text).find? fun line => targetMarker.toList.isPrefixOf line.toList).bind quotedPart

/-- The fault of a probe without an answer. -/
def probeFault (r : ToolResult) : BuildFault :=
  .tool .probe "Failed to detect native target." (some r)

/-- The command that compiles the probe. -/
def probeCommand (clang source result : Path) : List String :=
  [clang.text, "-S", "-xc", "-emit-llvm", "-o", result.text, source.text]

/-- The target triple for which a compiler compiles. -/
def detectTarget (clang workdir : Path) : Action String := do
  let directory := probeDirectory workdir
  Disk.makeDirectories directory
  let source := directory / "c.probe"
  let result := directory / "ll.probe"
  Disk.writeText source "int probe;"
  let r ← Tool.run (probeCommand clang source result) (some workdir)
  if !r.success then throw (.build (probeFault r))
  let triple ←
    if ← Disk.isOccupied result then do
      let text ← Disk.readText result
      pure (parseTriple text)
    else pure none
  match triple with
  | some triple => return triple
  | none => throw (.build (probeFault r))

end StagedBuild.Compiler
