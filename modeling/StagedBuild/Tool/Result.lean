import StagedBuild.Text.Blank
import StagedBuild.Text.Lines

/-!
The result of running an external tool.
-/

namespace StagedBuild

/-- What a finished tool leaves behind: its exit code and the text it wrote. A negative exit code
is the signal that ended the tool. -/
structure ToolResult where
  command : List String
  exitCode : Int
  stdout : String
  stderr : String
  deriving DecidableEq, Repr

namespace ToolResult

/-- A tool succeeds when its exit code is zero. -/
def success (r : ToolResult) : Bool :=
  r.exitCode == 0

/-- The lines of the output that are not blank. -/
def lines (r : ToolResult) : List String :=
  (Text.lines r.stdout).filter fun line => !Text.isBlankText line

/-- The exit code of a tool that could not be started. -/
def notFoundCode : Int := 127

end ToolResult

end StagedBuild
