import StagedBuild.Tool.Result

/-!
Failures of a build. Each has a name of its own under which it is reported; a failure of an external
tool keeps what the tool left behind and shows the tool's own complaint.
-/

namespace StagedBuild

/-- The step of a build in which a tool failed. -/
inductive ToolStep where
  | any
  | probe
  | libraryCompile
  | unitCompile
  | finalLink
  deriving DecidableEq, Repr

/-- The ways in which a build fails. -/
inductive BuildFault where
  | general (text : String)
  | compilerNotFound (text : String)
  | archiveNotFound (text : String)
  | unpackFailed (text : String)
  | irToolsNotFound (text : String)
  | unresolved (symbols : List String)
  | tool (step : ToolStep) (headline : String) (result : Option ToolResult)
  deriving DecidableEq, Repr

namespace ToolStep

/-- The name under which a failure in this step is reported. -/
def kind : ToolStep → String
  | any => "ProcessFailedError"
  | probe => "ToolchainProbeFailed"
  | libraryCompile => "RuntimeCompileFailed"
  | unitCompile => "UnitCompileFailed"
  | finalLink => "LinkFailed"

end ToolStep

namespace BuildFault

/-- The name under which a failure is reported. -/
def kind : BuildFault → String
  | general _ => "NativeBuildError"
  | compilerNotFound _ => "ToolchainNotFound"
  | archiveNotFound _ => "NativeLibNotFound"
  | unpackFailed _ => "NativeLibUnpackFailed"
  | irToolsNotFound _ => "IRToolchainNotFound"
  | unresolved _ => "LinkError"
  | tool step _ _ => step.kind

/-- The headline followed by the tool's complaint, unless the complaint is blank. -/
def withComplaint (headline : String) : Option ToolResult → String
  | some r =>
    if Text.isBlankText r.stderr then headline else headline ++ "\n" ++ Text.trimEnd r.stderr
  | none => headline

def message : BuildFault → String
  | general text | compilerNotFound text | archiveNotFound text | unpackFailed text
  | irToolsNotFound text => text
  | unresolved symbols => "unable to link: " ++ ", ".intercalate symbols
  | tool _ headline result => withComplaint headline result

/-- The failure of a link that left symbols open; they are listed in order. -/
def ofSymbols (symbols : List String) : BuildFault :=
  unresolved (symbols.mergeSort fun a b => decide (a ≤ b))

/-- What the failed tool left behind. -/
def result? : BuildFault → Option ToolResult
  | tool _ _ result => result
  | _ => none

/-- A failure of an external tool. -/
def isTool : BuildFault → Bool
  | tool _ _ _ => true
  | _ => false

end BuildFault

end StagedBuild
