import StagedBuild.Fault.Transfer
import StagedBuild.Text.Quoted

/-!
Failures of reading a tool's manifest, and of looking for an artifact.
-/

namespace StagedBuild

/-- The lines of a property text that are neither a key with a value nor a section, with their
numbers. -/
structure PropertyFault where
  lines : List (Nat × String)
  deriving DecidableEq, Repr

namespace PropertyFault

/-- A number with blanks in front up to a width of two. -/
def paddedNumber (n : Nat) : String :=
  if n < 10 then " " ++ toString n else toString n

/-- The text of the fault: every bad line, quoted. -/
def message (f : PropertyFault) : String :=
  "Source contains parsing errors: '<string>'" ++
    String.join (f.lines.map fun (number, line) =>
      "\n\t[line " ++ paddedNumber number ++ "]: " ++ Text.quoted line)

end PropertyFault

/-- Why a tool's manifest cannot be used. -/
inductive ManifestFault where
  | invalid (source : String) (fault : PropertyFault)
  | missingKey (key source : String)
  | unreachable (fault : DownloadFault)
  deriving DecidableEq, Repr

namespace ManifestFault

def message : ManifestFault → String
  | invalid source fault => "invalid manifest " ++ source ++ ": " ++ fault.message
  | missingKey key source => "missing key '" ++ key ++ "' in " ++ source ++ "!"
  | unreachable fault => fault.message

end ManifestFault

/-- An artifact file that no repository has, with every place that was tried. -/
structure ResolutionFault where
  artifact : String
  extension : String
  tried : List String
  deriving DecidableEq, Repr

def ResolutionFault.message (f : ResolutionFault) : String :=
  f.artifact ++ " (" ++ f.extension ++ ") not found. Tried:\n  " ++ "\n  ".intercalate f.tried

end StagedBuild
