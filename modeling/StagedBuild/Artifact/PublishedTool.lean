import StagedBuild.Artifact.Coordinate
import StagedBuild.Fault
import StagedBuild.Properties
import StagedBuild.Transfer.Download

/-!
Command line tools that are published with a manifest: where the manifest is, what it says, and
which artifact it leads to.
-/

namespace StagedBuild

/-- The repository of a tool. -/
structure ToolRepository where
  org : String
  repo : String
  deriving DecidableEq, Repr

namespace ToolRepository

def text (r : ToolRepository) : String :=
  r.org ++ "/" ++ r.repo

/-- The repository that a text writes: what stands before the first slash, and what stands behind it
on the same line. -/
def parse (arg : String) : Except ValueFault ToolRepository :=
  let org := arg.toList.takeWhile (· != '/')
  match org, arg.toList.drop org.length with
  | _ :: _, _ :: c :: rest =>
    if '\n' ∈ c :: rest then .error (.noRepository arg)
    else .ok ⟨String.ofList org, String.ofList (c :: rest)⟩
  | _, _ => .error (.noRepository arg)

def manifestAddress (r : ToolRepository) : String :=
  "https://raw.githubusercontent.com/" ++ r.org ++ "/" ++ r.repo ++ "/master/.scalanative"

end ToolRepository

/-- The first two components of a dotted version. -/
def versionSeries (version : String) : String :=
  ".".intercalate ((Text.pieces '.' version).take 2)

/-- What a manifest says. -/
structure PublishedTool where
  name : String
  org : String
  artifact : String
  version : String
  main : String
  nativeVersion : String
  scalaVersion : String
  deriving DecidableEq, Repr

namespace PublishedTool

/-- The name of the artifact with the versions it was built for. -/
def artifactName (p : PublishedTool) : String :=
  p.artifact ++ "_native" ++ versionSeries p.nativeVersion ++ "_" ++ versionSeries p.scalaVersion

def coordinate (p : PublishedTool) : Coordinate :=
  ⟨p.org, p.artifactName, p.version⟩

/-- The value of a key that has to be there, without blanks around it. -/
def required (properties : List (String × String)) (source key : String) :
    Except ManifestFault String :=
  match properties.lookup key with
  | some value => .ok (Text.trim value)
  | none => .error (.missingKey key source)

/-- What the text of a manifest says. -/
def load (text source : String) : Except ManifestFault PublishedTool :=
  match Properties.parse text with
  | .error fault => .error (.invalid source fault)
  | .ok properties => do
    return {
      name := ← required properties source "name"
      org := ← required properties source "org"
      artifact := ← required properties source "artifact"
      version := ← required properties source "version"
      main := ← required properties source "main"
      nativeVersion := ← required properties source "nativeVersion"
      scalaVersion := ← required properties source "scalaVersion" }

/-- Fetches the manifest of a tool. -/
def fetch (settings : Transfer.Settings) (r : ToolRepository) : Action PublishedTool := do
  match ← Action.outcome (Transfer.textAt settings r.manifestAddress) with
  | .ok text => Action.ofExcept Fault.manifest (load text r.manifestAddress)
  | .error (.download fault) => throw (.manifest (.unreachable fault))
  | .error fault => throw fault

end PublishedTool

end StagedBuild
