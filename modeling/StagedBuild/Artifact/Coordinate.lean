import StagedBuild.Path

/-!
Coordinates of artifacts and the places in a repository that they stand for.
-/

namespace StagedBuild

/-- An artifact: who publishes it, its name, and its version. -/
structure Coordinate where
  org : String
  name : String
  version : String
  deriving DecidableEq, Repr

namespace Coordinate

/-- The written form of a coordinate. -/
def text (c : Coordinate) : String :=
  c.org ++ ":" ++ c.name ++ ":" ++ c.version

/-- The publisher with a slash for every dot. -/
def orgPath (c : Coordinate) : String :=
  String.ofList (c.org.toList.map fun x => if x = '.' then '/' else x)

/-- Where a repository keeps a file of the artifact. -/
def relativePath (c : Coordinate) (extension : String) : String :=
  c.orgPath ++ "/" ++ c.name ++ "/" ++ c.version ++ "/" ++ c.name ++ "-" ++ c.version ++ "."
    ++ extension

end Coordinate

end StagedBuild
