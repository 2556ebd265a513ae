import StagedBuild.Fault
import StagedBuild.FileTree.Basic
import StagedBuild.Path

/-!
Following paths. A path is followed one step at a time: what a step starts from has to be a
directory, and a step up leads to the directory above the one that was reached.
-/

namespace StagedBuild.FileTree

/-- Longest name of an entry, in bytes. -/
def nameLimit : Nat := 255

/-- Longest path, in bytes. -/
def pathLimit : Nat := 4095

/-- Follows steps down from a location. The last step may lead to where nothing is yet. -/
def follow (t : FileTree) : Location → List String → Except SystemError Location
  | loc, [] => .ok loc
  | loc, step :: rest =>
    if !t.isDirectory loc then
      .error (if t.isOccupied loc then .notDirectory else .noEntry)
    else if step = ".." then t.follow loc.dropLast rest
    else if nameLimit < step.utf8ByteSize then .error .nameTooLong
    else t.follow (loc ++ [step]) rest

/-- The location that a path leads to from a directory. -/
def locate (t : FileTree) (cwd : Location) (p : Path) : Except SystemError Location :=
  if pathLimit < p.text.utf8ByteSize then .error .nameTooLong
  else t.follow (if p.isAbsolute then [] else cwd) p.steps

def lookup (t : FileTree) (cwd : Location) (p : Path) : Except SystemError (Location × Node) := do
  let loc ← t.locate cwd p
  match t.node? loc with
  | some node => .ok (loc, node)
  | none => .error .noEntry

/-- The file that a path leads to, to be read. -/
def openFile (t : FileTree) (cwd : Location) (p : Path) : Except SystemError File := do
  match ← t.lookup cwd p with
  | (_, .file f) => .ok f
  | (_, .directory) => .error .isDirectory

/-- The tree in which the file that a path leads to holds the given bytes. -/
def write (t : FileTree) (cwd : Location) (p : Path) (bytes : List UInt8) :
    Except SystemError FileTree := do
  let loc ← t.locate cwd p
  if t.isDirectory loc then .error .isDirectory else .ok (t.writeFile loc bytes)

/-- The tree with a new directory. -/
def makeDirectory (t : FileTree) (cwd : Location) (p : Path) : Except SystemError FileTree := do
  let loc ← t.locate cwd p
  if t.isOccupied loc then .error .occupied else .ok (t.add loc .directory)

def unlink (t : FileTree) (cwd : Location) (p : Path) : Except SystemError FileTree := do
  match ← t.lookup cwd p with
  | (loc, .file _) => .ok (t.remove loc)
  | (_, .directory) => .error .isDirectory

/-- The tree without an empty directory. A path that does not name it cannot take it away. -/
def removeDirectory (t : FileTree) (cwd : Location) (p : Path) :
    Except SystemError FileTree := do
  let (loc, node) ← t.lookup cwd p
  if node ≠ .directory then .error .notDirectory
  else if loc = [] then .error .busy
  else if p.steps = [] then .error .invalid
  else if p.name = ".." then .error .notEmpty
  else if !(t.below loc).isEmpty then .error .notEmpty
  else .ok (t.remove loc)

/-- The tree in which a file has moved. -/
def rename (t : FileTree) (cwd : Location) (source target : Path) :
    Except SystemError FileTree := do
  let (loc, node) ← t.lookup cwd source
  let goal ← t.locate cwd target
  match node with
  | .file _ => if t.isDirectory goal then .error .isDirectory else .ok (t.moveFile loc goal)
  | .directory => .error .invalid

end StagedBuild.FileTree
