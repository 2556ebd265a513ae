import StagedBuild.Action
import StagedBuild.FileTree.Lookup
import StagedBuild.Text.Encoding

/-!
Reading and changing the disk by paths. A relative path starts at the current directory of the
process.
-/

namespace StagedBuild.Disk

/-- A path that the operating system can be asked about at all. -/
def isAskable (p : Path) : Bool :=
  !p.text.toList.contains '\x00'

/-- Asks the operating system about a path, and names the path in its refusal. -/
def ask {α : Type} (p : Path) (question : FileTree → Location → Except SystemError α) :
    Action α := do
  if !isAskable p then throw (.value .embeddedNull)
  let around ← read
  match question (← Action.tree) around.directory with
  | .ok a => pure a
  | .error e => throw (.system (.on e p.text))

/-- Changes the disk at a path. -/
def change (p : Path) (edit : FileTree → Location → Except SystemError FileTree) :
    Action Unit := do
  Action.setTree (← ask p edit)

/-- What a path leads to, if anything. Refusals that leave it open whether there is something are
faults. -/
def node? (p : Path) : Action (Option Node) := do
  if !isAskable p then return none
  let around ← read
  match (← Action.tree).lookup around.directory p with
  | .ok (_, node) => return some node
  | .error e => if e.isAbsence then return none else throw (.system (.on e p.text))

/-- There is something at a path. -/
def isOccupied (p : Path) : Action Bool :=
  return (← node? p).isSome

/-- There is a directory at a path. -/
def isDirectory (p : Path) : Action Bool :=
  return (← node? p) == some .directory

/-- There is a file at a path. -/
def isFile (p : Path) : Action Bool := do
  match ← node? p with
  | some (.file _) => return true
  | _ => return false

/-- The stamp of the entry at a path. -/
def stamp (p : Path) : Action Nat :=
  ask p fun t cwd => do
    let (loc, _) ← t.lookup cwd p
    .ok ((t.stamp? loc).getD 0)

/-- What a path leads to, if anything can be found out. -/
def nodeIfAny (p : Path) : Action (Option Node) := do
  match ← Action.outcome (node? p) with
  | .ok node => return node
  | .error _ => return none

def readBytes (p : Path) : Action (List UInt8) :=
  ask p fun t cwd => do
    let f ← t.openFile cwd p
    .ok f.bytes

def readText (p : Path) : Action String := do
  match Text.decodeFile? (← readBytes p) with
  | some text => return text
  | none => throw .undecodable

/-- Makes a file empty, or makes an empty file. -/
def truncate (p : Path) : Action Unit :=
  change p fun t cwd => t.write cwd p []

/-- Writes bytes to a file. The file is empty first. -/
def writeBytes (p : Path) (bytes : List UInt8) : Action Unit := do
  truncate p
  change p fun t cwd => t.write cwd p bytes

def writeText (p : Path) (text : String) : Action Unit :=
  writeBytes p (Text.encode text)

/-- Writes bytes after those that a file holds. -/
def appendBytes (p : Path) (bytes : List UInt8) : Action Unit := do
  let old ← readBytes p
  change p fun t cwd => t.write cwd p (old ++ bytes)

def unlink (p : Path) : Action Unit :=
  change p fun t cwd => t.unlink cwd p

/-- Takes a file away if there is one. -/
def unlinkIfPresent (p : Path) : Action Unit := do
  if ← isOccupied p then unlink p

def rename (source target : Path) : Action Unit := do
  if !isAskable source || !isAskable target then throw (.value .embeddedNull)
  let around ← read
  match (← Action.tree).rename around.directory source target with
  | .ok t => Action.setTree t
  | .error e => throw (.system (.across e source.text target.text))

def makeDirectory (p : Path) : Action Unit :=
  change p fun t cwd => t.makeDirectory cwd p

/-- Makes a directory, which may be there already, and the ones above it. The bound is on the
number of directories above. -/
def makeDirectoriesWithin : Nat → Path → Action Unit
  | bound, p => do
    match ← Action.outcome (makeDirectory p) with
    | .ok _ => return ()
    | .error (.system (.on .noEntry path)) =>
      match bound with
      | 0 => throw (.system (.on .noEntry path))
      | bound + 1 =>
        makeDirectoriesWithin bound p.parent
        makeDirectoryUnlessThere p
    | .error (.system fault) =>
      if ← isDirectory p then return () else throw (.system fault)
    | .error fault => throw fault
where
  /-- Makes a directory unless it is there. -/
  makeDirectoryUnlessThere (p : Path) : Action Unit := do
    match ← Action.outcome (makeDirectory p) with
    | .ok _ => return ()
    | .error (.system fault) =>
      if ← isDirectory p then return () else throw (.system fault)
    | .error fault => throw fault

/-- Makes a directory, which may be there already, and the ones above it. -/
def makeDirectories (p : Path) : Action Unit :=
  makeDirectoriesWithin p.steps.length p

/-- Takes away everything below a location. The entries of a directory go in the order in which they
are listed. -/
def clearBelow (loc : Location) : Action Unit := do
  let around ← read
  ((← Action.tree).clearings (around.listing (← get) loc) loc).forM Action.setTree

/-- Takes a directory with everything below it away. -/
def removeTree (p : Path) : Action Unit := do
  let (loc, node) ← ask p fun t cwd => t.lookup cwd p
  if node ≠ .directory then throw (.system (.on .notDirectory p.text))
  clearBelow loc
  change p fun t cwd => t.removeDirectory cwd p

/-- Every entry below a directory, as its path and what it is, ordered by steps. There is none
when the path leads to no directory. A path that is too long is not refused here: a tree whose
paths are longer than the system takes cannot be listed by path, and is outside this model. -/
def entriesBelow (p : Path) : Action (List (Path × Node)) := do
  if !(← isDirectory p) then return []
  let entries ← ask p fun t cwd => do
    let loc ← t.locate cwd p
    .ok (t.below loc)
  return entries.map fun (names, node) => (p.descend names, node)

def absolute (p : Path) : Action Path := do
  if p.isAbsolute then return p
  else
    let around ← read
    return Path.parse ("/" ++ "/".intercalate around.directory) / p

end StagedBuild.Disk
