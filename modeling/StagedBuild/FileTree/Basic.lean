import Std.Data.TreeMap

/-!
A tree of files. A location is the list of names on the way down from the root, and the tree maps
locations to entries. Every entry has a stamp: each write takes a stamp that no earlier write took,
and a directory takes a new one when an entry directly below it appears or goes away.
-/

namespace StagedBuild

/-- Where an entry is: the names on the way down from the root. -/
abbrev Location := List String

/-- What a file holds, and whether it may be run. -/
structure File where
  bytes : List UInt8
  executable : Bool
  deriving DecidableEq

/-- What an entry is. -/
inductive Node where
  | directory
  | file (file : File)
  deriving DecidableEq

/-- An entry and the stamp of its last change. -/
structure Entry where
  node : Node
  stamp : Nat
  deriving DecidableEq

/-- The entries below the root, by location, and the next stamp. -/
structure FileTree where
  entries : Std.TreeMap Location Entry
  clock : Nat

namespace FileTree

/-- The tree with nothing below its root. -/
def empty : FileTree :=
  ⟨∅, 1⟩

/-- What is at a location. The root is always a directory. -/
def node? (t : FileTree) (loc : Location) : Option Node :=
  if loc = [] then some .directory else t.entries[loc]?.map Entry.node

/-- There is something at a location. -/
def isOccupied (t : FileTree) (loc : Location) : Bool :=
  (t.node? loc).isSome

/-- There is a directory at a location. -/
def isDirectory (t : FileTree) (loc : Location) : Bool :=
  t.node? loc == some .directory

def file? (t : FileTree) (loc : Location) : Option File :=
  match t.node? loc with
  | some (.file f) => some f
  | _ => none

/-- There is a file at a location. -/
def isFile (t : FileTree) (loc : Location) : Bool :=
  (t.file? loc).isSome

/-- The bytes of the file at a location. -/
def bytes? (t : FileTree) (loc : Location) : Option (List UInt8) :=
  (t.file? loc).map File.bytes

/-- The stamp of the entry at a location. -/
def stamp? (t : FileTree) (loc : Location) : Option Nat :=
  t.entries[loc]?.map Entry.stamp

/-- Puts an entry at a location, with a new stamp. -/
def set (t : FileTree) (loc : Location) (node : Node) : FileTree :=
  ⟨t.entries.insert loc ⟨node, t.clock⟩, t.clock + 1⟩

/-- Gives the directory above a location a new stamp. -/
def stampParent (t : FileTree) (loc : Location) : FileTree :=
  match t.entries[loc.dropLast]? with
  | some entry => t.set loc.dropLast entry.node
  | none => t

/-- Puts an entry where none was. -/
def add (t : FileTree) (loc : Location) (node : Node) : FileTree :=
  (t.set loc node).stampParent loc

/-- Writes a file. One that is there keeps its permission to run. -/
def writeFile (t : FileTree) (loc : Location) (bytes : List UInt8) : FileTree :=
  match t.file? loc with
  | some f => t.set loc (.file { f with bytes := bytes })
  | none => t.add loc (.file ⟨bytes, false⟩)

/-- Takes the entry at a location away. -/
def remove (t : FileTree) (loc : Location) : FileTree :=
  { t with entries := t.entries.erase loc }.stampParent loc

/-- Moves a file to another location, where it takes the place of a file that is there. -/
def moveFile (t : FileTree) (source target : Location) : FileTree :=
  match t.file? source with
  | some f =>
    if source = target then t
    else
      let t := t.remove source
      if t.isOccupied target then (t.set target (.file f)).stampParent target
      else t.add target (.file f)
  | none => t

/-- A location is properly below another. -/
def isBelow (base loc : Location) : Bool :=
  base.isPrefixOf loc && base.length < loc.length

/-- Every entry below a location, as the way down from it, in the order of the ways. -/
def below (t : FileTree) (base : Location) : List (Location × Node) :=
  (t.entries.toList.filter fun entry => isBelow base entry.1).map fun entry =>
    (entry.1.drop base.length, entry.2.node)

/-- The order in which entries go: as it is wished, but each of them after everything below it. What
the wish leaves out goes in the end, as it stands. -/
def removalOrder : List Location → List Location → List Location
  | [], doomed => doomed
  | loc :: wished, doomed =>
    doomed.filter (loc.isPrefixOf ·) ++ removalOrder wished (doomed.filter (!loc.isPrefixOf ·))

/-- The entries below a location, each after everything below it. -/
def doomed (t : FileTree) (base : Location) : List Location :=
  ((t.entries.toList.filter fun entry => isBelow base entry.1).map (·.1)).reverse

/-- The trees that are left, one after the other, while every entry below a location is taken
away. -/
def clearings (t : FileTree) (wished : List Location) (base : Location) : List FileTree :=
  ((removalOrder wished (t.doomed base)).foldl (fun (snapshots, current) loc =>
    let next := FileTree.remove current loc
    (next :: snapshots, next)) (([] : List FileTree), t)).1.reverse

/-- The tree in which every entry is as old as any other. -/
def settle (t : FileTree) : FileTree :=
  ⟨t.entries.map fun _ entry => { entry with stamp := 0 }, 1⟩

end FileTree

end StagedBuild
