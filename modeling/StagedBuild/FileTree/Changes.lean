import StagedBuild.FileTree.Basic

/-!
What differs between two trees below a location. Entries are listed by name: the way down to them,
with a slash at the end of a directory.
-/

namespace StagedBuild.FileTree

/-- The name of an entry below a location. -/
def entryName (way : Location) (node : Node) : String :=
  "/".intercalate way ++ (if node = .directory then "/" else "")

/-- The entries below a location by name, in order. -/
def listing (t : FileTree) (base : Location) : List (String × Node) :=
  ((t.below base).map fun (way, node) => (entryName way node, node)).mergeSort
    fun a b => decide (a.1 ≤ b.1)

/-- Two entries hold the same. Whether a file may be run does not count. -/
def sameContent : Node → Node → Bool
  | .directory, .directory => true
  | .file f, .file g => f.bytes == g.bytes
  | _, _ => false

/-- The entries that are new or hold something else than before. -/
def changed (before after : FileTree) (base : Location) : List (String × Node) :=
  let old := before.listing base
  (after.listing base).filter fun (name, node) =>
    match old.lookup name with
    | some was => !sameContent was node
    | none => true

/-- The names of the entries that are gone. -/
def removed (before after : FileTree) (base : Location) : List String :=
  let new := after.listing base
  ((before.listing base).filter fun (name, _) => (new.lookup name).isNone).map (·.1)

end StagedBuild.FileTree
