import StagedBuild.NativeLibrary.Source
import StagedBuild.Units.Record

/-!
The manifest of an unpacked native library: its sources with their kinds and tags. It is written
when the library is unpacked, and made anew when it cannot be read.
-/

namespace StagedBuild.NativeLibrary

/-- The sources below a root. -/
structure Manifest where
  root : Path
  sources : List Source

namespace Manifest

/-- The name of the manifest file. -/
def fileName : String := "sources.json"

def sourceSuffixes : List String := [".c", ".cpp"]

/-- A tag as a JSON value. -/
def tagValue (tag : Option String) : Json :=
  match tag with
  | some tag => .text tag
  | none => .null

/-- The source at a path below a root. -/
def sourceAt (root path : Path) : Source :=
  let (kind, tag) := inclusionOf ((path.relativeTo? root).getD path)
  ⟨path, kind, tagValue tag⟩

/-- The manifest of the sources that are there. -/
def scan (root : Path) : Action Manifest := do
  let entries ← Disk.entriesBelow root
  let files := entries.filter fun (p, node) => node ≠ .directory ∧ p.suffix ∈ sourceSuffixes
  return ⟨root, files.map fun (p, _) => sourceAt root p⟩

/-- The sources by their path relative to the root, in the order of the manifest. -/
def entries (m : Manifest) : List (String × Source) :=
  m.sources.map fun s => (((s.path.relativeTo? m.root).getD s.path).text, s)

/-- A source as the manifest file has it. -/
def entryValue (s : Source) : Json :=
  .object [("kind", .text s.kind.name), ("tag", s.tag)]

/-- Members in the order of their names. -/
def sortMembers {α : Type} (members : List (String × α)) : List (String × α) :=
  members.mergeSort fun a b => decide (a.1 ≤ b.1)

/-- The text of the manifest file. -/
def fileText (m : Manifest) : String :=
  Json.document (.object (sortMembers (m.entries.map fun (name, s) => (name, entryValue s))))

def write (m : Manifest) : Action Path := do
  let file := m.root / fileName
  Disk.writeText file m.fileText
  return file

/-- The source that a member of the manifest file describes. -/
def sourceOf (root : Path) (name : String) (entry : Json) : Except Fault Source := do
  match entry with
  | .object members =>
    match members.lookup "kind" with
    | none => throw .noKey
    | some (.text kind) =>
      match Inclusion.parse kind with
      | .ok kind => return ⟨root / name, kind, (members.lookup "tag").getD .null⟩
      | .error fault => throw (.value fault)
    | some other => throw (.value (.noInclusion (Json.line other)))
  | _ => throw .wrongType

/-- The sources that a manifest file describes, in the order of their names. -/
def sourcesOf (root : Path) : Json → Except Fault (List Source)
  | .object members => (sortMembers members).mapM fun (name, entry) => sourceOf root name entry
  | _ => .error .noAttribute

/-- The sources in the manifest file. -/
def readSources (root : Path) : Action (List Source) := do
  let value ← Json.ofText (← Disk.readText (root / fileName))
  Action.ofExcept id (sourcesOf root value)

/-- The faults after which a manifest is made anew. -/
def isRepairable (fault : Fault) : Bool :=
  fault.isSystem || fault.isValue || fault == .noKey || fault == .wrongType

/-- The manifest of an unpacked library. -/
def load (root : Path) : Action Manifest := do
  match ← Action.outcome (readSources root) with
  | .ok sources => return ⟨root, sources⟩
  | .error fault =>
    if isRepairable fault then
      let m ← scan root
      let _ ← m.write
      return m
    else throw fault

/-- The sources that a build needs and those that it does not, each in order. -/
def select (m : Manifest) (gc : Collector) (links : List String) :
    Except Fault (List Source × List Source) := do
  let marked ← m.sources.mapM fun s => return (s, ← s.isNeeded gc links)
  return ((marked.filter (·.2)).map (·.1), (marked.filter fun e => !e.2).map (·.1))

end Manifest

end StagedBuild.NativeLibrary
