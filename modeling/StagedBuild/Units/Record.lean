import StagedBuild.Action.Disk
import StagedBuild.Json.Printing
import StagedBuild.Json.Reading

/-!
Compilation units and the record of those that code generation wrote. The record is a JSON array of
paths relative to the work directory. A record that cannot be read counts as empty.
-/

namespace StagedBuild

/-- Why a text is no JSON, as a fault. -/
def Json.ReadFault.toFault : Json.ReadFault → Fault
  | .malformed => .notJson
  | .tooDeep => .tooDeep
  | .numeral digits => .value (.numeral (.tooLong digits))

/-- How deep values that are read may be nested. -/
def Surroundings.nesting (around : Surroundings) : Nat :=
  around.stackRoom + 2

/-- The value that a text writes. -/
def Json.ofText (text : String) : Action Json := do
  let around ← read
  Action.ofExcept Json.ReadFault.toFault (Json.parse around.nesting text)

namespace Units

def suffix : String := ".ll"

/-- The name of the record in a work directory. -/
def recordName : String := "units.json"

/-- The name of an entry makes it a unit. -/
def isUnitName (name : String) : Bool :=
  suffix.toList.isSuffixOf name.toList

/-- Everything below a work directory that is named like a unit, ordered by path. -/
def find (workdir : Path) : Action (List Path) := do
  let entries ← Disk.entriesBelow workdir
  return (entries.filter fun (p, _) => isUnitName p.name).map (·.1)

/-- The strings in a record. The characters of a string and the names of an object count as its
items; other values have none. -/
def recordedNames : Json → Except Fault (List String)
  | .array items => .ok (items.filterMap fun
      | .text s => some s
      | _ => none)
  | .text s => .ok (s.toList.map String.singleton)
  | .object members => .ok (members.map (·.1))
  | _ => .error .wrongType

def readRecordValue (record : Path) : Action Json := do
  Json.ofText (← Disk.readText record)

/-- The units that the last code generation wrote. -/
def readRecord (workdir : Path) : Action (List Path) := do
  let record := workdir / recordName
  match ← Action.outcome (readRecordValue record) with
  | .ok value =>
    let names ← Action.ofExcept id (recordedNames value)
    return names.map fun (name : String) => workdir / name
  | .error fault =>
    if fault.isMissing then return []
    else if fault.isSystem || fault.isValue then
      Action.warn (.unreadableRecord record fault)
      return []
    else throw fault

def recordText (names : List String) : String :=
  Json.document (.array (names.map Json.text))

/-- The paths of units relative to the work directory. -/
def relativeNames (workdir : Path) (units : List Path) : Except Fault (List String) :=
  units.mapM fun u =>
    match u.relativeTo? workdir with
    | some p => .ok p.text
    | none => .error (.value (.notBelow u workdir))

def writeRecord (workdir : Path) (units : List Path) : Action Path := do
  let record := workdir / recordName
  let names ← Action.ofExcept id (relativeNames workdir units)
  Disk.writeText record (recordText names)
  return record

end Units

end StagedBuild
