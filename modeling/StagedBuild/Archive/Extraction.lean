import StagedBuild.Action.Disk
import StagedBuild.Archive.Delivery
import StagedBuild.Archive.Directory

/-!
Extracting an archive. Members are written in the order of the directory, each below the destination
whatever its name says. A member that turns out to be damaged ends the extraction; what was written
before stays.
-/

namespace StagedBuild.Archive

/-- Makes a directory and those above it that are missing; the bound is on their number. -/
def makeMissing : Nat → Path → Action Unit
  | 0, p => Disk.makeDirectory p
  | bound + 1, p => do
    let above := p.parent
    if above.steps ≠ [] ∧ (← Disk.nodeIfAny above).isNone then
      match ← Action.outcome (makeMissing bound above) with
      | .ok _ => pure ()
      | .error (.system (.on .occupied _)) => pure ()
      | .error fault => throw fault
    Disk.makeDirectory p

/-- Writes the pieces of a member, and ends in the fault that ended them. -/
def writeDelivery (target : Path) (delivery : Delivery) : Action Unit := do
  delivery.pieces.forM (Disk.appendBytes target)
  match delivery.fault with
  | some fault => throw fault
  | none => return ()

def targetOf (destination : Path) (m : Member) : Path :=
  (destination.descend m.way).collapsed

/-- Makes the directory that a member stands for unless it is there. -/
def makeMember (target : Path) : Action Unit := do
  if (← Disk.nodeIfAny target) ≠ some .directory then Disk.makeDirectory target

/-- Writes the file that a member stands for. -/
def writeMember (archive : List UInt8) (target : Path) (m : Member) : Action Unit := do
  let packed ← Action.ofExcept id (packedBytes archive m)
  Disk.truncate target
  let around ← read
  writeDelivery target (delivery around.unpacker m packed)

/-- Extracts one member. A member without a name is found to be no file when the directories above
it are there. -/
def extractMember (archive : List UInt8) (destination : Path) (m : Member) : Action Unit := do
  let target := targetOf destination m
  let above := target.parent
  if (above.isAbsolute || above.steps ≠ []) && (← Disk.nodeIfAny above).isNone then
    makeMissing above.steps.length above
  if m.name = "" then throw .noCharacter
  if m.isDirectory then makeMember target else writeMember archive target m

/-- Extracts all members. Of members with one name the last counts each time. -/
def extractMembers (archive : List UInt8) (destination : Path) (all : List Member) :
    Action Unit :=
  all.forM fun m =>
    extractMember archive destination ((all.reverse.find? fun n => n.name == m.name).getD m)

/-- The extensions of archives that can be extracted. -/
def knownSuffixes : List String := [".jar", ".zip"]

/-- Extracts an archive below a directory, which is made if it is missing. -/
def extract (archive destination : Path) : Action Unit := do
  if !(← Disk.isOccupied archive) then throw (.extraction (.missing archive))
  Disk.makeDirectories destination
  if archive.suffix ∉ knownSuffixes then throw (.extraction (.unsupported archive.suffix))
  let unpacking : Action Unit := do
    let bytes ← Disk.readBytes archive
    extractMembers bytes destination (← Action.ofExcept id (members bytes))
  match ← Action.outcome unpacking with
  | .ok _ => return ()
  | .error (.archive fault) => throw (.extraction (.malformed archive fault))
  | .error (.system fault) => throw (.extraction (.refused archive fault))
  | .error fault => throw fault

end StagedBuild.Archive
