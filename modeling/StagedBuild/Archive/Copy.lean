import StagedBuild.Archive.Extraction
import StagedBuild.Digest

/-!
The unpacked copy of an archive. Beside the copy stands a marker with the digest of the archive it
was made from. The copy is current when it is there and the marker holds the digest of the archive
as it is now. A refresh takes the old copy away first and writes the marker last, so that a refresh
that is broken off leaves a copy that is not current.
-/

namespace StagedBuild

/-- An archive, where its copy goes, and where the marker stands. The archive is read in chunks. -/
structure ArchiveCopy where
  archive : Path
  directory : Path
  marker : Path
  chunkSize : Int
  deriving DecidableEq, Repr

namespace ArchiveCopy

/-- The number of bytes that are read at a time when nobody says. -/
def defaultChunkSize : Int := 65536

/-- The copy of an archive with the marker inside. -/
def ofArchive (archive directory : Path) : ArchiveCopy :=
  ⟨archive, directory, directory / "jarhash", defaultChunkSize⟩

/-- The largest chunk that can be asked for: the header of a byte string takes some of the 63 bits.
-/
def chunkLimit : Int := Int.pow 2 63 - 34

/-- What is read of bytes in chunks of a size: reading ends with the first empty chunk. Chunks of
size -1 have no limit. The room for a chunk is taken before it is read; beyond that for a chunk of
the usual size there are only so many bytes to spare. -/
def readInChunks (spare : Nat) (chunkSize : Int) (bytes : List UInt8) :
    Except Fault (List UInt8) :=
  if chunkSize < -Int.pow 2 63 ∨ Int.pow 2 63 ≤ chunkSize then .error .tooLarge
  else if chunkSize < -1 then .error (.value .readLength)
  else if chunkSize = 0 then .ok []
  else if chunkLimit < chunkSize then .error .tooLong
  else if defaultChunkSize + spare < chunkSize then .error .outOfMemory
  else .ok bytes

/-- The digest of a file, in hexadecimal. -/
def digestFile (p : Path) (chunkSize : Int) : Action String := do
  let bytes ← Disk.readBytes p
  let chunks ← Action.ofExcept id (readInChunks (← read).spareMemory chunkSize bytes)
  return Digest.hexText (Digest.sha256 chunks)

/-- The digest of the archive as the marker holds it. -/
def marking (c : ArchiveCopy) : Action (List UInt8) := do
  return Text.encode (← digestFile c.archive c.chunkSize)

/-- The copy was made from the archive as it is now. -/
def isFresh (c : ArchiveCopy) : Action Bool := do
  if !(← Disk.isOccupied c.directory) then return false
  if !(← Disk.isOccupied c.marker) then return false
  let held ← Disk.readBytes c.marker
  return held == (← c.marking)

/-- Makes a new copy. What has to be ready before the marker is written is done by `finish`, whose
result is given. -/
def renew {α : Type} (c : ArchiveCopy) (finish : Path → Action α) : Action α := do
  let print ← c.marking
  if ← Disk.isOccupied c.directory then Disk.removeTree c.directory
  Archive.extract c.archive c.directory
  let finished ← finish c.directory
  Disk.makeDirectories c.marker.parent
  Disk.writeBytes c.marker print
  return finished

/-- Makes a new copy unless the copy is current. The result of `finish` is there when a new copy was
made. -/
def freshen {α : Type} (c : ArchiveCopy) (finish : Path → Action α) : Action (Option α) := do
  if ← c.isFresh then return none
  some <$> c.renew finish

end ArchiveCopy

end StagedBuild
