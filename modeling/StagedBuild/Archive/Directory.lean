import StagedBuild.Archive.Member

/-!
The directory of a zip archive. It is found from the end of the archive and lists the members; where
something stands before the archive, all positions are counted from behind it.
-/

namespace StagedBuild.Archive

/-- Where the directory lies. A wide record stands before the end record and replaces its numbers.
-/
structure EndRecord where
  location : Nat
  wide : Bool
  size : Nat
  offset : Nat

/-- The bytes with which the end record begins. -/
def endMagic : List UInt8 := [0x50, 0x4b, 5, 6]

/-- The bytes with which the locator of a wide end record begins. -/
def wideLocatorMagic : List UInt8 := [0x50, 0x4b, 6, 7]

/-- The bytes with which a wide end record begins. -/
def wideEndMagic : List UInt8 := [0x50, 0x4b, 6, 6]

/-- The bytes with which an entry of the directory begins. -/
def entryMagic : List UInt8 := [0x50, 0x4b, 1, 2]

/-- The position of the end record: the last 22 bytes, or before a comment. -/
def endLocation? (archive : List UInt8) : Option Nat :=
  let n := archive.length
  if n < 22 then none
  else
    let last := archive.drop (n - 22)
    if last.take 4 = endMagic ∧ last.drop 20 = [0, 0] then some (n - 22)
    else
      let start := n - (65536 + 22)
      match lastIndexOf endMagic (archive.drop start) with
      | some i => if start + i + 22 ≤ n then some (start + i) else none
      | none => none

/-- The end record of an archive. -/
def endRecord (archive : List UInt8) : Except Fault EndRecord := do
  match endLocation? archive with
  | none => throw (.archive .notAnArchive)
  | some location =>
    let record := slice archive location 22
    let narrow : EndRecord := ⟨location, false, field record 12 4, field record 16 4⟩
    if location < 20 then return narrow
    let locator := slice archive (location - 20) 20
    if locator.take 4 ≠ wideLocatorMagic then return narrow
    if field locator 4 4 ≠ 0 ∨ 1 < field locator 16 4 then throw (.archive .multipleDisks)
    if location < 76 then throw (.archive .notAnArchive)
    let wide := slice archive (location - 76) 56
    if wide.take 4 ≠ wideEndMagic then return narrow
    return ⟨location, true, field wide 40 8, field wide 48 8⟩

/-- A number of 32 bits that says that the number itself is in the extra field. -/
def wideMark : Nat := 0xffffffff

/-- The three numbers of an entry that an extra field can replace. -/
structure Sizes where
  size : Nat
  packedSize : Nat
  offset : Nat

/-- Takes a wide number from the front of an extra field. -/
def takeWide (name : String) (data : List UInt8) : Except Fault (Nat × List UInt8) :=
  if data.length < 8 then throw (.archive (.missingWideField name))
  else return (littleEndian (data.take 8), data.drop 8)

/-- The numbers with those replaced that are in an extra field. -/
def widened (sizes : Sizes) (data : List UInt8) : Except Fault Sizes := do
  let (size, data) ←
    if sizes.size = wideMark ∨ sizes.size = 0xffffffffffffffff then takeWide "File size" data
    else pure (sizes.size, data)
  let (packedSize, data) ←
    if sizes.packedSize = wideMark then takeWide "Compress size" data
    else pure (sizes.packedSize, data)
  let (offset, _) ←
    if sizes.offset = wideMark then takeWide "Header offset" data else pure (sizes.offset, data)
  return ⟨size, packedSize, offset⟩

/-- Goes through the extra fields of an entry; the bound is on their number. -/
def readExtra : Nat → Sizes → List UInt8 → Except Fault Sizes
  | 0, sizes, _ => return sizes
  | bound + 1, sizes, extra => do
    if extra.length < 4 then return sizes
    let tag := field extra 0 2
    let size := field extra 2 2
    if extra.length < size + 4 then throw (.archive (.corruptExtra tag size))
    let sizes ← if tag = 1 then widened sizes (slice extra 4 size) else pure sizes
    readExtra bound sizes (extra.drop (size + 4))

/-- Newest version of the format that can be read. -/
def newestVersion : Nat := 63

/-- The entry at the front of a directory, and its length. -/
def readEntry (shift : Int) (data : List UInt8) : Except Fault (Member × Nat) := do
  let fixed := data.take 46
  if fixed.length ≠ 46 then throw (.archive .truncatedDirectory)
  if fixed.take 4 ≠ entryMagic then throw (.archive .badDirectoryMagic)
  let nameSize := field fixed 28 2
  let extraSize := field fixed 30 2
  let flags := field fixed 8 2
  let name ← decodeName (flags.testBit 11) (slice data 46 nameSize)
  let version := field fixed 6 1
  if newestVersion < version then
    throw (.unsupported ("zip file version " ++ toString (version / 10) ++ "."
      ++ toString (version % 10)))
  let extra := slice data (46 + nameSize) extraSize
  let sizes ← readExtra (extra.length + 1) ⟨field fixed 24 4, field fixed 20 4, field fixed 42 4⟩
    extra
  return (
    { listedName := name
      flags := flags
      method := field fixed 10 2
      checksum := field fixed 16 4
      packedSize := sizes.packedSize
      size := sizes.size
      attributes := field fixed 38 4
      offset := sizes.offset + shift
      limit := 0 },
    46 + nameSize + extraSize + field fixed 32 2)

/-- The entries of a directory; `left` is how much of it has not been read, and the bound is on
their number. -/
def readEntries (shift : Int) : Nat → Nat → List UInt8 → Except Fault (List Member)
  | 0, _, _ => return []
  | bound + 1, left, data => do
    if left = 0 then return []
    let (m, length) ← readEntry shift data
    return m :: (← readEntries shift bound (left - length) (data.drop length))

/-- Every member ends where the next one after it begins, and the last one where the directory
begins. -/
def withLimits (start : Int) (members : List Member) : List Member :=
  let numbered := members.zipIdx
  let descending := numbered.mergeSort fun a b => decide (b.1.offset ≤ a.1.offset)
  let limits := (descending.foldl (fun (known, limit) (m, i) =>
    ((i, limit) :: known, m.offset)) (([] : List (Nat × Int)), start)).1
  numbered.map fun (m, i) => { m with limit := (limits.lookup i).getD 0 }

/-- The members of an archive, in the order of its directory. -/
def members (archive : List UInt8) : Except Fault (List Member) := do
  let record ← endRecord archive
  let shift : Int := (record.location : Int) - record.size - record.offset
    - (if record.wide then 76 else 0)
  let start := record.offset + shift
  if start < 0 then throw (.archive .badDirectoryOffset)
  let data := slice archive start.toNat record.size
  let entries ← readEntries shift (data.length + 1) record.size data
  return withLimits start entries

end StagedBuild.Archive
