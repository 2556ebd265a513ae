import StagedBuild.Fault
import StagedBuild.Text.Encoding

/-!
Members of a zip archive as its directory lists them, and where an archive holds them. Numbers and
fields are at fixed places in bytes.
-/

namespace StagedBuild.Archive

/-- Bytes from a position on, at most a given number. -/
def slice (bytes : List UInt8) (start count : Nat) : List UInt8 :=
  (bytes.drop start).take count

/-- The number that bytes make, least significant first. -/
def littleEndian (bytes : List UInt8) : Nat :=
  bytes.foldr (fun b n => b.toNat + 256 * n) 0

/-- The number in a field of bytes. -/
def field (bytes : List UInt8) (start count : Nat) : Nat :=
  littleEndian (slice bytes start count)

/-- The last position at which bytes begin with a pattern. -/
def lastIndexOf (pattern bytes : List UInt8) : Option Nat :=
  (List.range (bytes.length + 1)).reverse.find? fun i => pattern.isPrefixOf (bytes.drop i)

/-- A member as the directory lists it. What it occupies in the archive has to end at `limit`. -/
structure Member where
  listedName : String
  flags : Nat
  method : Nat
  checksum : Nat
  packedSize : Nat
  size : Nat
  attributes : Nat
  offset : Int
  limit : Int
  deriving DecidableEq, Repr

namespace Member

/-- The name of a member ends before the first null character. -/
def name (m : Member) : String :=
  String.ofList (m.listedName.toList.takeWhile (· != '\x00'))

/-- A member whose name ends in a slash is a directory. -/
def isDirectory (m : Member) : Bool :=
  m.name.toList.getLast? == some '/'

/-- The names on the way from the destination to the member. Empty names and names that lead
nowhere or up are left out. -/
def way (m : Member) : List String :=
  (Text.pieces '/' m.name).filter fun s => s != "" && s != "." && s != ".."

/-- What a mode says about the type of a file. -/
def typeLetter (mode : Nat) : Char :=
  match mode / 0x1000 with
  | 8 => '-'
  | 4 => 'd'
  | 10 => 'l'
  | 6 => 'b'
  | 2 => 'c'
  | 1 => 'p'
  | 12 => 's'
  | _ => '?'

/-- One group of permissions: reading, writing, and running with a special bit. -/
def permissionLetters (mode shift : Nat) (special : Bool) (letter : Char) : List Char := [
  if mode.testBit (shift + 2) then 'r' else '-',
  if mode.testBit (shift + 1) then 'w' else '-',
  match mode.testBit shift, special with
  | true, true => letter
  | false, true => letter.toUpper
  | true, false => 'x'
  | false, false => '-']

def modeLetters (mode : Nat) : String :=
  String.ofList (typeLetter mode ::
    (permissionLetters mode 6 (mode.testBit 11) 's' ++
      permissionLetters mode 3 (mode.testBit 10) 's' ++
      permissionLetters mode 0 (mode.testBit 9) 't'))

def methodNames : List (Nat × String) := [
  (0, "store"), (1, "shrink"), (2, "reduce"), (3, "reduce"), (4, "reduce"), (5, "reduce"),
  (6, "implode"), (7, "tokenize"), (8, "deflate"), (9, "deflate64"), (10, "implode"),
  (12, "bzip2"), (14, "lzma"), (18, "terse"), (19, "lz77"), (97, "wavpack"), (98, "ppmd")]

/-- The compression methods that an archive may use. -/
def knownMethods : List Nat := [0, 8, 12, 14]

/-- A number in hexadecimal, without leading zeros. -/
def plainHex (n : Nat) : String :=
  let digits := (Text.hexDigits 8 n).dropWhile (· == '0')
  String.ofList digits

/-- A member as the text of a fault shows it. -/
def described (m : Member) : String :=
  let high := m.attributes / 0x10000
  let low := m.attributes % 0x10000
  "<ZipInfo filename=" ++ Text.quoted m.name
    ++ (if m.method ≠ 0 then
          " compress_type=" ++ (methodNames.lookup m.method).getD (toString m.method)
        else "")
    ++ (if high ≠ 0 then " filemode=" ++ Text.quoted (modeLetters high) else "")
    ++ (if low ≠ 0 then " external_attr=0x" ++ plainHex low else "")
    ++ (if !m.isDirectory || m.size ≠ 0 then " file_size=" ++ toString m.size else "")
    ++ (if (!m.isDirectory || m.packedSize ≠ 0) && (m.method ≠ 0 || m.size ≠ m.packedSize) then
          " compress_size=" ++ toString m.packedSize
        else "")
    ++ ">"

end Member

/-- The name that bytes in an archive write, in UTF-8 or in the code page of old. -/
def decodeName (isUtf8 : Bool) (bytes : List UInt8) : Except Fault String :=
  if isUtf8 then
    match Text.decode? bytes with
    | some s => .ok s
    | none => .error .undecodable
  else .ok (String.ofList (bytes.map Text.ofCodePage437))

/-- The bytes with which the header of a member begins. -/
def headerMagic : List UInt8 := [0x50, 0x4b, 3, 4]

/-- A position that a file can have. -/
def isPosition (offset : Int) : Bool :=
  -Int.pow 2 63 ≤ offset && offset < Int.pow 2 63

/-- What follows the header of a member: its packed bytes, and then whatever the archive holds. The
header has to agree with the directory. -/
def packedBytes (archive : List UInt8) (m : Member) : Except Fault (List UInt8) := do
  if !isPosition m.offset then throw (.value .noPosition)
  if m.offset < 0 then throw (.system (.described (SystemFault.numbered .invalid)))
  let start := m.offset.toNat
  let header := slice archive start 30
  if header.length ≠ 30 then throw (.archive .truncatedHeader)
  if header.take 4 ≠ headerMagic then throw (.archive .badHeaderMagic)
  let rawName := slice archive (start + 30) (field header 26 2)
  let dataStart := min (start + 30 + field header 26 2 + field header 28 2) archive.length
  if m.flags.testBit 5 then throw (.unsupported "compressed patched data (flag bit 5)")
  if m.flags.testBit 6 then throw (.unsupported "strong encryption (flag bit 6)")
  let name ← decodeName ((field header 6 2).testBit 11) rawName
  if name ≠ m.listedName then throw (.archive (.nameMismatch m.listedName rawName))
  if m.limit < dataStart + m.packedSize then throw (.archive (.overlapping m.listedName))
  if m.flags.testBit 0 then
    throw (.failure ("File " ++ m.described ++ " is encrypted, password required for extraction"))
  if m.method ∉ Member.knownMethods then
    throw (.unsupported "That compression method is not supported")
  return archive.drop dataStart

end StagedBuild.Archive
