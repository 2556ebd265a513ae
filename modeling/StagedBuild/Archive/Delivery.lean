import StagedBuild.Archive.Inflate
import StagedBuild.Archive.Member
import StagedBuild.Digest
import StagedBuild.Surroundings

/-!
What a member of an archive delivers. The packed bytes arrive a few thousand at a time and are
unpacked as they come; what is unpacked is given out in pieces of one size. A member ends when its
stream ends, when nothing more can come of its packed bytes, or with the size that the directory
lists; then its check value decides whether the piece it ends in counts.
-/

namespace StagedBuild.Archive

/-- How far a member has been read: the packed bytes that have arrived and those of them that have
been taken, the unpacked bytes that have been given, how many may still be delivered, the register
of the check value, whether the member has ended, and what was unpacked but not asked for yet. -/
structure Reading where
  arrived : Nat
  taken : Nat
  given : Nat
  left : Nat
  register : UInt32
  ended : Bool
  pending : List UInt8

/-- A member of which nothing has been read. -/
def Reading.start (m : Member) : Reading :=
  ⟨0, 0, 0, m.size, Digest.crcStart, false, []⟩

/-- Fewest packed bytes that arrive at a time while there are as many. -/
def arrivalSize : Nat := 4096

/-- The packed bytes that arrive when `wanted` are asked for. An archive that ends too early has
none to give. -/
def arrival (m : Member) (packed : List UInt8) (arrived wanted : Nat) :
    Except Fault (List UInt8) :=
  if m.packedSize ≤ arrived then .ok []
  else
    let bytes := slice packed arrived (min (max wanted arrivalSize) (m.packedSize - arrived))
    if bytes.isEmpty then .error .endOfData else .ok bytes

/-- How much of an expansion is known, from `given` on, once `arrived` packed bytes are there. The
bound is on the number of bytes looked at. -/
def reach (output : Array Inflate.Written) (arrived : Nat) : Nat → Nat → Nat
  | 0, given => given
  | bound + 1, given =>
    match output[given]? with
    | some written =>
      if written.told ≤ arrived then reach output arrived bound (given + 1) else given
    | none => given

/-- How unpacking goes on: how far it gets, the packed bytes that it has taken then, and whether the
stream has ended. -/
structure Unpacked where
  given : Nat
  taken : Nat
  ended : Bool

/-- Unpacks at most `room` bytes more. What no compressor writes is found as soon as it has arrived;
a distance that reaches too far back only when there is room for the byte it stands for. -/
def unpack (e : Inflate.Expansion) (arrived given room : Nat) : Except Fault Unpacked :=
  let reached := reach e.output arrived room given
  if reached = e.output.size ∧ e.taken ≤ arrived then
    match e.ending with
    | .complete => .ok ⟨reached, e.taken, true⟩
    | .cut => .ok ⟨reached, arrived, false⟩
    | .corrupt corruption =>
      if corruption = .distanceTooFar ∧ reached = given + room then .ok ⟨reached, e.taken, false⟩
      else .error (.corruptData corruption)
  else
    let taken :=
      if reached = given + room then
        min arrived ((e.output[reached]?.map Inflate.Written.before).getD arrived)
      else arrived
    .ok ⟨reached, taken, false⟩

/-- Gives out what was unpacked, as far as the directory lists it. The check value has to be right
when the member ends. -/
def deliver (m : Member) (bytes : List UInt8) (r : Reading) :
    Except Fault (List UInt8 × Reading) :=
  let bytes := bytes.take r.left
  let left := r.left - bytes.length
  let register := Digest.crcBytes r.register bytes
  let ended := r.ended || left = 0
  if ended && (Digest.crcValue register).toNat ≠ m.checksum then
    .error (.archive (.badChecksum m.name))
  else .ok (bytes, { r with left, register, ended })

/-- Reads on in a member that is stored as it is. -/
def readStored (m : Member) (packed : List UInt8) (wanted : Nat) (r : Reading) :
    Except Fault (List UInt8 × Reading) := do
  let bytes ← arrival m packed r.arrived wanted
  let arrived := r.arrived + bytes.length
  deliver m bytes { r with arrived, ended := decide (m.packedSize ≤ arrived) }

/-- Reads on in a member that is compressed. When all packed bytes have been taken, whatever can
still be told from them comes at once. -/
def readExpanded (m : Member) (packed : List UInt8) (e : Inflate.Expansion) (wanted : Nat)
    (r : Reading) : Except Fault (List UInt8 × Reading) := do
  let untaken := r.arrived - r.taken
  let bytes ← if untaken < wanted then arrival m packed r.arrived (wanted - untaken) else pure []
  let arrived := r.arrived + bytes.length
  let u ← unpack e arrived r.given (max wanted arrivalSize)
  let ended := u.ended || (m.packedSize ≤ arrived && arrived ≤ u.taken)
  let given := if ended then reach e.output arrived e.output.size u.given else u.given
  let unpacked := (e.output.extract r.given given).toList.map Inflate.Written.byte
  deliver m unpacked { r with arrived, taken := u.taken, given, ended }

/-- Reads on in a member that a library unpacks: whatever it unpacks from the bytes that arrive. -/
def readUnpacked (unpacker : List UInt8 → List UInt8 → Except UnpackerFault (List UInt8 × Bool))
    (m : Member) (packed : List UInt8) (wanted : Nat) (r : Reading) :
    Except Fault (List UInt8 × Reading) := do
  let bytes ← arrival m packed r.arrived wanted
  let arrived := r.arrived + bytes.length
  match unpacker (packed.take r.arrived) bytes with
  | .error fault => .error fault.fault
  | .ok (unpacked, hasEnded) =>
    deliver m unpacked { r with arrived, ended := hasEnded || decide (m.packedSize ≤ arrived) }

/-- How a member is read on. -/
abbrev Reader := Nat → Reading → Except Fault (List UInt8 × Reading)

/-- Libraries that unpack, by the numbers of their methods. -/
abbrev Unpackers := Nat → List UInt8 → List UInt8 → Except UnpackerFault (List UInt8 × Bool)

/-- The reader of a member with its packed bytes. -/
def readerOf (unpackers : Unpackers) (m : Member) (packed : List UInt8) : Reader :=
  if m.method = 0 then readStored m packed
  else if m.method = 8 then readExpanded m packed (Inflate.expand (packed.take m.packedSize))
  else readUnpacked (unpackers m.method) m packed

/-- Reads until there are `wanted` bytes more or the member has ended; what is too much waits. The
bound is on the number of times that the reader goes on. -/
def fill (reader : Reader) : Nat → Nat → List UInt8 → Reading →
    Except Fault (List UInt8 × Reading)
  | 0, _, piece, r => .ok (piece, r)
  | bound + 1, wanted, piece, r =>
    if wanted = 0 || r.ended then .ok (piece, r)
    else do
      let (bytes, r) ← reader wanted r
      if wanted < bytes.length then
        .ok (piece ++ bytes.take wanted, { r with pending := bytes.drop wanted })
      else fill reader bound (wanted - bytes.length) (piece ++ bytes) r

/-- How many bytes of a member are asked for at a time. -/
def pieceSize : Nat := 65536

def readPiece (reader : Reader) (bound : Nat) (r : Reading) :
    Except Fault (List UInt8 × Reading) :=
  if pieceSize < r.pending.length then
    .ok (r.pending.take pieceSize, { r with pending := r.pending.drop pieceSize })
  else
    fill reader bound (pieceSize - r.pending.length) r.pending { r with pending := [] }

/-- What of a member arrives: the pieces, and the fault that ends them, if any. -/
structure Delivery where
  pieces : List (List UInt8)
  fault : Option Fault

/-- Reads piece after piece up to an empty one. The first bound is on the number of pieces, the
second on the number of times that the reader goes on within one. -/
def readPieces (reader : Reader) : Nat → Nat → Reading → Delivery
  | 0, _, _ => ⟨[], none⟩
  | pieces + 1, bound, r =>
    match readPiece reader bound r with
    | .error fault => ⟨[], some fault⟩
    | .ok ([], _) => ⟨[], none⟩
    | .ok (piece, r) =>
      let rest := readPieces reader pieces bound r
      ⟨piece :: rest.pieces, rest.fault⟩

/-- What a member delivers from its packed bytes. A piece holds one of the bytes that the directory
lists at least, and every time that the reader goes on packed bytes arrive or no more are to come,
so the bounds are not reached. -/
def delivery (unpackers : Unpackers) (m : Member) (packed : List UInt8) : Delivery :=
  let count := packed.length + m.size + 2
  readPieces (readerOf unpackers m packed) count (2 * count) (.start m)

end StagedBuild.Archive
