import StagedBuild.Text.Quoted

/-!
Two digests: the 32-bit cyclic redundancy check with the reflected polynomial of IEEE 802.3, and the
SHA-256 digest of FIPS 180-4, for which the message is padded to whole blocks of 64 bytes, and every
block is mixed into eight words.
-/

namespace StagedBuild.Digest

/-- Shifts one bit out of the register. -/
def crcShift (register : UInt32) : UInt32 :=
  if register &&& 1 = 1 then (register >>> 1) ^^^ 0xedb88320 else register >>> 1

/-- Takes one byte into the register. -/
def crcByte (register : UInt32) (b : UInt8) : UInt32 :=
  (crcShift ∘ crcShift ∘ crcShift ∘ crcShift ∘ crcShift ∘ crcShift ∘ crcShift ∘ crcShift)
    (register ^^^ b.toUInt32)

/-- The register before the first byte. -/
def crcStart : UInt32 := 0xffffffff

def crcBytes (register : UInt32) (bytes : List UInt8) : UInt32 :=
  bytes.foldl crcByte register

/-- The check value of the bytes that a register has taken. -/
def crcValue (register : UInt32) : UInt32 :=
  register ^^^ 0xffffffff

/-- The eight words that carry the digest from block to block. -/
structure Words where
  a : UInt32
  b : UInt32
  c : UInt32
  d : UInt32
  e : UInt32
  f : UInt32
  g : UInt32
  h : UInt32
  deriving DecidableEq, Repr

/-- The words before the first block. -/
def Words.initial : Words :=
  ⟨0x6a09e667, 0xbb67ae85, 0x3c6ef372, 0xa54ff53a, 0x510e527f, 0x9b05688c, 0x1f83d9ab, 0x5be0cd19⟩

/-- Word by word addition. -/
def Words.add (x y : Words) : Words :=
  ⟨x.a + y.a, x.b + y.b, x.c + y.c, x.d + y.d, x.e + y.e, x.f + y.f, x.g + y.g, x.h + y.h⟩

/-- One constant for each of the 64 rounds. -/
def roundConstants : List UInt32 := [
  0x428a2f98, 0x71374491, 0xb5c0fbcf, 0xe9b5dba5, 0x3956c25b, 0x59f111f1, 0x923f82a4, 0xab1c5ed5,
  0xd807aa98, 0x12835b01, 0x243185be, 0x550c7dc3, 0x72be5d74, 0x80deb1fe, 0x9bdc06a7, 0xc19bf174,
  0xe49b69c1, 0xefbe4786, 0x0fc19dc6, 0x240ca1cc, 0x2de92c6f, 0x4a7484aa, 0x5cb0a9dc, 0x76f988da,
  0x983e5152, 0xa831c66d, 0xb00327c8, 0xbf597fc7, 0xc6e00bf3, 0xd5a79147, 0x06ca6351, 0x14292967,
  0x27b70a85, 0x2e1b2138, 0x4d2c6dfc, 0x53380d13, 0x650a7354, 0x766a0abb, 0x81c2c92e, 0x92722c85,
  0xa2bfe8a1, 0xa81a664b, 0xc24b8b70, 0xc76c51a3, 0xd192e819, 0xd6990624, 0xf40e3585, 0x106aa070,
  0x19a4c116, 0x1e376c08, 0x2748774c, 0x34b0bcb5, 0x391c0cb3, 0x4ed8aa4a, 0x5b9cca4f, 0x682e6ff3,
  0x748f82ee, 0x78a5636f, 0x84c87814, 0x8cc70208, 0x90befffa, 0xa4506ceb, 0xbef9a3f7, 0xc67178f2
]

/-- Rotation of a word to the right. -/
def rotateRight (x n : UInt32) : UInt32 :=
  (x >>> n) ||| (x <<< (32 - n))

/-- The next words of the message schedule, the latest first: each comes from four of the sixteen
before it. -/
def extendSchedule : Nat → List UInt32 → List UInt32
  | 0, ws => ws
  | n + 1, ws =>
    let w2 := ws.getD 1 0
    let w7 := ws.getD 6 0
    let w15 := ws.getD 14 0
    let w16 := ws.getD 15 0
    let s0 := rotateRight w15 7 ^^^ rotateRight w15 18 ^^^ (w15 >>> 3)
    let s1 := rotateRight w2 17 ^^^ rotateRight w2 19 ^^^ (w2 >>> 10)
    extendSchedule n ((w16 + s0 + w7 + s1) :: ws)

/-- One round: a word of the schedule and a constant are mixed in. -/
def round (w : Words) (input : UInt32 × UInt32) : Words :=
  let s1 := rotateRight w.e 6 ^^^ rotateRight w.e 11 ^^^ rotateRight w.e 25
  let choice := (w.e &&& w.f) ^^^ ((w.e ^^^ 0xffffffff) &&& w.g)
  let t1 := w.h + s1 + choice + input.1 + input.2
  let s0 := rotateRight w.a 2 ^^^ rotateRight w.a 13 ^^^ rotateRight w.a 22
  let majority := (w.a &&& w.b) ^^^ (w.a &&& w.c) ^^^ (w.b &&& w.c)
  ⟨t1 + (s0 + majority), w.a, w.b, w.c, w.d + t1, w.e, w.f, w.g⟩

/-- The words that bytes make, most significant byte first. -/
def wordsOf : List UInt8 → List UInt32
  | a :: b :: c :: d :: rest =>
    ((a.toUInt32 <<< 24) ||| (b.toUInt32 <<< 16) ||| (c.toUInt32 <<< 8) ||| d.toUInt32)
      :: wordsOf rest
  | _ => []

/-- Mixes the sixteen words of a block in. -/
def mixBlock (state : Words) (block : List UInt32) : Words :=
  let schedule := (extendSchedule 48 block.reverse).reverse
  state.add ((schedule.zip roundConstants).foldl round state)

/-- Mixes in every full block of sixteen words. -/
def mixBlocks : Nat → Words → List UInt32 → Words
  | 0, state, _ => state
  | n + 1, state, ws => mixBlocks n (mixBlock state (ws.take 16)) (ws.drop 16)

/-- The lowest `n` bytes of a number, most significant byte first. -/
def bigEndian : Nat → Nat → List UInt8
  | 0, _ => []
  | n + 1, x => bigEndian n (x / 256) ++ [UInt8.ofNat x]

/-- The message followed by a one bit, zeros, and its length in bits. -/
def padded (message : List UInt8) : List UInt8 :=
  let n := message.length
  message ++ 0x80 :: (List.replicate ((119 - n % 64) % 64) 0 ++ bigEndian 8 (8 * n))

/-- The digest of a message, as 32 bytes. -/
def sha256 (message : List UInt8) : List UInt8 :=
  let ws := wordsOf (padded message)
  let w := mixBlocks (ws.length / 16) Words.initial ws
  [w.a, w.b, w.c, w.d, w.e, w.f, w.g, w.h].flatMap fun x => bigEndian 4 x.toNat

/-- Bytes as lower-case hexadecimal digits. -/
def hexText (bytes : List UInt8) : String :=
  String.ofList (bytes.flatMap fun b => Text.hexDigits 2 b.toNat)

end StagedBuild.Digest
