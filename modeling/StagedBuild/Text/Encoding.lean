import StagedBuild.Text.Lines

/-!
Reading bytes as text. In code page 437 there is one character for every byte, and the lower half is
ASCII. Of bytes that are not well formed as UTF-8, strict reading makes nothing; lenient reading
puts the replacement character in the place of every longest ill-formed prefix.
-/

namespace StagedBuild.Text

/-- The code points of the bytes from 128 on. -/
def codePage437 : List Nat := [
  0xc7, 0xfc, 0xe9, 0xe2, 0xe4, 0xe0, 0xe5, 0xe7, 0xea, 0xeb, 0xe8, 0xef,
  0xee, 0xec, 0xc4, 0xc5, 0xc9, 0xe6, 0xc6, 0xf4, 0xf6, 0xf2, 0xfb, 0xf9,
  0xff, 0xd6, 0xdc, 0xa2, 0xa3, 0xa5, 0x20a7, 0x192, 0xe1, 0xed, 0xf3, 0xfa,
  0xf1, 0xd1, 0xaa, 0xba, 0xbf, 0x2310, 0xac, 0xbd, 0xbc, 0xa1, 0xab, 0xbb,
  0x2591, 0x2592, 0x2593, 0x2502, 0x2524, 0x2561, 0x2562, 0x2556, 0x2555, 0x2563, 0x2551, 0x2557,
  0x255d, 0x255c, 0x255b, 0x2510, 0x2514, 0x2534, 0x252c, 0x251c, 0x2500, 0x253c, 0x255e, 0x255f,
  0x255a, 0x2554, 0x2569, 0x2566, 0x2560, 0x2550, 0x256c, 0x2567, 0x2568, 0x2564, 0x2565, 0x2559,
  0x2558, 0x2552, 0x2553, 0x256b, 0x256a, 0x2518, 0x250c, 0x2588, 0x2584, 0x258c, 0x2590, 0x2580,
  0x3b1, 0xdf, 0x393, 0x3c0, 0x3a3, 0x3c3, 0xb5, 0x3c4, 0x3a6, 0x398, 0x3a9, 0x3b4,
  0x221e, 0x3c6, 0x3b5, 0x2229, 0x2261, 0xb1, 0x2265, 0x2264, 0x2320, 0x2321, 0xf7, 0x2248,
  0xb0, 0x2219, 0xb7, 0x221a, 0x207f, 0xb2, 0x25a0, 0xa0
]

/-- The character of a byte in code page 437. -/
def ofCodePage437 (b : UInt8) : Char :=
  let n := b.toNat
  if n < 128 then Char.ofNat n else Char.ofNat (codePage437.getD (n - 128) 0)

/-- The character that stands for bytes that cannot be read. -/
def replacement : Char := '\ufffd'

/-- What a first byte asks for: how many bytes follow, the bounds of the next one, and the bits of
the first byte itself. -/
def leadByte? (b : Nat) : Option (Nat × Nat × Nat × Nat) :=
  if 0xc2 ≤ b ∧ b ≤ 0xdf then some (1, 0x80, 0xbf, b - 0xc0)
  else if b = 0xe0 then some (2, 0xa0, 0xbf, 0)
  else if b = 0xed then some (2, 0x80, 0x9f, 0xd)
  else if 0xe1 ≤ b ∧ b ≤ 0xef then some (2, 0x80, 0xbf, b - 0xe0)
  else if b = 0xf0 then some (3, 0x90, 0xbf, 0)
  else if 0xf1 ≤ b ∧ b ≤ 0xf3 then some (3, 0x80, 0xbf, b - 0xf0)
  else if b = 0xf4 then some (3, 0x80, 0x8f, 4)
  else none

/-- A character of which some bytes have been read: how many are missing, the bounds of the next
one, and the bits read so far. -/
structure Partial where
  missing : Nat
  low : Nat
  high : Nat
  bits : Nat

/-- Reads bytes as characters; `pending` is a character begun and not yet complete. -/
def decodeAfter : Option Partial → List UInt8 → List Char
  | none, [] => []
  | some _, [] => [replacement]
  | none, b :: rest =>
    if b.toNat < 0x80 then Char.ofNat b.toNat :: decodeAfter none rest
    else
      match leadByte? b.toNat with
      | some (missing, low, high, bits) => decodeAfter (some ⟨missing, low, high, bits⟩) rest
      | none => replacement :: decodeAfter none rest
  | some p, b :: rest =>
    let n := b.toNat
    if p.low ≤ n ∧ n ≤ p.high then
      let bits := p.bits * 64 + (n - 0x80)
      if p.missing ≤ 1 then Char.ofNat bits :: decodeAfter none rest
      else decodeAfter (some ⟨p.missing - 1, 0x80, 0xbf, bits⟩) rest
    else if n < 0x80 then replacement :: Char.ofNat n :: decodeAfter none rest
    else
      match leadByte? n with
      | some (missing, low, high, bits) =>
        replacement :: decodeAfter (some ⟨missing, low, high, bits⟩) rest
      | none => replacement :: replacement :: decodeAfter none rest

/-- The text of bytes, with the replacement character for what is not UTF-8. -/
def decodeLenient (bytes : List UInt8) : String :=
  String.ofList (decodeAfter none bytes)

def encode (s : String) : List UInt8 :=
  s.toUTF8.data.toList

/-- The text of bytes that are well-formed UTF-8. -/
def decode? (bytes : List UInt8) : Option String :=
  String.fromUTF8? ⟨bytes.toArray⟩

theorem decode?_encode (s : String) : decode? (encode s) = some s := by
  have h : (⟨s.toUTF8.data.toList.toArray⟩ : ByteArray) = s.toByteArray := by simp
  simp [decode?, encode, String.fromUTF8?, String.fromUTF8, s.isValidUTF8]

/-- The text of a text file: strict UTF-8, every kind of newline as a line feed. -/
def decodeFile? (bytes : List UInt8) : Option String :=
  (decode? bytes).map fun s => String.ofList (normalizeNewlines s.toList)

end StagedBuild.Text
