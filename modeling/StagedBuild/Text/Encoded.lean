/-!
Bytes that are written as text: two hexadecimal digits for each, or four digits of base sixty-four
for three.
-/

namespace StagedBuild.Text

/-- The value of a hexadecimal digit. -/
def digit16? (c : Char) : Option Nat :=
  if '0' ≤ c ∧ c ≤ '9' then some (c.toNat - '0'.toNat)
  else if 'a' ≤ c ∧ c ≤ 'f' then some (c.toNat - 'a'.toNat + 10)
  else if 'A' ≤ c ∧ c ≤ 'F' then some (c.toNat - 'A'.toNat + 10)
  else none

/-- The bytes that hexadecimal digits stand for. -/
def bytes16 : List Nat → List UInt8
  | a :: b :: rest => UInt8.ofNat (a * 16 + b) :: bytes16 rest
  | _ => []

/-- The bytes that a hexadecimal text stands for. -/
def decode16 (s : String) : List UInt8 :=
  bytes16 (s.toList.filterMap digit16?)

/-- The value of a digit of base sixty-four. -/
def digit64? (c : Char) : Option Nat :=
  if 'A' ≤ c ∧ c ≤ 'Z' then some (c.toNat - 'A'.toNat)
  else if 'a' ≤ c ∧ c ≤ 'z' then some (c.toNat - 'a'.toNat + 26)
  else if '0' ≤ c ∧ c ≤ '9' then some (c.toNat - '0'.toNat + 52)
  else if c = '+' then some 62
  else if c = '/' then some 63
  else none

/-- The bytes that digits of base sixty-four stand for. -/
def bytes64 : List Nat → List UInt8
  | a :: b :: c :: d :: rest =>
    UInt8.ofNat (a * 4 + b / 16) :: UInt8.ofNat (b % 16 * 16 + c / 4)
      :: UInt8.ofNat (c % 4 * 64 + d) :: bytes64 rest
  | [a, b, c] => [UInt8.ofNat (a * 4 + b / 16), UInt8.ofNat (b % 16 * 16 + c / 4)]
  | [a, b] => [UInt8.ofNat (a * 4 + b / 16)]
  | _ => []

/-- The bytes that a text in base sixty-four stands for. -/
def decode64 (s : String) : List UInt8 :=
  bytes64 (s.toList.filterMap digit64?)

end StagedBuild.Text
