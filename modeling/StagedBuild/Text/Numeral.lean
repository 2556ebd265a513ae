import StagedBuild.Text.Blank
import StagedBuild.Text.Quoted

/-!
Whole numbers written in decimal. A numeral may have blanks around it, a sign, single underscores
between digits, and the decimal digits of any script.
-/

namespace StagedBuild.Text

/-- The code points of the digit zero in every script that Unicode 14 gives decimal digits; the
other nine follow each of them. -/
def decimalZeros : List Nat := [
  0x30, 0x660, 0x6f0, 0x7c0, 0x966, 0x9e6, 0xa66, 0xae6, 0xb66, 0xbe6, 0xc66, 0xce6, 0xd66,
  0xde6, 0xe50, 0xed0, 0xf20, 0x1040, 0x1090, 0x17e0, 0x1810, 0x1946, 0x19d0, 0x1a80, 0x1a90,
  0x1b50, 0x1bb0, 0x1c40, 0x1c50, 0xa620, 0xa8d0, 0xa900, 0xa9d0, 0xa9f0, 0xaa50, 0xabf0,
  0xff10, 0x104a0, 0x10d30, 0x11066, 0x110f0, 0x11136, 0x111d0, 0x112f0, 0x11450, 0x114d0,
  0x11650, 0x116c0, 0x11730, 0x118e0, 0x11950, 0x11c50, 0x11d50, 0x11da0, 0x16a60, 0x16ac0,
  0x16b50, 0x1d7ce, 0x1d7d8, 0x1d7e2, 0x1d7ec, 0x1d7f6, 0x1e140, 0x1e2f0, 0x1e950, 0x1fbf0
]

/-- The value of a decimal digit of any script. -/
def decimalDigit? (c : Char) : Option Nat :=
  let n := c.toNat
  (decimalZeros.find? fun start => start ≤ n && n ≤ start + 9).map (n - ·)

/-- Most digits that a numeral may have. -/
def digitLimit : Nat := 4300

/-- Why a text is no whole number. -/
inductive NumeralFault where
  | malformed (text : String)
  | tooLong (digits : Nat)
  deriving DecidableEq, Repr

/-- The text reported for a malformed numeral; a long one is cut. -/
def NumeralFault.message : NumeralFault → String
  | .malformed text =>
    "invalid literal for int() with base 10: " ++ String.ofList ((quoted text).toList.take 200)
  | .tooLong digits =>
    "Exceeds the limit (" ++ toString digitLimit
      ++ " digits) for integer string conversion: value has " ++ toString digits
      ++ " digits; use sys.set_int_max_str_digits() to increase the limit"

/-- The digits in front of a text, with single underscores between them, and what follows them;
`pending` holds while a digit has to follow. -/
def digitsOf? : Bool → List Char → Option (List Nat × List Char)
  | pending, [] => if pending then none else some ([], [])
  | pending, c :: rest =>
    if c = '_' then if pending then none else digitsOf? true rest
    else
      match decimalDigit? c with
      | some d => (digitsOf? false rest).map fun (ds, rest) => (d :: ds, rest)
      | none => if pending then none else some ([], c :: rest)

/-- Blanks around a numeral. An ASCII information separator is not among them. -/
def isNumeralBlank (c : Char) : Bool :=
  isBlank c && !(28 ≤ c.toNat && c.toNat ≤ 31)

/-- The whole number that a text writes. Too many digits are refused before anyone looks at what
follows them. -/
def readInt (text : String) : Except NumeralFault Int :=
  let body := dropEndWhile isNumeralBlank (text.toList.dropWhile isNumeralBlank)
  let (sign, digits) : Int × List Char :=
    match body with
    | '-' :: rest => (-1, rest)
    | '+' :: rest => (1, rest)
    | rest => (1, rest)
  match digitsOf? true digits with
  | none => .error (.malformed text)
  | some (ds, rest) =>
    if digitLimit < ds.length then .error (.tooLong ds.length)
    else if !rest.isEmpty then .error (.malformed text)
    else .ok (sign * (ds.foldl (fun n d => 10 * n + d) 0 : Nat))

end StagedBuild.Text
