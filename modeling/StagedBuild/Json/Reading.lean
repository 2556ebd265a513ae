import StagedBuild.Json
import StagedBuild.Text.Numeral

/-!
Reading JSON text. Beside RFC 8259 the numbers `NaN`, `Infinity` and `-Infinity` are accepted.
How deep values may be nested is up to whoever reads them.
-/

namespace StagedBuild.Json

/-- Why a text is not read. -/
inductive ReadFault where
  | malformed
  | tooDeep
  | numeral (digits : Nat)
  deriving DecidableEq, Repr

/-- A reader takes a value from the front of a text and gives the rest. -/
abbrev Reader (α : Type) := List Char → Except ReadFault (α × List Char)

def isSpace (c : Char) : Bool :=
  c == ' ' || c == '\t' || c == '\n' || c == '\r'

def skipSpace (cs : List Char) : List Char :=
  cs.dropWhile isSpace

/-- The value of a hexadecimal digit. -/
def hexValue? (c : Char) : Option Nat :=
  let n := c.toNat
  if 48 ≤ n ∧ n ≤ 57 then some (n - 48)
  else if 97 ≤ n ∧ n ≤ 102 then some (n - 87)
  else if 65 ≤ n ∧ n ≤ 70 then some (n - 55)
  else none

/-- The number that four hexadecimal digits write. -/
def hex4? (a b c d : Char) : Option Nat :=
  match hexValue? a, hexValue? b, hexValue? c, hexValue? d with
  | some a, some b, some c, some d => some (((a * 16 + b) * 16 + c) * 16 + d)
  | _, _, _, _ => none

/-- The character that two surrogates stand for together. -/
def pairedSurrogates? (high low : Nat) : Option Char :=
  if 0xd800 ≤ high ∧ high ≤ 0xdbff ∧ 0xdc00 ≤ low ∧ low ≤ 0xdfff then
    some (Char.ofNat (0x10000 + (high - 0xd800) * 0x400 + (low - 0xdc00)))
  else none

/-- The character of a code unit; a surrogate without its partner becomes the replacement
character. -/
def unitChar (unit : Nat) : Char :=
  if 0xd800 ≤ unit ∧ unit ≤ 0xdfff then '\ufffd' else Char.ofNat unit

/-- What a single character after a backslash stands for. -/
def shortEscape? (c : Char) : Option Char :=
  if c = '"' ∨ c = '\\' ∨ c = '/' then some c
  else if c = 'b' then some '\x08'
  else if c = 'f' then some '\x0c'
  else if c = 'n' then some '\n'
  else if c = 'r' then some '\r'
  else if c = 't' then some '\t'
  else none

/-- Takes the characters of a string up to its closing quote. -/
def readString : Reader (List Char)
  | [] => .error .malformed
  | '"' :: rest => .ok ([], rest)
  | '\\' :: 'u' :: a :: b :: c :: d :: '\\' :: 'u' :: e :: f :: g :: h :: rest =>
    match hex4? a b c d, hex4? e f g h with
    | some high, some low =>
      match pairedSurrogates? high low with
      | some ch => (readString rest).map fun (s, r) => (ch :: s, r)
      | none =>
        (readString ('\\' :: 'u' :: e :: f :: g :: h :: rest)).map fun (s, r) =>
          (unitChar high :: s, r)
    | some unit, none =>
      (readString ('\\' :: 'u' :: e :: f :: g :: h :: rest)).map fun (s, r) =>
        (unitChar unit :: s, r)
    | none, _ => .error .malformed
  | '\\' :: 'u' :: a :: b :: c :: d :: rest =>
    match hex4? a b c d with
    | some unit => (readString rest).map fun (s, r) => (unitChar unit :: s, r)
    | none => .error .malformed
  | '\\' :: c :: rest =>
    match shortEscape? c with
    | some ch => (readString rest).map fun (s, r) => (ch :: s, r)
    | none => .error .malformed
  | c :: rest =>
    if c = '\\' ∨ c.toNat < 0x20 then .error .malformed
    else (readString rest).map fun (s, r) => (c :: s, r)

/-- The digits at the front of a text and what follows them. -/
def digits (cs : List Char) : List Char × List Char :=
  (cs.takeWhile Char.isDigit, cs.dropWhile Char.isDigit)

/-- The fraction at the front of a text, if there is one. -/
def fraction : List Char → List Char × List Char
  | '.' :: rest =>
    match digits rest with
    | ([], _) => ([], '.' :: rest)
    | (ds, rest) => ('.' :: ds, rest)
  | cs => ([], cs)

/-- The exponent at the front of a text, if there is one. -/
def exponent (cs : List Char) : List Char × List Char :=
  match cs with
  | e :: rest =>
    if e = 'e' ∨ e = 'E' then
      let (sign, rest) : List Char × List Char :=
        match rest with
        | '+' :: r => (['+'], r)
        | '-' :: r => (['-'], r)
        | r => ([], r)
      match digits rest with
      | ([], _) => ([], cs)
      | (ds, rest) => (e :: (sign ++ ds), rest)
    else ([], cs)
  | [] => ([], [])

/-- The whole number that digits write. -/
def natOf (ds : List Char) : Nat :=
  ds.foldl (fun n c => 10 * n + (c.toNat - 48)) 0

def readNumber (cs : List Char) : Except ReadFault (Json × List Char) :=
  let (negative, rest) : Bool × List Char :=
    match cs with
    | '-' :: r => (true, r)
    | r => (false, r)
  let (whole, rest) : List Char × List Char :=
    match rest with
    | '0' :: r => (['0'], r)
    | r => digits r
  if whole.isEmpty then .error .malformed
  else
    let (frac, rest) := fraction rest
    let (expo, rest) := exponent rest
    if frac.isEmpty && expo.isEmpty then
      if Text.digitLimit < whole.length then .error (.numeral whole.length)
      else .ok (.int (if negative then -(natOf whole : Int) else natOf whole), rest)
    else
      .ok (.real (String.ofList ((if negative then ['-'] else []) ++ whole ++ frac ++ expo)), rest)

def readWord (word : String) (value : Json) (cs : List Char) :
    Except ReadFault (Json × List Char) :=
  if word.toList.isPrefixOf cs then .ok (value, cs.drop word.length) else .error .malformed

/-- Takes a value that is not nested. -/
def readScalar (cs : List Char) : Except ReadFault (Json × List Char) :=
  match cs with
  | [] => .error .malformed
  | '"' :: rest => (readString rest).map fun (s, r) => (.text (String.ofList s), r)
  | 'n' :: _ => readWord "null" .null cs
  | 't' :: _ => readWord "true" (.bool true) cs
  | 'f' :: _ => readWord "false" (.bool false) cs
  | 'N' :: _ => readWord "NaN" (.real "NaN") cs
  | 'I' :: _ => readWord "Infinity" (.real "Infinity") cs
  | '-' :: 'I' :: _ => readWord "-Infinity" (.real "-Infinity") cs
  | _ => readNumber cs

/-- Takes the items of an array up to its closing bracket; the bound is on their number. -/
def readItems (item : Reader Json) : Nat → Reader (List Json)
  | 0, _ => .error .malformed
  | bound + 1, cs => do
    let (value, rest) ← item (skipSpace cs)
    match skipSpace rest with
    | ']' :: rest => .ok ([value], rest)
    | ',' :: rest =>
      let (values, rest) ← readItems item bound rest
      .ok (value :: values, rest)
    | _ => .error .malformed

/-- Takes the members of an object up to its closing brace; the bound is on their number. -/
def readMembers (item : Reader Json) : Nat → Reader (List (String × Json))
  | 0, _ => .error .malformed
  | bound + 1, cs => do
    match skipSpace cs with
    | '"' :: rest =>
      let (name, rest) ← readString rest
      match skipSpace rest with
      | ':' :: rest =>
        let (value, rest) ← item (skipSpace rest)
        match skipSpace rest with
        | '\x7d' :: rest => .ok ([(String.ofList name, value)], rest)
        | ',' :: rest =>
          let (members, rest) ← readMembers item bound rest
          .ok ((String.ofList name, value) :: members, rest)
        | _ => .error .malformed
      | _ => .error .malformed
    | _ => .error .malformed

/-- An object with the given members; of members with one name the last stays. -/
def ofMembers (members : List (String × Json)) : Json :=
  .object (members.foldl (fun known (name, value) => insert known name value) [])

/-- Takes a value with at most the given depth of nesting. -/
def readValue : Nat → Reader Json
  | depth, cs =>
    match cs with
    | '[' :: rest =>
      match depth with
      | 0 => .error .tooDeep
      | depth + 1 =>
        match skipSpace rest with
        | ']' :: rest => .ok (.array [], rest)
        | rest => (readItems (readValue depth) (rest.length + 1) rest).map fun (items, r) =>
            (.array items, r)
    | '\x7b' :: rest =>
      match depth with
      | 0 => .error .tooDeep
      | depth + 1 =>
        match skipSpace rest with
        | '\x7d' :: rest => .ok (.object [], rest)
        | rest => (readMembers (readValue depth) (rest.length + 1) rest).map fun (members, r) =>
            (ofMembers members, r)
    | cs => readScalar cs

/-- The value that a text writes, with white space around it and with at most the given depth of
nesting. -/
def parse (depth : Nat) (s : String) : Except ReadFault Json := do
  let (value, rest) ← readValue depth (skipSpace s.toList)
  if (skipSpace rest).isEmpty then .ok value else .error .malformed

end StagedBuild.Json
