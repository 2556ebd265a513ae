import StagedBuild.Json
import StagedBuild.Text.Quoted

/-!
Printing JSON text in ASCII. Characters outside ASCII are written as code units of UTF-16; nested
values are either on lines of their own, two blanks deeper than what holds them, or all on one line.
-/

namespace StagedBuild.Json

/-- An escape for a code unit. -/
def unitEscape (unit : Nat) : List Char :=
  '\\' :: 'u' :: Text.hexDigits 4 unit

/-- How a character is written in a string. -/
def printChar (c : Char) : List Char :=
  if c = '"' ∨ c = '\\' then ['\\', c]
  else if c = '\n' then ['\\', 'n']
  else if c = '\r' then ['\\', 'r']
  else if c = '\t' then ['\\', 't']
  else if c = '\x0c' then ['\\', 'f']
  else if c = '\x08' then ['\\', 'b']
  else if 0x20 ≤ c.toNat ∧ c.toNat < 0x7f then [c]
  else if c.toNat < 0x10000 then unitEscape c.toNat
  else
    let n := c.toNat - 0x10000
    unitEscape (0xd800 + n / 0x400) ++ unitEscape (0xdc00 + n % 0x400)

def printString (s : String) : List Char :=
  '"' :: (s.toList.flatMap printChar ++ ['"'])

/-- A new line with the blanks of a depth. -/
def newLine (depth : Nat) : List Char :=
  '\n' :: List.replicate (2 * depth) ' '

mutual

/-- A value over several lines; `depth` is how deep it stands. -/
def printIndented (depth : Nat) : Json → List Char
  | null => "null".toList
  | bool b => (if b then "true" else "false").toList
  | int n => (toString n).toList
  | real literal => literal.toList
  | text s => printString s
  | array [] => "[]".toList
  | array (item :: items) =>
    '[' :: newLine (depth + 1) ++ printIndented (depth + 1) item ++ printItems (depth + 1) items
      ++ newLine depth ++ [']']
  | object [] => ['\x7b', '\x7d']
  | object ((name, value) :: members) =>
    '\x7b' :: newLine (depth + 1) ++ printString name ++ ": ".toList
      ++ printIndented (depth + 1) value ++ printMembers (depth + 1) members
      ++ newLine depth ++ ['\x7d']

/-- The items of an array after its first. -/
def printItems (depth : Nat) : List Json → List Char
  | [] => []
  | item :: items =>
    ',' :: newLine depth ++ printIndented depth item ++ printItems depth items

/-- The members of an object after its first. -/
def printMembers (depth : Nat) : List (String × Json) → List Char
  | [] => []
  | (name, value) :: members =>
    ',' :: newLine depth ++ printString name ++ ": ".toList ++ printIndented depth value
      ++ printMembers depth members

end

mutual

/-- A value on one line, without blanks. -/
def printCompact : Json → List Char
  | null => "null".toList
  | bool b => (if b then "true" else "false").toList
  | int n => (toString n).toList
  | real literal => literal.toList
  | text s => printString s
  | array [] => "[]".toList
  | array (item :: items) => '[' :: printCompact item ++ printCompactItems items ++ [']']
  | object [] => ['\x7b', '\x7d']
  | object ((name, value) :: members) =>
    '\x7b' :: printString name ++ ':' :: printCompact value ++ printCompactMembers members
      ++ ['\x7d']

/-- The items of an array after its first, on one line. -/
def printCompactItems : List Json → List Char
  | [] => []
  | item :: items => ',' :: printCompact item ++ printCompactItems items

/-- The members of an object after its first, on one line. -/
def printCompactMembers : List (String × Json) → List Char
  | [] => []
  | (name, value) :: members =>
    ',' :: printString name ++ ':' :: printCompact value ++ printCompactMembers members

end

/-- A value as an indented document. -/
def document (value : Json) : String :=
  String.ofList (printIndented 0 value)

def line (value : Json) : String :=
  String.ofList (printCompact value)

end StagedBuild.Json
