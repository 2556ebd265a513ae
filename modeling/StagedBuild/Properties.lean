import StagedBuild.Fault
import StagedBuild.Text.Blank
import StagedBuild.Text.Pieces

/-!
Property texts. A line holds a key and a value with an equals sign or a colon between them. A line
that is indented deeper than the key before it goes on with that key's value, and so does a blank
line inside a value. Lines that begin with a number sign or an exclamation mark are comments. A
section begins with a name in brackets; the keys of the section `DEFAULT` fill in for keys that are
missing.
-/

namespace StagedBuild.Properties

/-- The lines of a value, the latest first. -/
abbrev Value := List String

/-- The keys of a section with their values, in the order in which they first came. -/
abbrev Section := List (String × Value)

/-- Sets the value of a key; a key that is there keeps its place. -/
def Section.put (s : Section) (key : String) (value : Value) : Section :=
  if s.any fun e => e.1 == key then s.map fun e => if e.1 == key then (key, value) else e
  else s ++ [(key, value)]

/-- Adds a line to the value of a key. -/
def Section.extend (s : Section) (key line : String) : Section :=
  s.map fun e => if e.1 == key then (key, line :: e.2) else e

/-- What has been read: the sections, where the reading stands, and the lines that were refused. -/
structure Progress where
  sections : List (String × Section)
  current : String
  key : Option String
  indent : Nat
  refused : List (Nat × String)

/-- The name of the section that fills in for others. -/
def defaultSection : String := "DEFAULT"

/-- The section whose keys count. -/
def mainSection : String := "properties"

namespace Progress

/-- Before the first line the main section has begun. -/
def start : Progress :=
  ⟨[(mainSection, [])], mainSection, none, 0, []⟩

def keysOf (p : Progress) (name : String) : Section :=
  (p.sections.lookup name).getD []

/-- Changes the keys of the current section. -/
def change (p : Progress) (edit : Section → Section) : Progress :=
  { p with sections := p.sections.map fun s => if s.1 == p.current then (s.1, edit s.2) else s }

/-- Goes on with a section, which begins if it has not begun before. -/
def enter (p : Progress) (name : String) : Progress :=
  { p with
    sections :=
      if p.sections.any fun s => s.1 == name then p.sections else p.sections ++ [(name, [])]
    current := name
    key := none }

def refuse (p : Progress) (number : Nat) (line : String) : Progress :=
  { p with refused := p.refused ++ [(number, line)] }

end Progress

def isComment (trimmed : List Char) : Bool :=
  match trimmed with
  | c :: _ => c == '#' || c == '!'
  | [] => false

/-- The number of blanks before the first character that is not blank. -/
def indentOf (line : List Char) : Nat :=
  (line.takeWhile Text.isBlank).length

/-- The name of the section that a line begins: what stands between its first bracket and its last
closing one. -/
def sectionName? (trimmed : List Char) : Option String :=
  match trimmed with
  | '[' :: rest =>
    match rest.reverse.dropWhile (· != ']') with
    | _ :: c :: name => some (String.ofList ((c :: name).reverse))
    | _ => none
  | _ => none

/-- A character between a key and its value. -/
def isDelimiter (c : Char) : Bool :=
  c == '=' || c == ':'

/-- The key and the value of a line. -/
def splitKey? (trimmed : List Char) : Option (String × String) :=
  let key := trimmed.takeWhile (!isDelimiter ·)
  match trimmed.drop key.length with
  | _ :: value => some (Text.trimEnd (String.ofList key), Text.trim (String.ofList value))
  | [] => none

/-- Takes in a line that holds a section or a key. -/
def readEntry (p : Progress) (number : Nat) (line : String) (trimmed : List Char) : Progress :=
  match sectionName? trimmed with
  | some name => p.enter name
  | none =>
    match splitKey? trimmed with
    | some (key, value) =>
      let p := if key = "" then p.refuse number line else p
      { p.change (·.put key [value]) with key := some key }
    | none => p.refuse number line

/-- The key that a value may go on under: there is none after a key without a name. -/
def openKey? (p : Progress) : Option String :=
  p.key.filter (· ≠ "")

def readLine (p : Progress) (number : Nat) (line : String) : Progress :=
  let trimmed := Text.trimChars line.toList
  if isComment trimmed then p
  else if trimmed.isEmpty then
    match openKey? p with
    | some key => p.change (·.extend key "")
    | none => p
  else
    let indent := indentOf line.toList
    match openKey? p with
    | some key =>
      if p.indent < indent then p.change (·.extend key (String.ofList trimmed))
      else readEntry { p with indent := indent } number line trimmed
    | none => readEntry { p with indent := indent } number line trimmed

/-- The lines of a text with their ends, counted from two: the line that begins the main section
stands before them. -/
def numberedLines (text : String) : List (Nat × String) :=
  let pieces := Text.pieces '\n' text
  let ended := pieces.dropLast.map (· ++ "\n")
  let last := (pieces.getLast?.filter (· ≠ "")).toList
  (ended ++ last).zipIdx.map fun (line, i) => (i + 2, line)

/-- The text of a value: its lines, without blanks at the end. -/
def valueText (value : Value) : String :=
  Text.trimEnd ("\n".intercalate value.reverse)

/-- The keys and values of a property text. -/
def parse (text : String) : Except PropertyFault (List (String × String)) :=
  let p := (numberedLines text).foldl (fun p (number, line) => readLine p number line) .start
  if p.refused.isEmpty then
    let own := p.keysOf mainSection
    let others := (p.keysOf defaultSection).filter fun e => (own.lookup e.1).isNone
    .ok ((own ++ others).map fun (key, value) => (key, valueText value))
  else .error ⟨p.refused⟩

end StagedBuild.Properties
