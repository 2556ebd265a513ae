import StagedBuild.Json.Reading
import StagedBuild.Text.Lines
import StagedBuild.Xml.Reading

/-!
References to characters, by their number, and to entities, by their name; and the values of
attributes, in which references are replaced by what they stand for, white space by spaces, and if
they are made of tokens, spaces stand only between those. How much entities may contribute to a
document is limited.
-/

namespace StagedBuild.Xml

/-- The character with a number, if a document may refer to it. -/
def referableChar? (n : Nat) : Option Char :=
  if h : n.isValidChar then
    let c := Char.ofNatAux n h
    if isDocumentChar c then some c else none
  else none

/-- The number that hexadecimal digits write. -/
def hexNumber? (ds : List Char) : Option Nat :=
  if ds.isEmpty then none
  else ds.foldlM (fun n c => (Json.hexValue? c).map fun d => 16 * n + d) 0

/-- The number that decimal digits write. -/
def decimalNumber? (ds : List Char) : Option Nat :=
  if !ds.isEmpty && ds.all Char.isDigit then some (Json.natOf ds) else none

/-- What a reference stands for: a character, or an entity with a name. -/
inductive Reference where
  | character (c : Char)
  | entity (name : String)

/-- Takes a reference after its ampersand. -/
def readReference (cs : List Char) : Option (Reference × List Char) :=
  match cs with
  | '#' :: 'x' :: rest => do
    let ds := rest.takeWhile (· != ';')
    let c ← (hexNumber? ds).bind referableChar?
    let rest ← skipText ";" (rest.drop ds.length)
    some (.character c, rest)
  | '#' :: rest => do
    let ds := rest.takeWhile (· != ';')
    let c ← (decimalNumber? ds).bind referableChar?
    let rest ← skipText ";" (rest.drop ds.length)
    some (.character c, rest)
  | _ => do
    let (name, rest) ← readName cs
    let rest ← skipText ";" rest
    some (.entity (String.ofList name), rest)

/-- The entities that every document has. -/
def standardEntities : List (String × Char) :=
  [("lt", '<'), ("gt", '>'), ("amp", '&'), ("quot", '"'), ("apos", '\'')]

/-- What entities stand for, and whether an unknown one may be passed over in a value. An entity
outside the document has no text. -/
structure Entities where
  texts : List (String × Option (List Char))
  lenient : Bool

/-- Something that replaces entities, with the number of characters that they may still
contribute. -/
abbrev Expanding := StateT Nat Option

/-- Counts characters that an entity contributes. -/
def contribute (count : Nat) : Expanding Unit := do
  let left ← get
  if left < count then failure
  set (left - count)

/-- What entities may contribute to a document of a size, in characters: a hundred times the
document, and in any case a few millions. -/
def contributionLimit (size : Nat) : Nat :=
  max (8388608 - size) (99 * size)

/-- Adds a space to a value, the last character first. -/
def addSpace (ofTokens : Bool) (done : List Char) : List Char :=
  if ofTokens && done.head?.getD ' ' = ' ' then done else ' ' :: done

/-- Adds the text of a value to what is done of it, the last character first; `expand` adds what an
entity contributes. -/
def attributeText (ofTokens : Bool) (expand : String → List Char → Expanding (List Char)) :
    Nat → List Char → List Char → Expanding (List Char)
  | 0, _, _ => failure
  | bound + 1, done, cs =>
    match cs with
    | [] => return done
    | '<' :: _ => failure
    | '&' :: rest => do
      let (reference, rest) ← readReference rest
      match reference with
      | .character c =>
        attributeText ofTokens expand bound (if c = ' ' then addSpace ofTokens done else c :: done)
          rest
      | .entity name =>
        match standardEntities.lookup name with
        | some c => attributeText ofTokens expand bound (c :: done) rest
        | none => attributeText ofTokens expand bound (← expand name done) rest
    | c :: rest =>
      if isSpace c then attributeText ofTokens expand bound (addSpace ofTokens done) rest
      else if isDocumentChar c then attributeText ofTokens expand bound (c :: done) rest
      else failure

/-- Adds the text of a value with entities replaced to what is done of it; the depth bounds how
entities refer to each other. -/
def expandValue (entities : Entities) (ofTokens : Bool) :
    Nat → List String → List Char → List Char → Expanding (List Char)
  | 0, _, _, _ => failure
  | depth + 1, opened, done, cs =>
    attributeText ofTokens (fun name done =>
      if name ∈ opened then failure
      else
        match entities.texts.lookup name with
        | some (some text) => do
          contribute text.length
          expandValue entities ofTokens depth (name :: opened) done text
        | some none => failure
        | none => if entities.lenient then return done else failure) (cs.length + 1) done cs

/-- The value that stands between quotes. -/
def attributeValue (entities : Entities) (ofTokens : Bool) (raw : List Char) :
    Expanding String := do
  let done ← expandValue entities ofTokens (entities.texts.length + 1) [] []
    (Text.normalizeNewlines raw)
  let done := if ofTokens && done.head? = some ' ' then done.drop 1 else done
  return String.ofList done.reverse

end StagedBuild.Xml
