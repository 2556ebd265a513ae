import StagedBuild.Xml.DocumentType

/-!
The content of an XML document as a sequence of events: tags that begin and end elements, and text.
Comments and processing instructions leave no event. A reference to an entity is replaced by the
events of the text that the entity stands for, which has to be balanced by itself.
-/

namespace StagedBuild.Xml

/-- An attribute and its value. -/
structure Attribute where
  name : QName
  value : String
  deriving DecidableEq, Repr

/-- Something in the content of a document. Text that comes of a reference or a marked section is
not plain. -/
inductive Event where
  | opened (name : QName) (attributes : List Attribute)
  | closed (name : QName)
  | text (text : List Char) (plain : Bool)
  deriving Repr

/-- Takes a marked section after its opening, as text. -/
def readSection : Reader (List Char)
  | ']' :: ']' :: '>' :: rest => some ([], rest)
  | c :: rest =>
    if isDocumentChar c then (readSection rest).map fun (s, r) => (c :: s, r) else none
  | [] => none

/-- A name as it is written. -/
def QName.text (name : QName) : String :=
  if name.namePrefix = "" then name.localName else name.namePrefix ++ ":" ++ name.localName

/-- Takes the attributes of a tag up to its end, and tells whether the tag is empty. Attributes that
the document type gives to the element follow those that are written. -/
def readAttributes (d : DocumentType) (element : String) : Nat → List Char →
    Expanding (List Attribute × Bool × List Char)
  | 0, _ => failure
  | bound + 1, cs =>
    match skipSpace cs with
    | '>' :: rest => return ([], false, rest)
    | '/' :: rest => return ([], true, ← skipText ">" rest)
    | _ => do
      let rest ← skipSomeSpace cs
      let (name, rest) ← readQName rest
      let rest ← skipText "=" (skipSpace rest)
      let (raw, rest) ← readQuoted (skipSpace rest)
      let value ← attributeValue d.entities (d.isOfTokens element name) raw
      let (others, empty, rest) ← readAttributes d element bound rest
      return (⟨name, value⟩ :: others, empty, rest)

/-- The attributes of an element: those that are written, and those that it has by default. -/
def withDefaults (d : DocumentType) (element : String) (written : List Attribute) :
    List Attribute :=
  let missing := (d.defaultsOf element).filter fun (name, _) =>
    !written.any fun a => a.name == name
  written ++ missing.map fun (name, value) => ⟨name, value⟩

/-- Takes the name and the end of a closing tag. -/
def readClosing (cs : List Char) : Option (QName × List Char) := do
  let (name, rest) ← readQName cs
  let rest ← skipText ">" (skipSpace rest)
  some (name, rest)

/-- A character that stands for itself in content, whatever follows. -/
def isPlainChar (c : Char) : Bool :=
  c != '<' && c != '&' && c != ']' && isDocumentChar c

/-- Adds the events of content to those that are done, the latest first. `expand` gives the events
of an entity in this order, and the bound is on the number of steps. -/
def contentEvents (d : DocumentType) (expand : String → Expanding (List Event)) :
    Nat → List Event → List Char → Expanding (List Event)
  | 0, _, _ => failure
  | bound + 1, done, cs =>
    match cs with
    | [] => return done
    | '<' :: '!' :: '-' :: '-' :: rest => do
      contentEvents d expand bound done (← skipComment rest)
    | '<' :: '!' :: '[' :: 'C' :: 'D' :: 'A' :: 'T' :: 'A' :: '[' :: rest => do
      let (text, rest) ← readSection rest
      contentEvents d expand bound (.text text false :: done) rest
    | '<' :: '?' :: rest => do
      contentEvents d expand bound done (← skipInstruction rest)
    | '<' :: '/' :: rest => do
      let (name, rest) ← readClosing rest
      contentEvents d expand bound (.closed name :: done) rest
    | '<' :: rest => do
      let (name, rest) ← readQName rest
      let (written, empty, rest) ← readAttributes d name.text (rest.length + 1) rest
      let done := .opened name (withDefaults d name.text written) :: done
      contentEvents d expand bound (if empty then .closed name :: done else done) rest
    | '&' :: rest => do
      let (reference, rest) ← readReference rest
      match reference with
      | .character c => contentEvents d expand bound (.text [c] false :: done) rest
      | .entity name =>
        match standardEntities.lookup name with
        | some c => contentEvents d expand bound (.text [c] false :: done) rest
        | none =>
          let events ← expand name
          contentEvents d expand bound (events ++ .text [] false :: done) rest
    | ']' :: ']' :: '>' :: _ => failure
    | c :: rest =>
      if isDocumentChar c then
        let plain := rest.takeWhile isPlainChar
        contentEvents d expand bound (.text (c :: plain) true :: done) (rest.drop plain.length)
      else failure

/-- How many elements are open after events, if no closing tag comes too early. -/
def openAfter : Nat → List Event → Option Nat
  | n, [] => some n
  | n, .opened _ _ :: rest => openAfter (n + 1) rest
  | 0, .closed _ :: _ => none
  | n + 1, .closed _ :: rest => openAfter n rest
  | n, .text _ _ :: rest => openAfter n rest

/-- The events of content with entities replaced, the latest first; the depth bounds how entities
refer to each other. -/
def eventsOf (d : DocumentType) : Nat → List String → List Char → Expanding (List Event)
  | 0, _, _ => failure
  | depth + 1, opened, cs =>
    contentEvents d (fun name =>
      if name ∈ opened then failure
      else
        match d.texts.lookup name with
        | some (some text) => do
          contribute text.length
          let events ← eventsOf d depth (name :: opened) text
          if openAfter 0 events.reverse = some 0 then return events else failure
        | _ => failure) (cs.length + 1) [] cs

end StagedBuild.Xml
