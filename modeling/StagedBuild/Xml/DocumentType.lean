import StagedBuild.Xml.ContentModel
import StagedBuild.Xml.Value

/-!
What stands before the first tag of a document: the declaration of the format, comments,
instructions, and the document type with the entities and the attributes that it declares. Once the
type refers to declarations that stand elsewhere, those that follow count only if the document
stands alone.
-/

namespace StagedBuild.Xml

/-- An attribute that is declared for an element: whether its values are any text, and the value of
elements that do not have it. -/
structure DeclaredAttribute where
  element : String
  name : QName
  isText : Bool
  default : Option String

/-- What a document type declares, whether some of it stands elsewhere, whether the document stands
alone all the same, and whether the declarations that follow count. -/
structure DocumentType where
  texts : List (String × Option (List Char))
  attributes : List DeclaredAttribute
  isPartial : Bool
  standsAlone : Bool
  counts : Bool

namespace DocumentType

/-- A document type that declares nothing. -/
def empty (standsAlone : Bool) : DocumentType :=
  ⟨[], [], false, standsAlone, true⟩

/-- The entities of a document type. -/
def entities (d : DocumentType) : Entities :=
  ⟨d.texts, d.isPartial && !d.standsAlone⟩

/-- The document type after a reference to declarations that stand elsewhere. -/
def referElsewhere (d : DocumentType) : DocumentType :=
  { d with isPartial := true, counts := d.standsAlone }

/-- Adds an entity; the first declaration of a name is the one that counts, and those that every
document has stay as they are. -/
def addEntity (d : DocumentType) (name : String) (text : Option (List Char)) : DocumentType :=
  if (standardEntities.lookup name).isSome || (d.texts.lookup name).isSome then d
  else { d with texts := d.texts ++ [(name, text)] }

/-- Adds an attribute. A default counts only with the first declaration. -/
def addAttribute (d : DocumentType) (a : DeclaredAttribute) : DocumentType :=
  if a.default.isSome && d.attributes.any fun b => b.element == a.element && b.name == a.name then d
  else { d with attributes := d.attributes ++ [a] }

/-- The values of an attribute are made of tokens. -/
def isOfTokens (d : DocumentType) (element : String) (name : QName) : Bool :=
  (d.attributes.find? fun a => a.element == element && a.name == name).any fun a => !a.isText

/-- The attributes that elements with a name have by default. -/
def defaultsOf (d : DocumentType) (element : String) : List (QName × String) :=
  d.attributes.filterMap fun a =>
    if a.element = element then a.default.map fun value => (a.name, value) else none

end DocumentType

/-- A character that the public name of something may hold. -/
def isPublicChar (c : Char) : Bool :=
  c.isAlphanum || c == ' ' || c == '\n' || c == '\r' || "-'()+,./:=?;!*#@$_%".toList.contains c

/-- Takes where something outside the document is. -/
def skipExternal : List Token → Option (List Token)
  | .name "SYSTEM" :: .literal _ :: rest => some rest
  | .name "PUBLIC" :: .literal publicName :: .literal _ :: rest =>
    if publicName.all isPublicChar then some rest else none
  | _ => none

/-- The text that an entity stands for: references to characters are replaced, references to other
entities are kept. -/
def entityText : Nat → List Char → Option (List Char)
  | 0, _ => none
  | bound + 1, cs =>
    match cs with
    | [] => some []
    | '%' :: _ => none
    | '&' :: rest => do
      let (reference, after) ← readReference rest
      let front :=
        match reference with
        | .character c => [c]
        | .entity name => '&' :: (name.toList ++ [';'])
      (entityText bound after).map (front ++ ·)
    | c :: rest => if isDocumentChar c then (entityText bound rest).map (c :: ·) else none

/-- What the literal of an entity stands for. -/
def literalText (raw : List Char) : Option (List Char) :=
  entityText (raw.length + 1) (Text.normalizeNewlines raw)

/-- Adds the entity of a declaration, given by its tokens after the keyword. A parameter entity is
no entity of the content. -/
def declareEntity (d : DocumentType) (tokens : List Token) : Option DocumentType :=
  match tokens with
  | [.percent, .name _, .literal raw] =>
    if d.counts then (literalText raw).map fun _ => d else some d
  | [.name name, .literal raw] =>
    if d.counts then (literalText raw).map fun text => d.addEntity name (some text) else some d
  | .percent :: .name _ :: rest => do
    if (← skipExternal rest).isEmpty then some d else none
  | .name name :: rest => do
    match ← skipExternal rest with
    | [] | [.name "NDATA", .name _] => some (if d.counts then d.addEntity name none else d)
    | _ => none
  | _ => none

/-- The types of attributes whose values are not listed. -/
def simpleTypes : List String :=
  ["CDATA", "ID", "IDREF", "IDREFS", "ENTITY", "ENTITIES", "NMTOKEN", "NMTOKENS"]

/-- Takes listed values up to the end of the list; `isValue` tells what a value is. -/
def skipListed (isValue : Token → Bool) : List Token → Option (List Token)
  | value :: .closeGroup none :: rest => if isValue value then some rest else none
  | value :: .bar :: rest => if isValue value then skipListed isValue rest else none
  | _ => none

/-- Something that may be listed as a value of an attribute. -/
def Token.isListable : Token → Bool
  | name _ | prefixedName _ | nameToken _ => true
  | _ => false

/-- A name without a prefix. -/
def Token.isPlainName : Token → Bool
  | name _ => true
  | _ => false

/-- Takes the type of an attribute, and tells whether its values are any text. -/
def readType : List Token → Option (Bool × List Token)
  | .name "NOTATION" :: .openGroup :: rest =>
    (skipListed Token.isPlainName rest).map fun rest => (false, rest)
  | .name type :: rest => if type ∈ simpleTypes then some (type == "CDATA", rest) else none
  | .openGroup :: rest => (skipListed Token.isListable rest).map fun rest => (false, rest)
  | _ => none

/-- Takes what is said about elements that do not have an attribute. -/
def readDefault : List Token → Option (Option (List Char) × List Token)
  | .keyword "IMPLIED" :: rest | .keyword "REQUIRED" :: rest => some (none, rest)
  | .keyword "FIXED" :: .literal raw :: rest | .literal raw :: rest => some (some raw, rest)
  | _ => none

/-- The prefix and the local part of a written name. -/
def splitQName (text : String) : QName :=
  let cs := text.toList
  let front := cs.takeWhile (· != ':')
  match cs.drop front.length with
  | _ :: back => ⟨String.ofList front, String.ofList back⟩
  | [] => ⟨"", text⟩

/-- Adds the attributes of a declaration, given by its tokens after the name of the element; the
bound is on their number. -/
def declareAttributes (element : String) :
    Nat → DocumentType → List Token → Expanding DocumentType
  | 0, _, _ => failure
  | bound + 1, d, tokens =>
    match tokens with
    | [] => return d
    | .name name :: rest | .prefixedName name :: rest => do
      let (isText, rest) ← readType rest
      let (raw, rest) ← readDefault rest
      if d.counts then
        let default ←
          match raw with
          | some raw => some <$> attributeValue d.entities (!isText) raw
          | none => pure none
        let a : DeclaredAttribute := ⟨element, splitQName name, isText, default⟩
        declareAttributes element bound (d.addAttribute a) rest
      else declareAttributes element bound d rest
    | _ => failure

/-- The tokens of a declaration of a notation after its keyword. -/
def isNotation : List Token → Bool
  | [.name _, .name "SYSTEM", .literal _] => true
  | [.name _, .name "PUBLIC", .literal publicName]
  | [.name _, .name "PUBLIC", .literal publicName, .literal _] => publicName.all isPublicChar
  | _ => false

/-- Adds what a declaration says, given by its keyword and the tokens that follow. -/
def declare (d : DocumentType) (keyword : String) (tokens : List Token) :
    Expanding DocumentType := do
  match keyword, tokens with
  | "ENTITY", tokens => declareEntity d tokens
  | "ATTLIST", .name element :: rest | "ATTLIST", .prefixedName element :: rest =>
    declareAttributes element (rest.length + 1) d rest
  | "ELEMENT", tokens => if isElementDeclaration tokens then return d else failure
  | "NOTATION", tokens => if isNotation tokens then return d else failure
  | _, _ => failure

/-- Takes the declarations inside a document type up to the closing bracket; the bound is on their
number. -/
def readSubset : Nat → DocumentType → List Char → Expanding (DocumentType × List Char)
  | 0, _, _ => failure
  | bound + 1, d, cs => do
    match ← readToken cs with
    | (.closeBracket, rest) => return (d, rest)
    | (.space, rest) | (.remark, rest) => readSubset bound d rest
    | (.parameter, rest) => readSubset bound d.referElsewhere rest
    | (.declaration keyword, rest) =>
      let (tokens, rest) ← readDeclaration (rest.length + 1) rest
      readSubset bound (← declare d keyword tokens) rest
    | _ => failure

/-- Takes the tokens of the document type up to its inner part or its end, without the space between
them, and tells whether there is an inner part; the bound is on their number. -/
def readHead : Nat → List Char → Option (List Token × Bool × List Char)
  | 0, _ => none
  | bound + 1, cs => do
    match ← readToken cs with
    | (.declarationEnd, rest) => some ([], false, rest)
    | (.openBracket, rest) => some ([], true, rest)
    | (.space, rest) => readHead bound rest
    | (token, rest) =>
      let (tokens, hasSubset, rest) ← readHead bound rest
      some (token :: tokens, hasSubset, rest)

/-- Takes the document type, if there is one. -/
def readDocumentType (standsAlone : Bool) (cs : List Char) :
    Expanding (DocumentType × List Char) := do
  match skipText "<!DOCTYPE" cs with
  | none => return (.empty standsAlone, cs)
  | some rest =>
    let (tokens, hasSubset, rest) ← readHead (rest.length + 1) (← skipSomeSpace rest)
    let external ←
      match tokens with
      | [name] => if name.isName then pure false else failure
      | name :: external =>
        if name.isName && (← skipExternal external).isEmpty then pure true else failure
      | [] => failure
    let start := { DocumentType.empty standsAlone with isPartial := external }
    if hasSubset then
      let (d, rest) ← readSubset (rest.length + 1) start rest
      return (d, ← skipText ">" (skipSpace rest))
    else return (start, rest)

/-- A character in a value of the format's declaration. -/
def isDeclarationChar (c : Char) : Bool :=
  c.isAlphanum || c == '.' || c == '-' || c == '_'

/-- Takes a setting of the format's declaration. -/
def readSetting (cs : List Char) : Option ((String × String) × List Char) := do
  let rest ← skipSomeSpace cs
  let name := rest.takeWhile Char.isAlpha
  let rest ← skipText "=" (skipSpace (rest.drop name.length))
  let (value, rest) ← readQuoted (skipSpace rest)
  if value.all isDeclarationChar then some ((String.ofList name, String.ofList value), rest)
  else none

/-- Takes settings while there are some; the bound is on their number. -/
def readSettings : Nat → List Char → List (String × String) × List Char
  | 0, cs => ([], cs)
  | bound + 1, cs =>
    match readSetting cs with
    | some (setting, rest) =>
      let (settings, rest) := readSettings bound rest
      (setting :: settings, rest)
    | none => ([], cs)

/-- The settings that a declaration may have: a version, then an encoding, then whether the document
stands alone. -/
def settingsAllowed : List (String × String) → Bool
  | ("version", _) :: rest =>
    let rest :=
      match rest with
      | ("encoding", value) :: rest =>
        if (value.toList.head?.map Char.isAlpha).getD false then rest
        else ("encoding", value) :: rest
      | rest => rest
    match rest with
    | [] => true
    | [("standalone", value)] => value == "yes" || value == "no"
    | _ => false
  | _ => false

/-- Takes the format's declaration, if there is one, and tells whether the document stands alone. -/
def readFormat (cs : List Char) : Option (Bool × List Char) :=
  match skipText "<?xml" cs with
  | some (c :: rest) =>
    if isSpace c then do
      let (settings, rest) := readSettings 4 (c :: rest)
      if settingsAllowed settings then
        some (settings.lookup "standalone" == some "yes", ← skipText "?>" (skipSpace rest))
      else none
    else some (false, cs)
  | _ => some (false, cs)

/-- Takes comments, instructions and white space; the bound is on their number. -/
def skipMisc : Nat → List Char → Option (List Char)
  | 0, _ => none
  | bound + 1, cs =>
    match skipSpace cs with
    | '<' :: '!' :: '-' :: '-' :: rest => do skipMisc bound (← skipComment rest)
    | '<' :: '?' :: rest => do skipMisc bound (← skipInstruction rest)
    | rest => some rest

/-- Takes everything before the first tag. -/
def readProlog (cs : List Char) : Expanding (DocumentType × List Char) := do
  let (standsAlone, rest) ← readFormat cs
  let rest ← skipMisc (rest.length + 1) rest
  let (documentType, rest) ← readDocumentType standsAlone rest
  return (documentType, ← skipMisc (rest.length + 1) rest)

end StagedBuild.Xml
