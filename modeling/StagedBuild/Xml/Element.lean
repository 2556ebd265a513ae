import StagedBuild.Xml.DocumentType
import StagedBuild.Xml.Event

/-!
The elements of an XML document. Names are kept without their prefix, and of the text in an element
only what stands before its first child. Prefixes have to be bound, an element has no attribute
twice, and closing tags have to match.
-/

namespace StagedBuild.Xml

/-- An element: its local name, the text before its first child, and its children. -/
inductive Element where
  | mk (name : String) (text : String) (children : List Element)
  deriving Repr, Inhabited

namespace Element

/-- The local name of an element. -/
def name : Element → String
  | mk name _ _ => name

/-- The text before the first child. -/
def text : Element → String
  | mk _ text _ => text

def children : Element → List Element
  | mk _ _ children => children

/-- The first child with a name. -/
def child? (e : Element) (name : String) : Option Element :=
  e.children.find? fun c => c.name == name

end Element

/-- The name of the namespace to which the prefix `xml` is always bound. -/
def xmlNamespace : String := "http://www.w3.org/XML/1998/namespace"

/-- The name of the namespace of declarations of namespaces. -/
def declarationNamespace : String := "http://www.w3.org/2000/xmlns/"

/-- Prefixes and the namespaces they are bound to. The empty prefix is that of names without one. -/
abbrev Bindings := List (String × String)

/-- What a prefix may be bound to. -/
def mayBind (namePrefix namespaceName : String) : Bool :=
  !(namePrefix != "" && namespaceName == "") && namePrefix != "xmlns"
    && !namespaceName.toList.contains '\x7d'
    && ((namePrefix == "xml") == (namespaceName == xmlNamespace))
    && namespaceName != declarationNamespace

/-- The prefix that an attribute declares, if it does. -/
def declaredPrefix? (a : Attribute) : Option String :=
  if a.name.namePrefix = "xmlns" then some a.name.localName
  else if a.name = ⟨"", "xmlns"⟩ then some ""
  else none

/-- The bindings inside a tag. -/
def bindingsIn (outer : Bindings) (attributes : List Attribute) : Option Bindings :=
  attributes.foldlM (fun bindings a =>
    match declaredPrefix? a with
    | some p => if mayBind p a.value then some ((p, a.value) :: bindings) else none
    | none => some bindings) outer

/-- The namespace of a name; a prefix has to be bound. -/
def namespaceOf? (bindings : Bindings) (name : QName) : Option String :=
  if name.namePrefix = "" then some "" else bindings.lookup name.namePrefix

/-- A tag is in order: no attribute is there twice, by its name as written or by its namespace, and
all prefixes are bound. -/
def isOrderly (bindings : Bindings) (name : QName) (attributes : List Attribute) : Bool :=
  let names := attributes.map Attribute.name
  let prefixed := attributes.filter fun a => (declaredPrefix? a).isNone && a.name.namePrefix != ""
  let plain := prefixed.map fun a => (namespaceOf? bindings a.name, a.name.localName)
  (namespaceOf? bindings name).isSome && names.eraseDups.length == names.length
    && plain.all (fun p => p.1.isSome) && plain.eraseDups.length == plain.length

/-- An element that is open: its name, the bindings in it, its text so far, the last character
first, and its children so far, the latest first. -/
structure Open where
  name : QName
  bindings : Bindings
  text : List Char
  children : List Element

/-- Where the reading of a document stands: before the root, inside elements, or behind the root. -/
inductive Progress where
  | before
  | inside (innermost : Open) (outer : List Open)
  | behind (root : Element)

/-- The element that an open one becomes. -/
def Open.close (o : Open) : Element :=
  .mk o.name.localName (String.ofList o.text.reverse) o.children.reverse

/-- The bindings outside the root. -/
def outermost : Bindings :=
  [("xml", xmlNamespace)]

def openElement (outer : Bindings) (name : QName) (attributes : List Attribute) : Option Open := do
  let bindings ← bindingsIn outer attributes
  if isOrderly bindings name attributes then some ⟨name, bindings, [], []⟩ else none

def Progress.step (progress : Progress) (event : Event) : Option Progress :=
  match progress, event with
  | .before, .opened name attributes => do
    some (.inside (← openElement outermost name attributes) [])
  | .inside o outer, .opened name attributes => do
    some (.inside (← openElement o.bindings name attributes) (o :: outer))
  | .inside o outer, .text text _ =>
    some (.inside
      (if o.children.isEmpty then { o with text := text.reverseAux o.text } else o) outer)
  | .inside o outer, .closed name =>
    if name ≠ o.name then none
    else
      match outer with
      | [] => some (.behind o.close)
      | p :: outer => some (.inside { p with children := o.close :: p.children } outer)
  | _, _ => none

/-- The root element that events make. -/
def rootOf? (events : List Event) : Option Element := do
  match ← events.foldlM Progress.step .before with
  | .behind root => some root
  | _ => none

/-- The text of a document without the mark that may stand at its beginning. -/
def withoutMark : List Char → List Char
  | '\ufeff' :: rest => rest
  | cs => cs

/-- Splits what follows the prolog behind the root element, which has to end there; `done` holds the
events before, the latest first. -/
def splitRoot : Nat → List Event → List Event → Option (List Event × List Event)
  | _, _, [] => none
  | n, done, e :: rest =>
    match e with
    | .opened _ _ => splitRoot (n + 1) (e :: done) rest
    | .closed _ =>
      if n ≤ 1 then some ((e :: done).reverse, rest) else splitRoot (n - 1) (e :: done) rest
    | .text _ _ => splitRoot n (e :: done) rest

/-- An event that may follow the root element. -/
def isTrailing : Event → Bool
  | .text text plain => plain && text.all isSpace
  | _ => false

/-- The events of the content of a document. -/
def documentEvents (document : List Char) : Expanding (List Event) := do
  let (d, rest) ← readProlog (withoutMark document)
  match rest with
  | '<' :: _ =>
    let events ← eventsOf d (d.texts.length + 1) [] (Text.normalizeNewlines rest)
    return events.reverse
  | _ => failure

/-- The root element of a document. -/
def parse? (document : String) : Option Element := do
  let (events, _) ← (documentEvents document.toList).run (contributionLimit document.utf8ByteSize)
  let (inner, trailing) ← splitRoot 0 [] events
  if trailing.all isTrailing then rootOf? inner else none

end StagedBuild.Xml
