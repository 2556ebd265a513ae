import StagedBuild.Action
import StagedBuild.Artifact.Coordinate
import StagedBuild.Text.Blank
import StagedBuild.Xml.Element

/-!
The direct dependencies that a project description declares for compiling and running. Versions may
refer to properties of the project; a dependency whose version stays open is left out with a
warning.
-/

namespace StagedBuild.Pom

/-- Names and values that versions may refer to; the last value of a name counts. -/
abbrev Properties := List (String × String)

def Properties.get? (properties : Properties) (name : String) : Option String :=
  (properties.reverse.find? fun p => p.1 == name).map (·.2)

/-- The text of the first child with a name, without blanks around it. -/
def trimmedChild? (e : Xml.Element) (name : String) : Option String :=
  (e.child? name).map fun c => Text.trim c.text

/-- The properties of a project: its version, and those it declares. -/
def propertiesOf (root : Xml.Element) (version : String) : Properties :=
  [("project.version", version), ("version", version)] ++
    match root.child? "properties" with
    | some e => e.children.map fun p => (p.name, Text.trim p.text)
    | none => []

/-- Replaces every placeholder that names a property, once and from left to right; the bound is on
the number of steps. -/
def replaceWithin (properties : Properties) : Nat → List Char → List Char
  | 0, cs => cs
  | bound + 1, cs =>
    match cs with
    | '$' :: '\x7b' :: rest =>
      let name := rest.takeWhile (· != '\x7d')
      match name, rest.drop name.length with
      | _ :: _, _ :: after =>
        let value :=
          match properties.get? (String.ofList name) with
          | some value => value.toList
          | none => '$' :: '\x7b' :: (name ++ ['\x7d'])
        value ++ replaceWithin properties bound after
      | _, _ => '$' :: replaceWithin properties bound ('\x7b' :: rest)
    | c :: rest => c :: replaceWithin properties bound rest
    | [] => []

/-- A placeholder begins somewhere in a text. -/
def hasPlaceholder : List Char → Bool
  | '$' :: '\x7b' :: _ => true
  | _ :: rest => hasPlaceholder rest
  | [] => false

/-- A text with its placeholders replaced, if none is left. -/
def resolve? (properties : Properties) (value : String) : Option String :=
  let replaced := replaceWithin properties (value.length + 1) value.toList
  if hasPlaceholder replaced then none else some (String.ofList replaced)

/-- The scopes of dependencies that count. -/
def countingScopes : List String := ["compile", "runtime"]

/-- The text, or none if it is empty. -/
def nonEmpty? (s : Option String) : Option String :=
  s.filter (· ≠ "")

/-- A dependency counts by its scope and by not being optional. -/
def counts (dependency : Xml.Element) : Bool :=
  countingScopes.contains ((nonEmpty? (trimmedChild? dependency "scope")).getD "compile")
    && trimmedChild? dependency "optional" != some "true"

/-- What a dependency that counts comes to: its coordinate, or a warning. -/
def coordinateOf (properties : Properties) (dependent : Coordinate) (dependency : Xml.Element) :
    Except Warning Coordinate :=
  let org := trimmedChild? dependency "groupId"
  let name := trimmedChild? dependency "artifactId"
  let version := resolve? properties ((trimmedChild? dependency "version").getD "")
  match nonEmpty? org, nonEmpty? name, nonEmpty? version with
  | some org, some name, some version => .ok ⟨org, name, version⟩
  | _, _, _ => .error (.unresolvedDependency org name dependent.text)

/-- What every dependency that counts comes to, in document order. -/
def findings (root : Xml.Element) (dependent : Coordinate) :
    List (Except Warning Coordinate) :=
  match root.child? "dependencies" with
  | none => []
  | some e =>
    let properties := propertiesOf root dependent.version
    (e.children.filter fun d => d.name == "dependency" && counts d).map
      (coordinateOf properties dependent)

/-- The coordinates among findings; the others warn. -/
def report : List (Except Warning Coordinate) → Action (List Coordinate)
  | [] => return []
  | .ok c :: rest => return c :: (← report rest)
  | .error warning :: rest => do
    Action.warn warning
    report rest

/-- The direct dependencies that the description of an artifact declares. -/
def dependencies (text : String) (dependent : Coordinate) : Action (List Coordinate) :=
  match Xml.parse? text with
  | some root => report (findings root dependent)
  | none => throw .notXml

end StagedBuild.Pom
