import StagedBuild.Fault
import StagedBuild.Json
import StagedBuild.Plan

/-!
Sources of the native library and which of them a build needs. Where a source lies tells its kind: a
source below a directory `optional` is needed when the library it is named after is linked, a source
below a directory `gc` belongs to the collector whose directory it is in, and every other source is
always needed.
-/

namespace StagedBuild.NativeLibrary

/-- The kinds of sources. -/
inductive Inclusion where
  | unconditional
  | gc
  | optional
  deriving DecidableEq, Repr

namespace Inclusion

/-- All kinds. -/
def all : List Inclusion := [unconditional, gc, optional]

def name : Inclusion → String
  | unconditional => "unconditional"
  | gc => "gc"
  | optional => "optional"

def parse (name : String) : Except ValueFault Inclusion :=
  match all.find? fun kind => kind.name == name with
  | some kind => .ok kind
  | none => .error (.noInclusion name)

end Inclusion

/-- The kind of a source at a path relative to the root of the library, and its tag: the library or
the collector that it belongs to. -/
def inclusionOf (relative : Path) : Inclusion × Option String :=
  let directories := relative.key.dropLast
  if "optional" ∈ directories then
    (.optional, some (((Text.pieces '.' relative.name).head?).getD ""))
  else if "gc" ∈ directories then
    (.gc, some (((directories.dropWhile (· != "gc")).getD 1 "")))
  else (.unconditional, none)

/-- A source file. Its tag is kept as the manifest gives it. -/
structure Source where
  path : Path
  kind : Inclusion
  tag : Json

namespace Source

def isCpp (s : Source) : Bool :=
  s.path.suffix == ".cpp"

/-- Where the object of a source goes. -/
def objectPath (s : Source) : Path :=
  s.path.objectPath

/-- A build with this collector and these libraries needs the source. A tag that is an array or an
object cannot be looked for among libraries. -/
def isNeeded (s : Source) (gc : Collector) (links : List String) : Except Fault Bool :=
  match s.kind with
  | .optional =>
    match s.tag with
    | .text tag => .ok (links.contains tag)
    | .array _ | .object _ => .error .wrongType
    | _ => .ok false
  | .gc =>
    match s.tag with
    | .text tag => .ok (tag == gc.name)
    | _ => .ok false
  | .unconditional => .ok true

end Source

end StagedBuild.NativeLibrary
