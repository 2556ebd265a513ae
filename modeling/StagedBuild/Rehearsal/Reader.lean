import StagedBuild.Json
import StagedBuild.Rehearsal.Intermediate
import StagedBuild.Rehearsal.Servers
import StagedBuild.Rehearsal.Tools
import StagedBuild.Text.Encoded

/-!
Rehearsals that are written as JSON. What a script leaves out has a default.
-/

namespace StagedBuild.Rehearsal

/-- A text; a number counts as its digits. -/
def text? : Json → Option String
  | .text s => some s
  | .int n => some (toString n)
  | _ => none

def int? : Json → Option Int
  | .int n => some n
  | _ => none

def items : Json → List Json
  | .array values => values
  | _ => []

def members : Json → List (String × Json)
  | .object values => values
  | _ => []

def texts (value : Json) : List String :=
  (items value).filterMap text?

/-- The members of an object that are texts. -/
def mapping (value : Json) : List (String × String) :=
  (members value).filterMap fun (name, value) => (text? value).map fun s => (name, s)

/-- Bytes that stand in one of two members: in an encoding, or as text. -/
def bytesOf (value : Json) (encodedName : String) (decode : String → List UInt8)
    (name : String) : List UInt8 :=
  match (value.member? encodedName).bind text?, (value.member? name).bind text? with
  | some digits, _ => decode digits
  | none, some s => Text.encode s
  | none, none => []

def fileBytes (value : Json) : List UInt8 :=
  bytesOf value "b64" Text.decode64 "text"

def ToolRule.ofJson (value : Json) : ToolRule where
  words := ((value.member? "when").map texts).getD []
  exitCode := ((value.member? "rc").bind int?).getD 0
  stdout := bytesOf value "stdout_hex" Text.decode16 "stdout"
  stderr := bytesOf value "stderr_hex" Text.decode16 "stderr"
  product :=
    match value.member? "write" with
    | none => .usual
    | some (.text s) => .text s
    | some _ => .nothing
  refusal :=
    match value.member? "oserror" with
    | some (.array [.int number, .text s]) => some (number, s)
    | _ => none
  raised := (value.member? "raise").bind text?

/-- Reads the fault in which a request ends. -/
def failure? : Json → Option Fault
  | .array [.text kind, .text s] => some (faultOf kind s)
  | _ => none

/-- Reads where a body breaks off. -/
def cut? : Json → Option (Nat × Fault)
  | .array [.int n, .text kind, .text s] => some (n.toNat, faultOf kind s)
  | _ => none

def readDeed (value : Json) : Deed :=
  match (value.member? "raise").bind failure? with
  | some fault => .fails fault
  | none =>
    .sends
      { status := ((value.member? "status").bind int?).getD 200
        reason :=
          match value.member? "reason" with
          | none => some "OK"
          | some reason => text? reason
        headers := ((value.member? "headers").map mapping).getD []
        content := fileBytes value
        cutAt := (value.member? "break").bind cut? }

def irStage? : String → Option IrStage
  | "link" => some .link
  | "optimize" => some .optimize
  | "codegen" => some .generate
  | _ => none

/-- Reads the stage that fails, and its fault. -/
def stageFailure? : Json → Option (IrStage × Fault)
  | .array [.text stage, .text kind, .text s] =>
    (irStage? stage).map fun stage => (stage, faultOf kind s)
  | _ => none

/-- Reads the script of a toolchain. -/
def IrScript.ofJson (value : Json) : IrScript where
  defns := (value.member? "defns").map texts
  links := ((value.member? "links").map texts).getD []
  unresolved := ((value.member? "unresolved").map texts).getD []
  optimized := (value.member? "optimized").map texts
  units := ((value.member? "units").map mapping).getD IrScript.plain.units
  deleted := ((value.member? "delete").map texts).getD []
  failure := (value.member? "fail").bind stageFailure?

def PluginScript.ofJson (value : Json) : PluginScript where
  group := (value.member? "group").bind text?
  name := ((value.member? "name").bind text?).getD ""
  id := ((value.member? "id").bind text?).getD ""
  content :=
    match (value.member? "load_error").bind text? with
    | some s => .error s
    | none => .ok (((value.member? "ir").map IrScript.ofJson).getD .plain)

end StagedBuild.Rehearsal
