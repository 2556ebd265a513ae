import StagedBuild.Surroundings
import StagedBuild.Text.Encoding

/-!
Servers that answer from a table, and the library that speaks to them, as far as a rehearsal shows
it: bodies come in pieces of one size, and texts are read as UTF-8.
-/

namespace StagedBuild.Rehearsal

/-- What a server sends. Where the body breaks off, reading fails once that many bytes have been
delivered. -/
structure Sent where
  status : Int
  reason : Option String
  headers : List (String × String)
  content : List UInt8
  cutAt : Option (Nat × Fault)

namespace Sent

/-- The complaint about a server that reports a failure. -/
def refusal (s : Sent) (url : String) : Option String :=
  if 400 ≤ s.status ∧ s.status < 600 then
    some (toString s.status ++ (if s.status < 500 then " Client Error: " else " Server Error: ")
      ++ s.reason.getD "None" ++ " for url: " ++ url)
  else none

/-- The value of a header; the case of its name does not count. -/
def header? (s : Sent) (name : String) : Option String :=
  (s.headers.reverse.find? fun h => h.1.toList.map Char.toLower == name.toList).map (·.2)

/-- What arrives of the content, and the fault in which that ends, if any. -/
def arrived (s : Sent) : List UInt8 × Option Fault :=
  match s.cutAt with
  | some (n, fault) =>
    if n ≤ s.content.length then (s.content.take n, some fault) else (s.content, none)
  | none => (s.content, none)

/-- The text of the content. The reply of a server that gives no status has none. -/
def text (s : Sent) : Except Fault String :=
  if s.status = 0 then .ok ""
  else
    match s.arrived with
    | (_, some fault) => .error fault
    | (bytes, none) => .ok (Text.decodeLenient bytes)

/-- The pieces of bytes, each of a size that is not zero; the bound is on their number. -/
def piecesWithin (size : Nat) : Nat → List UInt8 → List (List UInt8)
  | 0, _ => []
  | bound + 1, bytes =>
    if bytes.isEmpty then [] else bytes.take size :: piecesWithin size bound (bytes.drop size)

/-- The content in pieces of a size, or all at once for a negative one. Reading in pieces of size
zero ends at once. -/
def body (s : Sent) (size : Int) : Body :=
  let (bytes, fault) := s.arrived
  if size = 0 then ⟨[], if bytes.isEmpty then fault else none⟩
  else if size < 0 then ⟨if bytes.isEmpty then [] else [bytes], fault⟩
  else ⟨piecesWithin size.toNat (bytes.length + 1) bytes, fault⟩

def response (s : Sent) (url : String) : Response where
  status := s.status
  refusal := s.refusal url
  header? := s.header?
  text := s.text
  body := s.body
  content := s.content

end Sent

/-- What a server does about an address. -/
inductive Deed where
  | fails (fault : Fault)
  | sends (sent : Sent)

/-- What a server does about an address that is not in its table. -/
def unknownAddress : Deed :=
  .sends ⟨404, some "Not Found", [], [], none⟩

/-- The server that answers from a table. -/
def tableServer (table : List (String × Deed)) (asked : Request) (_ : World) : Reply :=
  match (table.lookup asked.url).getD unknownAddress with
  | .fails fault => .failed fault
  | .sends sent => .answered (sent.response asked.url)

end StagedBuild.Rehearsal
