import StagedBuild.Transfer.Host

/-!
Addresses on the web, as far as the name of the file that they lead to.
-/

namespace StagedBuild.Transfer

/-- The schemes whose paths may end in parameters. -/
def parameterSchemes : List String := [
  "", "ftp", "hdl", "prospero", "http", "https", "shttp", "rtsp", "rtspu", "sip", "sips", "mms",
  "sftp", "tel"]

def isSchemeChar (c : Char) : Bool :=
  c.isAlphanum || c == '+' || c == '-' || c == '.'

/-- The scheme of an address, in lower case, and what follows it. -/
def splitScheme (cs : List Char) : String × List Char :=
  let front := cs.takeWhile (· != ':')
  match front, cs.drop front.length with
  | c :: _, _ :: rest =>
    if c.isAlpha && front.all isSchemeChar then (String.ofList (front.map Char.toLower), rest)
    else ("", cs)
  | _, _ => ("", cs)

/-- The host of an address after its scheme, and what follows it. -/
def splitHost (cs : List Char) : List Char × List Char :=
  match cs with
  | '/' :: '/' :: rest =>
    let stops (c : Char) : Bool := c == '/' || c == '?' || c == '#'
    (rest.takeWhile (!stops ·), rest.dropWhile (!stops ·))
  | _ => ([], cs)

/-- The path without the parameters behind its last slash. -/
def withoutParameters (cs : List Char) : List Char :=
  let last := (cs.reverse.takeWhile (· != '/')).reverse
  cs.take (cs.length - last.length) ++ last.takeWhile (· != ';')

def addressPath (url : String) : Except ValueFault String := do
  let cs := (url.toList.dropWhile fun c => c.toNat ≤ 32).filter fun c =>
    c != '\t' && c != '\n' && c != '\r'
  let (scheme, rest) := splitScheme cs
  let (host, rest) := splitHost rest
  checkHost host
  let path := (rest.takeWhile (· != '#')).takeWhile (· != '?')
  return String.ofList (if scheme ∈ parameterSchemes then withoutParameters path else path)

/-- The name of the file that an address leads to. -/
def fileName (url : String) : Except ValueFault String :=
  (addressPath url).map fun p => (Path.parse p).name

end StagedBuild.Transfer
