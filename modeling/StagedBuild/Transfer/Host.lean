import StagedBuild.Fault
import StagedBuild.Text.Encoded

/-!
Hosts in addresses on the web. A host between brackets is an address of version 6 or of a version
to come; no host holds a character that counts as a delimiter once it is normalized.
-/

namespace StagedBuild.Transfer

/-- A decimal number up to 255 without a needless zero in front. -/
def isOctet (part : String) : Bool :=
  let digits := part.toList
  !digits.isEmpty && digits.all Char.isDigit && digits.length ≤ 3
    && (digits == ['0'] || digits.head? != some '0') && part.toNat?.any (· ≤ 255)

/-- An address of version 4: four octets with dots between them. -/
def isVersion4 (written : String) : Bool :=
  let parts := Text.pieces '.' written
  parts.length == 4 && parts.all isOctet

/-- Up to four hexadecimal digits. -/
def isGroup (part : String) : Bool :=
  let digits := part.toList
  !digits.isEmpty && digits.length ≤ 4 && digits.all fun c => (Text.digit16? c).isSome

/-- The parts of an address between colons. An address of version 4 at the end stands for two
groups. -/
def groupParts (written : String) : List String :=
  let parts := Text.pieces ':' written
  match parts.getLast? with
  | some last => if isVersion4 last then parts.dropLast ++ ["0", "0"] else parts
  | none => parts

/-- The groups on one side of a gap; a side without groups is a single empty part. -/
def sideGroups? (parts : List String) : Option (List String) :=
  if parts == [""] then some [] else if parts.all isGroup then some parts else none

/-- Parts that make eight groups, of which a gap may stand for some. A gap is an empty part that is
neither the first nor the last one. -/
def isGroups (parts : List String) : Bool :=
  let inner := (parts.drop 1).dropLast
  match inner.filter (· = "") with
  | [] => parts.length == 8 && parts.all isGroup
  | [_] =>
    let gap := inner.idxOf "" + 1
    match sideGroups? (parts.take gap), sideGroups? (parts.drop (gap + 1)) with
    | some front, some back => front.length + back.length ≤ 7
    | _, _ => false
  | _ => false

/-- An address of version 6, with a zone behind a percent sign or without one. -/
def isVersion6 (written : String) : Bool :=
  match Text.pieces '%' written with
  | [address] => isGroups (groupParts address)
  | [address, zone] => zone ≠ "" && isGroups (groupParts address)
  | _ => false

/-- An address of a version to come: the version in hexadecimal digits, a dot, and what follows. -/
def isLaterVersion (written : String) : Bool :=
  match written.toList with
  | 'v' :: rest =>
    let digits := rest.takeWhile fun c => (Text.digit16? c).isSome
    match rest.drop digits.length with
    | '.' :: _ :: _ => !digits.isEmpty
    | _ => false
  | _ => false

/-- Refuses what must not stand between brackets. -/
def checkBracketed (written : String) : Except ValueFault Unit :=
  if written.toList.head? = some 'v' then
    if isLaterVersion written then .ok () else .error .laterHost
  else if isVersion4 written then .error .bracketedHost
  else if isVersion6 written then .ok ()
  else .error (.noHost written)

/-- What stands behind the last at sign: a host and, behind a colon, its port. -/
def hostAndPort (authority : List Char) : List Char :=
  (authority.reverse.takeWhile (· != '@')).reverse

/-- The host that is refused unless it may stand between brackets. Nothing stands before an opening
bracket, and only a port behind the closing one. -/
def bracketed (authority : List Char) : Except ValueFault (List Char) :=
  match hostAndPort authority with
  | '[' :: rest =>
    let host := rest.takeWhile (· != ']')
    match (rest.drop host.length).drop 1 with
    | [] | ':' :: _ => .ok host
    | _ => .error .openHost
  | text => if text.contains '[' then .error .openHost else .ok (text.takeWhile (· != ':'))

/-- The characters that hold a delimiter once they are normalized. -/
def disguisedDelimiters : List Char := [
  '\u2047', '\u2048', '\u2049', '\u2100', '\u2101', '\u2105', '\u2106', '\u2a74', '\ufe13',
  '\ufe16', '\ufe55', '\ufe56', '\ufe5f', '\ufe6b', '\uff03', '\uff0f', '\uff1a', '\uff1f',
  '\uff20']

/-- Refuses the part of an address before its path if no host can be read from it. Brackets anywhere
in it make the host one that has to be able to stand between them. -/
def checkHost (authority : List Char) : Except ValueFault Unit := do
  if authority.contains '[' != authority.contains ']' then throw .openHost
  if authority.contains '[' then checkBracketed (String.ofList (← bracketed authority))
  if authority.any disguisedDelimiters.contains then
    throw (.disguisedHost (String.ofList authority))

end StagedBuild.Transfer
