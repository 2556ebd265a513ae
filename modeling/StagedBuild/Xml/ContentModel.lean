import StagedBuild.Xml.Reading

/-!
The tokens of a document type, where what may follow a token directly depends on the token alone;
and what a declaration may say about the content of an element: that it is empty, that it is
anything, that text is mixed with elements, or how its children follow each other.
-/

namespace StagedBuild.Xml

/-- A token of a document type. A name may be followed by a sign that says how often it occurs, and
so may the end of a group. -/
inductive Token where
  | space
  | name (text : String)
  | prefixedName (text : String)
  | nameToken (text : String)
  | repeatedName
  | keyword (text : String)
  | literal (text : List Char)
  | percent
  | parameter
  | openBracket
  | closeBracket
  | openGroup
  | closeGroup (sign : Option Char)
  | bar
  | comma
  | declaration (text : String)
  | declarationEnd
  | remark
  deriving DecidableEq

/-- What a name is so far: plain, with a prefix, or something that is no name. -/
inductive NameKind where
  | plain
  | prefixed
  | token
  deriving DecidableEq

/-- The token that the characters of a name make. -/
def NameKind.token? (kind : NameKind) (text : List Char) : Token :=
  match kind with
  | plain => .name (String.ofList text)
  | prefixed => .prefixedName (String.ofList text)
  | token => .nameToken (String.ofList text)

/-- A character that may follow a name. -/
def endsName (c : Char) : Bool :=
  isSpace c || ['>', ')', ',', '|', '[', '%'].contains c

/-- A sign that says how often something occurs. -/
def isRepeatSign (c : Char) : Bool :=
  c == '?' || c == '*' || c == '+'

/-- What a name becomes with a colon, when `next` follows. -/
def NameKind.afterColon (kind : NameKind) (next : Option Char) : NameKind :=
  if kind = plain && next.any isNameChar then prefixed else token

/-- Takes the rest of a name; `done` holds what was taken, the latest first. -/
def readNameRest (kind : NameKind) (done : List Char) : List Char → Option (Token × List Char)
  | [] => none
  | c :: rest =>
    if isNameChar c then readNameRest kind (c :: done) rest
    else if c = ':' then readNameRest (kind.afterColon rest.head?) (c :: done) rest
    else if endsName c then some (kind.token? done.reverse, c :: rest)
    else if isRepeatSign c && kind != .token then some (.repeatedName, rest)
    else none

/-- Takes a name and tells what may not follow it. -/
def readNameEndedBy (ends : Char → Bool) (cs : List Char) : Option (String × List Char) := do
  let (text, rest) ← readName cs
  if rest.head?.any ends then some (String.ofList text, rest) else none

def readLiteral (cs : List Char) : Option (Token × List Char) := do
  let (text, rest) ← readQuoted cs
  let mayFollow (c : Char) : Bool := isSpace c || c == '>' || c == '%' || c == '['
  if text.all isDocumentChar && rest.head?.any mayFollow then some (.literal text, rest) else none

/-- Takes the name with which a declaration begins, after its opening. -/
def readDeclarationName (cs : List Char) : Option (Token × List Char) :=
  let text := cs.takeWhile Char.isAlpha
  let rest := cs.drop text.length
  let begins : Bool :=
    match rest with
    | '%' :: c :: _ => !isSpace c && c != '%'
    | c :: _ => isSpace c
    | [] => false
  if !text.isEmpty && begins then some (.declaration (String.ofList text), rest) else none

/-- Takes the end of a group. -/
def readGroupEnd (cs : List Char) : Option (Token × List Char) :=
  match cs with
  | c :: rest =>
    if isRepeatSign c then some (.closeGroup (some c), rest)
    else if isSpace c || ['>', ',', '|', ')'].contains c then some (.closeGroup none, cs)
    else none
  | [] => none

/-- Takes what begins with a percent sign. -/
def readPercent (cs : List Char) : Option (Token × List Char) :=
  match cs with
  | c :: _ =>
    if isSpace c || c == '%' then some (.percent, cs)
    else do
      let (_, rest) ← readName cs
      some (.parameter, ← skipText ";" rest)
  | [] => none

def readToken (cs : List Char) : Option (Token × List Char) :=
  match cs with
  | '"' :: _ | '\'' :: _ => readLiteral cs
  | '<' :: '!' :: '-' :: '-' :: rest => do some (.remark, ← skipComment rest)
  | '<' :: '?' :: rest => do some (.remark, ← skipInstruction rest)
  | '<' :: '!' :: rest => readDeclarationName rest
  | '%' :: rest => readPercent rest
  | ',' :: rest => some (.comma, rest)
  | '[' :: rest => some (.openBracket, rest)
  | ']' :: ']' :: '>' :: _ => none
  | ']' :: rest => some (.closeBracket, rest)
  | '(' :: rest => some (.openGroup, rest)
  | ')' :: rest => readGroupEnd rest
  | '|' :: rest => some (.bar, rest)
  | '>' :: rest => some (.declarationEnd, rest)
  | '#' :: rest => do
    let mayFollow (c : Char) : Bool := isSpace c || [')', '>', '%', '|'].contains c
    let (text, rest) ← readNameEndedBy mayFollow rest
    some (.keyword text, rest)
  | c :: rest =>
    if isSpace c then some (.space, skipSpace rest)
    else if isNameStart c then readNameRest .plain [c] rest
    else if isNameChar c || c == ':' then readNameRest .token [c] rest
    else none
  | [] => none

/-- Takes the tokens of a declaration up to its end, without the space between them; the bound is on
their number. -/
def readDeclaration : Nat → List Char → Option (List Token × List Char)
  | 0, _ => none
  | bound + 1, cs => do
    match ← readToken cs with
    | (.declarationEnd, rest) => some ([], rest)
    | (.space, rest) => readDeclaration bound rest
    | (token, rest) =>
      let (tokens, rest) ← readDeclaration bound rest
      some (token :: tokens, rest)

/-- A name, with a prefix or without one. -/
def Token.isName : Token → Bool
  | name _ | prefixedName _ => true
  | _ => false

/-- Names after text, up to the end of the group, which has to be repeated when there are any. -/
def isMixed : Bool → List Token → Bool
  | hasNames, [.closeGroup sign] =>
    sign == some '*' || (!hasNames && sign == none)
  | _, .bar :: name :: rest => name.isName && isMixed true rest
  | _, _ => false

/-- Items with the same sign between all of one group. `groups` holds the sign of each open group,
the innermost first; `wanted` says that an item has to follow. -/
def isSequence : List (Option Token) → Bool → List Token → Bool
  | sign :: outer, true, token :: rest =>
    match token with
    | .openGroup => isSequence (none :: sign :: outer) true rest
    | .name _ | .prefixedName _ | .repeatedName => isSequence (sign :: outer) false rest
    | _ => false
  | sign :: outer, false, token :: rest =>
    match token with
    | .closeGroup _ => if outer.isEmpty then rest.isEmpty else isSequence outer false rest
    | .bar | .comma =>
      (sign.isNone || sign == some token) && isSequence (some token :: outer) true rest
    | _ => false
  | _, _, _ => false

/-- The tokens of a declaration of an element after its keyword. -/
def isElementDeclaration : List Token → Bool
  | [name, .name content] => name.isName && (content == "EMPTY" || content == "ANY")
  | name :: .openGroup :: .keyword text :: rest =>
    name.isName && text == "PCDATA" && isMixed false rest
  | name :: .openGroup :: rest => name.isName && isSequence [none] true rest
  | _ => false

end StagedBuild.Xml
