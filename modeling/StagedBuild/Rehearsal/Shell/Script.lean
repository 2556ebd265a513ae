import StagedBuild.Text.Pieces

/-!
Scripts as they are written: lists of commands, each with words, assignments and places where its
text goes. What stands inside a word to be run or replaced is kept as text and read when its time
comes.
-/

namespace StagedBuild.Rehearsal.Shell

/-- A part of a word: text, the value of a parameter with a change to it, or what a script prints.
What is not quoted is cut at blanks. -/
inductive Part where
  | text (s : String)
  | parameter (name operator operand : String) (isQuoted : Bool)
  | output (script : String) (isQuoted : Bool)
  deriving Repr

abbrev Word := List Part

/-- Where text goes, or comes from. -/
inductive Redirect where
  | output (channel : Nat) (file : Word) (isAppended : Bool)
  | copy (channel : Nat) (target : Word)
  | input (file : Word)
  | document (text : Word)
  deriving Repr

/-- A command with the line on which it stands. -/
structure Simple where
  line : Nat
  assignments : List (String × Word)
  words : List Word
  redirects : List Redirect
  deriving Repr

/-- When the next command is run: always, or when the one before it succeeded or failed. -/
inductive Link where
  | always
  | onSuccess
  | onFailure
  deriving DecidableEq, Repr

/-- Commands that give their output to the next, and when they are run. -/
structure Pipeline where
  link : Link
  commands : List Simple
  deriving Repr

/-- A reader takes something from the front of a text, if it is there. -/
abbrev Reader (α : Type) := List Char → Option (α × List Char)

def isBlank (c : Char) : Bool :=
  c == ' ' || c == '\t'

/-- A character that ends a word. -/
def endsWord (c : Char) : Bool :=
  isBlank c || c ∈ ['\n', ';', '&', '|', '<', '>', '(', ')']

def isNameChar (c : Char) : Bool :=
  c.isAlphanum || c == '_'

/-- A character that is the name of a parameter by itself. -/
def isSpecial (c : Char) : Bool :=
  c.isDigit || c ∈ ['?', '$', '#', '@', '*']

/-- The text up to a closing character; pairs of the opening and the closing one, and quotes, are
passed over. -/
def readEnclosed (opening closing : Char) : Nat → Reader (List Char)
  | _, [] => none
  | depth, '\\' :: c :: rest =>
    (readEnclosed opening closing depth rest).map fun (s, r) => ('\\' :: c :: s, r)
  | depth, c :: rest =>
    if c = closing then
      match depth with
      | 0 => some ([], rest)
      | depth + 1 => (readEnclosed opening closing depth rest).map fun (s, r) => (c :: s, r)
    else
      let depth := if c = opening then depth + 1 else depth
      (readEnclosed opening closing depth rest).map fun (s, r) => (c :: s, r)

/-- The operators that change the value of a parameter, longer ones first. -/
def parameterOperators : List String := [":-", ":+", "##", "%%", "-", "+", "#", "%"]

/-- A parameter as it is written between braces. -/
def bracedParameter (inner : List Char) (isQuoted : Bool) : Part :=
  let name := match inner with
    | c :: _ => if isSpecial c then [c] else inner.takeWhile isNameChar
    | [] => []
  let rest := inner.drop name.length
  let operator := (parameterOperators.find? fun o => o.toList.isPrefixOf rest).getD ""
  .parameter (String.ofList name) operator (String.ofList (rest.drop operator.length)) isQuoted

/-- What a dollar sign stands for. -/
def readDollar (isQuoted : Bool) : List Char → Option (Part × List Char)
  | '(' :: rest =>
    (readEnclosed '(' ')' 0 rest).map fun (s, r) => (.output (String.ofList s) isQuoted, r)
  | '\x7b' :: rest =>
    (readEnclosed '\x7b' '\x7d' 0 rest).map fun (s, r) => (bracedParameter s isQuoted, r)
  | c :: rest =>
    if isSpecial c then some (.parameter (String.singleton c) "" "" isQuoted, rest)
    else
      match (c :: rest).takeWhile isNameChar with
      | [] => some (.text "$", c :: rest)
      | name =>
        some (.parameter (String.ofList name) "" "" isQuoted, (c :: rest).drop name.length)
  | [] => some (.text "$", [])

/-- The parts between double quotes, or of a document, which has no closing quote. The bound is on
their number. -/
def readQuoted (isDocument : Bool) : Nat → Reader Word
  | 0, _ => none
  | _ + 1, [] => if isDocument then some ([], []) else none
  | bound + 1, '\\' :: c :: rest =>
    let s := if c ∈ ['\\', '$', '`'] || (c == '"' && !isDocument) then [c] else ['\\', c]
    (readQuoted isDocument bound rest).map fun (w, r) => (.text (String.ofList s) :: w, r)
  | bound + 1, '$' :: rest => do
    let (part, rest) ← readDollar true rest
    let (w, rest) ← readQuoted isDocument bound rest
    some (part :: w, rest)
  | bound + 1, c :: rest =>
    if c = '"' && !isDocument then some ([], rest)
    else (readQuoted isDocument bound rest).map fun (w, r) => (.text (String.singleton c) :: w, r)

/-- The parts of a word; the bound is on their number. -/
def readParts : Nat → Reader Word
  | 0, _ => none
  | _ + 1, [] => some ([], [])
  | bound + 1, '\\' :: '\n' :: rest => readParts bound rest
  | bound + 1, '\\' :: c :: rest =>
    (readParts bound rest).map fun (w, r) => (.text (String.singleton c) :: w, r)
  | bound + 1, '\'' :: rest => do
    let s := rest.takeWhile (· != '\'')
    let (w, r) ← readParts bound (rest.drop (s.length + 1))
    if s.length < rest.length then some (.text (String.ofList s) :: w, r) else none
  | bound + 1, '"' :: rest => do
    let (inner, rest) ← readQuoted false (rest.length + 1) rest
    let (w, rest) ← readParts bound rest
    some (.text "" :: inner ++ w, rest)
  | bound + 1, '$' :: rest => do
    let (part, rest) ← readDollar false rest
    let (w, rest) ← readParts bound rest
    some (part :: w, rest)
  | bound + 1, c :: rest =>
    if endsWord c then some ([], c :: rest)
    else (readParts bound rest).map fun (w, r) => (.text (String.singleton c) :: w, r)

def readWord (cs : List Char) : Option (Word × List Char) :=
  readParts (cs.length + 1) cs

/-- The text after blanks and comments. -/
def skipBlanks (cs : List Char) : List Char :=
  match cs.dropWhile isBlank with
  | '#' :: rest => rest.dropWhile (· != '\n')
  | rest => rest

/-- The text of a word in which nothing is replaced. -/
def plainText (w : Word) : List Char :=
  w.flatMap fun
    | .text s => s.toList
    | _ => []

/-- Takes the lines of a document out of the text after the current line. -/
def cutDocument (mark : List Char) (cs : List Char) : List Char × List Char :=
  let line := cs.takeWhile (· != '\n')
  let lines := Text.cut '\n' (cs.drop (line.length + 1))
  let inside := lines.takeWhile (· != mark)
  let after := lines.drop (inside.length + 1)
  (inside.flatMap (· ++ ['\n']), line ++ '\n' :: List.intercalate ['\n'] after)

/-- Where text goes, if that is said at the front of a text. -/
def readRedirect (cs : List Char) : Option (Redirect × List Char) :=
  let digits := cs.takeWhile Char.isDigit
  let channel := ((String.ofList digits).toNat?).getD 1
  let file (make : Word → Redirect) (rest : List Char) : Option (Redirect × List Char) :=
    (readWord (skipBlanks rest)).map fun (w, r) => (make w, r)
  match cs.drop digits.length with
  | '>' :: '>' :: rest => file (.output channel · true) rest
  | '>' :: '&' :: rest => file (.copy channel) rest
  | '>' :: rest => file (.output channel · false) rest
  | '<' :: '<' :: rest => do
    let written := skipBlanks rest
    let (mark, rest) ← readWord written
    let (text, rest) := cutDocument (plainText mark) rest
    if written.head?.any (· ∈ ['\'', '"', '\\']) then
      some (.document [.text (String.ofList text)], rest)
    else (readQuoted true (text.length + 1) text).map fun (w, _) => (.document w, rest)
  | '<' :: rest => file .input rest
  | _ => none

/-- The assignment that is at the front of a text, if there is one. -/
def readAssignment (cs : List Char) : Option ((String × Word) × List Char) :=
  let name := cs.takeWhile isNameChar
  match name, cs.drop name.length with
  | first :: _, '=' :: rest =>
    if first.isDigit then none
    else (readWord rest).map fun (w, r) => ((String.ofList name, w), r)
  | _, _ => none

/-- The rest of a command; the bound is on the number of its words. -/
def readSimple : Nat → Simple → Reader Simple
  | 0, _, _ => none
  | bound + 1, command, cs =>
    let cs := skipBlanks cs
    match readRedirect cs, if command.words.isEmpty then readAssignment cs else none with
    | some (redirect, rest), _ =>
      readSimple bound { command with redirects := command.redirects ++ [redirect] } rest
    | none, some (assignment, rest) =>
      readSimple bound { command with assignments := command.assignments ++ [assignment] } rest
    | none, none =>
      if cs.head?.all endsWord then some (command, cs)
      else do
        let (word, rest) ← readWord cs
        readSimple bound { command with words := command.words ++ [word] } rest

/-- The commands of a pipeline; the bound is on their number. -/
def readCommands (lines : Nat) : Nat → Reader (List Simple)
  | 0, _ => none
  | bound + 1, cs => do
    let line := lines + 1 - cs.count '\n'
    let (command, rest) ← readSimple (cs.length + 1) ⟨line, [], [], []⟩ cs
    match rest with
    | '|' :: '|' :: _ => some ([command], rest)
    | '|' :: rest => (readCommands lines bound rest).map fun (cs, r) => (command :: cs, r)
    | _ => some ([command], rest)

/-- The pipelines of a script; the bound is on their number. -/
def readPipelines (lines : Nat) : Nat → Link → List Char → Option (List Pipeline)
  | 0, _, _ => none
  | bound + 1, link, cs => do
    let (commands, rest) ← readCommands lines (cs.length + 1) cs
    let first : Pipeline := ⟨link, commands⟩
    match rest with
    | [] => some [first]
    | '&' :: '&' :: rest => (readPipelines lines bound .onSuccess rest).map (first :: ·)
    | '|' :: '|' :: rest => (readPipelines lines bound .onFailure rest).map (first :: ·)
    | c :: rest =>
      if c = ';' ∨ c = '\n' then (readPipelines lines bound .always rest).map (first :: ·)
      else none

def readScript (script : String) : Option (List Pipeline) :=
  let cs := script.toList
  readPipelines (cs.count '\n') (cs.length + 2) .always cs

end StagedBuild.Rehearsal.Shell
