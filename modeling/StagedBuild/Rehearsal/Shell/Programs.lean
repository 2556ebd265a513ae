import StagedBuild.FileTree.Lookup
import StagedBuild.Text.Encoded
import StagedBuild.Text.Encoding
import StagedBuild.Text.Lines
import StagedBuild.Text.Numeral

/-!
Programs that a script calls. Each takes its arguments, its input and the disk, and prints something
or complains.
-/

namespace StagedBuild.Rehearsal.Shell

/-- A call of a program. -/
structure Call where
  arguments : List String
  input : List UInt8
  directory : Location
  tree : FileTree

/-- What a program prints, what it complains about, and the code in which it ends. -/
structure Outcome where
  output : List UInt8
  errors : List UInt8
  code : Nat

namespace Outcome

/-- A program that ends without a word. -/
def quiet (code : Nat) : Outcome :=
  ⟨[], [], code⟩

/-- A program that prints and succeeds. -/
def answer (output : List UInt8) : Outcome :=
  ⟨output, [], 0⟩

/-- A program that complains and fails. -/
def complaint (text : String) : Outcome :=
  ⟨[], Text.encode (text ++ "\n"), 1⟩

end Outcome

def pathOf (loc : Location) : String :=
  "/" ++ "/".intercalate loc

/-- What a character behind a backslash stands for. -/
def escapes : List (Char × UInt8) := [
  ('n', 10), ('t', 9), ('r', 13), ('a', 7), ('b', 8), ('f', 12), ('v', 11), ('\\', 92)]

def charBytes (c : Char) : List UInt8 :=
  Text.encode (String.singleton c)

/-- A text in bytes, with escapes for control characters and for bytes in octal. -/
def unescape : List Char → List UInt8
  | [] => []
  | '\\' :: rest =>
    let octal := (rest.take 3).takeWhile "01234567".toList.contains
    if octal.isEmpty then
      match rest with
      | c :: after =>
        match escapes.lookup c with
        | some byte => byte :: unescape after
        | none => 92 :: (charBytes c ++ unescape after)
      | [] => [92]
    else
      UInt8.ofNat (octal.foldl (fun n c => 8 * n + (c.toNat - 48)) 0)
        :: unescape (rest.drop octal.length)
  | c :: rest => charBytes c ++ unescape rest
termination_by cs => cs.length
decreasing_by
  · exact Nat.lt_succ_of_le (Nat.le_succ _)
  · exact Nat.lt_succ_of_le (Nat.le_succ _)
  · exact Nat.lt_succ_of_le (Nat.le_trans (Nat.le_of_eq List.length_drop) (Nat.sub_le _ _))
  · exact Nat.lt_succ_self _

/-- Words with blanks between them on a line. The shell's way of printing knows escapes. -/
def echo (c : Call) : Outcome :=
  match c.arguments with
  | "-n" :: words => .answer (unescape (" ".intercalate words).toList)
  | words => .answer (unescape (" ".intercalate words).toList ++ [10])

/-- Fills a text with blanks up to a width, in front or behind. -/
def pad (isLeft : Bool) (width : Nat) (bytes : List UInt8) : List UInt8 :=
  let blanks := List.replicate (width - bytes.length) 32
  if isLeft then bytes ++ blanks else blanks ++ bytes

/-- The number that an argument writes; zero when it writes none. -/
def numberOf (argument : String) : Int :=
  (Text.readInt argument).toOption.getD 0

/-- What a directive prints of an argument. -/
def directive (letter : Char) (argument : String) : List UInt8 :=
  match letter with
  | 'd' | 'i' => Text.encode (toString (numberOf argument))
  | 'x' => Text.encode (String.ofList (Nat.toDigits 16 (numberOf argument).toNat))
  | 'o' => Text.encode (String.ofList (Nat.toDigits 8 (numberOf argument).toNat))
  | 'c' => Text.encode (String.ofList (argument.toList.take 1))
  | 'b' => unescape argument.toList
  | _ => Text.encode argument

/-- Prints a format once: what is printed, and the arguments that are left. The bound is on the
number of directives. -/
def formatOnce : Nat → List Char → List String → List UInt8 × List String
  | 0, _, arguments => ([], arguments)
  | bound + 1, cs, arguments =>
    let front := cs.takeWhile (· != '%')
    match cs.drop front.length with
    | [] => (unescape front, arguments)
    | '%' :: '%' :: rest =>
      let (bytes, left) := formatOnce bound rest arguments
      (unescape front ++ 37 :: bytes, left)
    | _ :: rest =>
      let isLeft := rest.head? == some '-'
      let rest := rest.dropWhile (· == '-')
      let digits := rest.takeWhile Char.isDigit
      let width := ((String.ofList digits).toNat?).getD 0
      match rest.drop digits.length with
      | [] => (unescape front, arguments)
      | letter :: rest =>
        let shown := pad isLeft width (directive letter (arguments.headD ""))
        let (bytes, left) := formatOnce bound rest arguments.tail
        (unescape front ++ shown ++ bytes, left)

/-- Prints a format again while it takes arguments and some are left; the bound is on their
number. -/
def formatAll (format : List Char) : Nat → List String → List UInt8
  | 0, _ => []
  | bound + 1, arguments =>
    let (bytes, left) := formatOnce (format.length + 1) format arguments
    if left.isEmpty ∨ left.length = arguments.length then bytes
    else bytes ++ formatAll format bound left

def printFormat (c : Call) : Outcome :=
  match c.arguments with
  | format :: arguments => .answer (formatAll format.toList (arguments.length + 1) arguments)
  | [] => { Outcome.complaint "printf: usage: printf format [arg ...]" with code := 2 }

/-- Prints files one after the other, or the input when there are none. -/
def concatenate (c : Call) : Outcome :=
  let read (name : String) : Outcome :=
    match c.tree.openFile c.directory (Path.parse name) with
    | .ok f => .answer f.bytes
    | .error e => .complaint ("cat: " ++ name ++ ": " ++ e.text)
  if c.arguments.isEmpty then .answer c.input
  else (c.arguments.map read).foldl
    (fun a b => ⟨a.output ++ b.output, a.errors ++ b.errors, max a.code b.code⟩) (.quiet 0)

/-- What fits a character in a regular expression. -/
inductive Atom where
  | any
  | char (c : Char)

def Atom.fits : Atom → Char → Bool
  | any, _ => true
  | char expected, c => expected == c

/-- A regular expression: atoms, each once or any number of times. -/
abbrev Regular := List (Atom × Bool)

/-- The atom that a character writes. -/
def atomOf (c : Char) : Atom :=
  if c = '.' then .any else .char c

def readRegular : List Char → Regular
  | [] => []
  | '\\' :: c :: '*' :: rest => (.char c, true) :: readRegular rest
  | '\\' :: c :: rest => (.char c, false) :: readRegular rest
  | c :: '*' :: rest => (atomOf c, true) :: readRegular rest
  | c :: rest => (atomOf c, false) :: readRegular rest

/-- What is left of a text behind the longest match at its front. -/
def Regular.rest? : Regular → List Char → Option (List Char)
  | [], cs => some cs
  | (atom, false) :: items, cs =>
    match cs with
    | c :: rest => if atom.fits c then Regular.rest? items rest else none
    | [] => none
  | (atom, true) :: items, cs =>
    let most := (cs.takeWhile atom.fits).length
    (List.range (most + 1)).reverse.findSome? fun n => Regular.rest? items (cs.drop n)

/-- Replaces the first match in a line. -/
def replaceFirst (pattern : Regular) (replacement : List Char) : List Char → List Char
  | [] => if (pattern.rest? []).isSome then replacement else []
  | c :: rest =>
    match pattern.rest? (c :: rest) with
    | some left => replacement ++ left
    | none => c :: replaceFirst pattern replacement rest

/-- The pieces of an editing command between slashes that no backslash precedes. -/
def slashPieces : List Char → List (List Char)
  | [] => [[]]
  | '\\' :: c :: rest =>
    match slashPieces rest with
    | piece :: pieces => ('\\' :: c :: piece) :: pieces
    | [] => []
  | '/' :: rest => [] :: slashPieces rest
  | c :: rest =>
    match slashPieces rest with
    | piece :: pieces => (c :: piece) :: pieces
    | [] => []

/-- Edits every line of the input by a command that replaces the first match. -/
def edit (c : Call) : Outcome :=
  match c.arguments.map fun s => slashPieces s.toList with
  | [[['s'], pattern, replacement, _]] =>
    let lines := Text.lines (Text.decodeLenient c.input)
    .answer (lines.flatMap fun line =>
      Text.encode (String.ofList (replaceFirst (readRegular pattern) replacement line.toList))
        ++ [10])
  | _ => .complaint "sed: -e expression #1, char 1: unknown command"

/-- The last step of a path. -/
def baseName (c : Call) : Outcome :=
  .answer (Text.encode ((Path.parse (c.arguments.headD "")).name ++ "\n"))

def directoryName (c : Call) : Outcome :=
  .answer (Text.encode ((Path.parse (c.arguments.headD "")).parent.text ++ "\n"))

def programs : List (String × (Call → Outcome)) := [
  ("true", fun _ => .quiet 0), ("false", fun _ => .quiet 1), ("sleep", fun _ => .quiet 0),
  ("echo", echo), ("printf", printFormat), ("cat", concatenate), ("sed", edit),
  ("pwd", fun c => .answer (Text.encode (pathOf c.directory ++ "\n"))),
  ("basename", baseName), ("dirname", directoryName)]

end StagedBuild.Rehearsal.Shell
