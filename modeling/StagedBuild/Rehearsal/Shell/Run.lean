import StagedBuild.Compiler.SearchPath
import StagedBuild.Rehearsal.Shell.Programs
import StagedBuild.Rehearsal.Shell.Script

/-!
Running programs. A file that is text names in its first line the program that interprets it; the
shell replaces the parts of words, and runs one pipeline after the other.
-/

namespace StagedBuild.Rehearsal.Shell

def runners : List String := ["sh", "dash", "env"]

def programNames : List String :=
  runners ++ programs.map (·.1)

/-- A program that is started: which, the name by which it is called, and its arguments. -/
structure Started where
  program : String
  name : String
  arguments : List String

/-- The interpreter in the first line of a script, and the argument that may follow it. -/
def interpreter? (bytes : List UInt8) : Option (String × List String) :=
  match (Text.decodeLenient bytes).toList with
  | '#' :: '!' :: rest =>
    let line := (rest.takeWhile (· != '\n')).dropWhile isBlank
    let name := line.takeWhile (!isBlank ·)
    let argument := ((line.drop name.length).dropWhile isBlank).reverse.dropWhile isBlank
    if name.isEmpty then none
    else
      some (String.ofList name,
        if argument.isEmpty then [] else [String.ofList argument.reverse])
  | _ => none

/-- Most interpreters that may stand one behind the other. -/
def interpreterLimit : Nat := 6

/-- Starts what is at a path. A script is given to its interpreter, which may be a script itself. -/
def Started.at (tree : FileTree) (directory : Location) :
    Nat → (written name : String) → List String → Except SystemError Started
  | 0, _, _, _ => .error (.numbered 40 "Too many levels of symbolic links")
  | bound + 1, written, name, arguments => do
    if written = "" then throw .noEntry
    match ← tree.lookup directory (Path.parse written) with
    | (_, .directory) => .error .denied
    | (loc, .file f) =>
      if Path.asksForDirectory written then throw .notDirectory
      if !f.executable then throw .denied
      let known := programNames.find? fun program =>
        loc == ["bin", program] || loc == ["usr", "bin", program]
      match known, interpreter? f.bytes with
      | some program, _ => .ok ⟨program, name, arguments⟩
      | none, none => .error .noExecFormat
      | none, some (interpreter, options) =>
        Started.at tree directory bound interpreter interpreter (options ++ written :: arguments)

/-- The paths at which a command is looked for. -/
def programPaths (environment : List (String × String)) (name : String) : List String :=
  if name.toList.contains '/' then [name]
  else
    (Text.pieces ':' ((environment.lookup "PATH").getD Compiler.standardSearchPath)).map
      fun directory => Compiler.inDirectory directory name

/-- Which of two refusals counts: the first that is not absence, or else the later one. -/
def graver (refusal : Option SystemError) (e : SystemError) : SystemError :=
  match refusal with
  | some earlier => if earlier.isAbsence then e else earlier
  | none => e

/-- Starts the first program that can be started. -/
def startFirst (tree : FileTree) (directory : Location) (name : String) (arguments : List String) :
    Option SystemError → List String → Except SystemError Started
  | refusal, [] => .error (refusal.getD .noEntry)
  | refusal, written :: rest =>
    match Started.at tree directory interpreterLimit written name arguments with
    | .ok started => .ok started
    | .error e => startFirst tree directory name arguments (some (graver refusal e)) rest

/-- Where what is printed goes. -/
inductive Sink where
  | output
  | errors
  | file (path : Path)

/-- A shell at work. -/
structure State where
  name : String
  arguments : List String
  environment : List (String × String)
  directory : Location
  tree : FileTree
  input : List UInt8
  printed : List UInt8
  complaints : List UInt8
  status : Nat

/-- How a shell stops. -/
inductive Stop where
  | leave (code : Nat)
  | killed (signal : Nat)

abbrev Step := ExceptT Stop (StateM State)

def emit (sink : Sink) (bytes : List UInt8) : Step Unit :=
  modify fun s =>
    match sink with
    | .output => { s with printed := s.printed ++ bytes }
    | .errors => { s with complaints := s.complaints ++ bytes }
    | .file p =>
      match s.tree.openFile s.directory p with
      | .ok f =>
        { s with tree := (s.tree.write s.directory p (f.bytes ++ bytes)).toOption.getD s.tree }
      | .error _ => s

/-- A pattern fits a whole text: a star fits any text, a question mark any character. -/
def fits : List Char → List Char → Bool
  | [], cs => cs.isEmpty
  | '*' :: pattern, cs => (List.range (cs.length + 1)).any fun n => fits pattern (cs.drop n)
  | '?' :: pattern, cs => !cs.isEmpty && fits pattern cs.tail
  | c :: pattern, cs => cs.head? == some c && fits pattern cs.tail

/-- A text without the part of it that a pattern fits, at its front or its end: the shortest one, or
the longest. -/
def stripped (pattern value : List Char) (isFront isLongest : Bool) : List Char :=
  let pieces := (List.range (value.length + 1)).filter fun n =>
    if isFront then fits pattern (value.take n) else fits pattern (value.drop (value.length - n))
  match if isLongest then pieces.getLast? else pieces.head? with
  | some n => if isFront then value.drop n else value.take (value.length - n)
  | none => value

/-- The value of a parameter, if it has one. -/
def State.value? (s : State) (name : String) : Option String :=
  match name with
  | "?" => some (toString s.status)
  | "$" => some "4711"
  | "#" => some (toString s.arguments.length)
  | "@" | "*" => some (" ".intercalate s.arguments)
  | "0" => some s.name
  | name =>
    match name.toNat? with
    | some n => s.arguments[n - 1]?
    | none => s.environment.lookup name

/-- What a part of a word comes to: text that stays together, text that is cut at blanks, or several
words. -/
inductive Piece where
  | whole (s : String)
  | loose (s : String)
  | several (words : List String)

/-- The words that pieces make; the word that is begun may be none yet. -/
def join : Option String → List Piece → List String
  | begun, [] => begun.toList
  | begun, .whole s :: rest => join (some (begun.getD "" ++ s)) rest
  | begun, .several words :: rest =>
    match words with
    | [] => join begun rest
    | word :: words =>
      let all := (begun.getD "" ++ word) :: words
      all.dropLast ++ join all.getLast? rest
  | begun, .loose s :: rest =>
    let isGap (c : Char) : Bool := isBlank c || c == '\n'
    let words := ((Text.cut ' ' (s.toList.map fun c => if isGap c then ' ' else c)).filter
      (· ≠ [])).map String.ofList
    match words with
    | [] => if s = "" then join begun rest else begun.toList ++ join none rest
    | word :: words =>
      let front := if s.toList.head?.any isGap then begun.toList ++ [word]
        else [begun.getD "" ++ word]
      let all := front ++ words
      if s.toList.getLast?.any isGap then all ++ join none rest
      else all.dropLast ++ join all.getLast? rest

/-- The bytes without the line breaks at their end. -/
def withoutBreaks (bytes : List UInt8) : List UInt8 :=
  (bytes.reverse.dropWhile (· == 10)).reverse

/-- Runs something with sinks and an input of its own, in a shell whose changes are forgotten except
for those of the disk, and gives what it prints and how it ends. -/
def aside (input : List UInt8) (step : Step Unit) : Step (List UInt8) := do
  let s ← get
  let (ended, after) := step.run.run { s with input, printed := [] }
  let status :=
    match ended with
    | .error (.leave code) => code
    | .error (.killed signal) => 128 + signal
    | .ok _ => after.status
  set { s with tree := after.tree, complaints := after.complaints, status }
  return after.printed

mutual

/-- What a part of a word comes to. The bound is on how deep scripts stand in each other. -/
def expandPart : Nat → Part → Step Piece
  | _, .text s => return .whole s
  | 0, _ => throw (.leave 2)
  | bound + 1, .output script isQuoted => do
    let bytes ← aside (← get).input (runScript bound script)
    let s := Text.decodeLenient (withoutBreaks bytes)
    return if isQuoted then .whole s else .loose s
  | bound + 1, .parameter name operator operand isQuoted => do
    let s ← get
    if name = "@" && isQuoted then return .several s.arguments
    let value := s.value? name
    let isSet := if operator.toList.head? = some ':' then value.any (· ≠ "") else value.isSome
    let written ← expandText bound operand
    let result :=
      match operator with
      | ":-" | "-" => if isSet then value.getD "" else written
      | ":+" | "+" => if isSet then written else ""
      | "" => value.getD ""
      | operator =>
        String.ofList (stripped written.toList (value.getD "").toList
          (operator.toList.head? == some '#') (operator.length == 2))
    return if isQuoted then .whole result else .loose result
termination_by bound _ => (bound, 0)

/-- The text of a word that is written inside another. -/
def expandText : Nat → String → Step String
  | bound, written => do
    match readQuoted true (written.length + 1) written.toList with
    | some (w, _) => expandOne bound w
    | none => return written
termination_by bound _ => (bound, 2)

/-- The text of a word that is not cut. -/
def expandOne : Nat → Word → Step String
  | bound, w => do
    let pieces ← w.mapM (expandPart bound)
    return String.join (pieces.map fun
      | .whole s | .loose s => s
      | .several words => " ".intercalate words)
termination_by bound _ => (bound, 1)

/-- Runs a program that is not part of the shell. -/
def runStarted : Nat → Started → Step Unit
  | 0, _ => throw (.leave 2)
  | bound + 1, started => do
    let s ← get
    match started.program, started.arguments with
    | "env", name :: arguments =>
      match startFirst s.tree s.directory name arguments none (programPaths s.environment name) with
      | .ok started => runStarted bound started
      | .error e =>
        emit .errors (Text.encode ("env: '" ++ name ++ "': " ++ e.text ++ "\n"))
        throw (.leave 127)
    | "env", [] =>
      emit .output
        (Text.encode (String.join (s.environment.map fun (n, v) => n ++ "=" ++ v ++ "\n")))
    | program, arguments =>
      match programs.lookup program with
      | some run =>
        let outcome := run ⟨arguments, s.input, s.directory, s.tree⟩
        emit .output outcome.output
        emit .errors outcome.errors
        modify fun s => { s with status := outcome.code }
      | none => runShell bound started.name arguments
termination_by bound _ => (bound, 3)

/-- Runs a shell: with a script that is given, or with one in a file. -/
def runShell : Nat → (name : String) → List String → Step Unit
  | 0, _, _ => throw (.leave 2)
  | bound + 1, name, arguments => do
    match arguments with
    | "-c" :: script :: arguments =>
      modify fun s => { s with name := arguments.headD name, arguments := arguments.tail }
      runScript bound script
    | file :: arguments =>
      let s ← get
      match s.tree.openFile s.directory (Path.parse file) with
      | .ok f =>
        set { s with name := file, arguments }
        runScript bound (Text.decodeLenient f.bytes)
      | .error e =>
        emit .errors (Text.encode (name ++ ": 0: cannot open " ++ file ++ ": " ++ e.text ++ "\n"))
        throw (.leave 2)
    | [] => return ()
termination_by bound _ _ => (bound, 3)

/-- Runs a command whose words are known. -/
def runWords : Nat → (line : Nat) → List String → Step Unit
  | _, _, [] => return ()
  | 0, _, _ => throw (.leave 2)
  | bound + 1, line, name :: arguments => do
    let s ← get
    match name, arguments with
    | ":", _ => modify fun s => { s with status := 0 }
    | "exit", arguments =>
      throw (.leave (((arguments.head?.bind String.toNat?).getD s.status) % 256))
    | "kill", [signal, _] =>
      throw (.killed (((String.ofList (signal.toList.drop 1)).toNat?).getD 15))
    | "cd", [target] =>
      match s.tree.lookup s.directory (Path.parse target) with
      | .ok (loc, .directory) => set { s with directory := loc, status := 0 }
      | _ =>
        emit .errors (Text.encode (s.name ++ ": " ++ toString line ++ ": cd: can't cd to "
          ++ target ++ "\n"))
        modify fun s => { s with status := 2 }
    | name, arguments =>
      let builtins : List String := ["true", "false", "echo", "printf", "pwd"]
      if name ∈ builtins then runStarted bound ⟨name, name, arguments⟩
      else
        match startFirst s.tree s.directory name arguments none
            (programPaths s.environment name) with
        | .ok started =>
          let bytes ← aside s.input (runStarted bound started)
          emit .output bytes
        | .error e =>
          let reason := if e.isAbsence then "not found" else e.text
          emit .errors (Text.encode (s.name ++ ": " ++ toString line ++ ": " ++ name ++ ": "
            ++ reason ++ "\n"))
          modify fun s => { s with status := if e.isAbsence then 127 else 126 }
termination_by bound _ _ => (bound, 4)

/-- Runs one command: its words are replaced, and what it prints goes where it is said to go. -/
def runSimple : Nat → Simple → Step Unit
  | 0, _ => throw (.leave 2)
  | bound + 1, command => do
    let words ← command.words.mapM fun w => do return join none (← w.mapM (expandPart bound))
    for (name, w) in command.assignments do
      let value ← expandOne bound w
      modify fun s => { s with environment := (name, value) :: s.environment }
    let mut sinks : List (Nat × Sink) := [(1, .output), (2, .errors)]
    let mut input := (← get).input
    for redirect in command.redirects do
      match redirect with
      | .document w => input := Text.encode (← expandOne bound w)
      | .input w =>
        let p := Path.parse (← expandOne bound w)
        let s ← get
        input := ((s.tree.openFile s.directory p).toOption.map (·.bytes)).getD []
      | .copy channel w =>
        match (← expandOne bound w).toNat?.bind (sinks.lookup ·) with
        | some sink => sinks := (channel, sink) :: sinks
        | none => pure ()
      | .output channel w isAppended =>
        let p := Path.parse (← expandOne bound w)
        let s ← get
        let old := ((s.tree.openFile s.directory p).toOption.map (·.bytes)).getD []
        let kept := if isAppended then old else []
        set { s with tree := (s.tree.write s.directory p kept).toOption.getD s.tree }
        sinks := (channel, .file p) :: sinks
    let before ← get
    set { before with input, printed := [], complaints := [], status := 0 }
    -- what is printed is given to its sinks even when the shell stops here
    let ended ← tryCatch (do runWords bound command.line words.flatten; return none)
      fun stop => return some stop
    let after ← get
    set { after with
      input := before.input, printed := before.printed, complaints := before.complaints }
    emit ((sinks.lookup 1).getD .output) after.printed
    emit ((sinks.lookup 2).getD .errors) after.complaints
    match ended with
    | some stop => throw stop
    | none => return ()
termination_by bound _ => (bound, 5)

/-- Runs the commands of a pipeline, each with the output of the one before as its input. -/
def runCommands : Nat → List Simple → Step Unit
  | _, [] => return ()
  | 0, _ => throw (.leave 2)
  | bound + 1, [command] => runSimple bound command
  | bound + 1, command :: rest => do
    let bytes ← aside (← get).input (runSimple bound command)
    let printed ← aside bytes (runCommands bound rest)
    emit .output printed
termination_by bound _ => (bound, 6)

def runScript : Nat → String → Step Unit
  | 0, _ => throw (.leave 2)
  | bound + 1, script => do
    match readScript script with
    | some pipelines =>
      for p in pipelines do
        let status := (← get).status
        if p.link = .always ∨ (p.link = .onSuccess) = (status = 0) then
          runCommands bound p.commands
    | none =>
      emit .errors (Text.encode ((← get).name ++ ": 1: Syntax error\n"))
      throw (.leave 2)
termination_by bound _ => (bound, 7)

end

end StagedBuild.Rehearsal.Shell
