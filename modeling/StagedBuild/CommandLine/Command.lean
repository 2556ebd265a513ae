import StagedBuild.Artifact.PublishedTool
import StagedBuild.CommandLine.Grammar
import StagedBuild.Plan
import StagedBuild.Setting

/-!
The commands of the program: how it is called, the help on it and on each of its commands in lines
of at most eighty characters, and how commands are read from a command line.
-/

namespace StagedBuild.CommandLine

def programUsage : String :=
  "usage: nativebuild [-h] [--version] \x7bget,link,version,help\x7d ...\n"

def programHelp : String :=
  programUsage
    ++ "\n"
    ++ "nativebuild - native executables from linked IR\n"
    ++ "\n"
    ++ "positional arguments:\n"
    ++ "  \x7bget,link,version,help\x7d\n"
    ++ "                        Command to run\n"
    ++ "    get                 Install a command line tool\n"
    ++ "    link                Build a native executable\n"
    ++ "    version             Print version\n"
    ++ "    help                Print this help message\n"
    ++ "\n"
    ++ "options:\n"
    ++ "  -h, --help            show this help message and exit\n"
    ++ "  --version             show program's version number and exit\n"

/-- How the command that installs a tool is called. -/
def getUsage : String :=
  "usage: nativebuild get [-h] [-v] repo\n"

/-- The help on the command that installs a tool. -/
def getHelp : String :=
  getUsage
    ++ "\n"
    ++ "positional arguments:\n"
    ++ "  repo           The GitHub org/repo to install\n"
    ++ "\n"
    ++ "options:\n"
    ++ "  -h, --help     show this help message and exit\n"
    ++ "  -v, --verbose  Show verbose output\n"

/-- How the command that builds an executable is called. -/
def linkUsage : String :=
  "usage: nativebuild link [-h] -cp CLASSPATH [-w WORKDIR] [--gc GC]\n"
    ++ "                        [--mode MODE] [--ir-toolchain IR_TOOLCHAIN] [-j JOBS]\n"
    ++ "                        [-v]\n"
    ++ "                        main\n"

/-- The help on the command that builds an executable. -/
def linkHelp : String :=
  linkUsage
    ++ "\n"
    ++ "positional arguments:\n"
    ++ "  main                  Fully qualified name of the entry point\n"
    ++ "\n"
    ++ "options:\n"
    ++ "  -h, --help            show this help message and exit\n"
    ++ "  -cp CLASSPATH, --classpath CLASSPATH\n"
    ++ "                        Classpath entries, separated by the platform path\n"
    ++ "                        separator (repeatable)\n"
    ++ "  -w WORKDIR, --workdir WORKDIR\n"
    ++ "                        Work directory, owned by the build (default:\n"
    ++ "                        target/native)\n"
    ++ "  --gc GC               Garbage collector: none, boehm, immix (default: immix)\n"
    ++ "  --mode MODE           Optimization mode: debug, release (default: release)\n"
    ++ "  --ir-toolchain IR_TOOLCHAIN\n"
    ++ "                        Registered IR toolchain to use (default: first\n"
    ++ "                        registered)\n"
    ++ "  -j JOBS, --jobs JOBS  Parallel compile jobs (default: CPU count)\n"
    ++ "  -v, --verbose         Show verbose build output\n"

/-- How the command that prints the version is called. -/
def versionUsage : String :=
  "usage: nativebuild version [-h]\n"

/-- The help on the command that prints the version. -/
def versionHelp : String :=
  versionUsage
    ++ "\n"
    ++ "options:\n"
    ++ "  -h, --help  show this help message and exit\n"

/-- How the command that prints help is called. -/
def helpUsage : String :=
  "usage: nativebuild help [-h]\n"

/-- The help on the command that prints help. -/
def helpHelp : String :=
  helpUsage
    ++ "\n"
    ++ "options:\n"
    ++ "  -h, --help  show this help message and exit\n"

def programVersion : String := "0.1.0"

/-- What the command that installs a tool is asked for. -/
structure GetOrder where
  repository : ToolRepository
  verbose : Bool
  deriving DecidableEq, Repr

/-- What the command that builds an executable is asked for. -/
structure LinkOrder where
  main : String
  classpath : List (Option String)
  workdir : Setting Path
  gc : Setting Collector
  mode : Setting Mode
  irTools : Setting String
  jobs : Setting Int
  verbose : Bool
  deriving DecidableEq, Repr

/-- A command. -/
inductive Command where
  | get (order : GetOrder)
  | link (order : LinkOrder)
  | version
  | help
  deriving DecidableEq, Repr

def helpSwitch {σ : Type} (text : String) : Switch σ :=
  ⟨["-h", "--help"], .flag fun _ => .error (.shown text)⟩

/-- The grammar of a command that takes nothing. -/
def bareGrammar (program usage help : String) : Grammar Unit where
  program
  usage
  switches := [helpSwitch help]
  operand := .nothing
  missing := fun _ => []

/-- What a command line says so far about the command that installs a tool. -/
structure GetDraft where
  repository : Option ToolRepository
  verbose : Bool

/-- The grammar of the command that installs a tool. -/
def getGrammar : Grammar GetDraft where
  program := "nativebuild get"
  usage := getUsage
  switches := [
    helpSwitch getHelp,
    ⟨["-v", "--verbose"], .flag fun draft => .ok { draft with verbose := true }⟩]
  operand := .argument "repo" fun text draft =>
    match ToolRepository.parse text with
    | .ok repository => .ok { draft with repository := some repository }
    | .error fault => .error fault.message
  missing := fun draft => if draft.repository.isNone then ["repo"] else []

/-- The order that a complete draft stands for. -/
def GetDraft.order? (draft : GetDraft) : Option GetOrder :=
  draft.repository.map fun repository => ⟨repository, draft.verbose⟩

/-- What a command line says so far about the command that builds an executable. -/
structure LinkDraft where
  main : Option String
  classpath : List (Option String)
  workdir : Setting Path
  gc : Setting Collector
  mode : Setting Mode
  irTools : Setting String
  jobs : Setting Int
  verbose : Bool

/-- The draft of which nothing has been said. -/
def LinkDraft.initial : LinkDraft where
  main := none
  classpath := []
  workdir := .unsaid
  gc := .unsaid
  mode := .unsaid
  irTools := .unsaid
  jobs := .unsaid
  verbose := false

/-- A complaint about a value, as text. -/
def complaint {α : Type} : Except ValueFault α → Except String α
  | .ok a => .ok a
  | .error fault => .error fault.message

/-- The number of jobs that a text writes. -/
def readJobs (text : String) : Except String Int :=
  match Text.readInt text with
  | .ok jobs => .ok jobs
  | .error _ => .error ("invalid int value: " ++ Text.quoted text)

/-- The grammar of the command that builds an executable. -/
def linkGrammar : Grammar LinkDraft where
  program := "nativebuild link"
  usage := linkUsage
  switches := [
    helpSwitch linkHelp,
    ⟨["-cp", "--classpath"], .valued fun text draft =>
      .ok { draft with classpath := draft.classpath ++ [text] }⟩,
    ⟨["-w", "--workdir"], .valued fun text draft => do
      return { draft with workdir := ← Setting.read (fun text => .ok (Path.parse text)) text }⟩,
    ⟨["--gc"], .valued fun text draft => do
      return { draft with gc := ← Setting.read (complaint ∘ Collector.parse) text }⟩,
    ⟨["--mode"], .valued fun text draft => do
      return { draft with mode := ← Setting.read (complaint ∘ Mode.parse) text }⟩,
    ⟨["--ir-toolchain"], .valued fun text draft => do
      return { draft with irTools := ← Setting.read .ok text }⟩,
    ⟨["-j", "--jobs"], .valued fun text draft => do
      return { draft with jobs := ← Setting.read readJobs text }⟩,
    ⟨["-v", "--verbose"], .flag fun draft => .ok { draft with verbose := true }⟩]
  operand := .argument "main" fun text draft => .ok { draft with main := some text }
  missing := fun draft =>
    (if draft.main.isNone then ["main"] else [])
      ++ (if draft.classpath.isEmpty then ["-cp/--classpath"] else [])

/-- The order that a complete draft stands for. -/
def LinkDraft.order? (draft : LinkDraft) : Option LinkOrder :=
  draft.main.map fun main =>
    { main, classpath := draft.classpath, workdir := draft.workdir,
      gc := draft.gc, mode := draft.mode, irTools := draft.irTools, jobs := draft.jobs,
      verbose := draft.verbose }

def commandNames : List String := ["get", "link", "version", "help"]

/-- The complaint about a command that there is not. -/
def noCommand (name : String) : Stop :=
  .refused programUsage "nativebuild"
    ("argument command: invalid choice: " ++ Text.quoted name ++ " (choose from "
      ++ ", ".intercalate (commandNames.map Text.quoted) ++ ")")

/-- Reads a command from its name and the words that follow; nothing is chosen before. -/
def readCommand (name : String) (words : List String) (_ : Option Command) :
    Except Stop (Option Command × List String) := do
  match name with
  | "get" =>
    let (draft, left) ← getGrammar.read words ⟨none, false⟩
    return (draft.order?.map .get, left)
  | "link" =>
    let (draft, left) ← linkGrammar.read words .initial
    return (draft.order?.map .link, left)
  | "version" =>
    let (_, left) ← (bareGrammar "nativebuild version" versionUsage versionHelp).read words ()
    return (some .version, left)
  | "help" =>
    let (_, left) ← (bareGrammar "nativebuild help" helpUsage helpHelp).read words ()
    return (some .help, left)
  | name => throw (noCommand name)

def programGrammar : Grammar (Option Command) where
  program := "nativebuild"
  usage := programUsage
  switches := [
    helpSwitch programHelp,
    ⟨["--version"], .flag fun _ => .error (.shown ("nativebuild " ++ programVersion ++ "\n"))⟩]
  operand := .command readCommand
  missing := fun _ => []

/-- The command that a command line asks for, if it names one. -/
def readCommandLine (words : List String) : Except Stop (Option Command) :=
  programGrammar.readAll words none

/-- The entries of a written classpath, without blanks around them. Blank entries do not count. -/
def classpathEntries (written : String) : List String :=
  ((Text.pieces ':' written).map Text.trim).filter (· ≠ "")

/-- The entries of several written classpaths, in order. -/
def classpath (written : List String) : List Path :=
  (written.flatMap classpathEntries).map Path.parse

end StagedBuild.CommandLine
