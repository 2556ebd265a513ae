import StagedBuild.Fault
import StagedBuild.Path
import StagedBuild.Text.Blank

/-!
The plan of a build. It is settled once, before the first stage, and every stage reads it. Two of
its choices have a closed list of names: the garbage collector that goes into the executable, and
how far the program is optimized.
-/

namespace StagedBuild

/-- The garbage collector of the executable. -/
inductive Collector where
  | none
  | boehm
  | immix
  deriving DecidableEq, Repr

/-- How far the program is optimized. -/
inductive Mode where
  | debug
  | release
  deriving DecidableEq, Repr

/-- A name as it is looked up: without blanks around it, with ASCII letters in lower case. All names
that are looked up are ASCII. -/
def lookupName (name : String) : String :=
  String.ofList ((Text.trimChars name.toList).map Char.toLower)

namespace Collector

/-- All collectors, in the order in which they are listed. -/
def all : List Collector := [none, boehm, immix]

def name : Collector → String
  | none => "none"
  | boehm => "boehm"
  | immix => "immix"

/-- Native libraries that a collector needs when the executable is linked. -/
def links : Collector → List String
  | boehm => ["gc"]
  | _ => []

/-- The collector of a build that asks for none in particular. -/
def default : Collector := immix

/-- The collector with exactly this name. -/
def named? (name : String) : Option Collector :=
  all.find? fun gc => gc.name == name

/-- The collector that a user names. -/
def parse (name : String) : Except ValueFault Collector :=
  match named? (lookupName name) with
  | some gc => .ok gc
  | .none => .error (.unknownCollector name)

end Collector

namespace Mode

/-- All modes, in the order in which they are listed. -/
def all : List Mode := [debug, release]

def name : Mode → String
  | debug => "debug"
  | release => "release"

/-- The mode of a build that asks for none in particular. -/
def default : Mode := release

/-- The mode with exactly this name. -/
def named? (name : String) : Option Mode :=
  all.find? fun mode => mode.name == name

/-- The mode that a user names. -/
def parse (name : String) : Except ValueFault Mode :=
  match named? (lookupName name) with
  | some mode => .ok mode
  | none => .error (.unknownMode name)

end Mode

/-- Everything that the stages of one build need to know. -/
structure Plan where
  clang : Path
  clangpp : Path
  target : String
  entry : String
  workdir : Path
  archive : Path
  classpath : List Path
  compileFlags : List String
  linkFlags : List String
  gc : Collector
  mode : Mode
  systemName : String
  linkStubs : Bool
  jobs : Int
  verbose : Bool
  deriving DecidableEq, Repr

namespace Plan

def outputPath (c : Plan) : Path :=
  c.workdir / "out"

/-- Where the native library is unpacked. -/
def libraryDirectory (c : Plan) : Path :=
  c.workdir / "lib"

/-- The processor architecture: what stands before the first hyphen of the target triple. -/
def architecture (c : Plan) : String :=
  ((Text.pieces '-' c.target).head?).getD ""

/-- The settings as they are shown to the user. -/
def description (c : Plan) : List (String × String) := [
  ("clang", c.clang.text),
  ("clang++", c.clangpp.text),
  ("target", c.target),
  ("gc", c.gc.name),
  ("mode", c.mode.name),
  ("entry", c.entry),
  ("workdir", c.workdir.text),
  ("nativelib", c.archive.text),
  ("jobs", toString c.jobs)]

end Plan

/-- Where a work directory keeps the files of the target probe. -/
def probeDirectory (workdir : Path) : Path :=
  workdir / "target"

/-- Number of compilers run at a time when nobody says: one for each processor, and one when their
number is not known. -/
def usualJobs (processors : Option Nat) : Nat :=
  match processors with
  | none | some 0 => 1
  | some n => n

end StagedBuild
