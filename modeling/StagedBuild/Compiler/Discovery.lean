import StagedBuild.Compiler.SearchPath
import StagedBuild.Text.UpperCase
import StagedBuild.Tool.Run

/-!
Finding the compilers and the flags of the platform. A variable of the environment names a compiler
outright; otherwise versioned names are looked up, newest first, and then the bare name.
-/

namespace StagedBuild.Compiler

/-- A major and a minor version. -/
abbrev Version := String × String

/-- The versions of the compiler that are looked for, newest first. -/
def compilerVersions : List Version := [("4", "0"), ("3", "9"), ("3", "8"), ("3", "7")]

/-- The names under which a binary is looked up, in order. -/
def namesToTry (binary : String) (versions : List Version) : List String :=
  versions.flatMap (fun (major, minor) =>
    [binary ++ major ++ minor, binary ++ "-" ++ major ++ "." ++ minor]) ++ [binary]

/-- The variable that names the location of a binary. -/
def overrideVariable (binary : String) : String :=
  (if binary = "clang" then "CLANG"
    else if binary = "clang++" then "CLANGPP"
    else Text.upperCase binary) ++ "_PATH"

/-- Where compilers are looked for: the variables that count, and a way of looking names up if it is
not the search path. -/
structure Finder where
  environment : List (String × String)
  lookup : Option (String → Option String)

namespace Finder

/-- The value of a variable that is set to something. -/
def override? (d : Finder) (binary : String) : Option String :=
  (d.environment.lookup (overrideVariable binary)).filter (· ≠ "")

/-- Looks a name up. Without a search path among the variables, that of the process counts. -/
def find (d : Finder) (name : String) : Action (Option String) := do
  match d.lookup with
  | some lookup => return lookup name
  | none =>
    match d.environment.lookup "PATH" with
    | some searchPath => search searchPath name
    | none =>
      let searchPath := (← Action.environment? "PATH").getD standardSearchPath
      search searchPath name

/-- What the first name that is found leads to. -/
def firstFound (d : Finder) : List String → Action (Option String)
  | [] => return none
  | name :: rest => do
    match ← d.find name with
    | some found => if found = "" then d.firstFound rest else return some found
    | none => d.firstFound rest

/-- Where to read how to install a compiler. -/
def setupAddress : String := "http://www.scala-native.org/en/latest/user/setup.html"

/-- The fault of a binary that is not found under any of its names. -/
def notFound (names : List String) : BuildFault :=
  .compilerNotFound
    ("no " ++ ", ".intercalate names ++ " found in $PATH. Install clang (" ++ setupAddress ++ ")")

def locate (d : Finder) (binary : String) (versions : List Version) : Action Path := do
  match d.override? binary with
  | some location => return Path.parse location
  | none =>
    let names := namesToTry binary versions
    match ← d.firstFound names with
    | some found => return Path.parse found
    | none => throw (.build (notFound names))

def clang (d : Finder) : Action Path :=
  d.locate "clang" compilerVersions

def clangpp (d : Finder) : Action Path :=
  d.locate "clang++" compilerVersions

end Finder

/-- What the configuration tool answers to a flag; nothing when it fails. -/
def platformDirectories (flag : String) : Action (List String) := do
  let r ← Tool.run ["llvm-config", flag] none
  return if r.success then r.lines.map Text.trim else []

def compileFlags : Action (List String) := do
  let directories ← platformDirectories "--includedir"
  return ("/usr/local/include" :: directories).map ("-I" ++ ·) ++ ["-Qunused-arguments"]

def linkFlags : Action (List String) := do
  let directories ← platformDirectories "--libdir"
  return ("/usr/local/lib" :: directories).map ("-L" ++ ·)

/-- What marks the archive of the native library in a classpath. -/
def isArchiveText (s : String) : Bool :=
  let contains (part : String) : Bool :=
    (List.range (s.length + 1)).any fun i => part.toList.isPrefixOf (s.toList.drop i)
  contains "scala-native" && contains "nativelib"

/-- The fault of a classpath without the archive of the native library. -/
def noArchive : BuildFault :=
  .archiveNotFound ("Native library archive not found on classpath "
    ++ "(expected an entry containing 'scala-native' and 'nativelib')")

/-- The first entry of a classpath that is the archive of the native library. -/
def findArchive : List Path → Action Path
  | [] => throw (.build noArchive)
  | entry :: rest => do
    if isArchiveText (← Disk.absolute entry).text then return entry else findArchive rest

end StagedBuild.Compiler
