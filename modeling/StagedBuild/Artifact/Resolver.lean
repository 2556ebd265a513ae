import StagedBuild.Artifact.Pom
import StagedBuild.Transfer.Download

/-!
Looking artifacts up in repositories, in order. What a remote repository delivers is kept in a cache
and not asked for again.
-/

namespace StagedBuild.Artifact

/-- A repository on the disk or on the web. -/
inductive Repository where
  | onDisk (root : Path)
  | onWeb (url : String)
  deriving DecidableEq, Repr

/-- Looks artifacts up: where the cache is, the repositories in order, and how they are asked. -/
structure Resolver where
  cache : Path
  repositories : List Repository
  settings : Transfer.Settings
  showProgress : Bool

/-- The repository that is asked when the artifact is not on the disk. -/
def centralRepository : String := "https://repo1.maven.org/maven2"

/-- The variable that says where the cache is. -/
def cacheVariable : String := "NATIVEBUILD_CACHE_DIR"

/-- The fault of a user whose directory is not known. -/
def noHome : Fault := .failure "Could not determine home directory."

/-- A path without slashes at its end; the root keeps one. -/
def withoutSlashes (s : String) : String :=
  let kept := String.ofList ((s.toList.reverse.dropWhile (· == '/')).reverse)
  if kept = "" then "/" else kept

/-- The directory of a user, named by a step that begins with a tilde. -/
def homeDirectory (step : String) : Action Path := do
  if step.toList.contains '\x00' then throw (.value .embeddedNull)
  let around ← read
  let home : Option String :=
    if step = "~" then around.environment.lookup "HOME"
    else around.homes.lookup (String.ofList (step.toList.drop 1))
  match home with
  | some home =>
    let written := withoutSlashes home
    if written.toList.head? = some '~' then throw noHome else return Path.parse written
  | none => throw noHome

/-- A path whose first step may name a user, from that user's directory. -/
def expandUser (p : Path) : Action Path := do
  match p.steps with
  | first :: rest =>
    if p.isAbsolute || first.toList.head? != some '~' then return p
    else
      let home ← homeDirectory first
      return home.descend rest
  | [] => return p

/-- The absolute path without steps up. -/
def absolutePath (p : Path) : Action Path := do
  if !Disk.isAskable p then throw (.value .embeddedNull)
  let q := (← Disk.absolute p).collapsed
  return { q with anchor := .root }

/-- Where downloads are kept when nobody says. -/
def usualCache (environment : List (String × String)) : Action Path := do
  match (environment.lookup cacheVariable).filter (· ≠ "") with
  | some location => absolutePath (← expandUser (Path.parse location))
  | none => return (← homeDirectory "~") / ".nativebuild" / "cache"

/-- The repositories that are asked when nobody says. -/
def usualRepositories : Action (List Repository) := do
  return [.onDisk ((← homeDirectory "~") / ".m2" / "repository"), .onWeb centralRepository]

/-- The address of a file in a repository on the web. -/
def addressIn (url relative : String) : String :=
  String.ofList ((url.toList.reverse.dropWhile (· == '/')).reverse) ++ "/" ++ relative

/-- Where a file from the web is kept. -/
def cachePath (f : Resolver) (relative : String) : Path :=
  f.cache / "maven" / relative

/-- A refusal that says that a server does not have the file. -/
def isAbsent : Fault → Bool
  | .download fault => fault.status? == some 404
  | _ => false

/-- Asks repositories in order; `tried` are the places asked before. -/
def obtainFrom (f : Resolver) (c : Coordinate) (extension : String) :
    List Repository → List String → Action Path
  | [], tried => throw (.resolution ⟨c.text, extension, tried⟩)
  | .onDisk root :: rest, tried => do
    let candidate := root / c.relativePath extension
    if ← Disk.isOccupied candidate then return candidate
    obtainFrom f c extension rest (tried ++ [candidate.text])
  | .onWeb url :: rest, tried => do
    let relative := c.relativePath extension
    let kept := cachePath f relative
    if ← Disk.isOccupied kept then return kept
    let address := addressIn url relative
    match ← Action.outcome (Transfer.download f.settings address kept f.showProgress) with
    | .ok p => return p
    | .error fault =>
      if isAbsent fault then obtainFrom f c extension rest (tried ++ [address]) else throw fault

/-- The file of an artifact, from the first repository that has it. -/
def obtain (f : Resolver) (c : Coordinate) (extension : String) : Action Path :=
  obtainFrom f c extension f.repositories []

/-- The direct dependencies of an artifact; none if it has no description. -/
def dependenciesOf (f : Resolver) (c : Coordinate) : Action (List Coordinate) := do
  match ← Action.outcome (obtain f c "pom") with
  | .ok pom =>
    let text ← Disk.readText pom
    Pom.dependencies text c
  | .error (.resolution _) => return []
  | .error fault => throw fault

/-- An artifact and its dependencies, each once. -/
def wanted (c : Coordinate) (dependencies : List Coordinate) : List Coordinate :=
  (c :: dependencies).eraseDups

/-- The jars of an artifact and of its direct dependencies. -/
def obtainJars (f : Resolver) (c : Coordinate) : Action (List Path) := do
  (wanted c (← dependenciesOf f c)).mapM fun d => obtain f d "jar"

/-- The resolver that goes by the environment of the process. -/
def Resolver.ofEnvironment : Action Resolver := do
  let around ← read
  return ⟨← usualCache around.environment, ← usualRepositories, .default, true⟩

end StagedBuild.Artifact
