/-!
Levels of log records and which of them are shown.
-/

namespace StagedBuild.CommandLine

/-- How much a record matters. -/
inductive LogLevel where
  | unset
  | debug
  | info
  | warning
  | error
  | critical
  deriving DecidableEq, Repr

namespace LogLevel

/-- All levels, the least first. -/
def all : List LogLevel := [unset, debug, info, warning, error, critical]

def name : LogLevel → String
  | unset => "NOTSET"
  | debug => "DEBUG"
  | info => "INFO"
  | warning => "WARNING"
  | error => "ERROR"
  | critical => "CRITICAL"

/-- Other names of levels. -/
def otherNames : List (String × LogLevel) :=
  [("WARN", warning), ("FATAL", critical)]

def named? (name : String) : Option LogLevel :=
  (all.find? fun level => level.name == name) <|> otherNames.lookup name

/-- The least level that is shown. -/
def threshold (verbose : Bool) : LogLevel :=
  if verbose then debug else warning

/-- A record of this level is shown. -/
def isShown (verbose : Bool) (level : LogLevel) : Bool :=
  all.idxOf (threshold verbose) ≤ all.idxOf level

/-- How a record is shown. One that comes from no part in particular comes from the root. -/
def line (level : LogLevel) (source text : String) : String :=
  level.name ++ " " ++ (if source = "" then "root" else source) ++ ": " ++ text ++ "\n"

end LogLevel

end StagedBuild.CommandLine
