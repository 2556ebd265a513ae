import StagedBuild.Text.Quoted

/-!
What the operating system refuses: what went wrong and at which path.
-/

namespace StagedBuild

/-- What the operating system refuses. -/
inductive SystemError where
  | noEntry
  | occupied
  | notDirectory
  | isDirectory
  | notEmpty
  | nameTooLong
  | invalid
  | busy
  | noExecFormat
  | denied
  | numbered (number : Int) (text : String)
  deriving DecidableEq, Repr

namespace SystemError

def number : SystemError → Int
  | noEntry => 2
  | occupied => 17
  | notDirectory => 20
  | isDirectory => 21
  | notEmpty => 39
  | nameTooLong => 36
  | invalid => 22
  | busy => 16
  | noExecFormat => 8
  | denied => 13
  | numbered n _ => n

def text : SystemError → String
  | noEntry => "No such file or directory"
  | occupied => "File exists"
  | notDirectory => "Not a directory"
  | isDirectory => "Is a directory"
  | notEmpty => "Directory not empty"
  | nameTooLong => "File name too long"
  | invalid => "Invalid argument"
  | busy => "Device or resource busy"
  | noExecFormat => "Exec format error"
  | denied => "Permission denied"
  | numbered _ text => text

/-- The name under which an error of this number is reported. -/
def kind (e : SystemError) : String :=
  match e.number with
  | 2 => "FileNotFoundError"
  | 17 => "FileExistsError"
  | 20 => "NotADirectoryError"
  | 21 => "IsADirectoryError"
  | 1 | 13 => "PermissionError"
  | 3 => "ProcessLookupError"
  | 4 => "InterruptedError"
  | 10 => "ChildProcessError"
  | 11 | 114 | 115 => "BlockingIOError"
  | 32 | 108 => "BrokenPipeError"
  | 103 => "ConnectionAbortedError"
  | 104 => "ConnectionResetError"
  | 110 => "TimeoutError"
  | 111 => "ConnectionRefusedError"
  | _ => "OSError"

/-- An error that says that there is nothing at a path, as opposed to one that leaves it open. -/
def isAbsence : SystemError → Bool
  | noEntry | notDirectory => true
  | _ => false

end SystemError

/-- A refusal, with the path or the pair of paths it is about. -/
inductive SystemFault where
  | on (error : SystemError) (path : String)
  | across (error : SystemError) (source target : String)
  | described (text : String)
  deriving DecidableEq, Repr

namespace SystemFault

/-- The name under which the refusal is reported. -/
def kind : SystemFault → String
  | on e _ => e.kind
  | across e _ _ => e.kind
  | described _ => "OSError"

/-- The refusal of a file or directory that is not there. -/
def isMissing : SystemFault → Bool
  | on e _ => e.number == SystemError.noEntry.number
  | across e _ _ => e.number == SystemError.noEntry.number
  | described _ => false

/-- The text of an error with its number. -/
def numbered (e : SystemError) : String :=
  "[Errno " ++ toString e.number ++ "] " ++ e.text

def message : SystemFault → String
  | on e path => numbered e ++ ": " ++ Text.quoted path
  | across e source target =>
    numbered e ++ ": " ++ Text.quoted source ++ " -> " ++ Text.quoted target
  | described text => text

end SystemFault

end StagedBuild
