import StagedBuild.Action

/-!
What a command tells its user in the end, in colour: success on the output, failures among the
errors.
-/

namespace StagedBuild.CommandLine.Report

/-- The colours of reports. -/
inductive Colour where
  | red
  | green
  | yellow
  deriving DecidableEq, Repr

/-- A text in a colour of the terminal. -/
def Colour.paint (colour : Colour) (text : String) : String :=
  let number :=
    match colour with
    | red => "31"
    | green => "32"
    | yellow => "33"
  "\x1b[1;" ++ number ++ "m" ++ text ++ "\x1b[0m"

/-- The text of a failure: its title and, if there are any, its details. -/
def failureText (title details : String) : String :=
  "\n" ++ Colour.red.paint ("✗ " ++ title) ++ "\n"
    ++ (if details = "" then "" else "\n" ++ details ++ "\n") ++ "\n"

def failure (title details : String) : Action Unit :=
  Action.print .errors (failureText title details)

def success (message : String) : Action Unit :=
  Action.print .output ("\n" ++ Colour.green.paint ("✓ " ++ message) ++ "\n")

/-- Reports what is no failure and still no success. -/
def warning (message : String) : Action Unit :=
  Action.print .output ("\n" ++ Colour.yellow.paint ("✗ " ++ message) ++ "\n")

/-- The exit code of a command that was done. -/
def doneCode : Int := 0

/-- The exit code of a command that failed. -/
def failedCode : Int := 1

/-- The exit code of a command that was interrupted. -/
def interruptedCode : Int := 130

/-- The exit code of a command line that cannot be read. -/
def misusedCode : Int := 2

/-- Reports a failure that is to be expected, and gives the exit code. -/
def expected (title details : String) : Action Int := do
  failure title details
  return failedCode

/-- Reports an interrupt, and gives the exit code. -/
def interrupt : Action Int := do
  warning "Interrupted"
  return interruptedCode

/-- Reports a failure that nobody expected, by its kind and its text, and gives the exit code. Where
the program was then is of interest to its authors only. -/
def unexpected (kind text : String) (verbose : Bool) : Action Int := do
  failure "Unexpected error" (kind ++ ": " ++ text)
  if verbose then Action.print .errors "Traceback:\n<traceback>\n"
  return failedCode

/-- Reports a fault that nobody expected. -/
def unexpectedFault (fault : Fault) (verbose : Bool) : Action Int :=
  unexpected fault.kind (fault.message?.getD "") verbose

end StagedBuild.CommandLine.Report
