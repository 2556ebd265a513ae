import StagedBuild.Action.Disk
import StagedBuild.Text.Numeral
import StagedBuild.Transfer.Address

/-!
Fetching over HTTP. A download is written to a temporary file beside its destination, which takes
the place of the destination when the body is complete. Ordinary faults take the temporary file
away; an interrupt leaves it.
-/

namespace StagedBuild.Transfer

/-- How bodies are read and how long a server may take. -/
structure Settings where
  chunkSize : Int
  timeout : Int
  deriving DecidableEq, Repr

/-- The settings when nobody says. -/
def Settings.default : Settings :=
  ⟨8192, 30⟩

def request (settings : Settings) (url : String) (streamed : Bool) : Action Response := do
  let around ← read
  let asked : Request := ⟨url, streamed, settings.timeout⟩
  let w ← get
  Action.note (.requested asked)
  match around.server asked w with
  | .failed fault => throw fault
  | .answered response => return response

/-- Refuses the answer of a server that reports a failure. -/
def checkStatus (r : Response) : Action Unit :=
  match r.refusal with
  | some text => throw (.transfer (.refused r.status text))
  | none => return ()

/-- Turns a failed transfer into the fault of a download. -/
def blame (purpose : TransferPurpose) (url : String) : Fault → Fault
  | .transfer cause => .download ⟨purpose, url, cause⟩
  | fault => fault

/-- Fetches a small text. The request brings the whole body, so a body that breaks off is a failed
request; a text that cannot be made of a body ends in the fault as it is. -/
def textAt (settings : Settings) (url : String) : Action String := do
  let ask : Action Response := do
    let r ← request settings url false
    checkStatus r
    return r
  match ← Action.outcome ask with
  | .ok r => Action.ofExcept id r.text
  | .error fault => throw (blame .fetch url fault)

/-- The length that a server announces; zero when it announces none. -/
def announcedLength (r : Response) : Action Int :=
  match r.header? "content-length" with
  | some value => Action.ofExcept (fun fault => .value (.numeral fault)) (Text.readInt value)
  | none => return 0

/-- Writes a piece of a body to a file and moves the bar. An empty piece is passed over. -/
def writePiece (file : Path) (withBar : Bool) (piece : List UInt8) : Action Unit := do
  if piece ≠ [] then
    Disk.appendBytes file piece
    if withBar then Action.note (.barMoved piece.length)

/-- Writes the pieces of a body, one after the other. -/
def writePieces (file : Path) (withBar : Bool) : List (List UInt8) → Action Unit
  | [] => return ()
  | piece :: rest => do
    writePiece file withBar piece
    writePieces file withBar rest

/-- Asks for a body, and reads off its length as it is announced. -/
def receive (settings : Settings) (url : String) : Action (Response × Int) := do
  let r ← request settings url true
  checkStatus r
  return (r, ← announcedLength r)

def openBar (url : String) (total : Int) (withBar : Bool) : Action Unit := do
  if withBar then
    let name ← Action.ofExcept Fault.value (fileName url)
    Action.note (.barOpened total ("Downloading " ++ name))

/-- Writes a body to a file, as far as it goes. -/
def writeBody (file : Path) (withBar : Bool) (body : Body) : Action Unit := do
  Disk.truncate file
  writePieces file withBar body.pieces
  match body.fault with
  | some fault => throw fault
  | none => return ()

/-- The bar has come to its end. -/
def closeBar (withBar : Bool) : Action Unit := do
  if withBar then Action.note .barClosed

/-- A response whose body is to be written, and whether a bar is shown for it. -/
structure Intake where
  response : Response
  withBar : Bool

/-- Asks for a body and shows a bar for it. -/
def requestBody (settings : Settings) (url : String) (showProgress : Bool) : Action Intake := do
  let (r, total) ← receive settings url
  let withBar := showProgress && decide (0 < total)
  openBar url total withBar
  return ⟨r, withBar⟩

/-- Downloads a body to a temporary file, and tells whether a bar is shown for it. The bar is open
still. -/
def deliver (settings : Settings) (url : String) (temporary : Path) (showProgress : Bool) :
    Action Bool := do
  let intake ← requestBody settings url showProgress
  writeBody temporary intake.withBar (intake.response.body settings.chunkSize)
  return intake.withBar

/-- Closes the bar, and puts the temporary file in the place of the destination. The user may
interrupt before the bar is closed, before the old file goes, and while there is none. -/
def putInPlace (temporary destination : Path) (withBar : Bool) : Action Unit := do
  Action.pause
  closeBar withBar
  Action.pause
  Disk.unlinkIfPresent destination
  Action.pause
  Disk.rename temporary destination

/-- Downloads to a temporary file and puts it in the place of the destination, where the user may
interrupt once more. An interrupt before that is how the request ends, or the reading of the body.
-/
def downloadTo (settings : Settings) (url : String) (destination temporary : Path)
    (showProgress : Bool) : Action Unit := do
  putInPlace temporary destination (← deliver settings url temporary showProgress)
  Action.pause

def download (settings : Settings) (url : String) (destination : Path) (showProgress : Bool) :
    Action Path := do
  Disk.makeDirectories destination.parent
  match destination.withSuffix? (destination.suffix ++ ".tmp") with
  | none => throw (.value (.emptyName destination))
  | some temporary =>
    match ← Action.outcome (downloadTo settings url destination temporary showProgress) with
    | .ok _ => return destination
    | .error fault =>
      if fault.isOrdinary then Disk.unlinkIfPresent temporary
      throw (blame .download url fault)

end StagedBuild.Transfer
