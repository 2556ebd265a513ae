/-!
Failures of a transfer over HTTP.
-/

namespace StagedBuild

/-- Why a transfer failed. A refusal is the server's answer and has a status; the other failures
have none. -/
inductive TransferFault where
  | connection (text : String)
  | timeout (text : String)
  | protocol (text : String)
  | refused (status : Int) (text : String)
  deriving DecidableEq, Repr

namespace TransferFault

/-- The name under which a failure is reported. -/
def kind : TransferFault → String
  | connection _ => "ConnectionError"
  | timeout _ => "Timeout"
  | protocol _ => "HTTPError"
  | refused _ _ => "HTTPError"

def message : TransferFault → String
  | connection text | timeout text | protocol text | refused _ text => text

/-- The status of the server's refusal. -/
def status? : TransferFault → Option Int
  | refused status _ => some status
  | _ => none

end TransferFault

/-- What a transfer was for. -/
inductive TransferPurpose where
  | download
  | fetch
  deriving DecidableEq, Repr

/-- A transfer that did not deliver. -/
structure DownloadFault where
  purpose : TransferPurpose
  url : String
  cause : TransferFault
  deriving DecidableEq, Repr

namespace DownloadFault

/-- The text of a failed download. -/
def message (f : DownloadFault) : String :=
  (match f.purpose with
    | .download => "Failed to download "
    | .fetch => "Failed to fetch ") ++ f.url ++ ": " ++ f.cause.message

/-- The status of the server's refusal. -/
def status? (f : DownloadFault) : Option Int :=
  f.cause.status?

end DownloadFault

end StagedBuild
