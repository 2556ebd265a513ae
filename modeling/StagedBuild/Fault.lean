import StagedBuild.Archive.Corruption
import StagedBuild.Fault.Archive
import StagedBuild.Fault.Build
import StagedBuild.Fault.Manifest
import StagedBuild.Fault.Value

/-!
Everything that can end an action before its result, by cause. A fault has the name under which it
is reported and, for most causes, a text.
-/

namespace StagedBuild

/-- The causes that end an action. -/
inductive Fault where
  | build (fault : BuildFault)
  | download (fault : DownloadFault)
  | extraction (fault : ExtractionFault)
  | resolution (fault : ResolutionFault)
  | manifest (fault : ManifestFault)
  | properties (fault : PropertyFault)
  | transfer (fault : TransferFault)
  | archive (fault : ArchiveFault)
  | system (fault : SystemFault)
  | value (fault : ValueFault)
  | failure (text : String)
  | unsupported (text : String)
  | unloadable (text : String)
  | endOfData
  | noCharacter
  | noItem
  | tooLarge
  | tooLong
  | outOfMemory
  | undecodable
  | unencodable
  | notJson
  | notXml
  | corruptData (corruption : Inflate.Corruption)
  | corruptStream (text : String)
  | noAttribute
  | wrongType
  | noKey
  | tooDeep
  | interrupted
  deriving DecidableEq, Repr

namespace Fault

/-- The name under which a fault is reported. -/
def kind : Fault → String
  | build f => f.kind
  | download _ => "DownloadError"
  | extraction _ => "ExtractionError"
  | resolution _ => "ResolutionError"
  | manifest _ => "ManifestError"
  | properties _ => "ParsingError"
  | transfer f => f.kind
  | archive _ => "BadZipFile"
  | system f => f.kind
  | value _ => "ValueError"
  | failure _ => "RuntimeError"
  | unsupported _ => "NotImplementedError"
  | unloadable _ => "ImportError"
  | endOfData => "EOFError"
  | noCharacter | noItem => "IndexError"
  | tooLarge | tooLong => "OverflowError"
  | outOfMemory => "MemoryError"
  | undecodable => "UnicodeDecodeError"
  | unencodable => "UnicodeEncodeError"
  | notJson => "JSONDecodeError"
  | notXml => "ParseError"
  | corruptData _ => "error"
  | corruptStream _ => "LZMAError"
  | noAttribute => "AttributeError"
  | wrongType => "TypeError"
  | noKey => "KeyError"
  | tooDeep => "RecursionError"
  | interrupted => "KeyboardInterrupt"

/-- The text of a fault. Faults found by a reader of some format have none that is the same on
every system. -/
def message? : Fault → Option String
  | build f => some f.message
  | download f => some f.message
  | extraction f => some f.message
  | resolution f => some f.message
  | manifest f => some f.message
  | properties f => some f.message
  | transfer f => some f.message
  | archive f => some f.message
  | system f => some f.message
  | value f => some f.message
  | failure text | unsupported text | unloadable text | corruptStream text => some text
  | endOfData | outOfMemory => some ""
  | noCharacter => some "string index out of range"
  | noItem => some "list index out of range"
  | tooLarge => some "cannot fit 'int' into an index-sized integer"
  | tooLong => some "byte string is too large"
  | corruptData corruption => some corruption.message
  | _ => none

/-- Every fault but an interrupt, which only the outermost layer handles. -/
def isOrdinary : Fault → Bool
  | interrupted => false
  | _ => true

/-- A refusal of the operating system. Failed transfers count as such. -/
def isSystem : Fault → Bool
  | system _ | transfer _ => true
  | _ => false

/-- The refusal of a file that is not there. -/
def isMissing : Fault → Bool
  | system fault => fault.isMissing
  | _ => false

/-- A value that cannot be used. Text that cannot be read counts as such. -/
def isValue : Fault → Bool
  | value _ | notJson | undecodable | unencodable => true
  | _ => false

end Fault

end StagedBuild
