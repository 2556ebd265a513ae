import StagedBuild.Fault.System
import StagedBuild.Path

/-!
Failures of unpacking an archive.
-/

namespace StagedBuild

/-- What makes a file unusable as an archive. -/
inductive ArchiveFault where
  | notAnArchive
  | badDirectoryOffset
  | truncatedDirectory
  | badDirectoryMagic
  | corruptExtra (tag size : Nat)
  | missingWideField (field : String)
  | truncatedHeader
  | badHeaderMagic
  | nameMismatch (listed : String) (found : List UInt8)
  | overlapping (member : String)
  | badChecksum (member : String)
  | multipleDisks
  | corruptWideRecord
  deriving DecidableEq, Repr

namespace ArchiveFault

def message : ArchiveFault → String
  | notAnArchive => "File is not a zip file"
  | badDirectoryOffset => "Bad offset for central directory"
  | truncatedDirectory => "Truncated central directory"
  | badDirectoryMagic => "Bad magic number for central directory"
  | corruptExtra tag size =>
    "Corrupt extra field " ++ String.ofList (Text.hexDigits 4 tag) ++ " (size=" ++ toString size
      ++ ")"
  | missingWideField field => "Corrupt zip64 extra field. " ++ field ++ " not found."
  | truncatedHeader => "Truncated file header"
  | badHeaderMagic => "Bad magic number for file header"
  | nameMismatch listed found =>
    "File name in directory " ++ Text.quoted listed ++ " and header " ++ Text.quotedBytes found
      ++ " differ."
  | overlapping member => "Overlapped entries: " ++ Text.quoted member ++ " (possible zip bomb)"
  | badChecksum member => "Bad CRC-32 for file " ++ Text.quoted member
  | multipleDisks => "zipfiles that span multiple disks are not supported"
  | corruptWideRecord => "Corrupt zip64 end of central directory locator"

end ArchiveFault

/-- Why an archive was not extracted. -/
inductive ExtractionFault where
  | missing (archive : Path)
  | unsupported (suffix : String)
  | malformed (archive : Path) (fault : ArchiveFault)
  | refused (archive : Path) (fault : SystemFault)
  deriving DecidableEq, Repr

namespace ExtractionFault

/-- The text of a failed extraction. -/
def message : ExtractionFault → String
  | missing archive => "Archive not found: " ++ archive.text
  | unsupported suffix => "Unsupported archive format: " ++ suffix
  | malformed archive fault => "Failed to extract " ++ archive.text ++ ": " ++ fault.message
  | refused archive fault => "Failed to extract " ++ archive.text ++ ": " ++ fault.message

end ExtractionFault

end StagedBuild
