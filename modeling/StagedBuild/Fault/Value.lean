import StagedBuild.Path
import StagedBuild.Text.Numeral

/-!
Values that are refused.
-/

namespace StagedBuild

/-- A value that is not one of those that can be used. -/
inductive ValueFault where
  | unknownCollector (name : String)
  | unknownMode (name : String)
  | noCollector (name : String)
  | noMode (name : String)
  | noInclusion (name : String)
  | noRepository (arg : String)
  | numeral (fault : Text.NumeralFault)
  | notBelow (path base : Path)
  | emptyName (path : Path)
  | embeddedNull
  | readLength
  | noPosition
  | openHost
  | bracketedHost
  | laterHost
  | noHost (written : String)
  | disguisedHost (host : String)
  | other (text : String)
  deriving DecidableEq, Repr

namespace ValueFault

def message : ValueFault → String
  | unknownCollector name =>
    "Unknown garbage collector '" ++ name ++ "'. Valid: none, boehm, immix"
  | unknownMode name => "Unknown mode '" ++ name ++ "'. Valid: debug, release"
  | noCollector name => Text.quoted name ++ " is not a valid GarbageCollector"
  | noMode name => Text.quoted name ++ " is not a valid Mode"
  | noInclusion name => Text.quoted name ++ " is not a valid SourceKind"
  | noRepository arg => "Invalid repo '" ++ arg ++ "'. Expected format 'org/repo'."
  | numeral fault => fault.message
  | notBelow path base =>
    Text.quoted path.text ++ " is not in the subpath of " ++ Text.quoted base.bareText
      ++ " OR one path is relative and the other is absolute."
  | emptyName path => path.described ++ " has an empty name"
  | embeddedNull => "embedded null byte"
  | readLength => "read length must be non-negative or -1"
  | noPosition => "cannot fit 'int' into an offset-sized integer"
  | openHost => "Invalid IPv6 URL"
  | bracketedHost => "An IPv4 address cannot be in brackets"
  | laterHost => "IPvFuture address is invalid"
  | noHost written => Text.quoted written ++ " does not appear to be an IPv4 or IPv6 address"
  | disguisedHost host =>
    "netloc '" ++ host ++ "' contains invalid characters under NFKC normalization"
  | other text => text

end ValueFault

end StagedBuild
