/-!
What can be wrong in data that was compressed by the deflate method of RFC 1951.
-/

namespace StagedBuild.Inflate

/-- What no compressor writes. -/
inductive Corruption where
  | blockType
  | plainLengths
  | symbolCount
  | lengthCode
  | lengthRepeat
  | noEndOfBlock
  | literalCode
  | distanceCode
  | literalSymbol
  | distanceSymbol
  | distanceTooFar
  deriving DecidableEq, Repr

namespace Corruption

def reason : Corruption → String
  | blockType => "invalid block type"
  | plainLengths => "invalid stored block lengths"
  | symbolCount => "too many length or distance symbols"
  | lengthCode => "invalid code lengths set"
  | lengthRepeat => "invalid bit length repeat"
  | noEndOfBlock => "invalid code -- missing end-of-block"
  | literalCode => "invalid literal/lengths set"
  | distanceCode => "invalid distances set"
  | literalSymbol => "invalid literal/length code"
  | distanceSymbol => "invalid distance code"
  | distanceTooFar => "invalid distance too far back"

def message (c : Corruption) : String :=
  "Error -3 while decompressing data: " ++ c.reason

end Corruption

end StagedBuild.Inflate
