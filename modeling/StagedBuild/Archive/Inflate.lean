import StagedBuild.Archive.Corruption

/-!
Expanding data that was compressed by the deflate method of RFC 1951. A stream is a list of bits; it
ends complete, cut off, or with something that no compressor writes. What was expanded before the
end is kept in each case, with the part of the stream that each byte takes.
-/

namespace StagedBuild.Inflate

/-- How a stream ends. -/
inductive Ending where
  | complete
  | cut
  | corrupt (corruption : Corruption)
  deriving DecidableEq, Repr

/-- A byte of the expansion. It can be told once `told` bytes of the stream have been taken; before
that, a reader that has room for all bytes but this one takes `before` of them. -/
structure Written where
  byte : UInt8
  before : Nat
  told : Nat

/-- The bits that are left, the number of those that were taken, and what was written so far. -/
structure Progress where
  bits : List Bool
  taken : Nat
  output : Array Written

/-- The number of bytes of the stream that were taken, if only in part. -/
def Progress.takenBytes (p : Progress) : Nat :=
  (p.taken + 7) / 8

/-- A step of the expansion; it stops early when the stream ends. -/
abbrev Step := ExceptT Ending (StateM Progress)

/-- The bits of bytes, the least significant of each first. -/
def bitsOf (bytes : List UInt8) : List Bool :=
  bytes.flatMap fun b => (List.range 8).map fun i => b.toNat.testBit i

def bit : Step Bool := do
  match (← get).bits with
  | [] => throw .cut
  | b :: rest =>
    modify fun p => { p with bits := rest, taken := p.taken + 1 }
    return b

/-- Takes a number of the given width, its least significant bit first. -/
def number : Nat → Step Nat
  | 0 => pure 0
  | width + 1 => do
    let b ← bit
    let n ← number width
    return (if b then 1 else 0) + 2 * n

/-- Writes one byte that the bits taken so far tell. -/
def put (b : UInt8) : Step Unit :=
  modify fun p => { p with output := p.output.push ⟨b, p.takenBytes, p.takenBytes⟩ }

/-- Writes the byte that the next eight bits are. -/
def putNext : Step Unit := do
  let before := (← get).takenBytes
  let b ← number 8
  modify fun p => { p with output := p.output.push ⟨UInt8.ofNat b, before, p.takenBytes⟩ }

/-- The symbols of a prefix code by the length of their code words, and the longest length. -/
structure Code where
  byLength : List (List Nat)

/-- The symbols whose code word has the given length, in order. -/
def symbolsOf (lengths : List Nat) (length : Nat) : List Nat :=
  (lengths.zipIdx.filter fun entry => entry.1 == length).map (·.2)

/-- The canonical code with the given lengths of code words; length zero means no code word. -/
def Code.ofLengths (lengths : List Nat) : Code :=
  ⟨(List.range (lengths.foldl max 0)).map fun n => symbolsOf lengths (n + 1)⟩

/-- What is left of the code space after the code words of each length: negative when there are too
many, positive when some bit strings have no meaning. -/
def Code.slack (code : Code) : Int :=
  code.byLength.foldl (fun left symbols =>
    if left < 0 then left else 2 * left - symbols.length) 1

/-- A code can be used when its code words fit and fill the code space. A code with a single code
word, or none, need not fill it where `loose` is allowed. -/
def Code.isUsable (code : Code) (loose : Bool) : Bool :=
  code.byLength.isEmpty || code.slack == 0 ||
    (loose && code.slack > 0 && code.byLength.length == 1)

/-- Takes one code word: `value` is what the bits taken so far are worth and `first` is the value
of the first code word of the current length. Bits that are no code word are the given
corruption. -/
def codeWord (corruption : Corruption) : List (List Nat) → Nat → Nat → Step Nat
  | [], _, _ => throw (.corrupt corruption)
  | symbols :: longer, value, first => do
    let b ← bit
    let value := value + if b then 1 else 0
    match symbols[value - first]? with
    | some symbol =>
      if first ≤ value then return symbol
      else codeWord corruption longer (2 * value) (2 * (first + symbols.length))
    | none => codeWord corruption longer (2 * value) (2 * (first + symbols.length))

/-- Takes one symbol. A code without code words gives a fault after one bit. -/
def Code.symbol (code : Code) (corruption : Corruption) : Step Nat := do
  if code.byLength.isEmpty then
    let _ ← bit
    throw (.corrupt corruption)
  else codeWord corruption code.byLength 0 0

/-- Base and number of extra bits of every length symbol from 257 on. -/
def lengthBases : List (Nat × Nat) := [
  (3, 0), (4, 0), (5, 0), (6, 0), (7, 0), (8, 0), (9, 0), (10, 0), (11, 1), (13, 1), (15, 1),
  (17, 1), (19, 2), (23, 2), (27, 2), (31, 2), (35, 3), (43, 3), (51, 3), (59, 3), (67, 4), (83, 4),
  (99, 4), (115, 4), (131, 5), (163, 5), (195, 5), (227, 5), (258, 0)]

/-- Base and number of extra bits of every distance symbol. -/
def distanceBases : List (Nat × Nat) := [
  (1, 0), (2, 0), (3, 0), (4, 0), (5, 1), (7, 1), (9, 2), (13, 2), (17, 3), (25, 3), (33, 4),
  (49, 4), (65, 5), (97, 5), (129, 6), (193, 6), (257, 7), (385, 7), (513, 8), (769, 8), (1025, 9),
  (1537, 9), (2049, 10), (3073, 10), (4097, 11), (6145, 11), (8193, 12), (12289, 12), (16385, 13),
  (24577, 13)]

/-- Takes a base value with its extra bits. -/
def based (corruption : Corruption) (bases : List (Nat × Nat)) (symbol : Nat) : Step Nat := do
  match bases[symbol]? with
  | some (base, extra) => return base + (← number extra)
  | none => throw (.corrupt corruption)

/-- Repeats the byte `distance` back, `count` times. -/
def copyBack (distance : Nat) : Nat → Step Unit
  | 0 => pure ()
  | count + 1 => do
    let out := (← get).output
    put ((out[out.size - distance]?.map Written.byte).getD 0)
    copyBack distance count

/-- Expands symbols up to the end of the block. The bound is on the number of symbols. -/
def symbols (literals distances : Code) : Nat → Step Unit
  | 0 => throw .cut
  | bound + 1 => do
    let symbol ← literals.symbol .literalSymbol
    if symbol < 256 then
      put (UInt8.ofNat symbol)
      symbols literals distances bound
    else if symbol = 256 then
      return ()
    else
      let count ← based .literalSymbol lengthBases (symbol - 257)
      let distance ← based .distanceSymbol distanceBases (← distances.symbol .distanceSymbol)
      if (← get).output.size < distance then throw (.corrupt .distanceTooFar)
      copyBack distance count
      symbols literals distances bound

/-- The lengths of the fixed literal code. -/
def fixedLiteralLengths : List Nat :=
  List.replicate 144 8 ++ List.replicate 112 9 ++ List.replicate 24 7 ++ List.replicate 8 8

/-- The lengths of the fixed distance code. -/
def fixedDistanceLengths : List Nat :=
  List.replicate 32 5

/-- The order in which the lengths of the code for code lengths are sent. -/
def lengthOrder : List Nat :=
  [16, 17, 18, 0, 8, 7, 9, 6, 10, 5, 11, 4, 12, 3, 13, 2, 14, 1, 15]

def threeBitNumbers : Nat → Step (List Nat)
  | 0 => pure []
  | n + 1 => do
    let x ← number 3
    return x :: (← threeBitNumbers n)

/-- Takes code lengths until `wanted` are there; `taken` holds the latest first. -/
def codeLengths (code : Code) (wanted : Nat) : Nat → List Nat → Step (List Nat)
  | 0, _ => throw .cut
  | bound + 1, taken =>
    if wanted ≤ taken.length then pure taken.reverse
    else do
      let symbol ←
        if code.byLength.isEmpty then do
          let _ ← bit
          pure 0
        else code.symbol .lengthCode
      if symbol < 16 then codeLengths code wanted bound (symbol :: taken)
      else
        let (value, count) ←
          if symbol = 16 then
            match taken with
            | [] => do
              let _ ← number 2
              throw (.corrupt .lengthRepeat)
            | last :: _ => do pure (last, 3 + (← number 2))
          else if symbol = 17 then do pure (0, 3 + (← number 3))
          else do pure (0, 11 + (← number 7))
        if wanted < taken.length + count then throw (.corrupt .lengthRepeat)
        codeLengths code wanted bound (List.replicate count value ++ taken)

/-- Takes the codes of a block that brings its own. -/
def ownCodes : Step (Code × Code) := do
  let literalCount := 257 + (← number 5)
  let distanceCount := 1 + (← number 5)
  let lengthCount := 4 + (← number 4)
  if literalCount > 286 || distanceCount > 30 then throw (.corrupt .symbolCount)
  let sent := lengthOrder.zip (← threeBitNumbers lengthCount)
  let lengthCode := Code.ofLengths ((List.range 19).map fun symbol => (sent.lookup symbol).getD 0)
  if !lengthCode.isUsable false then throw (.corrupt .lengthCode)
  let wanted := literalCount + distanceCount
  let lengths ← codeLengths lengthCode wanted (wanted + 1) []
  if lengths.getD 256 0 = 0 then throw (.corrupt .noEndOfBlock)
  let literals := Code.ofLengths (lengths.take literalCount)
  let distances := Code.ofLengths (lengths.drop literalCount)
  if !literals.isUsable true then throw (.corrupt .literalCode)
  if !distances.isUsable true then throw (.corrupt .distanceCode)
  return (literals, distances)

def plainBytes : Nat → Step Unit
  | 0 => pure ()
  | n + 1 => do
    putNext
    plainBytes n

/-- Expands a block of bytes that are not compressed; it starts at a whole byte. -/
def plainBlock : Step Unit := do
  modify fun p =>
    let rest := p.bits.length % 8
    { p with bits := p.bits.drop rest, taken := p.taken + rest }
  let size ← number 16
  let complement ← number 16
  if size + complement ≠ 0xffff then throw (.corrupt .plainLengths)
  plainBytes size

/-- Expands one block and tells whether it is the last. -/
def block : Step Bool := do
  let last ← bit
  let bound := (← get).bits.length + 1
  match ← number 2 with
  | 0 => plainBlock
  | 1 => symbols (Code.ofLengths fixedLiteralLengths) (Code.ofLengths fixedDistanceLengths) bound
  | 2 =>
    let (literals, distances) ← ownCodes
    symbols literals distances bound
  | _ => throw (.corrupt .blockType)
  return last

/-- Expands blocks up to the last one. -/
def blocks : Nat → Step Unit
  | 0 => throw .cut
  | bound + 1 => do
    if ← block then return () else blocks bound

/-- The expansion of a stream: what was written, how the stream ends, and how many of its bytes are
taken by then. -/
structure Expansion where
  output : Array Written
  ending : Ending
  taken : Nat

def expand (bytes : List UInt8) : Expansion :=
  let bits := bitsOf bytes
  let (outcome, progress) := ((blocks (bits.length + 1)).run).run ⟨bits, 0, #[]⟩
  let ending :=
    match outcome with
    | .ok _ => .complete
    | .error ending => ending
  ⟨progress.output, ending, progress.takenBytes⟩

end StagedBuild.Inflate
