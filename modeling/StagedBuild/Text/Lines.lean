/-!
Lines of a text. A line ends at any of the Unicode line boundaries; a carriage return followed by a
line feed is one boundary. The last line need not be ended.
-/

namespace StagedBuild.Text

/-- The characters that end a line. -/
def isLineBreak (c : Char) : Bool :=
  let n := c.toNat
  (10 ≤ n && n ≤ 13) || (28 ≤ n && n ≤ 30) || n == 0x85 || n == 0x2028 || n == 0x2029

/-- Splits the rest of a text into lines; `current` is the line begun so far, last character
first. -/
def linesAfter (current : List Char) : List Char → List (List Char)
  | [] => if current.isEmpty then [] else [current.reverse]
  | '\r' :: '\n' :: rest => current.reverse :: linesAfter [] rest
  | c :: rest =>
    if isLineBreak c then current.reverse :: linesAfter [] rest
    else linesAfter (c :: current) rest

/-- The lines of a text, without their boundaries. -/
def lines (s : String) : List String :=
  (linesAfter [] s.toList).map String.ofList

/-- Every carriage return, alone or before a line feed, becomes one line feed. -/
def normalizeNewlines : List Char → List Char
  | [] => []
  | '\r' :: '\n' :: rest => '\n' :: normalizeNewlines rest
  | c :: rest => (if c = '\r' then '\n' else c) :: normalizeNewlines rest

end StagedBuild.Text
