import HackVM.Text.Basic

/-!
# Source lines

A line ends at a carriage return, at a line feed, or at the two in this order together. A final
line end starts no further line, and an empty text has no lines.
-/

namespace HackVM

/-- Writes every line end as one line feed. -/
def unifyLineEnds (t : Text) : Text :=
  (Text.joinLineEnds t).map fun b => if b = Text.carriageReturn then Text.lineFeed else b

/-- The lines of a text. -/
def sourceLines (t : Text) : List Text :=
  if t = [] then []
  else (Text.dropEnding [Text.lineFeed] (unifyLineEnds t)).splitOn Text.lineFeed

end HackVM
