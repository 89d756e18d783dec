import HackVM.Text.Decimal

/-!
# Excerpts

A few lines of source around a place, with their numbers, a mark before the line of the place and a
caret below its column.
-/

namespace HackVM

/-- How many lines are shown on either side of the marked one. -/
def excerptMargin : Nat := 2

/-- One line of an excerpt, the caret line included after the marked one. Columns count from one; a
column that is smaller puts the caret below the first character. The column and the width of the
caret line are taken to fit into a machine word, as they do for a text in memory: the least word
has no column before it. -/
def excerptRow (width line : Nat) (column : Int) (number : Nat) (text : Text) : Text :=
  let row := Text.padNat width number ++ utf8 " | " ++ text ++ utf8 "\n"
  if number = line then
    utf8 "> " ++ row ++ List.replicate (2 + width + 3 + (column - 1).toNat) 32 ++ utf8 "^\n"
  else utf8 "  " ++ row

/-- The lines of a source around a line and column, or nothing if there is no such line. -/
def excerpt (source : Text) (line column : Int) : Text :=
  let lines := source.splitOn Text.lineFeed
  if source = [] ∨ line ≤ 0 ∨ (lines.length : Int) < line then []
  else
    let n := line.toNat
    let first := n - excerptMargin - 1
    let last := min (n + excerptMargin) lines.length
    let width := (Text.ofNat last).length
    (((lines.take last).drop first).zipIdx (first + 1)).flatMap fun (text, number) =>
      excerptRow width n column number text

end HackVM
