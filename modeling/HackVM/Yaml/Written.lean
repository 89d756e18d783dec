import HackVM.Yaml.Character
import HackVM.Yaml.Scalar

/-!
# Written scalars

A scalar is written in single quotes, in double quotes with escapes, bare, or as a block of lines.
The readers take the characters from the scalar on and return its text and the characters after it.
A quoted or bare scalar may take several lines; the gaps in it are folded. In a block, the lines
keep their ends.
-/

namespace HackVM

namespace Yaml

/-- The text of characters that were collected in reverse. -/
def textOf (reversed : List Char) : Text := utf8 (String.ofList reversed.reverse)

/-- Puts a gap and a character after it on characters that are collected in reverse. -/
def collect (reversed : List Char) (gap : Gap) (c : Char) : List Char :=
  c :: (gap.fold.reverse ++ reversed)

/-! ## Quotes -/

/-- Reads a single-quoted scalar after its first quote. A quote in it is written twice. At the start
of a line there must not be a mark of the document. -/
def singleQuoted (found : List Char) (gap : Gap) (lineStart : Bool) :
    List Char → Option (Text × List Char)
  | [] => none
  | '\x27' :: '\x27' :: cs => singleQuoted (collect found gap '\x27') .empty false cs
  | c :: cs =>
    if c = '\x27' then some (textOf (gap.fold.reverse ++ found), cs)
    else if isGap c then singleQuoted found (gap.push c) (isBreak c) cs
    else if lineStart && startsMarker (c :: cs) then none
    else singleQuoted (collect found gap c) .empty false cs

/-- Where the reader of a double-quoted scalar is. -/
inductive Escape
  /-- Not in an escape. -/
  | outside
  /-- After a backslash. -/
  | mark
  /-- In a character number with some digits to come, and its value so far. -/
  | digits (left value : Nat)

/-- The escapes of one letter. -/
def escapes : List (Char × Nat) :=
  [('0', 0), ('a', 7), ('b', 8), ('t', 9), ('\t', 9), ('n', 10), ('v', 11), ('f', 12), ('r', 13),
    ('e', 27), (' ', 32), ('\x22', 34), ('\x27', 39), ('\x5c', 92), ('N', 0x85), ('_', 0xA0),
    ('L', 0x2028), ('P', 0x2029)]

/-- The number of hexadecimal digits after the letters that begin a character number. -/
def digitCount? (c : Char) : Option Nat :=
  if c = 'x' then some 2 else if c = 'u' then some 4 else if c = 'U' then some 8 else none

/-- The value of a hexadecimal digit. -/
def hexDigit? (c : Char) : Option Nat :=
  if c.toNat < 128 then digitValue? c.toNat.toUInt8 else none

/-- Reads a double-quoted scalar after its first quote. A line end after a backslash is left out
together with the blanks that follow. -/
def doubleQuoted (state : Escape) (found : List Char) (gap : Gap) (lineStart : Bool) :
    List Char → Option (Text × List Char)
  | [] => none
  | c :: cs =>
    match state with
    | .outside =>
      if c = '\x22' then some (textOf (gap.fold.reverse ++ found), cs)
      else if c = '\x5c' then doubleQuoted .mark (gap.fold.reverse ++ found) .empty false cs
      else if isGap c then doubleQuoted .outside found (gap.push c) (isBreak c) cs
      else if lineStart && startsMarker (c :: cs) then none
      else doubleQuoted .outside (collect found gap c) .empty false cs
    | .mark =>
      if isBreak c then doubleQuoted .outside found (.breaks none []) true cs
      else
        match escapes.lookup c with
        | some n => doubleQuoted .outside (Char.ofNat n :: found) .empty false cs
        | none =>
          match digitCount? c with
          | some n => doubleQuoted (.digits n 0) found .empty false cs
          | none => none
    | .digits left value =>
      match hexDigit? c with
      | none => none
      | some d =>
        let value := 16 * value + d
        if 1 < left then doubleQuoted (.digits (left - 1) value) found .empty false cs
        else if value.isValidChar then
          doubleQuoted .outside (Char.ofNat value :: found) .empty false cs
        else none

/-! ## Bare scalars -/

/-- Does the character end a bare scalar in brackets? -/
def isFlowMark (c : Char) : Bool := [',', '?', '[', ']', '\x7b', '\x7d'].contains c

/-- A bare scalar that was read. -/
structure BareScalar where
  text : Text
  /-- Did the end of a line come after it? -/
  endsLine : Bool
  rest : List Char

/-- Reads a bare scalar. It ends at a comment, at a colon before a gap, at a mark of the document,
in brackets at a mark of theirs, and outside of them at a line that begins left of column `least`.
A tab must not stand there. The gap after the scalar is passed over, too. -/
def bareScalar (inFlow : Bool) (least : Nat) (found : List Char) (gap : Gap) (column : Nat) :
    List Char → Option BareScalar
  | [] => some ⟨textOf found, gap.isBroken, []⟩
  | c :: cs =>
    if isGap c then
      if c = '\t' && gap.isBroken && column < least then none
      else bareScalar inFlow least found (gap.push c) (if isBreak c then 0 else column + 1) cs
    else if (gap.isBroken && !inFlow && column < least) ||
        (column = 0 && startsMarker (c :: cs)) || (c = '#' && gap ≠ .empty) ||
        (c = ':' && startsGap cs) || (inFlow && isFlowMark c) then
      some ⟨textOf found, gap.isBroken, c :: cs⟩
    else bareScalar inFlow least (collect found gap c) .empty (column + 1) cs

/-- Can a bare scalar begin with the characters? A dash, a question mark or a colon must not stand
alone. -/
def startsBare (inFlow : Bool) : List Char → Bool
  | [] => false
  | c :: cs =>
    if c = '-' then !cs.head?.any isBlank
    else if c = '?' || c = ':' then !inFlow && !startsGap cs
    else !isGap c && !(",[]\x7b\x7d#&*!|>'\"%@\x60".toList.contains c)

/-! ## Blocks -/

/-- A line and the character that ends it; the last line of a document has none. -/
structure Line where
  content : List Char
  ending : Option Char
  deriving DecidableEq, Repr

namespace Line

/-- Splits characters into lines; `reversed` are those of the first line that were passed. -/
def split (reversed : List Char) : List Char → List Line
  | [] => [⟨reversed.reverse, none⟩]
  | c :: cs =>
    if isBreak c then ⟨reversed.reverse, some c⟩ :: split [] cs else split (c :: reversed) cs

/-- The characters of lines. -/
def join (ls : List Line) : List Char := ls.flatMap fun l => l.content ++ l.ending.toList

/-- The number of spaces at the beginning of a line. -/
def indent (l : Line) : Nat := (l.content.takeWhile (· = ' ')).length

end Line

/-- What happens to the line ends after the last line of a block that is not empty. -/
inductive Chomp
  | strip
  | clip
  | keep
  deriving DecidableEq, Repr

/-- How a block is to be read. -/
structure BlockHeader where
  /-- Are its lines folded? -/
  folded : Bool
  chomp : Chomp
  /-- By how much its lines are indented, if that is said. -/
  width : Option Nat

namespace BlockHeader

/-- Splits a mark for the line ends off. -/
def chomp? : List Char → Option (Chomp × List Char)
  | '+' :: cs => some (.keep, cs)
  | '-' :: cs => some (.strip, cs)
  | _ => none

/-- Splits a digit off. -/
def digit? : List Char → Option (Nat × List Char)
  | c :: cs => if c.isDigit then some (c.toNat - 48, cs) else none
  | [] => none

/-- Reads the marks of a block, which come in any order, and returns what comes after them. -/
def marks (folded : Bool) (cs : List Char) : BlockHeader × List Char :=
  match chomp? cs with
  | some (chomp, cs) =>
    match digit? cs with
    | some (n, cs) => (⟨folded, chomp, some n⟩, cs)
    | none => (⟨folded, chomp, none⟩, cs)
  | none =>
    match digit? cs with
    | none => (⟨folded, .clip, none⟩, cs)
    | some (n, cs) =>
      match chomp? cs with
      | some (chomp, cs) => (⟨folded, chomp, some n⟩, cs)
      | none => (⟨folded, .clip, some n⟩, cs)

/-- Reads the rest of the line on which a block begins and returns the lines after it. Nothing but a
comment may stand after the marks, and the width must not be zero. -/
def read? (folded : Bool) (cs : List Char) : Option (BlockHeader × List Line) :=
  let (header, cs) := marks folded cs
  let rest := match cs.dropWhile isBlank with
    | '#' :: cs => cs.dropWhile fun c => !isBreak c
    | cs => cs
  if header.width = some 0 || !rest.head?.all isBreak then none
  else some (header, Line.split [] rest.tail)

end BlockHeader

/-- The indentation of a block that does not say it, at least `least`: that of its first line that
is not empty, which must not continue with a tab, or that of the longest empty line before it. -/
def blockIndent? (least : Nat) : List Line → Option Nat
  | [] => some least
  | l :: ls =>
    let least := max least l.indent
    match l.content.drop l.indent with
    | [] => if l.ending.isSome then blockIndent? least ls else some least
    | c :: _ => if c = '\t' then none else some least

/-- The empty lines at the beginning of a block: their ends, and the lines after them. -/
def leadingBreaks : List Line → List Char × List Line
  | [] => ([], [])
  | l :: ls =>
    match l.ending with
    | some b =>
      if l.content.all (· = ' ') then
        let (breaks, rest) := leadingBreaks ls
        (b :: breaks, rest)
      else ([], l :: ls)
    | none => ([], l :: ls)

/-- The part of a block that has been read. -/
structure BlockText where
  /-- Its characters in reverse, without the line ends at its end. -/
  found : List Char := []
  /-- The end of its last line. -/
  ending : List Char := []
  /-- The ends of the empty lines after it. -/
  breaks : List Char := []
  /-- Does its last line begin with a blank? -/
  indented : Bool := false

namespace BlockText

/-- The text with an empty line after it. -/
def addBreak (b : BlockText) (c : Char) : BlockText := { b with breaks := b.breaks ++ [c] }

/-- The text with a line after it. Two lines that are folded become one, unless one of them begins
with a blank. -/
def addLine (b : BlockText) (folded : Bool) (line : List Char) (ending : Option Char) :
    BlockText :=
  let indented := line.head?.any isBlank
  let joint :=
    if folded && !b.indented && !indented && b.ending = ['\n'] then
      if b.breaks = [] then [' '] else []
    else b.ending
  ⟨line.reverse ++ (joint ++ b.breaks).reverse ++ b.found, ending.toList, [], indented⟩

/-- The text of the block. -/
def text (b : BlockText) (chomp : Chomp) : Text :=
  let tail := match chomp with
    | .strip => []
    | .clip => b.ending
    | .keep => b.ending ++ b.breaks
  textOf (tail.reverse ++ b.found)

end BlockText

/-- Reads the lines of a block with an indentation and returns the lines after it. A tab must not
stand in the indentation. -/
def blockLines (folded : Bool) (indent : Nat) (b : BlockText) :
    List Line → Option (BlockText × List Line)
  | [] => some (b, [])
  | l :: ls =>
    let depth := min l.indent indent
    match l.content.drop depth with
    | [] =>
      match l.ending with
      | some c => blockLines folded indent (b.addBreak c) ls
      | none => some (b, l :: ls)
    | c :: cs =>
      if depth < indent then if c = '\t' then none else some (b, l :: ls)
      else blockLines folded indent (b.addLine folded (c :: cs) l.ending) ls

/-- Reads a block after the mark that it begins with. It belongs to something that is indented by
less than `least`. -/
def blockScalar (folded : Bool) (least : Nat) (cs : List Char) : Option (Text × List Char) :=
  match BlockHeader.read? folded cs with
  | none => none
  | some (header, ls) =>
    let indent? := match header.width with
      | some n => some (least - 1 + n)
      | none => blockIndent? (max least 1) ls
    match indent? with
    | none => none
    | some indent =>
      let (breaks, ls) := if header.width.isNone then leadingBreaks ls else ([], ls)
      match blockLines folded indent { breaks } ls with
      | none => none
      | some (b, rest) => some (b.text header.chomp, Line.join rest)

end Yaml

end HackVM
