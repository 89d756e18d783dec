import HackVM.Text.Blank
import HackVM.Text.Decimal
import HackVM.Text.Quoted

/-!
# Comments

A line comment runs from `//` to the end of the line, a block comment from `/*` to `*/`, possibly
over several lines. `strip` takes the comments out of one line, given whether the line begins
inside a block comment, and tells whether the next one does; a line with a surplus block mark is
refused. A `SourceReader` strips all lines of a source and keeps those on which something is left,
with the place where it stands; it reads one source after the other.
-/

namespace HackVM

/-- The marks of a block comment. -/
inductive BlockMark
  | opening
  | closing
  deriving DecidableEq, Repr

/-- The two characters of a mark. -/
def BlockMark.text : BlockMark → Text
  | opening => utf8 "/*"
  | closing => utf8 "*/"

/-- The mark that starts a line comment. -/
def lineMark : Text := utf8 "//"

/-- More than one mark of a kind where one is allowed. -/
structure SurplusMark where
  mark : BlockMark
  count : Nat
  deriving DecidableEq, Repr

/-- Drops a line comment, unless a block comment opens before it. -/
def dropLineComment (s : Text) : Text :=
  match Text.cut? lineMark s with
  | none => s
  | some (before, _) => if Text.occurs BlockMark.opening.text before then s else before

/-- Strips a line that begins outside block comments: what is left of it, and whether it ends
inside a block comment. A block comment leaves a space between what stands on its two sides. -/
def stripCode (s : Text) : Bool × Except SurplusMark Text :=
  let code := dropLineComment s
  let opens := Text.occurrences BlockMark.opening.text code
  if 1 < opens then (false, .error ⟨.opening, opens⟩)
  else match Text.cut? BlockMark.opening.text code with
    | none => (false, .ok code.trim)
    | some (before, rest) =>
      let closes := Text.occurrences BlockMark.closing.text rest
      if 1 < closes then (false, .error ⟨.closing, closes⟩)
      else match Text.cut? BlockMark.closing.text rest with
        | none => (true, .ok before.trim)
        | some (_, after) =>
          (false, .ok (Text.trim (before.trim ++ utf8 " " ++ (dropLineComment after).trim)))

/-- Strips a line, given whether it begins inside a block comment. -/
def strip (inBlock : Bool) (s : Text) : Bool × Except SurplusMark Text :=
  if inBlock then
    let closes := Text.occurrences BlockMark.closing.text s
    if 1 < closes then (true, .error ⟨.closing, closes⟩)
    else match Text.cut? BlockMark.closing.text s with
      | none => (true, .ok [])
      | some (_, rest) => stripCode rest
  else stripCode s

/-- A line of source on which a command is left. -/
structure CommandLine where
  /-- The number of the line, counted from one. -/
  number : Int
  /-- The column at which the text begins, counted from one. -/
  column : Nat
  /-- What is left of the line: no comments, no white space at the ends. -/
  text : Text
  deriving DecidableEq, Repr

/-- A line with a surplus block mark. -/
structure BadComment where
  line : Nat
  column : Nat
  surplus : SurplusMark
  deriving DecidableEq, Repr

/-- What is wrong with the line. -/
def BadComment.text (e : BadComment) : Text :=
  utf8 "found " ++ Text.ofNat e.surplus.count ++ utf8 " " ++ e.surplus.mark.text.quoted ++
    utf8 " markers on one line"

/-- The message of a comment error. -/
def BadComment.message (e : BadComment) : Text :=
  utf8 "line " ++ Text.ofNat e.line ++ utf8 ": " ++ e.text

/-- Why a source has no commands to work on. -/
inductive SourceError
  | comment (e : BadComment)
  | empty
  deriving DecidableEq, Repr

/-- What is wrong with the source. -/
def SourceError.text : SourceError → Text
  | comment e => e.text
  | empty => utf8 "no readable lines"

/-- The message of a source error. -/
def SourceError.message : SourceError → Text
  | comment e => e.message
  | empty => utf8 "no readable lines"

namespace CommandLine

/-- The column at which the stripped text begins in the raw line. Where the raw line does not
contain it, because a comment was taken out of its middle, this is the column of the first byte
that is neither a space nor a tab. -/
def startColumn (raw text : Text) : Nat :=
  match Text.position? text raw with
  | some i => raw.columnAt i
  | none => raw.columnAt (raw.takeWhile fun b => b = 32 || b = 9).length

/-- Reads raw lines numbered from `number` on, the first of which begins inside a block comment or
not: the command lines, and whether the source ends inside a block comment. -/
def readFrom (number : Nat) (inBlock : Bool) :
    List Text → Bool × Except BadComment (List CommandLine)
  | [] => (inBlock, .ok [])
  | raw :: rest =>
    match strip inBlock raw with
    | (b, .error s) =>
      (b, .error ⟨number, raw.columnAt ((Text.lastPosition? s.mark.text raw).getD 0), s⟩)
    | (b, .ok text) =>
      match readFrom (number + 1) b rest with
      | (b', .error e) => (b', .error e)
      | (b', .ok lines) =>
        (b', .ok (if text = [] then lines else ⟨number, startColumn raw text, text⟩ :: lines))

end CommandLine

/-- A reader of sources. It remembers whether the last source ended, or stopped being read, inside
a block comment. -/
structure SourceReader where
  inBlock : Bool := false
  deriving DecidableEq, Repr

namespace SourceReader

/-- The reader at the beginning of a source, which lies outside block comments. -/
def reset (r : SourceReader) : SourceReader := { r with inBlock := false }

/-- Reads the raw lines of the next source. A source needs at least one command line. -/
def read (r : SourceReader) (raw : List Text) :
    SourceReader × Except SourceError (List CommandLine) :=
  match CommandLine.readFrom 1 r.reset.inBlock raw with
  | (b, .error e) => ({ r with inBlock := b }, .error (.comment e))
  | (b, .ok []) => ({ r with inBlock := b }, .error .empty)
  | (b, .ok lines) => ({ r with inBlock := b }, .ok lines)

end SourceReader

/-- The outcome of reading a source. -/
structure CommandLine.Reading where
  lines : Except SourceError (List CommandLine)
  /-- Does the source end, or stop being read, inside a block comment? -/
  unterminated : Bool
  deriving Repr

/-- Reads the raw lines of a source with a new reader. -/
def CommandLine.read (raw : List Text) : CommandLine.Reading :=
  let (r, lines) := SourceReader.read {} raw
  ⟨lines, r.inBlock⟩

end HackVM
