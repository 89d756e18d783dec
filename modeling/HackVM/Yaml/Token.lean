import HackVM.Yaml.Written

/-!
# Tokens of a document

A document is a sequence of tokens: scalars, the marks between them, and the places where a block
list or map begins or ends, which its indentation shows. What stands before a colon is a key; this
is only known at the colon, so a `Lexer` remembers the token that may become one and puts a `key`
token before it later. Until then the token is held back; tokens that cannot become keys are handed
on when the two after them are read. `tokens` gives the tokens of a document as far as they can be
read.
-/

namespace HackVM

namespace Yaml

/-- A token of a document. -/
inductive Token
  | documentStart
  | documentEnd
  /-- The end of all documents. -/
  | finish
  | blockList
  | blockMap
  /-- The end of a block list or map. -/
  | blockEnd
  | openList
  | closeList
  | openMap
  | closeMap
  /-- The dash before an item of a list. -/
  | dash
  | comma
  /-- The next token begins a key. -/
  | key
  /-- The colon between a key and its value. -/
  | colon
  | scalar (s : Scalar)
  deriving DecidableEq, Repr

/-! ## Places -/

/-- A place in a document and the characters from there on. -/
structure Cursor where
  rest : List Char
  /-- The number of characters before it. -/
  index : Nat := 0
  line : Nat := 0
  column : Nat := 0
  /-- Has no visible character been passed since the last end of a line? -/
  atFreshLine : Bool := false

namespace Cursor

/-- The place after some more characters. -/
def advance (c : Cursor) : Nat → Cursor
  | 0 => c
  | n + 1 =>
    match c.rest with
    | [] => c
    | x :: rest =>
      let next : Cursor := if isBreak x then ⟨rest, c.index + 1, c.line + 1, 0, true⟩
        else ⟨rest, c.index + 1, c.line, c.column + 1, c.atFreshLine && isBlank x⟩
      next.advance n

/-- The place at which the given characters are left. -/
def moveTo (c : Cursor) (rest : List Char) : Cursor := c.advance (c.rest.length - rest.length)

end Cursor

/-- A token that may turn out to begin a key. -/
structure Candidate where
  /-- The number of tokens before it. -/
  number : Nat
  /-- Must it begin a key, because it stands where the keys of a block map stand? -/
  required : Bool
  index : Nat
  line : Nat
  column : Nat
  /-- Is it held back until it is known whether it begins a key? -/
  held : Bool := true

/-- The largest number of characters between the beginning of a key and its colon. -/
def longestKey : Nat := 1024

/-- Can the candidate still become a key? The colon must stand on its line, and not too far away. -/
def Candidate.isOpen (k : Candidate) (c : Cursor) : Bool :=
  k.line = c.line && c.index ≤ k.index + longestKey

/-- The largest number of lists and maps inside each other, in brackets and in blocks each. -/
def deepestNesting : Nat := 10000

/-! ## Reading tokens -/

/-- How far the tokens of a document have been read. -/
structure Lexer where
  cursor : Cursor
  /-- The tokens so far, the last one first. -/
  found : List Token := []
  /-- The columns of the open block lists and maps, the innermost first. -/
  indents : List Nat := []
  /-- The number of tokens that have been handed on, before which no token can be put any more. -/
  settled : Nat := 0
  /-- The token that may begin a key here. -/
  candidate : Option Candidate := none
  /-- The number of the last token inside the innermost brackets that was a candidate, or of the
  opening bracket if there was none. -/
  latest : Nat := 0
  /-- The candidates and latest numbers around each of the open brackets, the innermost first. -/
  outer : List (Option Candidate × Nat) := []
  /-- May the next token begin a key? -/
  keyAllowed : Bool := true

namespace Lexer

/-- Is the lexer inside brackets? -/
def inFlow (l : Lexer) : Bool := !l.outer.isEmpty

/-- Are too many lists and maps open? -/
def isTooDeep (l : Lexer) : Bool :=
  deepestNesting < l.outer.length || deepestNesting < l.indents.length

/-- The first column that belongs to what is inside the innermost block list or map. -/
def leastColumn (l : Lexer) : Nat := (l.indents.head?.map (· + 1)).getD 0

/-- The lexer with one more token. -/
def push (l : Lexer) (t : Token) : Lexer := { l with found := t :: l.found }

/-- The lexer with a token put before those from the given number on, or at the end if they have
been handed on. -/
def insert (l : Lexer) (number : Nat) (t : Token) : Lexer :=
  let after := if number < l.settled then 0 else l.found.length - number
  { l with found := l.found.take after ++ t :: l.found.drop after }

/-- The lexer some characters further on. -/
def advance (l : Lexer) (n : Nat) : Lexer := { l with cursor := l.cursor.advance n }

/-- The lexer where the given characters are left. -/
def moveTo (l : Lexer) (rest : List Char) : Lexer := { l with cursor := l.cursor.moveTo rest }

/-- Ends the block lists and maps to the right of a column; all of them, if there is none. -/
def unroll (l : Lexer) (column : Option Nat) : Lexer :=
  if l.inFlow then l
  else
    let ended := l.indents.takeWhile fun i => column.all (· < i)
    { l with
      indents := l.indents.drop ended.length
      found := ended.map (fun _ => .blockEnd) ++ l.found }

/-- Begins a block list or map at a column to the right of those that are open, with a token put
before those from the given number on. -/
def roll (l : Lexer) (column number : Nat) (t : Token) : Lexer :=
  if l.inFlow || l.indents.head?.any (column ≤ ·) then l
  else { l.insert number t with indents := column :: l.indents }

/-- Gives the candidate up; a required one must become a key. -/
def dropCandidate (l : Lexer) : Option Lexer :=
  if l.candidate.any (·.required) then none else some { l with candidate := none }

/-- Makes the next token a candidate if it may begin a key. -/
def saveCandidate (l : Lexer) : Option Lexer :=
  if l.keyAllowed then
    l.dropCandidate.map fun l => { l with
      latest := l.found.length
      candidate := some {
        number := l.found.length
        required := !l.inFlow && l.indents.head? = some l.cursor.column
        index := l.cursor.index
        line := l.cursor.line
        column := l.cursor.column } }
  else some l

/-- Where the reader of a gap between tokens is. -/
inductive GapState
  | outside
  | comment
  /-- Between two comments. -/
  | between

/-- Are the next visible characters a comment? -/
def leadsToComment (cs : List Char) : Bool :=
  (cs.dropWhile fun c => isBlank c || c = '\n').head? = some '#'

/-- Passes over blanks, comments and line ends, and says whether a key may come after them: outside
brackets a new line allows it. Where it may, tabs are no blanks, except between two comments. A byte
order mark may begin a line. -/
def skipGap (inFlow : Bool) (state : GapState) (keyAllowed lineStart : Bool) :
    List Char → List Char × Bool
  | [] => ([], keyAllowed)
  | c :: cs =>
    match state with
    | .outside =>
      if c = ' ' || (c = '\t' && (inFlow || !keyAllowed)) || (c = '\ufeff' && lineStart) then
        skipGap inFlow .outside keyAllowed false cs
      else if c = '#' then skipGap inFlow .comment keyAllowed false cs
      else if isBreak c then skipGap inFlow .outside (keyAllowed || !inFlow) true cs
      else (c :: cs, keyAllowed)
    | .comment =>
      if !isBreak c then skipGap inFlow .comment keyAllowed false cs
      else if c = '\n' && leadsToComment cs then skipGap inFlow .between keyAllowed true cs
      else skipGap inFlow .outside (keyAllowed || !inFlow) true cs
    | .between =>
      if c = '#' then skipGap inFlow .comment keyAllowed false cs
      else skipGap inFlow .between keyAllowed false cs

/-- The lexer at the next token. -/
def toToken (l : Lexer) : Lexer :=
  let (rest, keyAllowed) :=
    skipGap l.inFlow .outside l.keyAllowed (l.cursor.column = 0) l.cursor.rest
  let l := { l.moveTo rest with keyAllowed }
  l.unroll (some l.cursor.column)

/-- Passes over a comment on the line of the token before. -/
def skipComment (l : Lexer) : Lexer :=
  match l.cursor.rest.dropWhile isBlank with
  | '#' :: cs => if l.cursor.atFreshLine then l else l.moveTo (cs.dropWhile fun c => !isBreak c)
  | _ => l

/-- Reads the end of all documents. -/
def finish (l : Lexer) : Option Lexer :=
  (l.unroll none).dropCandidate.map fun l => { l.push .finish with keyAllowed := false }

/-- Reads a mark at the beginning or at the end of a document. -/
def marker (l : Lexer) (t : Token) : Option Lexer :=
  (l.unroll none).dropCandidate.map fun l =>
    { (l.advance 3).push t with keyAllowed := false }

/-- Reads an opening bracket, which may begin a key and may be followed by one. -/
def openBracket (l : Lexer) (t : Token) : Option Lexer :=
  l.saveCandidate.map fun l =>
    { (l.advance 1).push t with
      candidate := none
      latest := l.found.length
      outer := (l.candidate, l.latest) :: l.outer
      keyAllowed := true }

/-- Reads a closing bracket. If nothing between the brackets was a candidate, the opening one is
held back no longer. -/
def closeBracket (l : Lexer) (t : Token) : Option Lexer :=
  l.dropCandidate.map fun l =>
    let l := match l.outer with
      | [] => l
      | (candidate, latest) :: outer =>
        let release := fun k : Candidate => { k with held := k.held && k.number ≠ l.latest }
        { l with candidate := candidate.map release, latest, outer }
    { (l.advance 1).push t with keyAllowed := false }

/-- Reads a comma. -/
def comma (l : Lexer) : Option Lexer :=
  l.dropCandidate.map fun l => { (l.advance 1).push .comma with keyAllowed := true }

/-- Reads a dash, which must stand where a key could. In brackets there is no place for it, but this
shows later. -/
def dash (l : Lexer) : Option Lexer :=
  if !l.inFlow && !l.keyAllowed then none
  else
    (l.roll l.cursor.column l.found.length .blockList).dropCandidate.map fun l =>
      { (l.advance 1).push .dash with keyAllowed := true }

/-- Reads a question mark, which begins a key. -/
def questionMark (l : Lexer) : Option Lexer :=
  if !l.inFlow && !l.keyAllowed then none
  else
    (l.roll l.cursor.column l.found.length .blockMap).dropCandidate.map fun l =>
      { (l.advance 1).push .key with keyAllowed := !l.inFlow }

/-- Reads a colon: the candidate becomes a key, or else a key came before in another way. -/
def colon (l : Lexer) : Option Lexer :=
  let past (l : Lexer) (keyAllowed : Bool) : Lexer :=
    { (l.advance 1).push .colon with candidate := none, keyAllowed }
  match l.candidate.filter (·.isOpen l.cursor) with
  | some k => some (past ((l.insert k.number .key).roll k.column k.number .blockMap) false)
  | none =>
    if l.candidate.any (·.required) || (!l.inFlow && !l.keyAllowed) then none
    else some (past (l.roll l.cursor.column l.found.length .blockMap) (!l.inFlow))

/-- Takes a scalar that was read, which may begin a key. -/
def scalar (l : Lexer) (s : Scalar) (rest : List Char) (keyAllowed : Bool) : Option Lexer :=
  l.saveCandidate.map fun l => { (l.moveTo rest).push (.scalar s) with keyAllowed }

/-- Reads a quoted scalar. -/
def quoted (l : Lexer) (found : Option (Text × List Char)) : Option Lexer :=
  found.bind fun (t, rest) => l.scalar ⟨t, true⟩ rest false

/-- Reads a bare scalar. -/
def bare (l : Lexer) : Option Lexer :=
  (bareScalar l.inFlow l.leastColumn [] .empty l.cursor.column l.cursor.rest).bind fun b =>
    l.scalar (.bare b.text) b.rest b.endsLine

/-- Reads a block, after which a key may come. -/
def block (l : Lexer) (folded : Bool) (cs : List Char) : Option Lexer :=
  (blockScalar folded l.leastColumn cs).bind fun (t, rest) =>
    l.dropCandidate.map fun l =>
      { (l.moveTo rest).push (.scalar ⟨t, true⟩) with keyAllowed := true }

/-- Reads the token that the lexer stands at and that is not a mark of a document. -/
def token (l : Lexer) (c : Char) (cs : List Char) : Option Lexer :=
  if c = '[' then l.openBracket .openList
  else if c = '\x7b' then l.openBracket .openMap
  else if c = ']' then l.closeBracket .closeList
  else if c = '\x7d' then l.closeBracket .closeMap
  else if c = ',' then l.comma
  else if c = '-' && startsGap cs then l.dash
  else if c = '?' && (l.inFlow || startsGap cs) then l.questionMark
  else if c = ':' && (l.inFlow || startsGap cs) then l.colon
  else if c = '|' && !l.inFlow then l.block false cs
  else if c = '>' && !l.inFlow then l.block true cs
  else if c = '\x27' then l.quoted (singleQuoted [] .empty false cs)
  else if c = '\x22' then l.quoted (doubleQuoted .outside [] .empty false cs)
  else if startsBare l.inFlow (c :: cs) then l.bare
  else none

/-- Reads the next token. A comment on its line is passed over, except after a dash. -/
def next (l : Lexer) : Option Lexer :=
  let l := l.toToken
  match l.cursor.rest with
  | [] => l.finish
  | c :: cs =>
    if l.cursor.column = 0 && startsMarker (c :: cs) then
      l.marker (if c = '-' then .documentStart else .documentEnd)
    else
      ((l.token c cs).filter (!·.isTooDeep)).map fun l =>
        if l.found.head? = some .dash then l else l.skipComment

/-- Hands tokens on: all but the last two, up to the first one that is held back because it can
still become a key. -/
def settle (l : Lexer) : Lexer :=
  let isWaiting := fun k : Candidate => k.held && l.settled ≤ k.number && k.isOpen l.cursor
  let waiting := ((l.candidate :: l.outer.map (·.1)).filterMap fun k => k.filter isWaiting)
  { l with settled := max l.settled ((waiting.map (·.number)).foldl min (l.found.length - 2)) }

/-- Reads tokens to the end, or up to one that cannot be read, and says whether it is the end. Each
token but the last takes a character at least, which bounds the number of steps. -/
def run : Nat → Lexer → Lexer × Bool
  | 0, l => (l, false)
  | steps + 1, l =>
    match l.settle.next with
    | none => (l.settle, false)
    | some l => if l.found.head? = some .finish then (l, true) else run steps l

end Lexer

/-- The tokens of a document, as far as they can be read. -/
def tokens (cs : List Char) : List Token :=
  match Lexer.run (cs.length + 1) { cursor := { rest := cs } } with
  | (l, true) => l.found.reverse
  | (l, false) => l.found.reverse.take l.settled

end Yaml

end HackVM
