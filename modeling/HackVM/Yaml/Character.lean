import HackVM.Encoding.Scheme
import HackVM.Text.Rune

/-!
# The characters of a document

A document is a list of characters. Those that may not occur in one make it unreadable; the
different ways to end a line are all taken for a line feed, except that the line separator and the
paragraph separator of Unicode stay what they are. A `Gap` is what stands between two visible
characters of a scalar, which may continue in the next line.
-/

namespace HackVM

namespace Yaml

/-- Is the character a space or a tab? -/
def isBlank (c : Char) : Bool := c = ' ' || c = '\t'

/-- Does the character end a line? -/
def isBreak (c : Char) : Bool := c = '\n' || c = '\u2028' || c = '\u2029'

/-- Is the character a blank or the end of a line? -/
def isGap (c : Char) : Bool := isBlank c || isBreak c

/-- Do the characters begin with a gap, or are there none? -/
def startsGap (cs : List Char) : Bool := cs.head?.all isGap

/-- Do the characters begin with a mark that stands at the beginning or at the end of a document? -/
def startsMarker : List Char → Bool
  | '-' :: '-' :: '-' :: cs | '.' :: '.' :: '.' :: cs => startsGap cs
  | _ => false

/-! ## Gaps -/

/-- What has been passed over since the last visible character of a scalar. -/
inductive Gap
  /-- Blanks inside a line. -/
  | blanks (cs : List Char)
  /-- Line ends: the first one, which is missing if it was escaped, and the others. -/
  | breaks (first : Option Char) (more : List Char)
  deriving DecidableEq, Repr

namespace Gap

/-- No gap. -/
def empty : Gap := .blanks []

/-- The gap with one more character. Blanks next to a line end are dropped. -/
def push (c : Char) : Gap → Gap
  | blanks cs => if isBreak c then .breaks (some c) [] else .blanks (cs ++ [c])
  | breaks first more => .breaks first (if isBreak c then more ++ [c] else more)

/-- Does the gap reach over the end of a line? -/
def isBroken : Gap → Bool
  | blanks _ => false
  | breaks _ _ => true

/-- What a gap amounts to in the text of a scalar: one line feed becomes a space, and of several
line ends the first is dropped if it is a line feed. -/
def fold : Gap → List Char
  | blanks cs => cs
  | breaks none more => more
  | breaks (some '\n') [] => [' ']
  | breaks (some '\n') more => more
  | breaks (some c) more => c :: more

end Gap

/-! ## Reading characters -/

/-- May the character occur in a document? -/
def isAllowed (c : Char) : Bool :=
  let n := c.toNat
  n = 9 || n = 10 || n = 13 || (32 ≤ n && n ≤ 126) || n = 0x85 || (0xa0 ≤ n && n ≤ 0xfffd) ||
    0x10000 ≤ n

/-- The characters of well-formed UTF-8. -/
def utf8Chars? (t : Text) : Option (List Char) :=
  t.runes.mapM fun
    | .scalar c => some c
    | .stray _ => none

/-- The characters of well-formed UTF-16. -/
def utf16Chars? (o : ByteOrder) : Text → Option (List Char)
  | [] => some []
  | a :: b :: c :: d :: t =>
    let u := o.unit a b
    let v := o.unit c d
    if isTrailSurrogate u then none
    else if isSurrogate u then
      if isTrailSurrogate v then (utf16Chars? o t).map (pairChar u v :: ·) else none
    else (utf16Chars? o (c :: d :: t)).map (Char.ofNat u :: ·)
  | [a, b] => if isSurrogate (o.unit a b) then none else some [Char.ofNat (o.unit a b)]
  | _ => none

/-- The characters with a line feed at the end of each line. -/
def unifyBreaks : List Char → List Char
  | '\r' :: '\n' :: cs => '\n' :: unifyBreaks cs
  | c :: cs => (if c = '\r' || c = '\u0085' then '\n' else c) :: unifyBreaks cs
  | [] => []

/-- The characters of a document. A byte order mark tells its encoding; without one it is UTF-8. -/
def characters? (t : Text) : Option (List Char) :=
  let cs := match t with
    | 0xEF :: 0xBB :: 0xBF :: t => utf8Chars? t
    | 0xFF :: 0xFE :: t => utf16Chars? .little t
    | 0xFE :: 0xFF :: t => utf16Chars? .big t
    | t => utf8Chars? t
  (cs.filter fun cs => cs.all isAllowed).map unifyBreaks

end Yaml

end HackVM
