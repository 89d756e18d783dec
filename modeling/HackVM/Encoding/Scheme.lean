import HackVM.Encoding.JisX0208
import HackVM.Encoding.SingleByte
import HackVM.Text.Rune

/-!
# Decoding schemes

How bytes become characters. Most schemes are given by a `Reader`, which looks at the next byte and
those after it and yields one character and the number of further bytes that belong to it; `decode`
repeats it to the end of the data. Bytes that make no sense become replacement characters.
-/

namespace HackVM

/-- The replacement character. -/
def replacementChar : Char := '�'

/-- The character at the first byte of some data and the number of bytes after the first that
belong to it. -/
abbrev Reader := UInt8 → Text → Char × Nat

/-- Decodes data whose first `skip` bytes belong to the character before. -/
def Reader.decodeAfter (next : Reader) : Nat → Text → List Char
  | _, [] => []
  | skip + 1, _ :: t => decodeAfter next skip t
  | 0, b :: t => (next b t).1 :: decodeAfter next (next b t).2 t

/-- Decodes data from the start. -/
def Reader.decode (next : Reader) (data : Text) : List Char := next.decodeAfter 0 data

/-- Does the byte have a place among the bytes after the first of a UTF-8 character? -/
def isContinuation (b : UInt8) : Bool := 0x80 ≤ b && b ≤ 0xBF

/-- The bytes that may follow a first byte of two or more in UTF-8, if it is one. -/
def secondByteRange? (b : UInt8) : Option (UInt8 × UInt8) :=
  if b < 0xC2 ∨ 0xF4 < b then none
  else if b = 0xE0 then some (0xA0, 0xBF)
  else if b = 0xED then some (0x80, 0x9F)
  else if b = 0xF0 then some (0x90, 0xBF)
  else if b = 0xF4 then some (0x80, 0x8F)
  else some (0x80, 0xBF)

/-- The number of bytes after the first that still belong to a character which breaks off: as far
as the bytes could begin a character. -/
def brokenTail (b : UInt8) : Text → Nat
  | [] => 0
  | c :: t =>
    match secondByteRange? b with
    | none => 0
    | some (lo, hi) =>
      if c < lo ∨ hi < c then 0
      else if 0xE0 ≤ b ∧ t.head?.any isContinuation then 2 else 1

/-- UTF-8; a part that could begin a character but breaks off is one replacement character. -/
def readUtf8 : Reader := fun b t =>
  match Text.leadChar? (b :: t) with
  | some c => (c, c.utf8Size - 1)
  | none => (replacementChar, brokenTail b t)

/-- The order of the two bytes of a UTF-16 unit. -/
inductive ByteOrder
  | little
  | big
  deriving DecidableEq, Repr

/-- The unit made of two bytes. -/
def ByteOrder.unit (o : ByteOrder) (a b : UInt8) : Nat :=
  match o with
  | .little => a.toNat + 256 * b.toNat
  | .big => 256 * a.toNat + b.toNat

/-- Is the unit half of a surrogate pair? -/
def isSurrogate (u : Nat) : Bool := 0xD800 ≤ u && u < 0xE000

/-- Is the unit the second half of a surrogate pair? -/
def isTrailSurrogate (u : Nat) : Bool := 0xDC00 ≤ u && u < 0xE000

/-- The character of a surrogate and the second half of a pair right after it; two second halves
make no character. -/
def pairChar (u v : Nat) : Char :=
  if isTrailSurrogate u then replacementChar
  else Char.ofNat (0x10000 + (u - 0xD800) * 0x400 + (v - 0xDC00))

/-- UTF-16. A surrogate takes the second half of a pair that comes right after it along, whether or
not they make a character; any other surrogate and an odd last byte are replacement characters. -/
def readUtf16 (o : ByteOrder) : Reader := fun a t =>
  match t with
  | [] => (replacementChar, 0)
  | b :: t =>
    let u := o.unit a b
    if !isSurrogate u then (Char.ofNat u, 1)
    else
      match t with
      | c :: d :: _ =>
        let v := o.unit c d
        if isTrailSurrogate v then (pairChar u v, 3) else (replacementChar, 1)
      | _ => (replacementChar, 1)

/-- The character of an ASCII byte. -/
def asciiChar (b : UInt8) : Char := Char.ofNat b.toNat

/-- ASCII, with a map for the bytes above it. -/
def readBytes (upper? : UInt8 → Option Char) : Reader := fun b _ =>
  if b < 0x80 then (asciiChar b, 0) else ((upper? b).getD replacementChar, 0)

/-- The half-width katakana that follow each other from byte `A1` on. -/
def halfKatakana (b : UInt8) : Char := Char.ofNat (0xFF61 + (b.toNat - 0xA1))

/-- A character of the double-byte set, or the replacement character. -/
def jisChar (row cell : Nat) : Char := (JisX0208.char? row cell).getD replacementChar

/-- Shift JIS: two rows of the double-byte set share a first byte. A second byte that is ASCII where
it cannot be one is read again on its own. -/
def readShiftJis : Reader := fun b t =>
  if b ≤ 0x80 then (asciiChar b, 0)
  else if 0xA1 ≤ b ∧ b ≤ 0xDF then (halfKatakana b, 0)
  else if b = 0xA0 ∨ 0xFD ≤ b then (replacementChar, 0)
  else
    let row := 2 * (if b ≤ 0x9F then b.toNat - 0x81 else b.toNat - 0xC1)
    match t with
    | [] => (replacementChar, 0)
    | c :: _ =>
      if c < 0x40 ∨ c = 0x7F then (replacementChar, 0)
      else if c < 0x7F then (jisChar row (c.toNat - 0x40), 1)
      else if c < 0x9F then (jisChar row (c.toNat - 0x41), 1)
      else if c < 0xFD then (jisChar (row + 1) (c.toNat - 0x9F), 1)
      else (replacementChar, 1)

/-- Is the byte part of a double-byte character of EUC-JP? -/
def isEucByte (b : UInt8) : Bool := 0xA1 ≤ b && b ≤ 0xFE

/-- EUC-JP: `8E` introduces half-width katakana, `8F` a set that is not covered here. -/
def readEucJp : Reader := fun b t =>
  if b < 0x80 then (asciiChar b, 0)
  else if b = 0x8E then
    match t with
    | [] => (replacementChar, 0)
    | c :: _ =>
      if c < 0xA1 ∨ c = 0xFF then (replacementChar, 0)
      else if 0xDF < c then (replacementChar, 1)
      else (halfKatakana c, 1)
  else if b = 0x8F then
    match t with
    | [] => (replacementChar, 0)
    | [c] => (replacementChar, if 0xA1 ≤ c ∧ c < 0xFE then 1 else 0)
    | c :: d :: _ =>
      if !isEucByte c then (replacementChar, 0)
      else if !isEucByte d then (replacementChar, 1)
      else (replacementChar, 2)
  else if isEucByte b then
    match t with
    | [] => (replacementChar, 0)
    | c :: _ =>
      if isEucByte c then (jisChar (b.toNat - 0xA1) (c.toNat - 0xA1), 1) else (replacementChar, 0)
  else (replacementChar, 0)

/-- The character sets that ISO-2022-JP switches between. -/
inductive ShiftState
  | ascii
  | katakana
  | double
  /-- A double-byte set that is not covered here. -/
  | supplement
  deriving DecidableEq, Repr

/-- The state that an escape sequence selects and the number of bytes after the escape. -/
def escape? : Text → Option (ShiftState × Nat)
  | 0x24 :: 0x40 :: _ | 0x24 :: 0x42 :: _ => some (.double, 2)
  | 0x24 :: 0x28 :: 0x44 :: _ => some (.supplement, 3)
  | 0x28 :: 0x42 :: _ | 0x28 :: 0x4A :: _ => some (.ascii, 2)
  | 0x28 :: 0x49 :: _ => some (.katakana, 2)
  | _ => none

/-- Does a line feed end the state? The double-byte sets last to the end of the line at most. -/
def ShiftState.endsWithLine : ShiftState → Bool
  | double | supplement => true
  | ascii | katakana => false

/-- A character of ISO-2022-JP in a given state. The double-byte set is one sequence of cells, so a
second byte outside of a row counts on into the rows after it. -/
def readShifted (s : ShiftState) : Reader := fun b t =>
  if 0x80 ≤ b then (replacementChar, 0)
  else match s with
    | .ascii => (asciiChar b, 0)
    | .katakana =>
      if b < 0x21 ∨ 0x60 ≤ b then (replacementChar, 0)
      else (Char.ofNat (0xFF61 + (b.toNat - 0x21)), 0)
    | .double =>
      match t with
      | [] => (replacementChar, 0)
      | c :: _ =>
        if b < 0x21 then (replacementChar, 1)
        else
          let cell := 94 * (b.toNat - 0x21) + (c - 0x21).toNat
          (jisChar (cell / 94) (cell % 94), 1)
    | .supplement => (replacementChar, if t = [] then 0 else 1)

/-- Decodes ISO-2022-JP, the first `skip` bytes belonging to what came before. -/
def decodeIso2022Jp : ShiftState → Nat → Text → List Char
  | _, _, [] => []
  | s, skip + 1, _ :: t => decodeIso2022Jp s skip t
  | s, 0, b :: t =>
    if b = 0x1B then
      match escape? t with
      | some (s', extra) => decodeIso2022Jp s' extra t
      | none => replacementChar :: decodeIso2022Jp s 0 t
    else if b = Text.lineFeed ∧ s.endsWithLine then asciiChar b :: decodeIso2022Jp .ascii 0 t
    else
      (readShifted s b t).1 :: decodeIso2022Jp s (readShifted s b t).2 t

/-- The ways to decode data. -/
inductive Scheme
  | utf8
  | utf16 (order : ByteOrder)
  /-- One byte a character, with the upper half given as a string. -/
  | singleByte (upper : String)
  /-- ASCII, the bytes above it having characters of their own in the private use area. -/
  | userDefined
  | shiftJis
  | eucJp
  | iso2022Jp
  /-- Sets of which only ASCII is covered here. -/
  | asciiOnly
  /-- Stands for encodings that are not to be used: any data is one replacement character. -/
  | replacement
  deriving DecidableEq, Repr

/-- The characters of some data. -/
def Scheme.decode : Scheme → Text → List Char
  | utf8, data => Reader.decode readUtf8 data
  | utf16 o, data => Reader.decode (readUtf16 o) data
  | singleByte upper, data => Reader.decode (readBytes (SingleByte.char? upper)) data
  | userDefined, data =>
    Reader.decode (readBytes fun b => some (Char.ofNat (0xF780 + (b.toNat - 0x80)))) data
  | shiftJis, data => Reader.decode readShiftJis data
  | eucJp, data => Reader.decode readEucJp data
  | iso2022Jp, data => decodeIso2022Jp .ascii 0 data
  | asciiOnly, data => Reader.decode (readBytes fun _ => none) data
  | replacement, data => if data = [] then [] else [replacementChar]

end HackVM
