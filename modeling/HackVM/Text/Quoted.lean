import HackVM.Text.Printable

/-!
# Quoted text

A text between double quotes, for messages. Printable characters stand for themselves; quotes and
backslashes have a backslash before them; the control characters that have a letter are written
with it, and everything else by its number in hexadecimal.
-/

namespace HackVM

/-- The hexadecimal digit of a number below sixteen, in lower case. -/
def hexDigit (n : Nat) : UInt8 := if n < 10 then (48 + n).toUInt8 else (87 + n).toUInt8

/-- The last `width` hexadecimal digits of a number. -/
def hexDigits : Nat → Nat → Text
  | 0, _ => []
  | width + 1, n => hexDigits width (n / 16) ++ [hexDigit (n % 16)]

/-- The letter that stands for a control character after a backslash. -/
def controlLetter? : Nat → Option UInt8
  | 7 => some 97
  | 8 => some 98
  | 9 => some 116
  | 10 => some 110
  | 11 => some 118
  | 12 => some 102
  | 13 => some 114
  | _ => none

/-- How a character is written between quotes. -/
def quotedChar (c : Char) : Text :=
  let n := c.toNat
  if c = '"' ∨ c = '\\' then utf8 "\\" ++ String.utf8EncodeChar c
  else if isPrintableCode n then String.utf8EncodeChar c
  else match controlLetter? n with
    | some b => utf8 "\\" ++ [b]
    | none =>
      if n < 0x20 ∨ n = 0x7F then utf8 "\\x" ++ hexDigits 2 n
      else if n < 0x10000 then utf8 "\\u" ++ hexDigits 4 n
      else utf8 "\\U" ++ hexDigits 8 n

/-- How a rune is written between quotes. -/
def Rune.quoted : Rune → Text
  | .scalar c => quotedChar c
  | .stray b => utf8 "\\x" ++ hexDigits 2 b.toNat

/-- The text between double quotes. -/
def Text.quoted (t : Text) : Text := utf8 "\"" ++ t.runes.flatMap Rune.quoted ++ utf8 "\""

end HackVM
