import HackVM.Text.Rune

/-!
# White space

The characters that separate words, and the removal of white space from a text. A byte that is
part of no character is never white space.
-/

namespace HackVM

/-- The code points with the White_Space property. -/
def isBlankCode (n : Nat) : Bool :=
  (0x9 ≤ n && n ≤ 0xD) || n == 0x20 || n == 0x85 || n == 0xA0 || n == 0x1680 ||
    (0x2000 ≤ n && n ≤ 0x200A) || n == 0x2028 || n == 0x2029 || n == 0x202F || n == 0x205F ||
    n == 0x3000

/-- Is the rune a white space character? -/
def Rune.isBlank : Rune → Bool
  | .scalar c => isBlankCode c.toNat
  | .stray _ => false

namespace Text

/-- The text without the white space at its two ends. -/
def trim (t : Text) : Text :=
  ofRunes ((t.runes.dropWhile Rune.isBlank).reverse.dropWhile Rune.isBlank).reverse

/-- The text without any white space. -/
def squeeze (t : Text) : Text := ofRunes (t.runes.filter fun r => !r.isBlank)

end Text

end HackVM
