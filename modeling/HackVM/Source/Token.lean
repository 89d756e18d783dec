import HackVM.Text.Basic
import HackVM.Text.Decimal

/-!
# Tokens

A token is a word of a line with the column at which it begins. A reader of a line finds tokens one
after the other, and then the end of the line.
-/

namespace HackVM

/-- A word of a line and the column at which it begins. -/
structure Token where
  literal : Text
  column : Nat
  deriving DecidableEq, Repr

/-- Does the token consist of decimal digits? -/
def Token.isNumber (tok : Token) : Bool := tok.literal.all Text.isDigit

/-- What a reader finds in a line. -/
inductive Lexeme
  | token (tok : Token)
  /-- Nothing more, at the column after the last rune. -/
  | lineEnd (column : Nat)
  deriving DecidableEq, Repr

end HackVM
