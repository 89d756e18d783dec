import HackVM.Source.Token
import HackVM.Text.Blank

/-!
# Reading a line

A `Lexer` goes through the bytes of a line with two positions: the one of the code point in hand
and the one at which reading goes on. At the end of the line the two agree and the code point in
hand is zero, but a zero byte in the line is a code point like any other, so the end is told by the
position alone (`Lexer.atEnd`).

A lexer passes over white space and then reads a word; at the end of the line it finds no more
words, however often it is asked. `tokenize` collects all tokens of a line.
-/

namespace HackVM

/-- A reader of a line. -/
structure Lexer where
  input : Text
  /-- Where the code point in hand begins. -/
  position : Nat := 0
  /-- Where the next one begins. -/
  readPosition : Nat := 0
  /-- The code point in hand, zero at the end of the line. -/
  code : Nat := 0
  /-- The column of the code point in hand. -/
  column : Nat := 0
  deriving DecidableEq, Repr

namespace Lexer

/-- Take the next code point into hand. -/
def readCode (l : Lexer) : Lexer :=
  if l.input.length ≤ l.readPosition then
    { l with code := 0, position := l.readPosition, column := l.column + 1 }
  else
    let (code, size) := Text.leadCode (l.input.drop l.readPosition)
    { l with
      code, position := l.readPosition, readPosition := l.readPosition + size,
      column := l.column + 1 }

/-- A reader at the beginning of a line. -/
def start (t : Text) : Lexer := readCode { input := t }

/-- Is there no code point in hand? -/
def atEnd (l : Lexer) : Bool := l.input.length ≤ l.position

/-- A bound for the number of code points that can still be passed over: the bytes that are not
read, and the one in hand. -/
def left (l : Lexer) : Nat := l.input.length - l.readPosition + if l.atEnd then 0 else 1

theorem left_readCode_lt {l : Lexer} (h : l.atEnd = false) : l.readCode.left < l.left := by
  have hleft : l.left = l.input.length - l.readPosition + 1 := by simp [left, h]
  rw [hleft, readCode]
  split
  · next hend =>
    simp [left, atEnd, hend]
  · next hend =>
    have hsize : 0 < (Text.leadCode (l.input.drop l.readPosition)).2 := by
      unfold Text.leadCode
      split
      · exact Char.utf8Size_pos _
      · exact Nat.one_pos
    simp only [left]
    split <;> omega

/-- Pass over the code points that satisfy a test. -/
def passWhile (p : Nat → Bool) (l : Lexer) : Lexer :=
  if _h : l.atEnd = false ∧ p l.code = true then l.readCode.passWhile p else l
termination_by l.left
decreasing_by exact left_readCode_lt _h.1

/-- Pass over white space. -/
def skipBlank (l : Lexer) : Lexer := l.passWhile isBlankCode

/-- The word up to the next white space, and the lexer after it. -/
def readWord (l : Lexer) : Text × Lexer :=
  let l' := l.passWhile fun code => !isBlankCode code
  ((l'.input.take l'.position).drop l.position, l')

/-- The next token or the end of the line, and the lexer after it. -/
def next (l : Lexer) : Lexeme × Lexer :=
  let l := l.skipBlank
  if l.atEnd then (.lineEnd l.column, l)
  else
    let (literal, l') := l.readWord
    (.token ⟨literal, l.column⟩, l')

theorem left_passWhile_le (p : Nat → Bool) (l : Lexer) : (l.passWhile p).left ≤ l.left := by
  fun_induction passWhile p l with
  | case1 l h ih => exact Nat.le_trans ih (Nat.le_of_lt (left_readCode_lt h.1))
  | case2 => exact Nat.le_refl _

theorem not_test_passWhile (p : Nat → Bool) (l : Lexer) (h : (l.passWhile p).atEnd = false) :
    p (l.passWhile p).code = false := by
  fun_induction passWhile p l with
  | case1 l _ ih => exact ih h
  | case2 l hstop => exact Bool.eq_false_iff.2 fun hp => hstop ⟨h, hp⟩

theorem left_next_lt {l l' : Lexer} {tok : Token} (h : l.next = (.token tok, l')) :
    l'.left < l.left := by
  simp only [next] at h
  split at h
  · simp at h
  · next hend =>
    have hend := Bool.eq_false_iff.2 hend
    have hblank : isBlankCode l.skipBlank.code = false := not_test_passWhile isBlankCode l hend
    -- the code point in hand is not white space, so the word has one at least
    have hpass : l.skipBlank.readWord.2 =
        l.skipBlank.readCode.passWhile fun code => !isBlankCode code := by
      rw [readWord, passWhile, dif_pos ⟨hend, by simpa using hblank⟩]
    obtain ⟨-, rfl⟩ := Prod.mk.inj h
    rw [hpass]
    calc _ ≤ l.skipBlank.readCode.left := left_passWhile_le _ _
      _ < l.skipBlank.left := left_readCode_lt hend
      _ ≤ l.left := left_passWhile_le _ _

/-- All tokens from here to the end of the line. -/
def tokens (l : Lexer) : List Token :=
  match _h : l.next with
  | (.lineEnd _, _) => []
  | (.token tok, l') => tok :: l'.tokens
termination_by l.left
decreasing_by exact left_next_lt _h

end Lexer

/-- The tokens of a line. -/
def tokenize (t : Text) : List Token := (Lexer.start t).tokens

end HackVM
