import HackVM.Text.Basic

/-!
# Runes

The rune view of a text: its characters where the bytes are well-formed UTF-8, and the bytes that
belong to no character one by one. The view loses nothing (`flatMap_bytes_runes`), so cutting a
text between runes is cutting the list of its runes. Columns count runes.
-/

namespace HackVM

/-- A character, or a byte that is part of no well-formed character. -/
inductive Rune
  | scalar (c : Char)
  | stray (b : UInt8)
  deriving DecidableEq, Repr

/-- The bytes a rune stands for. -/
def Rune.bytes : Rune → Text
  | .scalar c => String.utf8EncodeChar c
  | .stray b => [b]

/-- The code point of the replacement character. -/
def replacementCode : Nat := 0xFFFD

/-- The code point a rune is taken for: a byte that is part of no character counts as a
replacement character. -/
def Rune.code : Rune → Nat
  | .scalar c => c.toNat
  | .stray _ => replacementCode

namespace Text

/-- The character whose UTF-8 form the text begins with. -/
def leadChar? (t : Text) : Option Char := (t.take 4).toByteArray.utf8DecodeChar? 0

/-- The code point that a text begins with and the number of its bytes. A byte that begins no
character is a replacement character. -/
def leadCode (t : Text) : Nat × Nat :=
  match leadChar? t with
  | some c => (c.toNat, c.utf8Size)
  | none => (replacementCode, 1)

/-- The runes of a text whose first `skip` bytes belong to the rune before. -/
def runesAfter : Nat → Text → List Rune
  | _, [] => []
  | skip + 1, _ :: t => runesAfter skip t
  | 0, b :: t =>
    match leadChar? (b :: t) with
    | some c => .scalar c :: runesAfter (c.utf8Size - 1) t
    | none => .stray b :: runesAfter 0 t

/-- The runes of a text, in order. -/
def runes (t : Text) : List Rune := runesAfter 0 t

/-- The text that a list of runes stands for. -/
def ofRunes (rs : List Rune) : Text := rs.flatMap Rune.bytes

/-- The number of runes of a text. -/
def runeCount (t : Text) : Nat := t.runes.length

/-- Is the text well-formed UTF-8? -/
def isWellFormed (t : Text) : Bool :=
  t.runes.all fun
    | .scalar _ => true
    | .stray _ => false

/-- The column of the rune at a byte offset: one more than the number of runes before it. -/
def columnAt (t : Text) (offset : Nat) : Nat := runeCount (t.take offset) + 1

theorem leadChar?_eq_some {t : Text} {c : Char} (h : leadChar? t = some c) :
    ∃ rest, t = String.utf8EncodeChar c ++ rest := by
  obtain ⟨l, hl⟩ := ByteArray.exists_of_utf8DecodeChar?_eq_some h
  have hd := congrArg (fun b => b.data.toList) hl
  simp at hd
  exact ⟨l.data.toList ++ t.drop 4, by rw [← List.append_assoc, ← hd, List.take_append_drop]⟩

theorem leadChar?_utf8EncodeChar_append (c : Char) (t : Text) :
    leadChar? (String.utf8EncodeChar c ++ t) = some c := by
  have hle : (String.utf8EncodeChar c).length ≤ 4 := by
    simpa using c.utf8Size_le_four
  rw [leadChar?, List.take_append, List.take_of_length_le hle, List.toByteArray_append]
  exact ByteArray.utf8DecodeChar?_utf8EncodeChar_append

@[simp]
theorem ofRunes_cons (r : Rune) (rs : List Rune) : ofRunes (r :: rs) = r.bytes ++ ofRunes rs := by
  simp [ofRunes]

theorem ofRunes_runesAfter (skip : Nat) (t : Text) :
    ofRunes (runesAfter skip t) = t.drop skip := by
  induction t generalizing skip with
  | nil => simp [runesAfter, ofRunes]
  | cons b t ih =>
    cases skip with
    | succ skip => simpa [runesAfter] using ih skip
    | zero =>
      simp only [runesAfter]
      split
      · next c hc =>
        obtain ⟨rest, hrest⟩ := leadChar?_eq_some hc
        have hlen : (String.utf8EncodeChar c).length = c.utf8Size := by simp
        have hpos := c.utf8Size_pos
        -- the bytes of `c` end where the skipped bytes end
        have hdrop : t.drop (c.utf8Size - 1) = rest := by
          have := congrArg (List.drop c.utf8Size) hrest
          rwa [← hlen, List.drop_left, hlen, show c.utf8Size = c.utf8Size - 1 + 1 by omega,
            List.drop_succ_cons] at this
        rw [ofRunes_cons, ih, Rune.bytes, hdrop, List.drop_zero, hrest]
      · rw [ofRunes_cons, ih, Rune.bytes, List.drop_zero, List.drop_zero, List.singleton_append]

/-- The rune view loses nothing. -/
@[simp]
theorem ofRunes_runes (t : Text) : ofRunes t.runes = t := by
  simp [runes, ofRunes_runesAfter]

end Text

end HackVM
