/-!
# Byte text

A text is the list of its bytes. Source files, commands, assembly and messages are all texts; none
of them has to be well-formed UTF-8.

* `utf8` gives the bytes of a string.
* `cut?` splits a text at the first occurrence of a mark, `lastPosition?` finds the last one and
  `occurrences` counts them without overlap.
* `unlines` joins lines; `List.splitOn` at a line feed takes them apart again.
-/

namespace HackVM

/-- A text is the list of its bytes. -/
abbrev Text := List UInt8

/-- The UTF-8 bytes of a string. -/
def utf8 (s : String) : Text := s.toByteArray.data.toList

namespace Text

/-- Line feed. -/
def lineFeed : UInt8 := 10

/-- Carriage return. -/
def carriageReturn : UInt8 := 13

/-- The part before the first occurrence of a mark and the part after it. -/
def cut? (mark : Text) : Text → Option (Text × Text)
  | [] => if mark = [] then some ([], []) else none
  | b :: t =>
    if mark.isPrefixOf (b :: t) then some ([], (b :: t).drop mark.length)
    else (cut? mark t).map fun (before, after) => (b :: before, after)

/-- Does the mark occur in the text? -/
def occurs (mark t : Text) : Bool := (cut? mark t).isSome

/-- The byte offset of the first occurrence of a mark. -/
def position? (mark t : Text) : Option Nat := (cut? mark t).map (·.1.length)

/-- The byte offset of the last occurrence of a mark. -/
def lastPosition? (mark : Text) : Text → Option Nat
  | [] => if mark = [] then some 0 else none
  | b :: t =>
    match lastPosition? mark t with
    | some i => some (i + 1)
    | none => if mark.isPrefixOf (b :: t) then some 0 else none

/-- Counts occurrences of a mark after passing over the first `skip` bytes. -/
def occurrencesAfter (mark : Text) : Nat → Text → Nat
  | _, [] => 0
  | skip + 1, _ :: t => occurrencesAfter mark skip t
  | 0, b :: t =>
    if mark.isPrefixOf (b :: t) then occurrencesAfter mark (mark.length - 1) t + 1
    else occurrencesAfter mark 0 t

/-- The number of occurrences of a non-empty mark, counted from the left without overlap. -/
def occurrences (mark t : Text) : Nat := occurrencesAfter mark 0 t

/-- Joins lines with line feeds between them. -/
def unlines (ls : List Text) : Text := [lineFeed].intercalate ls

/-- Writes every carriage return followed by a line feed as the line feed alone. -/
def joinLineEnds : Text → Text
  | [] => []
  | b :: t =>
    if b = carriageReturn ∧ t.head? = some lineFeed then joinLineEnds t
    else b :: joinLineEnds t

/-- The text without the given ending, or the text itself if it ends otherwise. -/
def dropEnding (ending t : Text) : Text :=
  if ending.isSuffixOf t then t.take (t.length - ending.length) else t

/-- Lexicographic order by byte values. -/
def lt : Text → Text → Bool
  | _, [] => false
  | [], _ :: _ => true
  | a :: s, b :: t => a < b || (a == b && lt s t)

/-- Order by byte values, as a test for sorting. -/
def le (s t : Text) : Bool := !lt t s

theorem cut?_eq_some {mark t before after : Text} (h : cut? mark t = some (before, after)) :
    t = before ++ mark ++ after := by
  induction t generalizing before with
  | nil =>
    simp only [cut?] at h
    split at h <;> simp_all
  | cons b t ih =>
    simp only [cut?] at h
    split at h
    · next hp =>
      obtain ⟨rest, hr⟩ := List.isPrefixOf_iff_prefix.1 hp
      simp only [Option.some.injEq, Prod.mk.injEq] at h
      rw [← h.1, ← h.2, ← hr]
      simp
    · obtain ⟨⟨p, q⟩, hpq, he⟩ := Option.map_eq_some_iff.1 h
      simp only [Prod.mk.injEq] at he
      rw [ih (by rw [hpq, he.2]), ← he.1]
      simp

end Text

end HackVM
