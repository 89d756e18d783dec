import HackVM.Proofs.Words
import HackVM.Source.Lexer

/-!
# Lexers and scanners

A `Scanner` is what a lexer amounts to: the runes that are left of a line and the column at which
they begin, with no positions and no code point in hand. It passes over white space and words as
`dropWhile` does.

A lexer *follows* a scanner (`Lexer.Follows`) if its positions are the ends of what it has read
without and with the code point in hand, and this code point is the first of the runes that are
left. At the end of the line nothing is in hand: then the two positions are one, the length of the
line. Taking one code point keeps this up (`follows_readCode`), and so do the loops of the lexer
(`Follows.passWhile`) and its calls (`Follows.next`). So a lexer and the scanner that it follows
find the same tokens (`tokenize_eq_tokens`), and the tokens of a line are its words
(`map_literal_tokenize`).
-/

namespace HackVM

/-- What is left of a line, and the column at which it begins. -/
structure Scanner where
  rest : List Rune
  column : Nat

namespace Scanner

/-- A scanner at the beginning of a line. -/
def start (t : Text) : Scanner := ⟨t.runes, 1⟩

/-- The scanner past the white space it stands at. -/
def skipBlank (s : Scanner) : Scanner :=
  ⟨s.rest.dropWhile Rune.isBlank, s.column + (s.rest.takeWhile Rune.isBlank).length⟩

/-- The next token, or none at the end of the line, and the scanner after it. -/
def next (s : Scanner) : Option Token × Scanner :=
  let s := s.skipBlank
  if s.rest = [] then (none, s)
  else
    let word := s.rest.takeWhile fun r => !r.isBlank
    (some ⟨Text.ofRunes word, s.column⟩,
      ⟨s.rest.dropWhile fun r => !r.isBlank, s.column + word.length⟩)

/-- A scanner that finds no token passes over white space to the end of the line. -/
theorem eq_of_next_eq_none {s s' : Scanner} (h : s.next = (none, s')) :
    (∀ r ∈ s.rest, r.isBlank = true) ∧ s' = ⟨[], s.column + s.rest.length⟩ := by
  unfold next at h
  simp only at h
  split at h
  · next hnil =>
    have hblank : ∀ r ∈ s.rest, r.isBlank = true := List.dropWhile_eq_nil_iff.1 hnil
    refine ⟨hblank, ?_⟩
    rw [← (Prod.mk.inj h).2, skipBlank, List.dropWhile_eq_nil_iff.2 hblank,
      List.takeWhile_eq_self_iff.2 hblank]
  · simp at h

/-- A scanner that finds a token passes over white space and then over the word of the token, which
ends at white space or at the end of the line. -/
theorem eq_of_next_eq_some {s s' : Scanner} {tok : Token} (h : s.next = (some tok, s')) :
    ∃ blanks w, s.rest = blanks ++ (w ++ s'.rest) ∧ (∀ r ∈ blanks, r.isBlank = true) ∧
      w ≠ [] ∧ (∀ r ∈ w, r.isBlank = false) ∧ (∀ r ∈ s'.rest.head?, r.isBlank = true) ∧
      tok = ⟨Text.ofRunes w, s.column + blanks.length⟩ ∧
      s'.column = s.column + blanks.length + w.length := by
  have hhead := List.head?_dropWhile_not Rune.isBlank s.rest
  unfold next at h
  simp only at h
  split at h
  · simp at h
  · next hne =>
    simp only [Prod.mk.injEq, Option.some.injEq] at h
    obtain ⟨rfl, rfl⟩ := h
    refine ⟨s.rest.takeWhile Rune.isBlank, s.skipBlank.rest.takeWhile fun r => !r.isBlank, ?_,
      fun _ => List.mem_takeWhile_imp, ?_, fun r hr => ?_, fun r hr => ?_, rfl, rfl⟩
    · rw [List.takeWhile_append_dropWhile]
      exact List.takeWhile_append_dropWhile.symm
    · -- the scanner stands at a rune that is not white space
      obtain ⟨r, rs, hrs⟩ := List.exists_cons_of_ne_nil hne
      rw [show s.rest.dropWhile Rune.isBlank = r :: rs from hrs] at hhead
      rw [hrs, List.takeWhile_cons_of_pos (by simpa using hhead)]
      exact List.cons_ne_nil _ _
    · simpa using List.mem_takeWhile_imp hr
    · have hend := List.head?_dropWhile_not (fun r : Rune => !r.isBlank) s.skipBlank.rest
      rw [hr] at hend
      simpa using hend

theorem length_rest_next_lt {s s' : Scanner} {tok : Token} (h : s.next = (some tok, s')) :
    s'.rest.length < s.rest.length := by
  obtain ⟨blanks, w, hsplit, -, hne, -⟩ := eq_of_next_eq_some h
  have hpos := List.length_pos_iff.2 hne
  rw [hsplit, List.length_append, List.length_append]
  omega

/-- All tokens from here to the end of the line. -/
def tokens (s : Scanner) : List Token :=
  match _h : s.next with
  | (none, _) => []
  | (some tok, s') => tok :: s'.tokens
termination_by s.rest.length
decreasing_by exact length_rest_next_lt _h

theorem tokens_of_next_eq_none {s s' : Scanner} (h : s.next = (none, s')) : s.tokens = [] := by
  rw [tokens]
  split
  · rfl
  · next h' => simp [h] at h'

theorem tokens_of_next_eq_some {s s' : Scanner} {tok : Token} (h : s.next = (some tok, s')) :
    s.tokens = tok :: s'.tokens := by
  rw [tokens]
  split
  · next h' => simp [h] at h'
  · next h' =>
    rw [h, Prod.mk.injEq, Option.some.injEq] at h'
    rw [h'.1, h'.2]

theorem map_literal_tokens (s : Scanner) :
    s.tokens.map Token.literal = (Rune.words s.rest).map Text.ofRunes := by
  induction s using Scanner.tokens.induct with
  | case1 s s' h =>
    rw [tokens_of_next_eq_none h, Rune.words_eq_nil_iff.2 (eq_of_next_eq_none h).1]
    rfl
  | case2 s tok s' h ih =>
    obtain ⟨blanks, w, hsplit, hblanks, hne, hword, hrest, rfl, -⟩ := eq_of_next_eq_some h
    rw [tokens_of_next_eq_some h, hsplit, Rune.words_blanks_append hblanks,
      Rune.words_word_append hne hword hrest, List.map_cons, List.map_cons, ih]

end Scanner

namespace Text

theorem leadCode_of_runes_eq_cons {t : Text} {r : Rune} {rs : List Rune} (h : t.runes = r :: rs) :
    t.leadCode = (r.code, r.bytes.length) := by
  obtain ⟨ht, -, hstray⟩ := runes_eq_cons h
  cases r with
  | scalar c =>
    have hlead : t.leadChar? = some c := by
      rw [ht]
      exact leadChar?_utf8EncodeChar_append c _
    rw [leadCode, hlead]
    simp [Rune.code, Rune.bytes]
  | stray b =>
    rw [leadCode, hstray b rfl]
    rfl

end Text

theorem Rune.isBlankCode_code (r : Rune) : isBlankCode r.code = r.isBlank := by
  cases r with
  | scalar c => rfl
  | stray b => rfl

namespace Lexer

/-! ## A lexer in step with a scanner -/

/-- The lexer has read the runes `before`, and what is left of the line is what the scanner has. -/
structure Follows (l : Lexer) (before : List Rune) (s : Scanner) : Prop where
  runes_eq : l.input.runes = before ++ s.rest
  position_eq : l.position = (Text.ofRunes before).length
  readPosition_eq : l.readPosition = (Text.ofRunes (before ++ s.rest.take 1)).length
  code_eq : l.code = s.rest.head?.elim 0 Rune.code
  column_eq : l.column = s.column

theorem Follows.input_eq {l : Lexer} {before : List Rune} {s : Scanner} (h : l.Follows before s) :
    l.input = Text.ofRunes before ++ Text.ofRunes s.rest := by
  rw [← Text.ofRunes_append, ← h.runes_eq, Text.ofRunes_runes]

/-- A lexer that has read up to some runes takes the first of them into hand, if there is one. -/
theorem follows_readCode {l : Lexer} {before rest : List Rune}
    (hrunes : l.input.runes = before ++ rest)
    (hread : l.readPosition = (Text.ofRunes before).length) :
    l.readCode.Follows before ⟨rest, l.column + 1⟩ := by
  have hinput : l.input = Text.ofRunes before ++ Text.ofRunes rest := by
    rw [← Text.ofRunes_append, ← hrunes, Text.ofRunes_runes]
  cases rest with
  | nil =>
    have hend : l.input.length ≤ l.readPosition := by
      rw [hinput, hread]
      simp [Text.ofRunes]
    rw [readCode, if_pos hend]
    exact ⟨hrunes, hread, by simpa using hread, rfl, rfl⟩
  | cons r rest =>
    have hpos := List.length_pos_iff.2 r.bytes_ne_nil
    have hend : ¬ l.input.length ≤ l.readPosition := by
      rw [hinput, hread, Text.ofRunes_cons]
      simp only [List.length_append]
      omega
    have hdrop : l.input.drop l.readPosition = Text.ofRunes (r :: rest) := by
      rw [hinput, hread, List.drop_left]
    have hlead : Text.leadCode (l.input.drop l.readPosition) = (r.code, r.bytes.length) := by
      rw [hdrop]
      exact Text.leadCode_of_runes_eq_cons (Text.runes_ofRunes_of_append hrunes).2
    rw [readCode, if_neg hend, hlead]
    refine ⟨hrunes, hread, ?_, rfl, rfl⟩
    simp [hread, Text.ofRunes]

theorem follows_start (t : Text) : (start t).Follows [] (Scanner.start t) :=
  follows_readCode (l := { input := t }) rfl rfl

namespace Follows

variable {l : Lexer} {before : List Rune} {s : Scanner}

theorem atEnd_eq (h : l.Follows before s) : l.atEnd = s.rest.isEmpty := by
  rw [atEnd, h.input_eq, h.position_eq, List.length_append]
  cases s.rest with
  | nil => simp [Text.ofRunes]
  | cons r rest =>
    have hpos := List.length_pos_iff.2 r.bytes_ne_nil
    rw [Text.ofRunes_cons, List.length_append]
    simp only [List.isEmpty_cons, decide_eq_false_iff_not]
    omega

theorem readCode {r : Rune} {rest : List Rune} {column : Nat}
    (h : l.Follows before ⟨r :: rest, column⟩) :
    l.readCode.Follows (before ++ [r]) ⟨rest, column + 1⟩ := by
  have hrunes : l.input.runes = (before ++ [r]) ++ rest := by simpa using h.runes_eq
  have hfollows := follows_readCode hrunes h.readPosition_eq
  rwa [h.column_eq] at hfollows

/-- A loop of the lexer passes over the runes whose code points satisfy its test, up to the first
that does not. -/
theorem passWhile (h : l.Follows before s) (p : Nat → Bool) :
    (l.passWhile p).Follows (before ++ s.rest.takeWhile fun r => p r.code)
      ⟨s.rest.dropWhile fun r => p r.code,
        s.column + (s.rest.takeWhile fun r => p r.code).length⟩ := by
  obtain ⟨rest, column⟩ := s
  induction rest generalizing l before column with
  | nil =>
    rw [Lexer.passWhile, dif_neg (by simp [h.atEnd_eq])]
    simpa using h
  | cons r rest ih =>
    have hcode : l.code = r.code := h.code_eq
    rw [Lexer.passWhile]
    cases hp : p r.code with
    | false =>
      rw [dif_neg (by simp [hcode, hp])]
      simpa [hp] using h
    | true =>
      rw [dif_pos ⟨h.atEnd_eq, by rw [hcode, hp]⟩]
      have hrest := ih _ h.readCode
      simpa [hp, Nat.add_assoc, Nat.add_comm 1] using hrest

theorem skipBlank (h : l.Follows before s) :
    l.skipBlank.Follows (before ++ s.rest.takeWhile Rune.isBlank) s.skipBlank := by
  have hpass := h.passWhile isBlankCode
  simp only [Rune.isBlankCode_code] at hpass
  exact hpass

/-- The word that a lexer reads is cut out of the line between its positions. -/
theorem readWord (h : l.Follows before s) :
    l.readWord.1 = Text.ofRunes (s.rest.takeWhile fun r => !r.isBlank) ∧
      l.readWord.2.Follows (before ++ s.rest.takeWhile fun r => !r.isBlank)
        ⟨s.rest.dropWhile fun r => !r.isBlank,
          s.column + (s.rest.takeWhile fun r => !r.isBlank).length⟩ := by
  have hpass := h.passWhile fun code => !isBlankCode code
  simp only [Rune.isBlankCode_code] at hpass
  refine ⟨?_, hpass⟩
  rw [Lexer.readWord]
  simp only [hpass.input_eq, hpass.position_eq, h.position_eq, List.take_left,
    Text.ofRunes_append, List.drop_left]

/-- A call of a lexer finds what a call of the scanner finds, and the lexer follows it again. -/
theorem next (h : l.Follows before s) :
    l.next.1 = s.next.1.elim (.lineEnd s.next.2.column) .token ∧
      ∃ before', l.next.2.Follows before' s.next.2 := by
  have hskip := h.skipBlank
  obtain ⟨hword, hfollows⟩ := hskip.readWord
  rw [Lexer.next, Scanner.next]
  simp only [hskip.atEnd_eq, List.isEmpty_iff, hskip.column_eq, hword]
  split
  · exact ⟨rfl, _, hskip⟩
  · exact ⟨rfl, _, hfollows⟩

theorem tokens (h : l.Follows before s) : l.tokens = s.tokens := by
  induction s using Scanner.tokens.induct generalizing l before with
  | case1 s s' hs =>
    obtain ⟨hnext, -⟩ := h.next
    rw [Scanner.tokens_of_next_eq_none hs, Lexer.tokens]
    rw [hs] at hnext
    split
    · rfl
    · next hl => simp [hl] at hnext
  | case2 s tok s' hs ih =>
    obtain ⟨hnext, before', hfollows⟩ := h.next
    rw [Scanner.tokens_of_next_eq_some hs, Lexer.tokens]
    rw [hs] at hnext hfollows
    split
    · next hl => simp [hl] at hnext
    · next tok' l' hl =>
      rw [hl] at hnext hfollows
      rw [ih hfollows, Lexeme.token.inj hnext]

end Follows

end Lexer

/-- **A lexer finds the tokens of the scanner that starts with it.** -/
theorem tokenize_eq_tokens (t : Text) : tokenize t = (Scanner.start t).tokens :=
  (Lexer.follows_start t).tokens

/-- **The tokens of a line are its words.** -/
theorem map_literal_tokenize (t : Text) : (tokenize t).map Token.literal = t.words := by
  rw [tokenize_eq_tokens]
  exact Scanner.map_literal_tokens (Scanner.start t)

end HackVM
