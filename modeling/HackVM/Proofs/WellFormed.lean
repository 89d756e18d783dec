import HackVM.Proofs.Words
import HackVM.Source.Lines

/-!
# Well-formed text

A well-formed text is a sequence of characters (`isWellFormed_induction`), and no character begins
inside another one. So a well-formed text that occurs in another one stands between characters
there (`isWellFormed_of_append`), and the runes of the whole are those of the parts
(`runes_append`). ASCII characters are never part of other characters, so the lines of a well-formed
text are well-formed (`isWellFormed_of_mem_sourceLines`).
-/

namespace HackVM

namespace Text

/-! ## Characters one by one -/

theorem isWellFormed_iff {t : Text} :
    t.isWellFormed = true ↔ ∀ r ∈ t.runes, ∃ c, r = .scalar c := by
  rw [isWellFormed, List.all_eq_true]
  refine forall₂_congr fun r _ => ?_
  cases r <;> simp

theorem isWellFormed_char_append (c : Char) (t : Text) :
    isWellFormed (String.utf8EncodeChar c ++ t) = t.isWellFormed := by
  rw [isWellFormed, runes_utf8EncodeChar_append, List.all_cons, Bool.true_and]
  rfl

theorem exists_char_of_runes {s : Text} (hs : s.isWellFormed = true) {r : Rune} {rs : List Rune}
    (h : s.runes = r :: rs) :
    ∃ c t, r = .scalar c ∧ s = String.utf8EncodeChar c ++ t ∧ t.runes = rs ∧
      t.isWellFormed = true := by
  obtain ⟨hsplit, hrest, -⟩ := runes_eq_cons h
  obtain ⟨c, rfl⟩ := isWellFormed_iff.1 hs r (by simp [h])
  rw [hsplit, Rune.bytes, isWellFormed_char_append] at hs
  exact ⟨c, _, rfl, hsplit, hrest, hs⟩

/-- A well-formed text is empty or a character followed by a well-formed text. -/
theorem isWellFormed_induction {motive : (t : Text) → t.isWellFormed = true → Prop}
    (nil : motive [] rfl)
    (char : ∀ c t (ht : t.isWellFormed = true), motive t ht →
      motive (String.utf8EncodeChar c ++ t) ((isWellFormed_char_append c t).trans ht))
    (t : Text) (ht : t.isWellFormed = true) : motive t ht := by
  induction hrunes : t.runes generalizing t with
  | nil =>
    obtain rfl : t = [] := by rw [← ofRunes_runes t, hrunes]; rfl
    exact nil
  | cons r rs ih =>
    obtain ⟨c, u, rfl, rfl, hu, hwell⟩ := exists_char_of_runes ht hrunes
    exact char c u hwell (ih u hwell hu)

theorem runes_append {s : Text} (hs : s.isWellFormed = true) (t : Text) :
    (s ++ t).runes = s.runes ++ t.runes := by
  induction s, hs using isWellFormed_induction with
  | nil => rfl
  | char c s _ ih =>
    rw [List.append_assoc, runes_utf8EncodeChar_append, runes_utf8EncodeChar_append, ih,
      List.cons_append]

theorem isWellFormed_append {s : Text} (hs : s.isWellFormed = true) (t : Text) :
    (s ++ t).isWellFormed = t.isWellFormed := by
  induction s, hs using isWellFormed_induction with
  | nil => rfl
  | char c s _ ih => rw [List.append_assoc, isWellFormed_char_append, ih]

theorem exists_char_append {t : Text} (ht : t.isWellFormed = true) (hne : t ≠ []) :
    ∃ c rest, t = String.utf8EncodeChar c ++ rest := by
  induction t, ht using isWellFormed_induction with
  | nil => exact absurd rfl hne
  | char c t _ _ => exact ⟨c, t, rfl⟩

/-! ## Finding one text in another -/

/-- No character begins inside another one. -/
theorem utf8EncodeChar_append_ne {c d : Char} {front back rest rest' : Text}
    (hc : String.utf8EncodeChar c = front ++ back) (hfront : front ≠ []) (hback : back ≠ []) :
    back ++ rest ≠ String.utf8EncodeChar d ++ rest' := by
  intro h
  cases back with
  | nil => exact hback rfl
  | cons b back =>
    obtain ⟨b', ds, hd⟩ := List.exists_cons_of_ne_nil (String.utf8EncodeChar_ne_nil (c := d))
    have hfirst := UInt8.isUTF8FirstByte_getElem_zero_utf8EncodeChar (c := d)
    rw [hd] at h
    obtain rfl : b = b' := (List.cons.inj h).1
    have hlt : front.length < (String.utf8EncodeChar c).length := by simp [hc]
    have hinner : (String.utf8EncodeChar c)[front.length] = b := by simp [hc]
    have hbyte : b.IsUTF8FirstByte := by simpa [hd] using hfirst
    rw [← hinner, UInt8.isUTF8FirstByte_getElem_utf8EncodeChar] at hbyte
    exact hfront (List.length_eq_zero_iff.1 hbyte)

/-- What stands before a character of a well-formed text is well-formed. -/
theorem isWellFormed_of_append_char {s t : Text} {c : Char}
    (h : (s ++ (String.utf8EncodeChar c ++ t)).isWellFormed = true) : s.isWellFormed = true := by
  generalize hu : s ++ (String.utf8EncodeChar c ++ t) = u at h
  induction u, h using isWellFormed_induction generalizing s with
  | nil =>
    obtain ⟨rfl, -⟩ := List.append_eq_nil_iff.1 hu
    rfl
  | char d u _ ih =>
    rcases List.append_eq_append_iff.1 hu with ⟨more, hd, hmore⟩ | ⟨more, rfl, hrest⟩
    · by_cases hs : s = []
      · rw [hs]; rfl
      · by_cases hnil : more = []
        · rw [hnil, List.append_nil] at hd
          rw [← hd, ← List.append_nil (String.utf8EncodeChar d), isWellFormed_char_append]
          rfl
        · exact absurd hmore.symm (utf8EncodeChar_append_ne hd hs hnil)
    · rw [isWellFormed_char_append]
      exact ih hrest.symm

/-- **A well-formed text is found between characters.** -/
theorem isWellFormed_of_append {before mark after : Text}
    (h : (before ++ mark ++ after).isWellFormed = true) (hmark : mark.isWellFormed = true)
    (hne : mark ≠ []) : before.isWellFormed = true ∧ after.isWellFormed = true := by
  obtain ⟨c, rest, rfl⟩ := exists_char_append hmark hne
  have hbefore : before.isWellFormed = true :=
    isWellFormed_of_append_char (c := c) (t := rest ++ after) (by simpa using h)
  refine ⟨hbefore, ?_⟩
  rwa [List.append_assoc, isWellFormed_append hbefore, isWellFormed_append hmark] at h

theorem isPrefix_runes {front s : Text} (hfront : front.isWellFormed = true) (h : front <+: s) :
    front.runes <+: s.runes := by
  obtain ⟨t, rfl⟩ := h
  rw [runes_append hfront]
  exact List.prefix_append _ _

/-- A well-formed text begins with another one if its runes do. -/
theorem exists_append_of_runes (front : Text) {s : Text} {rs : List Rune}
    (hfront : front.isWellFormed = true) (hs : s.isWellFormed = true)
    (h : s.runes = front.runes ++ rs) :
    ∃ t, s = front ++ t ∧ t.runes = rs ∧ t.isWellFormed = true := by
  have hsplit : s = front ++ ofRunes rs := by
    rw [← ofRunes_runes s, h, ofRunes_append, ofRunes_runes]
  rw [hsplit, isWellFormed_append hfront] at hs
  exact ⟨ofRunes rs, hsplit, (runes_ofRunes_of_append h).2, hs⟩

theorem isInfix_of_runes {s t : Text} (h : s.runes <:+: t.runes) : s <:+: t := by
  obtain ⟨front, back, hsplit⟩ := h
  refine ⟨ofRunes front, ofRunes back, ?_⟩
  rw [← ofRunes_runes t, ← hsplit, ofRunes_append, ofRunes_append, ofRunes_runes]

theorem columnAt_append (s t : Text) : (s ++ t).columnAt s.length = s.runes.length + 1 := by
  rw [columnAt, List.take_left]
  rfl

/-! ## Lines -/

theorem isWellFormed_cons_ascii {b : UInt8} (hb : b.toNat < 128) (t : Text) :
    isWellFormed (b :: t) = t.isWellFormed := by
  rw [isWellFormed, runes_cons_ascii hb, List.all_cons, Bool.true_and]
  rfl

theorem isWellFormed_append_ascii {b : UInt8} (hb : b.toNat < 128) (s t : Text) :
    isWellFormed (s ++ b :: t) = (s.isWellFormed && t.isWellFormed) := by
  rw [← isWellFormed_cons_ascii hb t, isWellFormed, runes_append_ascii hb, List.all_append]
  rfl

/-- An ASCII character is not part of another one. -/
theorem utf8EncodeChar_eq_of_mem {b : UInt8} (hb : b.toNat < 128) {c : Char}
    (h : b ∈ String.utf8EncodeChar c) : String.utf8EncodeChar c = [b] := by
  cases hc : String.utf8EncodeChar c with
  | nil => exact absurd hc String.utf8EncodeChar_ne_nil
  | cons b' bs =>
    rw [hc] at h
    rcases List.mem_cons.1 h with rfl | htail
    · have hrunes := runes_utf8EncodeChar_append c []
      rw [List.append_nil, hc, runes_cons_ascii hb] at hrunes
      rw [← ofRunes_runes bs, (List.cons.inj hrunes).2]
      rfl
    · have hlarge := le_of_mem_tail_utf8EncodeChar (c := c) (b := b) (by rwa [hc])
      omega

theorem joinLineEnds_append_of_not_mem {s : Text} (h : carriageReturn ∉ s) (t : Text) :
    joinLineEnds (s ++ t) = s ++ joinLineEnds t := by
  induction s with
  | nil => rfl
  | cons b s ih =>
    have hb : b ≠ carriageReturn := fun hb => h (by simp [hb])
    rw [List.cons_append, joinLineEnds, if_neg fun hand => hb hand.1,
      ih fun hmem => h (by simp [hmem]), List.cons_append]

theorem isWellFormed_joinLineEnds {t : Text} (ht : t.isWellFormed = true) :
    (joinLineEnds t).isWellFormed = true := by
  induction t, ht using isWellFormed_induction with
  | nil => rfl
  | char c t _ ih =>
    by_cases hc : carriageReturn ∈ String.utf8EncodeChar c
    · rw [utf8EncodeChar_eq_of_mem (by decide) hc, List.singleton_append, joinLineEnds]
      split
      · exact ih
      · rwa [isWellFormed_cons_ascii (by decide)]
    · rwa [joinLineEnds_append_of_not_mem hc, isWellFormed_char_append]

theorem isWellFormed_unifyLineEnds {t : Text} (ht : t.isWellFormed = true) :
    (unifyLineEnds t).isWellFormed = true := by
  rw [unifyLineEnds]
  induction joinLineEnds t, isWellFormed_joinLineEnds ht using isWellFormed_induction with
  | nil => rfl
  | char c t _ ih =>
    rw [List.map_append]
    by_cases hc : carriageReturn ∈ String.utf8EncodeChar c
    · rw [utf8EncodeChar_eq_of_mem (by decide) hc, List.map_singleton, if_pos rfl,
        List.singleton_append, isWellFormed_cons_ascii (by decide)]
      exact ih
    · have hsame : (String.utf8EncodeChar c).map
          (fun b => if b = carriageReturn then lineFeed else b) = String.utf8EncodeChar c := by
        conv_rhs => rw [← List.map_id (String.utf8EncodeChar c)]
        refine List.map_congr_left fun b hb => if_neg ?_
        rintro rfl
        exact hc hb
      rw [hsame, isWellFormed_char_append]
      exact ih

theorem isWellFormed_dropEnding_lineFeed {t : Text} (ht : t.isWellFormed = true) :
    (dropEnding [lineFeed] t).isWellFormed = true := by
  rw [dropEnding]
  split
  · next hends =>
    obtain ⟨s, rfl⟩ := List.isSuffixOf_iff_suffix.1 hends
    rw [isWellFormed_append_ascii (by decide), Bool.and_eq_true] at ht
    simpa using ht.1
  · exact ht

theorem isWellFormed_of_mem_of_unlines {ls : List Text} (h : (unlines ls).isWellFormed = true)
    {l : Text} (hl : l ∈ ls) : l.isWellFormed = true := by
  induction ls with
  | nil => cases hl
  | cons l' ls ih =>
    cases ls with
    | nil =>
      obtain rfl := List.mem_singleton.1 hl
      simpa [unlines, List.intercalate] using h
    | cons l'' ls =>
      have hsplit : unlines (l' :: l'' :: ls) = l' ++ lineFeed :: unlines (l'' :: ls) := by
        simp [unlines, List.intercalate]
      rw [hsplit, isWellFormed_append_ascii (by decide), Bool.and_eq_true] at h
      rcases List.mem_cons.1 hl with rfl | hl
      · exact h.1
      · exact ih h.2 hl

end Text

/-- The lines of a well-formed text are well-formed. -/
theorem isWellFormed_of_mem_sourceLines {t : Text} (ht : t.isWellFormed = true) {l : Text}
    (hl : l ∈ sourceLines t) : l.isWellFormed = true := by
  rw [sourceLines] at hl
  split at hl
  · cases hl
  · refine Text.isWellFormed_of_mem_of_unlines ?_ hl
    rw [Text.unlines, List.intercalate_splitOn]
    exact Text.isWellFormed_dropEnding_lineFeed (Text.isWellFormed_unifyLineEnds ht)

/-! ## Words and white space -/

namespace Rune

/-- Runes are gone through white space by white space and word by word. -/
theorem words_induction {motive : List Rune → Prop} (nil : motive [])
    (blank : ∀ r rs, r.isBlank = true → motive rs → motive (r :: rs))
    (word : ∀ r rs, r.isBlank = false → motive ((r :: rs).dropWhile fun s => !s.isBlank) →
      motive (r :: rs)) (rs : List Rune) : motive rs := by
  induction hn : rs.length using Nat.strong_induction_on generalizing rs with
  | h n ih =>
    cases rs with
    | nil => exact nil
    | cons r rs =>
      rw [List.length_cons] at hn
      cases hr : r.isBlank with
      | true => exact blank r rs hr (ih rs.length (by omega) rs rfl)
      | false =>
        have hrest := (List.dropWhile_suffix (fun s : Rune => !s.isBlank) (l := rs)).length_le
        refine word r rs hr (ih _ ?_ _ rfl)
        rw [List.dropWhile_cons_of_pos (by simp [hr])]
        omega

theorem isInfix_of_mem_words {rs w : List Rune} (h : w ∈ words rs) : w <:+: rs := by
  induction rs using words_induction with
  | nil => simp at h
  | blank r rs hr ih =>
    rw [words_cons_of_blank hr] at h
    exact (ih h).trans (List.suffix_cons r rs).isInfix
  | word r rs hr ih =>
    rw [words_cons_of_not_blank hr] at h
    rcases List.mem_cons.1 h with rfl | h
    · exact (List.takeWhile_prefix _).isInfix
    · exact (ih h).trans (List.dropWhile_suffix _).isInfix

/-- The words hold all runes that are not white space, in order. -/
theorem flatten_words (rs : List Rune) : (words rs).flatten = rs.filter fun r => !r.isBlank := by
  induction rs using words_induction with
  | nil => simp
  | blank r rs hr ih => rw [words_cons_of_blank hr, ih, List.filter_cons_of_neg (by simp [hr])]
  | word r rs hr ih =>
    have hword : ((r :: rs).takeWhile fun s => !s.isBlank).filter (fun s => !s.isBlank) =
        (r :: rs).takeWhile fun s => !s.isBlank :=
      List.filter_eq_self.2 fun s hs =>
        List.mem_takeWhile_imp (p := fun s : Rune => !s.isBlank) hs
    rw [words_cons_of_not_blank hr, List.flatten_cons, ih]
    conv_rhs =>
      rw [← List.takeWhile_append_dropWhile (p := fun s : Rune => !s.isBlank) (l := r :: rs),
        List.filter_append, hword]

end Rune

namespace Text

theorem map_runes_words (t : Text) : t.words.map runes = Rune.words t.runes := by
  rw [words, List.map_map]
  conv_rhs => rw [← List.map_id (Rune.words t.runes)]
  refine List.map_congr_left fun w hw => ?_
  obtain ⟨front, back, hsplit⟩ := Rune.isInfix_of_mem_words hw
  rw [List.append_assoc] at hsplit
  have hrest := (runes_ofRunes_of_append hsplit.symm).2
  exact (runes_ofRunes_of_append hrest).1

/-- Texts with the same words differ in white space only. -/
theorem filter_runes_of_words {s t : Text} (h : s.words = t.words) :
    (s.runes.filter fun r => !r.isBlank) = t.runes.filter fun r => !r.isBlank := by
  rw [← Rune.flatten_words, ← Rune.flatten_words, ← map_runes_words, ← map_runes_words, h]

/-- Bytes that are part of no character are not white space, so they are part of words. -/
theorem isWellFormed_of_words {s t : Text} (h : s.words = t.words) (ht : t.isWellFormed = true) :
    s.isWellFormed = true := by
  rw [isWellFormed_iff] at ht ⊢
  intro r hr
  cases r with
  | scalar c => exact ⟨c, rfl⟩
  | stray b =>
    have hmem : Rune.stray b ∈ t.runes.filter fun r => !r.isBlank := by
      rw [← filter_runes_of_words h]
      exact List.mem_filter.2 ⟨hr, rfl⟩
    exact ht _ (List.mem_filter.1 hmem).1

/-- A text is what is left without the white space at its ends, between white space. -/
theorem exists_runes_eq_trim (t : Text) :
    ∃ front back, t.runes = front ++ t.trim.runes ++ back ∧ ∀ r ∈ front, r.isBlank = true := by
  refine ⟨t.runes.takeWhile Rune.isBlank, (t.runes.dropWhile Rune.isBlank).rtakeWhile Rune.isBlank,
    ?_, fun _ => List.mem_takeWhile_imp⟩
  rw [runes_trim, List.append_assoc, List.rdropWhile_append_rtakeWhile,
    List.takeWhile_append_dropWhile]

theorem isBlank_of_head?_runes_trim {t : Text} {r : Rune} (h : t.trim.runes.head? = some r) :
    r.isBlank = false := by
  have hhead := List.head?_dropWhile_not Rune.isBlank t.runes
  obtain ⟨rs, hrs⟩ := List.head?_eq_some_iff.1 h
  rw [runes_trim] at hrs
  have hfront := List.rdropWhile_prefix Rune.isBlank (l := t.runes.dropWhile Rune.isBlank)
  rw [hrs] at hfront
  obtain ⟨rest, hrest⟩ := hfront
  rw [← hrest] at hhead
  simpa using hhead

end Text

end HackVM
