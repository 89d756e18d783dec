import HackVM.Proofs.PlainText

/-!
# Words

The words of a text are the maximal runs of runes that are not white space (`Text.words`). White
space at the ends of a text belongs to no word (`words_trim`), and a space separates words
(`words_append_space`).

A text and its runes are two views of the same thing only where the text is cut between runes:
`runes_ofRunes_of_append` says that the pieces of a list of runes are read back as they are, and
`runes_append_ascii` that an ASCII character is never taken into a rune begun before it.
-/

namespace HackVM

namespace Text

/-! ## Runes of the pieces of a text -/

theorem leadChar?_append {s : Text} {c : Char} (h : leadChar? s = some c) (t : Text) :
    leadChar? (s ++ t) = some c := by
  obtain ⟨rest, rfl⟩ := leadChar?_eq_some h
  rw [List.append_assoc]
  exact leadChar?_utf8EncodeChar_append c _

theorem runesAfter_eq (skip : Nat) (t : Text) : runesAfter skip t = runes (t.drop skip) := by
  induction t generalizing skip with
  | nil => simp [runes, runesAfter]
  | cons b t ih =>
    cases skip with
    | zero => rfl
    | succ skip => simpa [runesAfter] using ih skip

theorem runes_utf8EncodeChar_append (c : Char) (t : Text) :
    runes (String.utf8EncodeChar c ++ t) = .scalar c :: runes t := by
  have hlead := leadChar?_utf8EncodeChar_append c t
  have hlen : (String.utf8EncodeChar c).length = c.utf8Size := by simp
  have hpos := c.utf8Size_pos
  cases hc : String.utf8EncodeChar c with
  | nil => simp [hc] at hlen; omega
  | cons b bs =>
    have hbs : bs.length = c.utf8Size - 1 := by
      rw [hc, List.length_cons] at hlen
      omega
    rw [hc, List.cons_append] at hlead
    rw [List.cons_append, runes, runesAfter, hlead]
    simp only [runesAfter_eq]
    rw [← hbs, List.drop_left]

theorem runes_cons_of_leadChar?_eq_none {b : UInt8} {t : Text} (h : leadChar? (b :: t) = none) :
    runes (b :: t) = .stray b :: runes t := by
  rw [runes, runesAfter, h]
  rfl

/-- A text begins with a character, or with a byte that begins none. -/
theorem runes_eq_cons {t : Text} {r : Rune} {rs : List Rune} (h : t.runes = r :: rs) :
    t = r.bytes ++ ofRunes rs ∧ (ofRunes rs).runes = rs ∧
      ∀ b, r = .stray b → leadChar? t = none := by
  have ht : t = r.bytes ++ ofRunes rs := by rw [← ofRunes_cons, ← h, ofRunes_runes]
  refine ⟨ht, ?_⟩
  cases r with
  | scalar c =>
    refine ⟨?_, fun b hb => by cases hb⟩
    rw [ht, Rune.bytes, runes_utf8EncodeChar_append] at h
    exact (List.cons.inj h).2
  | stray b =>
    rw [Rune.bytes, List.singleton_append] at ht
    have hlead : leadChar? t = none := by
      cases hlead : leadChar? t with
      | none => rfl
      | some c =>
        obtain ⟨rest, hrest⟩ := leadChar?_eq_some hlead
        rw [hrest, runes_utf8EncodeChar_append] at h
        cases h
    refine ⟨?_, fun _ _ => hlead⟩
    rw [ht] at hlead
    rw [ht, runes_cons_of_leadChar?_eq_none hlead] at h
    exact (List.cons.inj h).2

@[simp]
theorem ofRunes_append (front back : List Rune) :
    ofRunes (front ++ back) = ofRunes front ++ ofRunes back := by
  simp [ofRunes]

theorem runes_ofRunes_of_append {t : Text} {front back : List Rune} (h : t.runes = front ++ back) :
    (ofRunes front).runes = front ∧ (ofRunes back).runes = back := by
  induction front generalizing t with
  | nil =>
    refine ⟨rfl, ?_⟩
    rw [List.nil_append] at h
    rw [← h, ofRunes_runes]
  | cons r front ih =>
    rw [List.cons_append] at h
    obtain ⟨ht, hrest, hstray⟩ := runes_eq_cons h
    obtain ⟨hfront, hback⟩ := ih hrest
    refine ⟨?_, hback⟩
    rw [ofRunes_cons]
    cases r with
    | scalar c => rw [Rune.bytes, runes_utf8EncodeChar_append, hfront]
    | stray b =>
      -- more bytes at the end do not undo a character, so fewer bytes do not make one
      have hlead : leadChar? (b :: ofRunes front) = none := by
        cases hlead : leadChar? (b :: ofRunes front) with
        | none => rfl
        | some c =>
          have hwhole := leadChar?_append hlead (ofRunes back)
          rw [Rune.bytes, List.singleton_append, ofRunes_append, ← List.cons_append] at ht
          rw [← ht, hstray b rfl] at hwhole
          cases hwhole
      rw [Rune.bytes, List.singleton_append, runes_cons_of_leadChar?_eq_none hlead, hfront]

/-- All bytes of a character but the first lie outside of ASCII. -/
theorem le_of_mem_tail_utf8EncodeChar {c : Char} {b : UInt8}
    (h : b ∈ (String.utf8EncodeChar c).tail) : 128 ≤ b.toNat := by
  unfold String.utf8EncodeChar at h
  simp only at h
  split at h
  · simp at h
  · split at h
    · simp at h
      subst h
      simp
      omega
    · split at h
      · simp at h
        rcases h with rfl | rfl <;> simp <;> omega
      · simp at h
        rcases h with rfl | rfl | rfl <;> simp <;> omega

theorem leadChar?_append_ascii {b : UInt8} (hb : b.toNat < 128) {s : Text} (hs : s ≠ [])
    (t : Text) : leadChar? (s ++ b :: t) = leadChar? s := by
  cases hlead : leadChar? s with
  | some c => exact leadChar?_append hlead _
  | none =>
    cases hlong : leadChar? (s ++ b :: t) with
    | none => rfl
    | some c =>
      obtain ⟨rest, hc⟩ := leadChar?_eq_some hlong
      have hshort (more : Text) : s ≠ String.utf8EncodeChar c ++ more := by
        rintro rfl
        rw [leadChar?_utf8EncodeChar_append] at hlead
        cases hlead
      -- the character reaches beyond `s`, so it holds the byte `b`, and not as its first byte
      rcases List.append_eq_append_iff.1 hc with ⟨more, hmore, hb'⟩ | ⟨more, hmore, -⟩
      · cases more with
        | nil => exact absurd (by rw [hmore, List.append_nil, List.append_nil]) (hshort [])
        | cons b' more =>
          obtain ⟨rfl, -⟩ := List.cons.inj hb'
          have hmem : b ∈ (String.utf8EncodeChar c).tail := by
            rw [hmore, List.tail_append_of_ne_nil hs]
            simp
          have := le_of_mem_tail_utf8EncodeChar hmem
          omega
      · exact absurd hmore (hshort more)

/-- An ASCII character is not taken into a rune that begins before it. -/
theorem runes_append_ascii {b : UInt8} (hb : b.toNat < 128) (s t : Text) :
    runes (s ++ b :: t) = runes s ++ runes (b :: t) := by
  induction hs : s.runes generalizing s with
  | nil =>
    have hnil : s = [] := by
      rw [← ofRunes_runes s, hs]
      rfl
    rw [hnil]
    rfl
  | cons r rs ih =>
    obtain ⟨hsplit, hrest, hstray⟩ := runes_eq_cons hs
    cases r with
    | scalar c =>
      rw [hsplit, List.append_assoc, Rune.bytes, runes_utf8EncodeChar_append, ih _ hrest,
        List.cons_append]
    | stray b₀ =>
      rw [Rune.bytes, List.singleton_append] at hsplit
      have hlead := leadChar?_append_ascii hb (s := s) (by rw [hsplit]; simp) t
      rw [hstray b₀ rfl, hsplit, List.cons_append] at hlead
      rw [hsplit, List.cons_append, runes_cons_of_leadChar?_eq_none hlead, ih _ hrest,
        List.cons_append]

end Text

/-! ## Words of a list of runes -/

/-- The maximal runs of runes that are not white space. -/
def Rune.words (rs : List Rune) : List (List Rune) :=
  (rs.splitOnP Rune.isBlank).filter fun w => !w.isEmpty

namespace Rune

@[simp]
theorem words_nil : words [] = [] := by
  simp [words, List.splitOnP_nil]

/-- White space separates words. -/
theorem words_append_blank {r : Rune} (hr : r.isBlank = true) (front back : List Rune) :
    words (front ++ r :: back) = words front ++ words back := by
  rw [words, List.splitOnP_append_cons front back hr, List.filter_append]
  rfl

theorem words_cons_of_blank {r : Rune} (hr : r.isBlank = true) (rs : List Rune) :
    words (r :: rs) = words rs := by
  simpa using words_append_blank hr [] rs

theorem words_append_blanks {blanks : List Rune} (h : ∀ r ∈ blanks, r.isBlank = true)
    (rs : List Rune) : words (rs ++ blanks) = words rs := by
  induction blanks generalizing rs with
  | nil => rw [List.append_nil]
  | cons r blanks ih =>
    have hblanks := ih (fun s hs => h s (by simp [hs])) []
    rw [List.nil_append] at hblanks
    rw [words_append_blank (h r (by simp)), hblanks, words_nil, List.append_nil]

theorem words_blanks_append {blanks : List Rune} (h : ∀ r ∈ blanks, r.isBlank = true)
    (rs : List Rune) : words (blanks ++ rs) = words rs := by
  induction blanks with
  | nil => rw [List.nil_append]
  | cons r blanks ih =>
    rw [List.cons_append, words_cons_of_blank (h r (by simp)), ih fun s hs => h s (by simp [hs])]

theorem words_of_no_blank {rs : List Rune} (hne : rs ≠ []) (h : ∀ r ∈ rs, r.isBlank = false) :
    words rs = [rs] := by
  rw [words, List.splitOnP_eq_singleton h]
  simp [hne]

theorem words_dropWhile (rs : List Rune) : words (rs.dropWhile isBlank) = words rs := by
  have hblanks : ∀ r ∈ rs.takeWhile isBlank, r.isBlank = true := fun _ => List.mem_takeWhile_imp
  rw [← words_blanks_append hblanks, List.takeWhile_append_dropWhile]

theorem words_rdropWhile (rs : List Rune) : words (rs.rdropWhile isBlank) = words rs := by
  have hblanks : ∀ r ∈ rs.rtakeWhile isBlank, r.isBlank = true := fun _ => List.mem_rtakeWhile_imp
  rw [← words_append_blanks hblanks, List.rdropWhile_append_rtakeWhile]

/-- A word that ends at white space or at the end comes first. -/
theorem words_word_append {w rest : List Rune} (hne : w ≠ []) (hword : ∀ r ∈ w, r.isBlank = false)
    (hrest : ∀ r ∈ rest.head?, r.isBlank = true) : words (w ++ rest) = w :: words rest := by
  have hsingle := words_of_no_blank hne hword
  cases rest with
  | nil => rw [List.append_nil, hsingle, words_nil]
  | cons r rest =>
    have hr : r.isBlank = true := hrest r rfl
    rw [words_append_blank hr, hsingle, words_cons_of_blank hr, List.singleton_append]

/-- The first word of runes that do not begin with white space. -/
theorem words_cons_of_not_blank {r : Rune} (hr : r.isBlank = false) (rs : List Rune) :
    words (r :: rs) = (r :: rs).takeWhile (fun s => !s.isBlank) ::
      words ((r :: rs).dropWhile fun s => !s.isBlank) := by
  have hhead := List.head?_dropWhile_not (fun s : Rune => !s.isBlank) (r :: rs)
  conv_lhs =>
    rw [← List.takeWhile_append_dropWhile (p := fun s : Rune => !s.isBlank) (l := r :: rs)]
  refine words_word_append ?_ (fun s hs => ?_) fun s hs => ?_
  · rw [List.takeWhile_cons_of_pos (by simp [hr])]
    exact List.cons_ne_nil _ _
  · simpa using List.mem_takeWhile_imp hs
  · rw [hs] at hhead
    simpa using hhead

theorem words_eq_nil_iff {rs : List Rune} : words rs = [] ↔ ∀ r ∈ rs, r.isBlank = true := by
  constructor
  · intro h
    induction rs with
    | nil => simp
    | cons r rs ih =>
      cases hr : r.isBlank with
      | false => simp [words_cons_of_not_blank hr] at h
      | true =>
        rw [words_cons_of_blank hr] at h
        exact List.forall_mem_cons.2 ⟨hr, ih h⟩
  · intro h
    simpa using words_append_blanks h []

theorem ne_nil_of_mem_words {rs w : List Rune} (h : w ∈ words rs) : w ≠ [] := by
  rintro rfl
  simp [words] at h

theorem bytes_ne_nil (r : Rune) : r.bytes ≠ [] := by
  cases r with
  | scalar c =>
    rw [bytes, ne_eq, ← List.length_eq_zero_iff, String.length_utf8EncodeChar]
    exact c.utf8Size_pos.ne'
  | stray b => simp [bytes]

end Rune

/-! ## Words of a text -/

namespace Text

/-- The words of a text, separated by white space. -/
def words (t : Text) : List Text := (Rune.words t.runes).map ofRunes

@[simp]
theorem words_nil : words [] = [] := by
  simp [words, runes, runesAfter]

theorem words_eq_nil_iff {t : Text} : t.words = [] ↔ ∀ r ∈ t.runes, r.isBlank = true := by
  rw [words, List.map_eq_nil_iff, Rune.words_eq_nil_iff]

theorem ne_nil_of_mem_words {t w : Text} (h : w ∈ t.words) : w ≠ [] := by
  obtain ⟨rs, hrs, rfl⟩ := List.mem_map.1 h
  intro hnil
  cases rs with
  | nil => exact Rune.ne_nil_of_mem_words hrs rfl
  | cons r rs =>
    rw [ofRunes_cons] at hnil
    exact r.bytes_ne_nil (List.append_eq_nil_iff.1 hnil).1

/-- A space separates words. -/
theorem words_append_space (s t : Text) : words (s ++ 32 :: t) = s.words ++ t.words := by
  have hspace : runes (32 :: t) = .scalar ' ' :: t.runes := runes_cons_ascii (by decide) t
  rw [words, runes_append_ascii (by decide), hspace, Rune.words_append_blank (by decide),
    List.map_append]
  rfl

/-- The runes of a text without the white space at its two ends. -/
theorem runes_trim (t : Text) :
    t.trim.runes = (t.runes.dropWhile Rune.isBlank).rdropWhile Rune.isBlank := by
  have hback := (runes_ofRunes_of_append
    (List.takeWhile_append_dropWhile (p := Rune.isBlank) (l := t.runes)).symm).2
  rw [← List.rdropWhile_append_rtakeWhile (p := Rune.isBlank)
    (l := t.runes.dropWhile Rune.isBlank)] at hback
  exact (runes_ofRunes_of_append hback).1

theorem words_trim (t : Text) : t.trim.words = t.words := by
  rw [words, runes_trim, Rune.words_rdropWhile, Rune.words_dropWhile]
  rfl

/-- Nothing is left of a text without white space at its ends if it has no words. -/
theorem trim_eq_nil_iff {t : Text} : t.trim = [] ↔ t.words = [] := by
  constructor
  · intro h
    rw [← words_trim, h]
    rfl
  · intro h
    have hblank := words_eq_nil_iff.1 h
    rw [trim, List.dropWhile_eq_nil_iff.2 hblank]
    rfl

theorem words_of_plain {t : Text} (hne : t ≠ []) (h : t.Plain) : t.words = [t] := by
  have hrunes : t.runes ≠ [] := by
    intro hnil
    apply hne
    rw [← ofRunes_runes t, hnil]
    rfl
  rw [words, Rune.words_of_no_blank hrunes (isBlank_of_mem_runes_of_plain h), List.map_singleton,
    ofRunes_runes]

end Text

end HackVM
