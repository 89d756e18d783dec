import HackVM.Proofs.Comments
import HackVM.Proofs.WellFormed

/-!
# The columns of command lines

A command line has the column at which what is left of its raw line begins. That is the place of the
first rune that is neither white space nor part of a comment; `codeStart?` reads the line from left
to right, with a space in the place of every rune of a comment, and finds it. The reader does not
keep places while it strips a line. It searches the raw line for what is left, and takes the first
rune that is neither a space nor a tab if the search fails. `columns_of_read` says when both come to
the same: what is left must not occur earlier in the raw line, in a comment, and where a comment was
taken out of its middle it must occur nowhere, and only spaces and tabs may stand before it.
-/

namespace HackVM

/-! ## Where the code of a line begins -/

/-- The runes of a line with a space in the place of every rune of a comment, given whether the
line begins inside a block comment. -/
def blankComments : Bool → List Rune → List Rune
  | _, [] => []
  | false, .scalar '/' :: .scalar '/' :: rs => List.replicate (rs.length + 2) (.scalar ' ')
  | false, .scalar '/' :: .scalar '*' :: rs =>
    .scalar ' ' :: .scalar ' ' :: blankComments true rs
  | false, r :: rs => r :: blankComments false rs
  | true, .scalar '*' :: .scalar '/' :: rs =>
    .scalar ' ' :: .scalar ' ' :: blankComments false rs
  | true, _ :: rs => .scalar ' ' :: blankComments true rs

/-- The number of runes before the first one that is neither white space nor part of a comment. -/
def codeStart? (inBlock : Bool) (rs : List Rune) : Option Nat :=
  (blankComments inBlock rs).findIdx? fun r => !r.isBlank

/-- What is not blanked out stands where it stood. -/
theorem getElem?_blankComments {inBlock : Bool} {rs : List Rune} {i : Nat} {r : Rune}
    (h : (blankComments inBlock rs)[i]? = some r) (hr : r.isBlank = false) : rs[i]? = some r := by
  have hspace : r ≠ .scalar ' ' := by
    rintro rfl
    cases hr
  fun_induction blankComments inBlock rs generalizing i with
  | case1 => simp at h
  | case2 rs =>
    obtain ⟨-, rfl⟩ := List.mem_replicate.1 (List.mem_of_getElem? h)
    exact absurd rfl hspace
  | case3 rs ih | case5 rs ih =>
    match i with
    | 0 | 1 => exact absurd (Option.some.inj h).symm hspace
    | i + 2 => exact ih h
  | case4 r' rs hline hopen ih =>
    match i with
    | 0 => exact h
    | i + 1 => exact ih h
  | case6 r' rs hclose ih =>
    match i with
    | 0 => exact absurd (Option.some.inj h).symm hspace
    | i + 1 => exact ih h

/-! ### Reading characters -/

theorem scanLine_append_of_not_mem {s : Text} (h : (47 : UInt8) ∉ s) (t : Text) :
    scanLine false (s ++ t) = (s ++ (scanLine false t).1, (scanLine false t).2) := by
  induction s with
  | nil => rfl
  | cons b s ih =>
    have hb : (47 : UInt8) ≠ b := fun hb => h (by simp [hb])
    rw [List.cons_append, scanLine_cons (fun ⟨_, hu⟩ => hb (List.cons.inj hu).1)
      (fun ⟨_, hu⟩ => hb (List.cons.inj hu).1), ih fun hmem => h (by simp [hmem])]
    rfl

/-- A character that begins no comment is kept. -/
theorem scanLine_char {c : Char} {t : Text}
    (hline : ¬ lineMark <+: String.utf8EncodeChar c ++ t)
    (hopen : ¬ BlockMark.opening.text <+: String.utf8EncodeChar c ++ t) :
    scanLine false (String.utf8EncodeChar c ++ t) =
      (String.utf8EncodeChar c ++ (scanLine false t).1, (scanLine false t).2) := by
  by_cases hc : (47 : UInt8) ∈ String.utf8EncodeChar c
  · rw [Text.utf8EncodeChar_eq_of_mem (by decide) hc] at hline hopen ⊢
    exact scanLine_cons hline hopen
  · exact scanLine_append_of_not_mem hc t

theorem scanLine_block_append_of_not_mem {s : Text} (h : (42 : UInt8) ∉ s) (t : Text) :
    scanLine true (s ++ t) = scanLine true t := by
  induction s with
  | nil => rfl
  | cons b s ih =>
    rw [List.cons_append, scanLine_block_cons, ih fun hmem => h (by simp [hmem])]
    rintro ⟨u, hu⟩
    exact h (by simp [← (List.cons.inj hu).1])

theorem scanLine_block_char {c : Char} {t : Text}
    (h : ¬ BlockMark.closing.text <+: String.utf8EncodeChar c ++ t) :
    scanLine true (String.utf8EncodeChar c ++ t) = scanLine true t := by
  by_cases hc : (42 : UInt8) ∈ String.utf8EncodeChar c
  · rw [Text.utf8EncodeChar_eq_of_mem (by decide) hc] at h ⊢
    exact scanLine_block_cons h
  · exact scanLine_block_append_of_not_mem hc t

/-- **Blanking comments out and leaving them out keep the same runes**, white space aside. -/
theorem filter_runes_scanLine {inBlock : Bool} {s : Text} (hs : s.isWellFormed = true) :
    (scanLine inBlock s).1.isWellFormed = true ∧
      ((scanLine inBlock s).1.runes.filter fun r => !r.isBlank) =
        (blankComments inBlock s.runes).filter fun r => !r.isBlank := by
  generalize hrs : s.runes = rs
  fun_induction blankComments inBlock rs generalizing s with
  | case1 inBlock =>
    obtain rfl : s = [] := by rw [← Text.ofRunes_runes s, hrs]; rfl
    rw [scanLine]
    exact ⟨rfl, rfl⟩
  | case2 rs =>
    obtain ⟨t, rfl, -, -⟩ := Text.exists_append_of_runes lineMark rfl hs hrs
    rw [scanLine_lineMark, List.filter_replicate_of_neg (by decide)]
    exact ⟨rfl, rfl⟩
  | case3 rs ih =>
    obtain ⟨t, rfl, ht, hwell⟩ :=
      Text.exists_append_of_runes BlockMark.opening.text rfl hs hrs
    obtain ⟨hkept, hfilter⟩ := ih hwell ht
    rw [scanLine_opening, Text.isWellFormed_cons_ascii (by decide),
      Text.runes_cons_ascii (by decide)]
    exact ⟨hkept, hfilter⟩
  | case4 r rs hline hopen ih =>
    obtain ⟨c, t, rfl, rfl, ht, hwell⟩ := Text.exists_char_of_runes hs hrs
    obtain ⟨hkept, hfilter⟩ := ih hwell ht
    have hnotLine : ¬ lineMark <+: String.utf8EncodeChar c ++ t := fun hmark => by
      obtain ⟨u, hu⟩ := hrs ▸ Text.isPrefix_runes rfl hmark
      exact hline u (List.cons.inj hu).1.symm (List.cons.inj hu).2.symm
    have hnotOpen : ¬ BlockMark.opening.text <+: String.utf8EncodeChar c ++ t := fun hmark => by
      obtain ⟨u, hu⟩ := hrs ▸ Text.isPrefix_runes rfl hmark
      exact hopen u (List.cons.inj hu).1.symm (List.cons.inj hu).2.symm
    rw [scanLine_char hnotLine hnotOpen, Text.isWellFormed_char_append,
      Text.runes_utf8EncodeChar_append, List.filter_cons, List.filter_cons, hfilter]
    exact ⟨hkept, rfl⟩
  | case5 rs ih =>
    obtain ⟨t, rfl, ht, hwell⟩ :=
      Text.exists_append_of_runes BlockMark.closing.text rfl hs hrs
    rw [scanLine_closing]
    exact ih hwell ht
  | case6 r rs hclose ih =>
    obtain ⟨c, t, rfl, rfl, ht, hwell⟩ := Text.exists_char_of_runes hs hrs
    have hnotClose : ¬ BlockMark.closing.text <+: String.utf8EncodeChar c ++ t := fun hmark => by
      obtain ⟨u, hu⟩ := hrs ▸ Text.isPrefix_runes rfl hmark
      exact hclose u (List.cons.inj hu).1.symm (List.cons.inj hu).2.symm
    rw [scanLine_block_char hnotClose]
    exact ih hwell ht

/-! ## What is left begins with the code -/

theorem stripCode_eq_trim {s text : Text} {b : Bool} (h : stripCode s = (b, .ok text)) :
    ∃ u : Text, text = u.trim := by
  simp only [stripCode] at h
  split at h
  · simp at h
  · split at h
    · simp only [Prod.mk.injEq, Except.ok.injEq] at h
      exact ⟨_, h.2.symm⟩
    · split at h
      · simp at h
      · split at h
        · simp only [Prod.mk.injEq, Except.ok.injEq] at h
          exact ⟨_, h.2.symm⟩
        · simp only [Prod.mk.injEq, Except.ok.injEq] at h
          exact ⟨_, h.2.symm⟩

theorem strip_eq_trim {inBlock b : Bool} {s text : Text} (h : strip inBlock s = (b, .ok text)) :
    ∃ u : Text, text = u.trim := by
  cases inBlock with
  | false => exact stripCode_eq_trim h
  | true =>
    simp only [strip, if_true] at h
    split at h
    · simp at h
    · split at h
      · simp only [Prod.mk.injEq, Except.ok.injEq] at h
        exact ⟨[], h.2.symm⟩
      · exact stripCode_eq_trim h

/-- What is left of a line begins with the first rune of its code. -/
theorem codeStart?_of_strip {inBlock b : Bool} {s text : Text} (hs : s.isWellFormed = true)
    (h : strip inBlock s = (b, .ok text)) (hne : text ≠ []) :
    ∃ c r, codeStart? inBlock s.runes = some c ∧ s.runes[c]? = some r ∧
      text.runes.head? = some r ∧ r.isBlank = false := by
  obtain ⟨r, hhead⟩ : ∃ r, text.runes.head? = some r := by
    cases hrunes : text.runes with
    | nil => exact absurd (by rw [← Text.ofRunes_runes text, hrunes]; rfl) hne
    | cons r rs => exact ⟨r, rfl⟩
  obtain ⟨u, rfl⟩ := strip_eq_trim h
  have hr := Text.isBlank_of_head?_runes_trim hhead
  have hfilter := (Text.filter_runes_of_words (strip_scanLine h).2.words_eq).trans
    (filter_runes_scanLine hs).2
  have hfind : (blankComments inBlock s.runes).find? (fun r => !r.isBlank) = some r := by
    obtain ⟨rs, hrs⟩ := List.head?_eq_some_iff.1 hhead
    rw [← List.head?_filter, ← hfilter, List.head?_filter, hrs,
      List.find?_cons_of_pos (by simp [hr])]
  obtain ⟨hnot, c, hc, hcr, hbefore⟩ := List.find?_eq_some_iff_getElem.1 hfind
  refine ⟨c, r, List.findIdx?_eq_some_iff_getElem.2 ⟨hc, by rw [hcr]; exact hnot, ?_⟩,
    getElem?_blankComments (by rw [List.getElem?_eq_getElem hc, hcr]) hr, hhead, hr⟩
  intro j hj
  simpa using hbefore j hj

/-! ## The column of what is found -/

/-- The runes stand in the others from a position on, and not from an earlier one on. -/
def StandsFirst (t rs : List Rune) (i : Nat) : Prop :=
  t <+: rs.drop i ∧ ∀ j < i, ¬ t <+: rs.drop j

theorem StandsFirst.unique {t rs : List Rune} {i j : Nat} (hi : StandsFirst t rs i)
    (hj : StandsFirst t rs j) : i = j := by
  rcases Nat.lt_trichotomy i j with h | h | h
  · exact absurd hi.1 (hj.2 i h)
  · exact h
  · exact absurd hj.1 (hi.2 j h)

/-- Cutting at a mark cuts at its first occurrence. -/
theorem Text.length_le_of_cut? {mark t before after front back : Text}
    (h : cut? mark t = some (before, after)) (ht : t = front ++ mark ++ back) :
    before.length ≤ front.length := by
  induction t generalizing before front with
  | nil =>
    have hbefore := (List.append_eq_nil_iff.1 (cut?_eq_some h).symm).1
    rw [(List.append_eq_nil_iff.1 hbefore).1]
    exact Nat.zero_le _
  | cons b t ih =>
    rcases cut?_cons_eq_some h with ⟨rfl, -⟩ | ⟨hnot, before, rfl, hcut⟩
    · exact Nat.zero_le _
    · cases front with
      | nil => exact absurd ⟨back, ht.symm⟩ hnot
      | cons b' front =>
        exact Nat.succ_le_succ (ih hcut (List.cons.inj ht).2)

theorem StandsFirst.isInfix {t rs : List Rune} {i : Nat} (h : StandsFirst t rs i) : t <:+: rs :=
  h.1.isInfix.trans (List.drop_suffix i rs).isInfix

/-- Only white space stands before the runes, and they do not begin with white space. -/
theorem standsFirst_of_blanks {t front back : List Rune} (hfront : ∀ r ∈ front, r.isBlank = true)
    {r : Rune} (ht : t.head? = some r) (hr : r.isBlank = false) :
    StandsFirst t (front ++ t ++ back) front.length := by
  refine ⟨?_, ?_⟩
  · rw [List.append_assoc, List.drop_left]
    exact List.prefix_append _ _
  · rintro j hj ⟨rest, hrest⟩
    have hget : (front ++ t ++ back)[j]? = some r := by
      rw [← List.head?_drop, ← hrest, List.head?_append, ht, Option.some_or]
    rw [List.append_assoc, List.getElem?_append_left hj] at hget
    have hblank := hfront r (List.mem_of_getElem? hget)
    rw [hr] at hblank
    cases hblank

theorem standsFirst_of_cut? {mark t before after : Text} (ht : t.isWellFormed = true)
    (hmark : mark.isWellFormed = true) (hne : mark ≠ [])
    (h : Text.cut? mark t = some (before, after)) :
    StandsFirst mark.runes t.runes before.runes.length := by
  have hsplit := Text.cut?_eq_some h
  obtain ⟨hbefore, -⟩ := Text.isWellFormed_of_append (hsplit ▸ ht) hmark hne
  have hrunes : t.runes = before.runes ++ (mark.runes ++ after.runes) := by
    rw [hsplit, List.append_assoc, Text.runes_append hbefore, Text.runes_append hmark]
  refine ⟨?_, ?_⟩
  · rw [hrunes, List.drop_left]
    exact List.prefix_append _ _
  · rintro j hj ⟨back, hback⟩
    have hfront : t = Text.ofRunes (t.runes.take j) ++ mark ++ Text.ofRunes back := by
      conv_lhs => rw [← Text.ofRunes_runes t, ← List.take_append_drop j t.runes, ← hback]
      rw [Text.ofRunes_append, Text.ofRunes_append, Text.ofRunes_runes, List.append_assoc]
    have hle := Text.length_le_of_cut? h hfront
    -- the runes before the mark are more than `j`, and every rune has a byte
    obtain ⟨r, rest, hrest⟩ : ∃ r rest, before.runes.drop j = r :: rest :=
      List.exists_cons_of_ne_nil fun hnil => by
        rw [List.drop_eq_nil_iff] at hnil
        omega
    have hlength : before.length =
        (Text.ofRunes (t.runes.take j)).length + (r.bytes ++ Text.ofRunes rest).length := by
      rw [hrunes, List.take_append_of_le_length hj.le, ← List.length_append, ← Text.ofRunes_cons,
        ← hrest, ← Text.ofRunes_append, List.take_append_drop, Text.ofRunes_runes]
    have hpos := List.length_pos_iff.2 r.bytes_ne_nil
    rw [List.length_append] at hlength
    omega

theorem runes_takeWhile_spaces (t : Text) :
    Text.runes (t.takeWhile fun b => b = 32 || b = 9) =
      t.runes.takeWhile fun r => r = .scalar ' ' || r = .scalar '\t' := by
  induction t with
  | nil => rfl
  | cons b t ih =>
    by_cases hb : b = 32 ∨ b = 9
    · rw [List.takeWhile_cons_of_pos (by simpa using hb)]
      rcases hb with rfl | rfl
      · rw [Text.runes_cons_ascii (by decide), Text.runes_cons_ascii (by decide), ih,
          List.takeWhile_cons_of_pos (by decide)]
      · rw [Text.runes_cons_ascii (by decide), Text.runes_cons_ascii (by decide), ih,
          List.takeWhile_cons_of_pos (by decide)]
    · rw [List.takeWhile_cons_of_neg (by simpa using hb)]
      cases hrunes : Text.runes (b :: t) with
      | nil => rfl
      | cons r rs =>
        obtain ⟨hsplit, -, -⟩ := Text.runes_eq_cons hrunes
        rw [List.takeWhile_cons_of_neg]
        · rfl
        · simp only [Bool.or_eq_true, decide_eq_true_eq]
          rintro (rfl | rfl)
          · exact hb (.inl (List.cons.inj hsplit).1)
          · exact hb (.inr (List.cons.inj hsplit).1)

theorem length_takeWhile_eq_iff {p : Rune → Bool} {rs : List Rune} {c : Nat} {r : Rune}
    (hc : rs[c]? = some r) (hr : p r = false) :
    (rs.takeWhile p).length = c ↔ ∀ r ∈ rs.take c, p r = true := by
  obtain ⟨hlt, hget⟩ := List.getElem?_eq_some_iff.1 hc
  constructor
  · intro hlength r' hr'
    have htake : rs.take c = rs.takeWhile p := by
      rw [← hlength]
      exact (List.prefix_iff_eq_take.1 (List.takeWhile_prefix p)).symm
    rw [htake] at hr'
    exact List.mem_takeWhile_imp hr'
  · intro hall
    have hsplit : rs = rs.take c ++ r :: rs.drop (c + 1) := by
      rw [← hget, ← List.drop_eq_getElem_cons hlt, List.take_append_drop]
    rw [hsplit, List.takeWhile_append_of_pos hall, List.takeWhile_cons_of_neg (by simp [hr]),
      List.append_nil, List.length_take, Nat.min_eq_left hlt.le]

namespace CommandLine

/-- **Where the column of what is left points to.** -/
theorem startColumn_eq_iff {s text : Text} (hs : s.isWellFormed = true)
    (htext : text.isWellFormed = true) (hne : text ≠ []) {c : Nat} {r : Rune}
    (hc : s.runes[c]? = some r) (hr : r.isBlank = false) :
    startColumn s text = c + 1 ↔
      StandsFirst text.runes s.runes c ∨
        ¬ text.runes <:+: s.runes ∧
          ∀ r ∈ s.runes.take c, r = .scalar ' ' ∨ r = .scalar '\t' := by
  rw [startColumn, Text.position?]
  cases hcut : Text.cut? text s with
  | some parts =>
    obtain ⟨before, after⟩ := parts
    have hfirst := standsFirst_of_cut? hs htext hne hcut
    have hcolumn : s.columnAt before.length = before.runes.length + 1 := by
      rw [Text.cut?_eq_some hcut, List.append_assoc, Text.columnAt_append]
    simp only [Option.map_some, hcolumn, Nat.add_right_cancel_iff]
    constructor
    · rintro rfl
      exact .inl hfirst
    · rintro (hc | ⟨hnot, -⟩)
      · exact hfirst.unique hc
      · exact absurd hfirst.isInfix hnot
  | none =>
    have hnot : ¬ text.runes <:+: s.runes := fun h =>
      (Text.cut?_eq_none_iff hne).1 hcut (Text.isInfix_of_runes h)
    have hspaces := length_takeWhile_eq_iff
      (p := fun r => r = .scalar ' ' || r = .scalar '\t') hc (by
        simp only [Bool.or_eq_false_iff, decide_eq_false_iff_not]
        constructor <;> rintro rfl <;> cases hr)
    have hfront := List.prefix_iff_eq_take.1 (List.takeWhile_prefix
      (fun b : UInt8 => b = 32 || b = 9) (l := s))
    simp only [Option.map_none, Text.columnAt, Text.runeCount, ← hfront, runes_takeWhile_spaces,
      Nat.add_right_cancel_iff, hspaces, Bool.or_eq_true, decide_eq_true_eq]
    constructor
    · exact fun h => .inr ⟨hnot, h⟩
    · rintro (hfirst | ⟨-, h⟩)
      · exact absurd hfirst.isInfix hnot
      · exact h

end CommandLine

/-! ## Reading a source -/

namespace CommandLine

/-- The raw line that a command line comes from, if raw lines are numbered from `number` on and the
first of them begins inside a block comment or not. -/
structure ComesFrom (number : Nat) (inBlock : Bool) (raw : List Text) (l : CommandLine) (i : Nat)
    (s : Text) : Prop where
  getElem?_eq : raw[i]? = some s
  number_eq : l.number = number + i
  strip_eq : ∃ b, strip (scanLines inBlock (raw.take i)).2 s = (b, .ok l.text)
  text_ne_nil : l.text ≠ []
  column_eq : l.column = startColumn s l.text

theorem exists_comesFrom {number : Nat} {inBlock b : Bool} {raw : List Text}
    {lines : List CommandLine} (h : readFrom number inBlock raw = (b, .ok lines))
    {l : CommandLine} (hl : l ∈ lines) : ∃ i s, ComesFrom number inBlock raw l i s := by
  induction raw generalizing number inBlock lines with
  | nil =>
    simp only [readFrom, Prod.mk.injEq, Except.ok.injEq] at h
    rw [← h.2] at hl
    cases hl
  | cons s rest ih =>
    obtain ⟨b₁, text, linesRest, hstrip, hrest, rfl⟩ := readFrom_cons_eq_ok h
    have hlater (hl : l ∈ linesRest) : ∃ i s', ComesFrom number inBlock (s :: rest) l i s' := by
      obtain ⟨i, s', hfrom⟩ := ih hrest hl
      refine ⟨i + 1, s', hfrom.getElem?_eq, ?_, ?_, hfrom.text_ne_nil, hfrom.column_eq⟩
      · rw [hfrom.number_eq]
        push_cast
        omega
      · rw [List.take_succ_cons, scanLines_cons_snd, (strip_scanLine hstrip).1]
        exact hfrom.strip_eq
    by_cases htext : text = []
    · rw [if_pos htext] at hl
      exact hlater hl
    · rw [if_neg htext] at hl
      rcases List.mem_cons.1 hl with rfl | hl
      · exact ⟨0, s, rfl, by simp, ⟨b₁, hstrip⟩, htext, rfl⟩
      · exact hlater hl

theorem ComesFrom.isWellFormed {number : Nat} {inBlock : Bool} {raw : List Text}
    {l : CommandLine} {i : Nat} {s : Text} (h : ComesFrom number inBlock raw l i s)
    (hs : s.isWellFormed = true) : l.text.isWellFormed = true := by
  obtain ⟨b, hstrip⟩ := h.strip_eq
  exact Text.isWellFormed_of_words (strip_scanLine hstrip).2.words_eq (filter_runes_scanLine hs).1

end CommandLine

theorem SourceReader.readFrom_of_read {r : SourceReader} {raw : List Text}
    {lines : List CommandLine} (h : (r.read raw).2 = .ok lines) :
    ∃ b, CommandLine.readFrom 1 false raw = (b, .ok lines) := by
  rw [read, reset] at h
  rcases hread : CommandLine.readFrom 1 false raw with ⟨b, e | _ | ⟨l, ls⟩⟩
  · simp [hread] at h
  · simp [hread] at h
  · simp only [hread] at h
    obtain rfl := Except.ok.inj h
    exact ⟨b, rfl⟩

/-- **The column of a command line.** A command line comes from the raw line of its number, and it
begins with the first rune of that line that is neither white space nor part of a comment. Its
column is the place of that rune if and only if the line's text stands in the raw line from there on
and not from an earlier rune on, or if it stands nowhere in the raw line and only spaces and tabs
precede the rune. -/
theorem columns_of_read (r : SourceReader) {raw : List Text}
    (hraw : ∀ s ∈ raw, s.isWellFormed = true) {lines : List CommandLine}
    (h : (r.read raw).2 = .ok lines) {l : CommandLine} (hl : l ∈ lines) :
    ∃ (i : Nat) (s : Text) (c : Nat), raw[i]? = some s ∧ l.number = i + 1 ∧
      codeStart? (scanLines false (raw.take i)).2 s.runes = some c ∧
      s.runes[c]? = l.text.runes.head? ∧
      (l.column = c + 1 ↔
        StandsFirst l.text.runes s.runes c ∨
          ¬ l.text.runes <:+: s.runes ∧
            ∀ r ∈ s.runes.take c, r = .scalar ' ' ∨ r = .scalar '\t') := by
  obtain ⟨_, hread⟩ := SourceReader.readFrom_of_read h
  obtain ⟨i, s, hfrom⟩ := CommandLine.exists_comesFrom hread hl
  obtain ⟨_, hstrip⟩ := hfrom.strip_eq
  have hs := hraw s (List.mem_of_getElem? hfrom.getElem?_eq)
  obtain ⟨c, r, hstart, hc, hhead, hr⟩ := codeStart?_of_strip hs hstrip hfrom.text_ne_nil
  refine ⟨i, s, c, hfrom.getElem?_eq, ?_, hstart, hc.trans hhead.symm, ?_⟩
  · rw [hfrom.number_eq]
    push_cast
    omega
  · rw [hfrom.column_eq]
    exact CommandLine.startColumn_eq_iff hs (hfrom.isWellFormed hs) hfrom.text_ne_nil hc hr

/-- A command behind a block comment that was opened on the line before, and a wide space. -/
theorem columns_of_read_wide_space :
    (SourceReader.read {} [utf8 "/* é", utf8 "é */\u3000add"]).2 = .ok [⟨2, 6, utf8 "add"⟩] ∧
      ∃ (i : Nat) (s : Text) (c : Nat),
        [utf8 "/* é", utf8 "é */\u3000add"][i]? = some s ∧ (2 : Int) = i + 1 ∧
        codeStart? (scanLines false ([utf8 "/* é", utf8 "é */\u3000add"].take i)).2 s.runes =
          some c ∧
        s.runes[c]? = (utf8 "add").runes.head? ∧
        (6 = c + 1 ↔
          StandsFirst (utf8 "add").runes s.runes c ∨
            ¬ (utf8 "add").runes <:+: s.runes ∧
              ∀ r ∈ s.runes.take c, r = .scalar ' ' ∨ r = .scalar '\t') := by
  have hread : (SourceReader.read {} [utf8 "/* é", utf8 "é */\u3000add"]).2 =
      .ok [⟨2, 6, utf8 "add"⟩] := rfl
  exact ⟨hread, columns_of_read {} (by decide +kernel) hread (List.mem_singleton.2 rfl)⟩

/-- The text of the command stands in the comment before it, and the column points there. -/
theorem column_inside_comment :
    (SourceReader.read {} [utf8 "/* add */ add"]).2 = .ok [⟨1, 4, utf8 "add"⟩] ∧
      codeStart? false (utf8 "/* add */ add").runes = some 10 :=
  ⟨rfl, rfl⟩

end HackVM
