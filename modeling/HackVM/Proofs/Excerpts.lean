import HackVM.Proofs.ErrorPlaces
import HackVM.Proofs.SurplusMarks

/-!
# Excerpts of a source

The excerpt of a source around a place shows the lines from two before to two after the line of the
place, as far as there are such. `ShowsPlace` says what its rows are: one for each of these lines,
with a marker, the number and the text of the line, and a caret below the marked one, at the offset
at which the rune in the column of the place stands there. `excerpt` yields just these rows for
every place in a source (`excerpt_eq_flatMap`, `caretBelow_caretLine`), and nothing for a line that
the source does not have.

The lines of a text hold no line feeds, so an excerpt finds the lines of a source again in their
join. An error that has a place has the number of one of them (`exists_line_of_compile_error`), and
so its excerpt marks that line (`excerpt_shows_place`).
-/

namespace HackVM

namespace Text

/-! ## Digits, lines and ASCII characters -/

/-- The digits of a number in decimal, without superfluous zeros. -/
def numeral (n : Nat) : Text := (Nat.digits 10 n).reverse.map fun d => UInt8.ofNat (48 + d)

theorem toUInt8_digitChar {d : Nat} (hd : d < 10) :
    d.digitChar.toNat.toUInt8 = UInt8.ofNat (48 + d) := by
  interval_cases d <;> rfl

theorem ofNat_eq_numeral {n : Nat} (hn : 0 < n) : ofNat n = numeral n := by
  induction n using Nat.strong_induction_on with
  | h n ih =>
    rw [numeral, Nat.digits_def' (by decide) hn, List.reverse_cons, List.map_append]
    rcases Nat.lt_or_ge n 10 with hlt | hge
    · rw [ofNat, Nat.toDigits_of_lt_base hlt, Nat.div_eq_of_lt hlt, Nat.mod_eq_of_lt hlt]
      simp [toUInt8_digitChar hlt]
    · have hfront := ih (n / 10) (by omega) (by omega)
      rw [ofNat, numeral] at hfront
      rw [ofNat, Nat.toDigits_of_base_le (by decide) hge, List.map_append, hfront]
      simp [toUInt8_digitChar (n.mod_lt (by decide : 10 > 0))]

theorem length_numeral_le {m n : Nat} (h : m ≤ n) : (numeral m).length ≤ (numeral n).length := by
  simp only [numeral, List.length_map, List.length_reverse]
  exact Nat.le_length_digits_le 10 m n h

theorem padNat_eq_leftpad {n : Nat} (hn : 0 < n) (width : Nat) :
    padNat width n = (numeral n).leftpad width 32 := by
  rw [padNat, ofNat_eq_numeral hn]
  rfl

theorem not_mem_of_mem_splitOn {b : UInt8} {t l : Text} (h : l ∈ t.splitOn b) : b ∉ l := by
  induction t generalizing l with
  | nil =>
    rw [List.splitOn_nil, List.mem_singleton] at h
    simp [h]
  | cons c t ih =>
    rw [List.splitOn_cons_eq_if_modifyHead] at h
    split at h
    · rcases List.mem_cons.1 h with rfl | h
      · exact List.not_mem_nil
      · exact ih h
    · next hne =>
      cases hsplit : t.splitOn b with
      | nil => exact absurd hsplit (List.splitOn_ne_nil b t)
      | cons l' ls =>
        rw [hsplit, List.modifyHead_cons] at h
        rcases List.mem_cons.1 h with rfl | h
        · have hl' : b ∉ l' := ih (by simp [hsplit])
          rw [List.mem_cons, not_or]
          exact ⟨fun hbc => hne (by rw [hbc, beq_self_eq_true]), hl'⟩
        · exact ih (by simp [hsplit, h])

/-- Rows that end with a line feed each are found again, with an empty one after the last. -/
theorem splitOn_flatMap_lineFeed {rows : List Text} (h : ∀ row ∈ rows, lineFeed ∉ row) :
    (rows.flatMap fun row => row ++ [lineFeed]).splitOn lineFeed = rows ++ [[]] := by
  induction rows with
  | nil => rfl
  | cons row rows ih =>
    rw [List.flatMap_cons, List.append_assoc, List.singleton_append,
      List.splitOn_append_cons_self_of_not_mem (h row (by simp)),
      ih fun row' hrow' => h row' (by simp [hrow']), List.cons_append]

/-- An ASCII character is one rune, whatever follows it. -/
theorem runes_ascii_append {s : Text} (hs : ∀ b ∈ s, b.toNat < 128) (t : Text) :
    (s ++ t).runes = (s.map fun b => .scalar (Char.ofNat b.toNat)) ++ t.runes := by
  induction s with
  | nil => rfl
  | cons b s ih =>
    rw [List.cons_append, runes_cons_ascii (hs b (by simp)), ih fun c hc => hs c (by simp [hc])]
    rfl

end Text

theorem lineFeed_not_mem_of_mem_sourceLines {t l : Text} (h : l ∈ sourceLines t) :
    Text.lineFeed ∉ l := by
  rw [sourceLines] at h
  split at h
  · cases h
  · exact Text.not_mem_of_mem_splitOn h

/-! ## What is shown of a place -/

/-- The number of the first line that is shown around a line. -/
def firstShown (line : Nat) : Nat := max 1 (line - 2)

/-- The number of the last line that is shown around a line, in a source of so many lines. -/
def lastShown (count line : Nat) : Nat := min count (line + 2)

/-- The width of the largest number that is shown. -/
def numberWidth (count line : Nat) : Nat := (Text.numeral (lastShown count line)).length

/-- What stands before the text of a line: a marker, the number at the right end of its field, and
a bar. -/
def margin (width : Nat) (marker : Text) (number : Nat) : Text :=
  marker ++ (Text.numeral number).leftpad width 32 ++ utf8 " | "

/-- A line of a source as it is shown around another one. -/
def shownLine (lines : List Text) (line : Nat) (marker : Text) (number : Nat) : Text :=
  margin (numberWidth lines.length line) marker number ++ lines.getD (number - 1) []

/-- The rows that show a place: the lines around the marked one, and a caret below it. -/
def shownRows (lines : List Text) (line : Nat) (caret : Text) : List Text :=
  (List.range' (firstShown line) (line - firstShown line)).map (shownLine lines line (utf8 "  ")) ++
    shownLine lines line (utf8 "> ") line :: caret ::
      (List.range' (line + 1) (lastShown lines.length line - line)).map
        (shownLine lines line (utf8 "  "))

/-- The row ends with the text, and the caret stands behind spaces alone at the offset at which the
rune of the text in this column stands in the row. -/
def CaretBelow (caret row text : Text) (column : Nat) : Prop :=
  ∃ front, row.runes = front ++ text.runes ∧
    caret.runes = List.replicate (front.length + (column - 1)) (.scalar ' ') ++ [.scalar '^']

/-- The output shows a place in some lines: its rows are those of the place, every number fits into
its field, and the caret stands below the column. -/
structure ShowsPlace (out : Text) (lines : List Text) (line column : Nat) : Prop where
  rows_eq : ∃ caret, out.splitOn Text.lineFeed = shownRows lines line caret ++ [[]] ∧
    CaretBelow caret (shownLine lines line (utf8 "> ") line) (lines.getD (line - 1) []) column
  fits : ∀ number ≤ lastShown lines.length line,
    (Text.numeral number).length ≤ numberWidth lines.length line

/-! ## The rows of an excerpt -/

/-- The caret line of an excerpt. -/
def caretLine (width column : Nat) : Text := List.replicate (width + 5 + (column - 1)) 32 ++ [94]

section Rows

variable {source : Text} {lines : List Text} {line : Nat}

theorem zipIdx_take_drop {first last : Nat} (h : last ≤ lines.length) :
    ((lines.take last).drop first).zipIdx (first + 1) =
      (List.range' (first + 1) (last - first)).map fun number =>
        (lines.getD (number - 1) [], number) := by
  refine List.ext_getElem (by simp; omega) fun i hi hi' => ?_
  simp only [List.length_zipIdx, List.length_drop, List.length_take] at hi
  simp only [List.getElem_zipIdx, List.getElem_drop, List.getElem_take, List.getElem_map,
    List.getElem_range', Nat.one_mul]
  rw [List.getD_eq_getElem _ _ (by omega)]
  simp only [Nat.add_right_comm first 1 i, Nat.add_sub_cancel]

theorem excerptRow_of_ne {number : Nat} (hne : number ≠ line) (hpos : 0 < number) (column : Int) :
    excerptRow (numberWidth lines.length line) line column number (lines.getD (number - 1) []) =
      shownLine lines line (utf8 "  ") number ++ [Text.lineFeed] := by
  rw [excerptRow, if_neg hne, Text.padNat_eq_leftpad hpos, shownLine, margin]
  simp only [List.append_assoc]
  rfl

theorem excerptRow_self (hpos : 0 < line) (column : Int) :
    excerptRow (numberWidth lines.length line) line column line (lines.getD (line - 1) []) =
      shownLine lines line (utf8 "> ") line ++ [Text.lineFeed] ++
        (caretLine (numberWidth lines.length line) column.toNat ++ [Text.lineFeed]) := by
  have hindent : 2 + numberWidth lines.length line + 3 + (column - 1).toNat =
      numberWidth lines.length line + 5 + (column.toNat - 1) := by omega
  rw [excerptRow, if_pos rfl, Text.padNat_eq_leftpad hpos, shownLine, margin, hindent]
  simp only [List.append_assoc, caretLine]
  rfl

/-- An excerpt goes through the numbers of the lines that it shows. -/
theorem excerpt_eq_excerptRows (hlines : source.splitOn Text.lineFeed = lines) (hne : source ≠ [])
    (hpos : 0 < line) (hle : line ≤ lines.length) (column : Int) :
    excerpt source line column =
      (List.range' (firstShown line) (lastShown lines.length line + 1 - firstShown line)).flatMap
        fun number => excerptRow (numberWidth lines.length line) line column number
          (lines.getD (number - 1) []) := by
  have hlast : min (line + excerptMargin) lines.length = lastShown lines.length line :=
    Nat.min_comm _ _
  have hlastle : lastShown lines.length line ≤ lines.length := Nat.min_le_left _ _
  have hlastpos : 0 < lastShown lines.length line := by
    simp only [lastShown]
    omega
  have hfirst : line - excerptMargin - 1 + 1 = firstShown line := by
    simp only [excerptMargin, firstShown]
    omega
  have hcount : lastShown lines.length line - (line - excerptMargin - 1) =
      lastShown lines.length line + 1 - firstShown line := by omega
  have hinside : ¬ (source = [] ∨ (line : Int) ≤ 0 ∨ (lines.length : Int) < line) := by
    rintro (h | h | h)
    · exact hne h
    · omega
    · omega
  simp only [excerpt, hlines]
  rw [if_neg hinside, Int.toNat_natCast, hlast, zipIdx_take_drop hlastle, hfirst, hcount,
    List.flatMap_map, Text.ofNat_eq_numeral hlastpos]
  rfl

/-- **The rows of an excerpt**, each ended by a line feed, are those that show the place. -/
theorem excerpt_eq_flatMap (hlines : source.splitOn Text.lineFeed = lines) (hne : source ≠ [])
    (hpos : 0 < line) (hle : line ≤ lines.length) (column : Int) :
    excerpt source line column =
      (shownRows lines line (caretLine (numberWidth lines.length line) column.toNat)).flatMap
        fun row => row ++ [Text.lineFeed] := by
  have hfirst : 1 ≤ firstShown line ∧ firstShown line ≤ line := by
    simp only [firstShown]
    omega
  have hlast : line ≤ lastShown lines.length line := by
    simp only [lastShown]
    omega
  have hrange : List.range' (firstShown line) (lastShown lines.length line + 1 - firstShown line) =
      List.range' (firstShown line) (line - firstShown line) ++
        line :: List.range' (line + 1) (lastShown lines.length line - line) := by
    have hcount : lastShown lines.length line + 1 - firstShown line =
        line - firstShown line + (lastShown lines.length line - line + 1) := by omega
    rw [hcount, ← List.range'_append_1, Nat.add_sub_cancel' hfirst.2, List.range'_succ]
  have hother {start count : Nat} (h : 0 < start ∧ (start + count ≤ line ∨ line < start)) :
      ((List.range' start count).flatMap fun number =>
        excerptRow (numberWidth lines.length line) line column number
          (lines.getD (number - 1) [])) =
        ((List.range' start count).map (shownLine lines line (utf8 "  "))).flatMap
          fun row => row ++ [Text.lineFeed] := by
    rw [List.flatMap_map]
    refine List.flatMap_congr fun number hnumber => ?_
    rw [List.mem_range'_1] at hnumber
    exact excerptRow_of_ne (by omega) (by omega) column
  rw [excerpt_eq_excerptRows hlines hne hpos hle, hrange, List.flatMap_append, List.flatMap_cons,
    hother (by omega), hother (by omega), excerptRow_self hpos, shownRows]
  simp only [List.flatMap_append, List.flatMap_cons, List.append_assoc]

theorem bounds_of_mem_margin {width number : Nat} {marker : Text}
    (hmarker : ∀ b ∈ marker, 32 ≤ b.toNat ∧ b.toNat < 128) {b : UInt8}
    (hb : b ∈ margin width marker number) : 32 ≤ b.toNat ∧ b.toNat < 128 := by
  simp only [margin, List.leftpad, List.mem_append] at hb
  rcases hb with (hb | hb | hb) | hb
  · exact hmarker b hb
  · rw [List.eq_of_mem_replicate hb]
    decide
  · obtain ⟨d, hd, rfl⟩ := List.mem_map.1 hb
    have hlt := Nat.digits_lt_base (by decide : 1 < 10) (List.mem_reverse.1 hd)
    rw [UInt8.toNat_ofNat']
    omega
  · revert b
    decide +kernel

theorem lineFeed_not_mem_shownLine (hlines : ∀ l ∈ lines, Text.lineFeed ∉ l) {marker : Text}
    (hmarker : ∀ b ∈ marker, 32 ≤ b.toNat ∧ b.toNat < 128) (number : Nat) :
    Text.lineFeed ∉ shownLine lines line marker number := by
  intro hmem
  rcases List.mem_append.1 hmem with hmem | hmem
  · exact absurd (bounds_of_mem_margin hmarker hmem).1 (by decide)
  · rw [List.getD_eq_getElem?_getD] at hmem
    cases hl : lines[number - 1]? with
    | none => simp [hl] at hmem
    | some l =>
      rw [hl] at hmem
      exact hlines l (List.mem_of_getElem? hl) hmem

theorem lineFeed_not_mem_of_mem_shownRows (hlines : ∀ l ∈ lines, Text.lineFeed ∉ l)
    {caret row : Text} (hcaret : Text.lineFeed ∉ caret) (hrow : row ∈ shownRows lines line caret) :
    Text.lineFeed ∉ row := by
  simp only [shownRows, List.mem_append, List.mem_cons, List.mem_map] at hrow
  rcases hrow with ⟨number, -, rfl⟩ | rfl | rfl | ⟨number, -, rfl⟩
  · exact lineFeed_not_mem_shownLine hlines (by decide +kernel) number
  · exact lineFeed_not_mem_shownLine hlines (by decide +kernel) line
  · exact hcaret
  · exact lineFeed_not_mem_shownLine hlines (by decide +kernel) number

theorem caretBelow_caretLine (hle : line ≤ lines.length) (column : Nat) :
    CaretBelow (caretLine (numberWidth lines.length line) column)
      (shownLine lines line (utf8 "> ") line) (lines.getD (line - 1) []) column := by
  have hwidth : (Text.numeral line).length ≤ numberWidth lines.length line :=
    Text.length_numeral_le (Nat.le_min.2 ⟨hle, Nat.le_add_right line 2⟩)
  have hmarks : (utf8 "> ").length = 2 ∧ (utf8 " | ").length = 3 := by decide
  have hlength : (margin (numberWidth lines.length line) (utf8 "> ") line).length =
      numberWidth lines.length line + 5 := by
    simp only [margin, List.length_append, List.length_leftpad, Nat.max_eq_left hwidth, hmarks]
    omega
  have hascii : ∀ b ∈ caretLine (numberWidth lines.length line) column, b.toNat < 128 := by
    intro b hb
    rcases List.mem_append.1 hb with hb | hb
    · rw [List.eq_of_mem_replicate hb]
      decide
    · rw [List.mem_singleton.1 hb]
      decide
  have hmargin : ∀ b ∈ margin (numberWidth lines.length line) (utf8 "> ") line, b.toNat < 128 :=
    fun b hb => (bounds_of_mem_margin (by decide +kernel) hb).2
  refine ⟨_, Text.runes_ascii_append hmargin _, ?_⟩
  rw [List.length_map, hlength, ← List.append_nil (caretLine _ column),
    Text.runes_ascii_append hascii, caretLine, List.map_append, List.map_replicate]
  exact List.append_nil _

theorem showsPlace_excerpt (hlines : source.splitOn Text.lineFeed = lines) (hne : source ≠ [])
    (hpos : 0 < line) (hle : line ≤ lines.length) (column : Int) :
    ShowsPlace (excerpt source line column) lines line column.toNat := by
  have hfeed : ∀ l ∈ lines, Text.lineFeed ∉ l := fun l hl =>
    Text.not_mem_of_mem_splitOn (hlines ▸ hl)
  have hcaret : Text.lineFeed ∉ caretLine (numberWidth lines.length line) column.toNat := by
    simp [caretLine, Text.lineFeed]
  refine ⟨⟨_, ?_, caretBelow_caretLine hle column.toNat⟩, fun number => Text.length_numeral_le⟩
  rw [excerpt_eq_flatMap hlines hne hpos hle]
  exact Text.splitOn_flatMap_lineFeed fun row => lineFeed_not_mem_of_mem_shownRows hfeed hcaret

end Rows

theorem excerpt_of_no_line {source : Text} {line : Int}
    (h : line < 1 ∨ (source.splitOn Text.lineFeed).length < line) (column : Int) :
    excerpt source line column = [] := by
  refine if_pos ?_
  rcases h with h | h
  · exact .inr (.inl (by omega))
  · exact .inr (.inr h)

/-! ## The excerpts of errors -/

theorem CommandLine.one_le_column_of_readFrom {number : Nat} {inBlock : Bool} {raw : List Text}
    {e : BadComment} (h : (readFrom number inBlock raw).2 = .error e) : 1 ≤ e.column := by
  induction raw generalizing number inBlock with
  | nil => cases h
  | cons s rest ih =>
    by_cases hs : Refused inBlock s
    · obtain ⟨surplus, hstrip⟩ := strip_eq_error_iff.2 hs
      rcases hparts : strip inBlock s with ⟨b, result⟩
      rw [hparts] at hstrip
      obtain rfl : result = .error surplus := hstrip
      rw [readFrom, hparts] at h
      obtain rfl := Except.error.inj h
      exact Nat.le_add_left 1 _
    · exact ih ((readFrom_of_not_refused hs).1 h)

theorem CommandLine.one_le_column_of_decode {strict : Bool} {l : CommandLine} {e : DecodeError}
    (hne : tokenize l.text ≠ []) (h : l.decode strict = .error e) : 1 ≤ e.column := by
  obtain ⟨m, hm, rfl⟩ := exists_of_decode_error h
  have hcolumn := (standsIn_of_mem_tokenize (blames_decodeTokens strict hne m hm)).one_le_column
  simp only [placeError]
  omega

section Errors

variable {file : Text} {raw : List Text} {opts : CompilationOptions} {d : Diagnostic}

theorem excerpt_of_compile_error (h : (compile file raw opts).assembly = .error d) :
    d.excerpt = excerpt (Text.unlines raw) d.error.place.1 d.error.place.2 := by
  unfold compile at h
  simp only at h
  split at h
  · obtain rfl := Except.error.inj h
    rfl
  · simp only at h
    split at h
    · obtain rfl := Except.error.inj h
      rfl
    · cases h

/-- An error that has a place has the number of a line. -/
theorem exists_line_of_compile_error (h : (compile file raw opts).assembly = .error d)
    (hplace : 0 < d.error.place.1) :
    ∃ line column : Nat, 0 < line ∧ line ≤ raw.length ∧ 0 < column ∧
      d.error.place = ((line : Int), (column : Int)) := by
  rcases compile_cases file opts raw with
    ⟨e, hread, -, -, d', hd, he⟩ |
      ⟨lines, -, -, hread, -, -, -, ⟨-, asm, hasm⟩ | ⟨e, hdecode, d', hd, he⟩⟩
  · obtain rfl := Except.error.inj (hd.symm.trans h)
    rw [he] at hplace ⊢
    cases e with
    | empty => exact absurd hplace (lt_irrefl 0)
    | comment bad =>
      have hbad : (CommandLine.readFrom 1 false raw).2 = .error bad :=
        SourceReader.read_eq_comment_iff.1 hread
      have hline := CommandLine.le_line_of_readFrom hbad
      obtain ⟨⟨s, hs, -⟩, -⟩ :=
        CommandLine.readFrom_eq_error_iff.1 ⟨bad, hbad, (Nat.add_sub_cancel' hline).symm⟩
      obtain ⟨hlt, -⟩ := List.getElem?_eq_some_iff.1 hs
      exact ⟨bad.line, bad.column, hline, by omega, CommandLine.one_le_column_of_readFrom hbad, rfl⟩
  · cases hasm.symm.trans h
  · obtain rfl := Except.error.inj (hd.symm.trans h)
    obtain ⟨before, l, after, -, rfl, -, hl⟩ := CommandLine.decodeAll_eq_error hdecode
    obtain ⟨-, b, hread⟩ := CommandLine.read_lines_eq_ok_iff.1 hread
    obtain ⟨i, s, hfrom⟩ := CommandLine.exists_comesFrom hread (l := l) (by simp)
    obtain ⟨hlt, -⟩ := List.getElem?_eq_some_iff.1 hfrom.getElem?_eq
    have hcolumn := CommandLine.one_le_column_of_decode (CommandLine.tokenize_ne_nil hfrom) hl
    obtain ⟨m, -, rfl⟩ := CommandLine.exists_of_decode_error hl
    refine ⟨i + 1, _, i.succ_pos, hlt, hcolumn, ?_⟩
    rw [he]
    simp only [CompilationError.place, CommandLine.placeError, hfrom.number_eq]
    push_cast
    rw [Int.add_comm]

/-- A source with an error at a place is not empty. -/
theorem unlines_ne_nil_of_compile_error (hraw : ∀ l ∈ raw, Text.lineFeed ∉ l) (hne : raw ≠ [])
    (h : (compile file raw opts).assembly = .error d) (hplace : 0 < d.error.place.1) :
    Text.unlines raw ≠ [] := by
  intro hnil
  have hsplit : (Text.unlines raw).splitOn Text.lineFeed = raw :=
    List.splitOn_intercalate _ hraw hne
  rw [hnil, List.splitOn_nil] at hsplit
  subst hsplit
  -- a single empty line is read as a source without commands, and that has no place
  have hread : (CommandLine.read [[]]).lines = .error .empty := rfl
  obtain ⟨⟨d', hd, he⟩, -⟩ := compile_of_read_error file opts hread
  obtain rfl := Except.error.inj (hd.symm.trans h)
  rw [he] at hplace
  exact lt_irrefl 0 hplace

end Errors

/-- **Excerpts show the place that they are of.** For every line of a source that is not empty, the
excerpt at a column of it shows the lines around it, in order and each as it is, marks the line and
puts one caret below it, at the rune in that column. For any other line number there is no excerpt.
So the excerpt of every error of a compilation that has a place shows this place in the lines of the
source. -/
theorem excerpt_shows_place :
    (∀ (source : Text) (line column : Int), source ≠ [] →
      (1 ≤ line → line ≤ (source.splitOn Text.lineFeed).length → 1 ≤ column →
        ShowsPlace (excerpt source line column) (source.splitOn Text.lineFeed) line.toNat
          column.toNat) ∧
      (line < 1 ∨ (source.splitOn Text.lineFeed).length < line →
        excerpt source line column = [])) ∧
    ∀ (file text : Text) (opts : CompilationOptions) (d : Diagnostic),
      (compileText file text opts).assembly = .error d → 0 < d.error.place.1 →
        d.error.place.1 ≤ (sourceLines text).length ∧ 1 ≤ d.error.place.2 ∧
          ShowsPlace d.excerpt (sourceLines text) d.error.place.1.toNat d.error.place.2.toNat := by
  refine ⟨fun source line column hne => ⟨fun hpos hle _ => ?_, fun h => excerpt_of_no_line h _⟩,
    fun file text opts d h hplace => ?_⟩
  · obtain ⟨n, rfl⟩ := Int.eq_ofNat_of_zero_le (Int.le_of_lt hpos)
    exact showsPlace_excerpt rfl hne (by omega) (by omega) column
  · obtain ⟨line, column, hpos, hle, hcolumn, hat⟩ := exists_line_of_compile_error h hplace
    have hraw : ∀ l ∈ sourceLines text, Text.lineFeed ∉ l := fun _ =>
      lineFeed_not_mem_of_mem_sourceLines
    have hne : sourceLines text ≠ [] := List.ne_nil_of_length_pos (by omega)
    have hsource := unlines_ne_nil_of_compile_error hraw hne h hplace
    have hsplit : (Text.unlines (sourceLines text)).splitOn Text.lineFeed = sourceLines text :=
      List.splitOn_intercalate _ hraw hne
    rw [excerpt_of_compile_error h, hat]
    exact ⟨Int.ofNat_le.2 hle, Int.ofNat_le.2 hcolumn,
      showsPlace_excerpt hsplit hsource hpos hle column⟩

/-- An unknown segment on line 9 of 11: the numbers that are shown have one digit or two. -/
theorem excerpt_shows_place_two_widths :
    let text := utf8 "\n\n\n\n\n\n\n// é\npush é 5\n\nadd"
    (text.splitOn Text.lineFeed).length = 11 ∧
      excerpt text 9 6 = utf8
        "   7 | \n   8 | // é\n>  9 | push é 5\n            ^\n  10 | \n  11 | add\n" ∧
      ShowsPlace (excerpt text 9 6) (text.splitOn Text.lineFeed) 9 6 ∧
      excerpt text 12 1 = [] ∧
      ∃ d, (compileText [] text {}).assembly = .error d ∧ d.error.place = (9, 6) ∧
        ShowsPlace d.excerpt (sourceLines text) 9 6 := by
  intro text
  have hlength : (text.splitOn Text.lineFeed).length = 11 := by decide +kernel
  have hne : text ≠ [] := by decide
  have hread : (CommandLine.read (sourceLines text)).lines =
      .ok [⟨9, 1, utf8 "push é 5"⟩, ⟨11, 1, utf8 "add"⟩] := rfl
  have hdecode : CommandLine.decode false ⟨9, 1, utf8 "push é 5"⟩ =
      .error ⟨.unknownSegment (utf8 "é"), 9, 6, utf8 "é"⟩ := by decide +kernel
  obtain ⟨⟨d, hd, herror⟩, -⟩ :=
    compile_of_decodeAll_error [] {} hread (List.nil_append _).symm rfl hdecode
  have hplace : d.error.place = (9, 6) := by
    rw [herror]
    rfl
  have hshows := excerpt_shows_place.2 [] text {} d hd (by rw [hplace]; decide)
  rw [hplace] at hshows
  exact ⟨hlength, by decide +kernel,
    (excerpt_shows_place.1 text 9 6 hne).1 (by decide) (by rw [hlength]; decide) (by decide),
    (excerpt_shows_place.1 text 12 1 hne).2 (.inr (by rw [hlength]; decide)), d, hd, hplace,
    hshows.2.2⟩

end HackVM
