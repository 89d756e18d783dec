import HackVM.Proofs.Columns
import HackVM.Proofs.Passes
import HackVM.Proofs.Scanning

/-!
# The places of decoding errors

A decoding error has the line and the column of the token it is about. The column is put together
from two others: that of the command text in the raw line and that of the token in the command text.
Every token stands in its text where its column says (`standsIn_of_mem_tokenize`), every problem of
a line is about one of its tokens (`blames_decodeTokens`), and without block comments only
white space precedes the command text in the raw line (`startColumn_of_no_opening`). So an error in
such a line points at the token it names (`place_of_decode_error`).
-/

namespace HackVM

/-! ## Where tokens stand -/

/-- The word of the token stands in the runes where its column says. -/
structure Token.StandsIn (tok : Token) (rs : List Rune) : Prop where
  literal_ne_nil : tok.literal ≠ []
  one_le_column : 1 ≤ tok.column
  isPrefix : tok.literal.runes <+: rs.drop (tok.column - 1)

/-- **Every token stands in its text where its column says.** -/
theorem standsIn_of_mem_tokenize {t : Text} {tok : Token} (h : tok ∈ tokenize t) :
    tok.StandsIn t.runes := by
  obtain ⟨before, after, -, hrun, hcolumn⟩ := mem_tokenize_iff.1 h
  refine ⟨?_, by omega, ?_⟩
  · rintro hnil
    exact hrun.ne_nil (by rw [hnil]; rfl)
  · rw [hcolumn, Nat.add_sub_cancel, hrun.eq_append, Text.runeCount, List.drop_left]
    exact List.prefix_append _ _

/-! ## Which token a problem is about -/

/-- A decoder that fails has a problem with one of these tokens. -/
def Blames (toks : List Token) {α : Type} (x : Except Misplaced α) : Prop :=
  ∀ m, x = .error m → m.token ∈ toks

namespace Blames

variable {toks : List Token} {α β : Type}

theorem ok (a : α) : Blames toks (.ok a : Except Misplaced α) := fun _ h => by cases h

theorem error {m : Misplaced} (h : m.token ∈ toks) :
    Blames toks (.error m : Except Misplaced α) :=
  fun _ hm => Except.error.inj hm ▸ h

theorem bind {x : Except Misplaced α} {f : α → Except Misplaced β} (hx : Blames toks x)
    (hf : ∀ a, Blames toks (f a)) : Blames toks (x >>= f) := by
  cases x with
  | error m => exact error (hx m rfl)
  | ok a => exact hf a

theorem ite {p : Prop} [Decidable p] {x y : Except Misplaced α} (hx : Blames toks x)
    (hy : Blames toks y) : Blames toks (if p then x else y) := by
  split
  · exact hx
  · exact hy

end Blames

section Decoders

variable {toks : List Token} {tok : Token} (h : tok ∈ toks)
include h

theorem blames_decodeCommand : Blames toks (decodeCommand tok) := by
  unfold decodeCommand
  split
  · exact .ok _
  · exact .error h

theorem blames_decodeSegment : Blames toks (decodeSegment tok) := by
  unfold decodeSegment
  split
  · exact .ok _
  · exact .error h

theorem blames_decodeOffset : Blames toks (decodeOffset tok) :=
  .ite (.error h) (.ite (.error h) (.ok _))

theorem blames_decodeSingle : Blames toks (decodeSingle tok) := by
  refine (blames_decodeCommand h).bind fun c => ?_
  cases c with
  | unary | binary | compare => exact .ok _
  | push | pop => exact .error h

theorem blames_decodeTriple (strict : Bool) {seg off : Token} (hseg : seg ∈ toks)
    (hoff : off ∈ toks) : Blames toks (decodeTriple strict tok seg off) := by
  refine (blames_decodeCommand h).bind fun c => ?_
  refine .ite (.error hseg) ((blames_decodeSegment hseg).bind fun s => ?_)
  cases s with
  | constant => exact (blames_decodeOffset hoff).bind fun n => .ite (.ok _) (.error hseg)
  | region r =>
    refine (blames_decodeOffset hoff).bind fun n => ?_
    cases slotProblem? strict r n with
    | some p => exact .error hoff
    | none => exact .ok _

end Decoders

/-- Every problem of a line that has tokens is about one of them. -/
theorem blames_decodeTokens (strict : Bool) {toks : List Token} (hne : toks ≠ []) :
    Blames toks (decodeTokens strict toks) := by
  match toks, hne with
  | [tok], _ => exact blames_decodeSingle (by simp)
  | [cmd, seg, off], _ => exact blames_decodeTriple (by simp) strict (by simp) (by simp)
  | [tok, _], _ => exact .error (by simp)
  | tok :: _ :: _ :: _ :: _, _ => exact .error (by simp)

/-! ## Lines without block comments -/

theorem exists_append_dropLineComment (s : Text) :
    ∃ comment : Text, s = dropLineComment s ++ comment ∧
      (comment = [] ∨ ∃ t, comment = 47 :: t) := by
  unfold dropLineComment
  split
  · exact ⟨[], (List.append_nil s).symm, .inl rfl⟩
  · next before after hcut =>
    split
    · exact ⟨[], (List.append_nil s).symm, .inl rfl⟩
    · exact ⟨lineMark ++ after, by rw [Text.cut?_eq_some hcut, List.append_assoc],
        .inr ⟨47 :: after, rfl⟩⟩

theorem strip_of_no_opening {s : Text} (h : ¬ BlockMark.opening.text <:+: s) :
    strip false s = (false, .ok (dropLineComment s).trim) := by
  have hcut : Text.cut? BlockMark.opening.text (dropLineComment s) = none :=
    (Text.cut?_eq_none_iff BlockMark.opening.text_ne_nil).2 fun hinner =>
      h (hinner.trans (dropLineComment_isPrefix s).isInfix)
  have hzero := (Text.occurrences_eq_zero_iff BlockMark.opening.text_ne_nil).2 hcut
  simp [strip, stripCode, hcut, hzero]

/-- Only white space stands before what is left of a line without block comments. -/
theorem exists_runes_eq_strip {b : Bool} {s text : Text} (h : ¬ BlockMark.opening.text <:+: s)
    (hstrip : strip false s = (b, .ok text)) :
    ∃ front back, s.runes = front ++ text.runes ++ back ∧ ∀ r ∈ front, r.isBlank = true := by
  rw [strip_of_no_opening h] at hstrip
  obtain rfl := Except.ok.inj (Prod.mk.inj hstrip).2
  obtain ⟨comment, hcomment, hstart⟩ := exists_append_dropLineComment s
  obtain ⟨front, back, hcode, hblank⟩ := (dropLineComment s).exists_runes_eq_trim
  refine ⟨front, back ++ comment.runes, ?_, hblank⟩
  have hrunes : s.runes = (dropLineComment s).runes ++ comment.runes := by
    conv_lhs => rw [hcomment]
    rcases hstart with rfl | ⟨t, rfl⟩
    · rw [List.append_nil, show Text.runes [] = [] from rfl, List.append_nil]
    · exact Text.runes_append_ascii (by decide) _ _
  rw [hrunes, hcode]
  simp only [List.append_assoc]

/-- **The column of a command on a line without block comments** is the place of its text. -/
theorem startColumn_of_no_opening {b : Bool} {s text : Text} (hs : s.isWellFormed = true)
    (htext : text.isWellFormed = true) (h : ¬ BlockMark.opening.text <:+: s)
    (hstrip : strip false s = (b, .ok text)) (hne : text ≠ []) :
    ∃ front back, s.runes = front ++ text.runes ++ back ∧
      CommandLine.startColumn s text = front.length + 1 := by
  obtain ⟨front, back, hrunes, hblank⟩ := exists_runes_eq_strip h hstrip
  refine ⟨front, back, hrunes, ?_⟩
  obtain ⟨c, r, -, -, hhead, hr⟩ := codeStart?_of_strip hs hstrip hne
  have hget : s.runes[front.length]? = some r := by
    obtain ⟨rs, hrs⟩ := List.head?_eq_some_iff.1 hhead
    rw [hrunes, hrs, List.append_assoc, List.getElem?_append_right le_rfl, Nat.sub_self]
    rfl
  rw [CommandLine.startColumn_eq_iff hs htext hne hget hr]
  exact .inl (hrunes ▸ standsFirst_of_blanks hblank hhead hr)

/-! ## Errors of a compilation -/

namespace CommandLine

theorem tokenize_ne_nil {number : Nat} {inBlock : Bool} {raw : List Text} {l : CommandLine}
    {i : Nat} {s : Text} (h : ComesFrom number inBlock raw l i s) : tokenize l.text ≠ [] := by
  obtain ⟨b, hstrip⟩ := h.strip_eq
  have hwords := (strip_scanLine hstrip).2
  intro hnil
  have hmap := map_literal_tokenize l.text
  rw [hnil, hwords.words_eq] at hmap
  exact h.text_ne_nil (hwords.eq_nil_iff.2 hmap.symm)

theorem exists_of_decode_error {strict : Bool} {l : CommandLine} {e : DecodeError}
    (h : l.decode strict = .error e) :
    ∃ m, decodeTokens strict (tokenize l.text) = .error m ∧ e = l.placeError m := by
  unfold decode at h
  split at h
  · cases h
  · next m hm => exact ⟨m, hm, (Except.error.inj h).symm⟩

/-- The token of an error stands in the raw line where the column of the error says. -/
theorem isPrefix_of_decode_error {number : Nat} {inBlock : Bool} {raw : List Text}
    {l : CommandLine} {i : Nat} {s : Text} (hfrom : ComesFrom number inBlock raw l i s)
    (hs : s.isWellFormed = true) (hcode : (scanLines inBlock (raw.take i)).2 = false)
    (hopening : ¬ BlockMark.opening.text <:+: s) {strict : Bool} {e : DecodeError}
    (h : l.decode strict = .error e) :
    e.token ≠ [] ∧ 1 ≤ e.column ∧ e.token.runes <+: s.runes.drop (e.column - 1) := by
  obtain ⟨b, hstrip⟩ := hfrom.strip_eq
  rw [hcode] at hstrip
  obtain ⟨front, back, hrunes, hcolumn⟩ := startColumn_of_no_opening hs (hfrom.isWellFormed hs)
    hopening hstrip hfrom.text_ne_nil
  rw [← hfrom.column_eq] at hcolumn
  obtain ⟨m, hm, rfl⟩ := exists_of_decode_error h
  obtain ⟨hne, hone, hstands⟩ :=
    standsIn_of_mem_tokenize (blames_decodeTokens strict (tokenize_ne_nil hfrom) m hm)
  have hplace : (l.placeError m).column - 1 = front.length + (m.token.column - 1) := by
    simp only [placeError, hcolumn]
    omega
  refine ⟨hne, ?_, ?_⟩
  · simp only [placeError]
    omega
  · rw [hplace, hrunes, List.append_assoc, ← List.drop_drop, List.drop_left]
    exact hstands.trans ((List.prefix_append l.text.runes back).drop _)

end CommandLine

/-- **Decoding errors point at the token they are about.** If a source of well-formed UTF-8 does not
decode, the error has the number of one of its lines; and if that line does not begin inside a block
comment and opens none, its runes from the column of the error on begin with the token that the
error names. -/
theorem place_of_decode_error (file text : Text) (opts : CompilationOptions)
    (htext : text.isWellFormed = true) {d : Diagnostic}
    (h : (compileText file text opts).assembly = .error d) (hphase : d.error.phase = .decode) :
    ∃ (e : DecodeError) (i : Nat) (s : Text), d.error = .decode e ∧
      (sourceLines text)[i]? = some s ∧ d.error.place = ((i : Int) + 1, (e.column : Int)) ∧
      ((scanLines false ((sourceLines text).take i)).2 = false →
        ¬ BlockMark.opening.text <:+: s →
          e.token ≠ [] ∧ 1 ≤ e.column ∧ e.token.runes <+: s.runes.drop (e.column - 1)) := by
  rcases compile_cases file opts (sourceLines text) with
    ⟨e, -, -, -, d', hd, he⟩ |
      ⟨lines, -, -, hread, -, -, -, ⟨-, asm, hasm⟩ | ⟨e, hdecode, d', hd, he⟩⟩
  · obtain rfl := Except.error.inj (hd.symm.trans h)
    rw [he] at hphase
    cases hphase
  · cases hasm.symm.trans h
  · obtain rfl := Except.error.inj (hd.symm.trans h)
    obtain ⟨before, l, after, -, rfl, -, hl⟩ := CommandLine.decodeAll_eq_error hdecode
    obtain ⟨-, b, hread⟩ := CommandLine.read_lines_eq_ok_iff.1 hread
    obtain ⟨i, s, hfrom⟩ := CommandLine.exists_comesFrom hread (l := l) (by simp)
    have hs := isWellFormed_of_mem_sourceLines htext (List.mem_of_getElem? hfrom.getElem?_eq)
    refine ⟨e, i, s, he, hfrom.getElem?_eq, ?_, fun hcode hopening =>
      CommandLine.isPrefix_of_decode_error hfrom hs hcode hopening hl⟩
    obtain ⟨m, -, rfl⟩ := CommandLine.exists_of_decode_error hl
    rw [he]
    simp only [CompilationError.place, CommandLine.placeError, hfrom.number_eq]
    push_cast
    rw [Int.add_comm]

/-- An unknown segment on the third line, behind a wide space. -/
theorem place_of_decode_error_wide_space :
    let text := utf8 "/* é\n*/\n\u3000push constänt 3 // five */\n"
    let line := utf8 "\u3000push constänt 3 // five */"
    ∃ d, (compileText [] text {}).assembly = .error d ∧ d.error.place = (3, 7) ∧
      (sourceLines text)[2]? = some line ∧ (utf8 "constänt").runes <+: line.runes.drop 6 := by
  intro text line
  have hread : (CommandLine.read (sourceLines text)).lines =
      .ok [⟨3, 2, utf8 "push constänt 3"⟩] := rfl
  have hdecode : CommandLine.decode false ⟨3, 2, utf8 "push constänt 3"⟩ =
      .error ⟨.unknownSegment (utf8 "constänt"), 3, 7, utf8 "constänt"⟩ := by decide +kernel
  obtain ⟨⟨d, hd, herror⟩, -⟩ :=
    compile_of_decodeAll_error [] {} hread (List.nil_append _).symm rfl hdecode
  obtain ⟨e, i, s, he, hs, hplace, hpoints⟩ :=
    place_of_decode_error [] text {} (by decide +kernel) hd (by rw [herror]; rfl)
  rw [herror] at hplace
  obtain rfl := CompilationError.decode.inj (herror.symm.trans he)
  obtain rfl : i = 2 := by
    have hline : (3 : Int) = i + 1 := congrArg Prod.fst hplace
    omega
  have hline : (sourceLines text)[2]? = some line := rfl
  obtain rfl := Option.some.inj (hline.symm.trans hs)
  exact ⟨d, hd, by rw [herror]; rfl, hline, (hpoints rfl (by decide +kernel)).2.2⟩

end HackVM
