import HackVM.Compilation
import HackVM.Proofs.PlainText

/-!
# Line ends

The lines of a source are found by rewriting: every line end becomes a line feed, a last one is
dropped and the text is cut at the others. `Text.scanLineEnds` finds them in one pass from left to
right instead, with the beginning of the current line in hand. What either does at the front of a
text depends on whether a line ends there (`Text.lineEnd_induction`), and they agree in both cases
(`Text.scanLineEnds_eq_feedLines`).

A text without carriage returns is found again from the same text with another line end
(`unifyLineEnds_withLineEnd`). So it makes no difference to a compilation how the lines of a source
are ended.
-/

namespace HackVM

namespace Text

/-- The ways to end a line. -/
def lineEnds : List Text := [[lineFeed], [carriageReturn], [carriageReturn, lineFeed]]

/-- The text with another line end in the place of every line feed. -/
def withLineEnd (t e : Text) : Text := t.flatMap fun b => if b = lineFeed then e else [b]

/-- The lines of a text, from left to right, if `line` stands before it on its first line. There is
no line after the last line end if nothing follows it. -/
def scanLineEnds (line : Text) : Text → List Text
  | [] => if line = [] then [] else [line]
  | b :: t =>
    if b = lineFeed then line :: scanLineEnds [] t
    else if b = carriageReturn then
      match t with
      | [] => [line]
      | c :: t =>
        -- a line feed right after a carriage return belongs to the same line end
        if c = lineFeed then line :: scanLineEnds [] t
        else line :: scanLineEnds [] (c :: t)
    else scanLineEnds (line ++ [b]) t

/-- The text `e` is a whole line end before the text `t`: if it is a carriage return, no line feed
follows it. -/
structure EndsLine (e t : Text) : Prop where
  mem : e ∈ lineEnds
  whole : e = [carriageReturn] → t.head? ≠ some lineFeed

/-- A text begins with a line end or with a byte of a line. -/
@[elab_as_elim]
theorem lineEnd_induction {motive : Text → Prop} (nil : motive [])
    (ended : ∀ e t, EndsLine e t → motive t → motive (e ++ t))
    (byte : ∀ b t, b ≠ carriageReturn → b ≠ lineFeed → motive t → motive (b :: t)) :
    ∀ t, motive t
  | [] => nil
  | b :: t => by
    have ih := lineEnd_induction nil ended byte t
    by_cases hfeed : b = lineFeed
    · subst hfeed
      exact ended [lineFeed] t ⟨by decide, fun h => absurd h (by decide)⟩ ih
    by_cases hreturn : b = carriageReturn
    · subst hreturn
      by_cases hhead : t.head? = some lineFeed
      · obtain ⟨rest, rfl⟩ := List.head?_eq_some_iff.1 hhead
        exact ended [carriageReturn, lineFeed] rest ⟨by decide, fun h => absurd h (by decide)⟩
          (lineEnd_induction nil ended byte rest)
      · exact ended [carriageReturn] t ⟨by decide, fun _ => hhead⟩ ih
    · exact byte b t hreturn hfeed ih

/-! ## Scanning -/

theorem scanLineEnds_nil (line : Text) :
    scanLineEnds line [] = if line = [] then [] else [line] := rfl

theorem scanLineEnds_ended {e t : Text} (h : EndsLine e t) (line : Text) :
    scanLineEnds line (e ++ t) = line :: scanLineEnds [] t := by
  obtain ⟨hmem, hwhole⟩ := h
  simp only [lineEnds, List.mem_cons, List.not_mem_nil, or_false] at hmem
  rcases hmem with rfl | rfl | rfl
  · exact (scanLineEnds.eq_def line (lineFeed :: t)).trans (if_pos rfl)
  · cases t with
    | nil => rfl
    | cons c t =>
      have hc : c ≠ lineFeed := fun hc => hwhole rfl (congrArg some hc)
      exact if_neg hc
  · rfl

theorem scanLineEnds_byte {b : UInt8} (hreturn : b ≠ carriageReturn) (hfeed : b ≠ lineFeed)
    (line t : Text) : scanLineEnds line (b :: t) = scanLineEnds (line ++ [b]) t := by
  rw [scanLineEnds.eq_def]
  simp only [if_neg hreturn, if_neg hfeed]

/-- No line that is found contains a line end, if the beginning of the first one does not. -/
theorem not_mem_of_mem_scanLineEnds {line t : Text}
    (hline : carriageReturn ∉ line ∧ lineFeed ∉ line) :
    ∀ l ∈ scanLineEnds line t, carriageReturn ∉ l ∧ lineFeed ∉ l := by
  induction t using lineEnd_induction generalizing line with
  | nil =>
    intro l hl
    rw [scanLineEnds_nil] at hl
    split at hl
    · cases hl
    · rwa [List.mem_singleton.1 hl]
  | ended e t hend ih =>
    rw [scanLineEnds_ended hend, List.forall_mem_cons]
    exact ⟨hline, ih ⟨List.not_mem_nil, List.not_mem_nil⟩⟩
  | byte b t hreturn hfeed ih =>
    rw [scanLineEnds_byte hreturn hfeed]
    refine ih ?_
    simp only [List.mem_append, List.mem_singleton, not_or]
    exact ⟨⟨hline.1, hreturn.symm⟩, hline.2, hfeed.symm⟩

/-! ## Cutting at line feeds -/

theorem dropEnding_concat_of_ne {b c : UInt8} (h : b ≠ c) (t : Text) :
    dropEnding [b] (t ++ [c]) = t ++ [c] := by
  refine if_neg fun hends => h ?_
  rwa [List.isSuffixOf_iff_suffix, List.singleton_suffix_append_singleton_iff] at hends

theorem dropEnding_append_of_ne_nil {t : Text} (h : t ≠ []) (b : UInt8) (s : Text) :
    dropEnding [b] (s ++ t) = s ++ dropEnding [b] t := by
  obtain ⟨front, c, rfl⟩ := (List.eq_nil_or_concat' t).resolve_left h
  rw [← List.append_assoc]
  by_cases hbc : b = c
  · rw [hbc, dropEnding_append, dropEnding_append]
  · rw [dropEnding_concat_of_ne hbc, dropEnding_concat_of_ne hbc, List.append_assoc]

/-- The lines of a text that ends them all with line feeds. -/
def feedLines (t : Text) : List Text :=
  if t = [] then [] else (dropEnding [lineFeed] t).splitOn lineFeed

theorem feedLines_of_not_mem {line : Text} (h : lineFeed ∉ line) :
    feedLines line = if line = [] then [] else [line] := by
  rcases List.eq_nil_or_concat' line with rfl | ⟨front, c, rfl⟩
  · rfl
  · have hc : lineFeed ≠ c := fun hc => h (by simp [hc])
    rw [feedLines, dropEnding_concat_of_ne hc, List.splitOn_eq_singleton h]

theorem feedLines_append_feed {line : Text} (h : lineFeed ∉ line) (t : Text) :
    feedLines (line ++ lineFeed :: t) = line :: feedLines t := by
  rw [feedLines, if_neg (List.append_ne_nil_of_right_ne_nil line (List.cons_ne_nil lineFeed t))]
  by_cases ht : t = []
  · rw [ht, dropEnding_append, List.splitOn_eq_singleton h]
    rfl
  · rw [List.append_cons, dropEnding_append_of_ne_nil ht, List.append_assoc, List.singleton_append,
      List.splitOn_append_cons_self_of_not_mem h, feedLines, if_neg ht]

end Text

/-! ## Line ends as line feeds -/

section

open Text

theorem unifyLineEnds_ended {e t : Text} (h : EndsLine e t) :
    unifyLineEnds (e ++ t) = lineFeed :: unifyLineEnds t := by
  obtain ⟨hmem, hwhole⟩ := h
  simp only [lineEnds, List.mem_cons, List.not_mem_nil, or_false] at hmem
  rcases hmem with rfl | rfl | rfl
  · rfl
  · rw [List.singleton_append, unifyLineEnds, joinLineEnds, if_neg fun hand => hwhole rfl hand.2,
      List.map_cons, if_pos rfl, unifyLineEnds]
  · rfl

theorem unifyLineEnds_byte {b : UInt8} (h : b ≠ carriageReturn) (t : Text) :
    unifyLineEnds (b :: t) = b :: unifyLineEnds t := by
  rw [unifyLineEnds, joinLineEnds, if_neg fun hand => h hand.1, List.map_cons, if_neg h,
    unifyLineEnds]

theorem unifyLineEnds_eq_nil_iff {t : Text} : unifyLineEnds t = [] ↔ t = [] := by
  induction t using lineEnd_induction with
  | nil => exact iff_of_true rfl rfl
  | ended e t hend _ =>
    have hne : e ≠ [] := by
      rintro rfl
      exact absurd hend.mem (by decide)
    simp [unifyLineEnds_ended hend, hne]
  | byte b t hreturn _ _ => simp [unifyLineEnds_byte hreturn]

theorem sourceLines_eq_feedLines (t : Text) : sourceLines t = feedLines (unifyLineEnds t) := by
  simp only [sourceLines, feedLines, unifyLineEnds_eq_nil_iff]

/-- The scan of a text after the beginning of a line finds the lines of both together. -/
theorem Text.scanLineEnds_eq_feedLines {line : Text} (hline : lineFeed ∉ line) (t : Text) :
    scanLineEnds line t = feedLines (line ++ unifyLineEnds t) := by
  induction t using lineEnd_induction generalizing line with
  | nil =>
    rw [show unifyLineEnds [] = [] from rfl, List.append_nil, feedLines_of_not_mem hline,
      scanLineEnds_nil]
  | ended e t hend ih =>
    rw [unifyLineEnds_ended hend, scanLineEnds_ended hend, feedLines_append_feed hline,
      ih List.not_mem_nil, List.nil_append]
  | byte b t hreturn hfeed ih =>
    have hmore : lineFeed ∉ line ++ [b] := by simp [hline, hfeed.symm]
    rw [unifyLineEnds_byte hreturn, scanLineEnds_byte hreturn hfeed, ih hmore, ← List.append_cons]

/-! ## Other line ends -/

theorem lineFeed_not_mem_withLineEnd (t : Text) :
    lineFeed ∉ t.withLineEnd [carriageReturn] := by
  intro hmem
  obtain ⟨b, -, hb⟩ := List.mem_flatMap.1 hmem
  split at hb
  · exact absurd (List.mem_singleton.1 hb) (by decide)
  · next hne => exact hne (List.mem_singleton.1 hb).symm

/-- A text without carriage returns is found again from the same text with another line end. -/
theorem unifyLineEnds_withLineEnd {e : Text} (he : e ∈ lineEnds) {t : Text}
    (ht : carriageReturn ∉ t) : unifyLineEnds (t.withLineEnd e) = t := by
  induction t with
  | nil => rfl
  | cons b t ih =>
    rw [List.mem_cons, not_or] at ht
    rw [withLineEnd, List.flatMap_cons, ← withLineEnd]
    by_cases hb : b = lineFeed
    · have hwhole : e = [carriageReturn] → (withLineEnd t e).head? ≠ some lineFeed := by
        rintro rfl hhead
        exact lineFeed_not_mem_withLineEnd t (List.mem_of_head? hhead)
      rw [if_pos hb, unifyLineEnds_ended ⟨he, hwhole⟩, ih ht.2, hb]
    · rw [if_neg hb, List.singleton_append, unifyLineEnds_byte (Ne.symm ht.1), ih ht.2]

theorem unifyLineEnds_of_not_mem {t : Text} (ht : carriageReturn ∉ t) : unifyLineEnds t = t := by
  induction t with
  | nil => rfl
  | cons b t ih =>
    rw [List.mem_cons, not_or] at ht
    rw [unifyLineEnds_byte (Ne.symm ht.1), ih ht.2]

theorem sourceLines_withLineEnd {e : Text} (he : e ∈ lineEnds) {t : Text}
    (ht : carriageReturn ∉ t) : sourceLines (t.withLineEnd e) = sourceLines t := by
  rw [sourceLines_eq_feedLines, sourceLines_eq_feedLines, unifyLineEnds_withLineEnd he ht,
    unifyLineEnds_of_not_mem ht]

/-- **The lines of a text are those of a scan from left to right** that ends a line at a carriage
return with a line feed after it, at a line feed and at a carriage return. So no line contains
either byte, and if a text has no carriage returns, neither its lines nor its compilation depend on
how the lines are ended. -/
theorem sourceLines_eq_scan (t : Text) :
    sourceLines t = scanLineEnds [] t ∧
    (∀ l ∈ sourceLines t, carriageReturn ∉ l ∧ lineFeed ∉ l) ∧
    (carriageReturn ∉ t → ∀ e ∈ lineEnds,
      sourceLines (t.withLineEnd e) = sourceLines t ∧
      ∀ file opts, compileText file (t.withLineEnd e) opts = compileText file t opts) := by
  have hscan : sourceLines t = scanLineEnds [] t := by
    rw [sourceLines_eq_feedLines, scanLineEnds_eq_feedLines List.not_mem_nil, List.nil_append]
  refine ⟨hscan, ?_, fun ht e he => ?_⟩
  · rw [hscan]
    exact not_mem_of_mem_scanLineEnds ⟨List.not_mem_nil, List.not_mem_nil⟩
  · have hlines := sourceLines_withLineEnd he ht
    exact ⟨hlines, fun file opts => by rw [compileText, compileText, hlines]⟩

/-- Three lines, the second one empty, with each line end. -/
theorem sourceLines_eq_scan_three_lines :
    let t := utf8 "push constant 7\n\nadd\n"
    carriageReturn ∉ t ∧ scanLineEnds [] t = [utf8 "push constant 7", [], utf8 "add"] ∧
      (utf8 "add" ∈ sourceLines t ∧ carriageReturn ∉ utf8 "add" ∧ lineFeed ∉ utf8 "add") ∧
      (∀ e ∈ lineEnds, sourceLines (t.withLineEnd e) = scanLineEnds [] t) ∧
      ∀ file opts, compileText file (utf8 "push constant 7\r\n\r\nadd\r\n") opts =
        compileText file t opts := by
  intro t
  have ht : carriageReturn ∉ t := by decide
  have hlines : scanLineEnds [] t = [utf8 "push constant 7", [], utf8 "add"] := by decide
  obtain ⟨hscan, hline, hends⟩ := sourceLines_eq_scan t
  have hadd : utf8 "add" ∈ sourceLines t := by simp [hscan, hlines]
  refine ⟨ht, hlines, ⟨hadd, hline _ hadd⟩, fun e he => ?_, ?_⟩
  · rw [(hends ht e he).1, hscan]
  · exact (hends ht [carriageReturn, lineFeed] (by decide)).2

example : sourceLines (utf8 "a\r\r\nb\n\rc\r") = [utf8 "a", [], utf8 "b", [], utf8 "c"] := by
  decide

end

end HackVM
