import HackVM.Proofs.Words
import HackVM.Source.Comment

/-!
# Comments, character by character

`strip` finds the comments of a line by searching for marks, counting them and cutting the line.
Here a line is read from left to right instead, in code or inside a block comment (`scanLine`), and
so are the lines of a source (`scanLines`). Unless a line is refused for a surplus mark, both leave
the same words on every line and end in the same state (`strip_scanLine`), so a source reader keeps
the lines on which the scan leaves a word (`read_agrees_with_scan`).
-/

namespace HackVM

/-! ## Cutting at a mark -/

namespace Text

theorem cut?_cons_eq_none {mark t : Text} {b : UInt8} (h : cut? mark (b :: t) = none) :
    ¬ mark <+: b :: t ∧ cut? mark t = none := by
  rw [cut?] at h
  split at h
  · cases h
  · next hp => exact ⟨mt List.isPrefixOf_iff_prefix.2 hp, Option.map_eq_none_iff.1 h⟩

/-- A text is cut where it begins with the mark, or later. -/
theorem cut?_cons_eq_some {mark t before after : Text} {b : UInt8}
    (h : cut? mark (b :: t) = some (before, after)) :
    (before = [] ∧ b :: t = mark ++ after) ∨
      ¬ mark <+: b :: t ∧ ∃ front, before = b :: front ∧ cut? mark t = some (front, after) := by
  have hsplit := cut?_eq_some h
  rw [cut?] at h
  split at h
  · left
    simp only [Option.some.injEq, Prod.mk.injEq] at h
    rw [← h.1] at hsplit
    exact ⟨h.1.symm, hsplit⟩
  · next hp =>
    right
    obtain ⟨⟨front, back⟩, hcut, he⟩ := Option.map_eq_some_iff.1 h
    simp only [Prod.mk.injEq] at he
    exact ⟨mt List.isPrefixOf_iff_prefix.2 hp, front, he.1.symm, by rw [hcut, he.2]⟩

theorem cut?_cons_of_not_prefix {mark t : Text} {b : UInt8} (h : ¬ mark <+: b :: t) :
    cut? mark (b :: t) = (cut? mark t).map fun (before, after) => (b :: before, after) := by
  rw [cut?, if_neg (mt List.isPrefixOf_iff_prefix.1 h)]

theorem cut?_append {mark : Text} (hmark : mark ≠ []) (t : Text) :
    cut? mark (mark ++ t) = some ([], t) := by
  cases mark with
  | nil => exact absurd rfl hmark
  | cons b mark =>
    have hp : (b :: mark).isPrefixOf (b :: (mark ++ t)) = true :=
      List.isPrefixOf_iff_prefix.2 (List.prefix_append (b :: mark) t)
    rw [List.cons_append, cut?, if_pos hp, ← List.cons_append, List.drop_left]

/-- A text is not cut exactly if the mark occurs nowhere in it. -/
theorem cut?_eq_none_iff {mark : Text} (hmark : mark ≠ []) {t : Text} :
    cut? mark t = none ↔ ¬ mark <:+: t := by
  constructor
  · rintro h ⟨before, after, rfl⟩
    induction before with
    | nil =>
      rw [List.nil_append, cut?_append hmark] at h
      cases h
    | cons b before ih => exact ih (cut?_cons_eq_none h).2
  · intro h
    cases hcut : cut? mark t with
    | none => rfl
    | some parts =>
      obtain ⟨before, after⟩ := parts
      exact absurd ⟨before, after, (cut?_eq_some hcut).symm⟩ h

theorem occurs_iff {mark : Text} (hmark : mark ≠ []) {t : Text} :
    occurs mark t = true ↔ mark <:+: t := by
  rw [occurs, ← Option.ne_none_iff_isSome, ne_eq, cut?_eq_none_iff hmark, not_not]

theorem occurrencesAfter_eq (mark : Text) (skip : Nat) (t : Text) :
    occurrencesAfter mark skip t = occurrences mark (t.drop skip) := by
  induction t generalizing skip with
  | nil => simp [occurrences, occurrencesAfter]
  | cons b t ih =>
    cases skip with
    | zero => rfl
    | succ skip => simpa [occurrencesAfter] using ih skip

theorem occurrences_append {mark : Text} (hmark : mark ≠ []) (t : Text) :
    occurrences mark (mark ++ t) = occurrences mark t + 1 := by
  cases mark with
  | nil => exact absurd rfl hmark
  | cons b mark =>
    have hp : (b :: mark).isPrefixOf (b :: (mark ++ t)) = true :=
      List.isPrefixOf_iff_prefix.2 (List.prefix_append (b :: mark) t)
    rw [List.cons_append, occurrences, occurrencesAfter, if_pos hp, occurrencesAfter_eq,
      List.length_cons, Nat.add_sub_cancel, List.drop_left]

/-- Behind the first occurrence of a mark there is one occurrence less. -/
theorem occurrences_of_cut? {mark : Text} (hmark : mark ≠ []) {t before after : Text}
    (h : cut? mark t = some (before, after)) : occurrences mark t = occurrences mark after + 1 := by
  induction t generalizing before with
  | nil => simp [cut?, hmark] at h
  | cons b t ih =>
    rcases cut?_cons_eq_some h with ⟨-, hmarked⟩ | ⟨hp, front, -, hcut⟩
    · rw [hmarked, occurrences_append hmark]
    · rw [occurrences, occurrencesAfter, if_neg (mt List.isPrefixOf_iff_prefix.1 hp)]
      exact ih hcut

theorem occurrences_eq_zero_iff {mark : Text} (hmark : mark ≠ []) {t : Text} :
    occurrences mark t = 0 ↔ cut? mark t = none := by
  constructor
  · intro h
    cases hcut : cut? mark t with
    | none => rfl
    | some parts =>
      have := occurrences_of_cut? hmark hcut
      omega
  · intro h
    induction t with
    | nil => rfl
    | cons b t ih =>
      obtain ⟨hp, hcut⟩ := cut?_cons_eq_none h
      rw [occurrences, occurrencesAfter, if_neg (mt List.isPrefixOf_iff_prefix.1 hp)]
      exact ih hcut

end Text

/-! ## Reading a line from left to right -/

/-- What is kept of a line that is read from left to right, and whether it ends inside a block
comment, given whether it begins inside one. A block comment counts as one space. -/
def scanLine : Bool → Text → Text × Bool
  | inBlock, [] => ([], inBlock)
  -- `//` drops the rest of the line
  | false, 47 :: 47 :: _ => ([], false)
  -- `/*` enters a block comment
  | false, 47 :: 42 :: t => (32 :: (scanLine true t).1, (scanLine true t).2)
  | false, b :: t => (b :: (scanLine false t).1, (scanLine false t).2)
  -- `*/` leaves it
  | true, 42 :: 47 :: t => scanLine false t
  | true, _ :: t => scanLine true t

theorem lineMark_ne_nil : lineMark ≠ [] := List.cons_ne_nil _ _

theorem BlockMark.text_ne_nil (m : BlockMark) : m.text ≠ [] := by
  cases m <;> exact List.cons_ne_nil _ _

/-! ### In code -/

theorem scanLine_lineMark (t : Text) : scanLine false (lineMark ++ t) = ([], false) := rfl

theorem scanLine_opening (t : Text) :
    scanLine false (BlockMark.opening.text ++ t) =
      (32 :: (scanLine true t).1, (scanLine true t).2) := rfl

theorem scanLine_cons {b : UInt8} {t : Text} (hline : ¬ lineMark <+: b :: t)
    (hopen : ¬ BlockMark.opening.text <+: b :: t) :
    scanLine false (b :: t) = (b :: (scanLine false t).1, (scanLine false t).2) := by
  rw [scanLine]
  · rintro u rfl rfl
    exact hline ⟨u, rfl⟩
  · rintro u rfl rfl
    exact hopen ⟨u, rfl⟩

theorem scanLine_of_no_mark {s : Text} (hline : Text.cut? lineMark s = none)
    (hopen : Text.cut? BlockMark.opening.text s = none) : scanLine false s = (s, false) := by
  induction s with
  | nil => rfl
  | cons b s ih =>
    obtain ⟨hnotLine, hline⟩ := Text.cut?_cons_eq_none hline
    obtain ⟨hnotOpen, hopen⟩ := Text.cut?_cons_eq_none hopen
    rw [scanLine_cons hnotLine hnotOpen, ih hline hopen]

theorem scanLine_of_line {s before after : Text}
    (hline : Text.cut? lineMark s = some (before, after))
    (hopen : ¬ BlockMark.opening.text <:+: before) : scanLine false s = (before, false) := by
  induction s generalizing before with
  | nil => cases hline
  | cons b s ih =>
    rcases Text.cut?_cons_eq_some hline with ⟨rfl, hs⟩ | ⟨hnotLine, front, rfl, hcut⟩
    · rw [hs, scanLine_lineMark]
    · have hnotOpen : ¬ BlockMark.opening.text <+: b :: s := by
        rintro ⟨u, hu⟩
        rw [Text.cut?_eq_some hcut] at hu
        -- the star is no slash, so it stands before the line mark, too
        cases front with
        | nil =>
          have hstar : (42 : UInt8) = 47 := (List.cons.inj (List.cons.inj hu).2).1
          exact absurd hstar (by decide)
        | cons c front =>
          obtain ⟨rfl, hrest⟩ := List.cons.inj hu
          obtain ⟨rfl, -⟩ := List.cons.inj hrest
          exact hopen ⟨[], front, rfl⟩
      rw [scanLine_cons hnotLine hnotOpen, ih hcut fun h => hopen (List.infix_cons h)]

theorem scanLine_of_opening {s before rest : Text}
    (hopen : Text.cut? BlockMark.opening.text s = some (before, rest))
    (hline : ∀ front back, Text.cut? lineMark s = some (front, back) →
      BlockMark.opening.text <:+: front) :
    scanLine false s = (before ++ 32 :: (scanLine true rest).1, (scanLine true rest).2) := by
  induction s generalizing before with
  | nil => cases hopen
  | cons b s ih =>
    rcases Text.cut?_cons_eq_some hopen with ⟨rfl, hs⟩ | ⟨hnotOpen, front, rfl, hcut⟩
    · rw [hs, scanLine_opening]
      rfl
    · have hnotLine : ¬ lineMark <+: b :: s := by
        rintro ⟨u, hu⟩
        have hnil := hline [] u (by rw [← hu, Text.cut?_append lineMark_ne_nil])
        exact BlockMark.opening.text_ne_nil (List.infix_nil.1 hnil)
      have hrest : ∀ front back, Text.cut? lineMark s = some (front, back) →
          BlockMark.opening.text <:+: front := by
        intro front back hfront
        have hlong := hline (b :: front) back (by
          rw [Text.cut?_cons_of_not_prefix hnotLine, hfront]
          rfl)
        rcases List.infix_cons_iff.1 hlong with hstart | hinner
        · refine absurd (hstart.trans ?_) hnotOpen
          rw [Text.cut?_eq_some hfront, List.append_assoc, ← List.cons_append]
          exact List.prefix_append _ _
        · exact hinner
      rw [scanLine_cons hnotLine hnotOpen, ih hcut hrest]
      rfl

/-- Without a block comment, what is left of a line is what stands before a line comment. -/
theorem scanLine_of_dropLineComment_eq_none {s : Text}
    (h : Text.cut? BlockMark.opening.text (dropLineComment s) = none) :
    scanLine false s = (dropLineComment s, false) := by
  have hmark := BlockMark.opening.text_ne_nil
  unfold dropLineComment at h ⊢
  cases hline : Text.cut? lineMark s with
  | none =>
    rw [hline] at h
    exact scanLine_of_no_mark hline h
  | some parts =>
    obtain ⟨before, after⟩ := parts
    simp only [hline] at h ⊢
    cases hoccurs : Text.occurs BlockMark.opening.text before with
    | true =>
      simp only [hoccurs, if_true] at h
      -- a mark before the line comment is a mark of the line
      have hbefore := (Text.occurs_iff hmark).1 hoccurs
      refine absurd (hbefore.trans ?_) ((Text.cut?_eq_none_iff hmark).1 h)
      rw [Text.cut?_eq_some hline, List.append_assoc]
      exact (List.prefix_append _ _).isInfix
    | false =>
      have hbefore : ¬ BlockMark.opening.text <:+: before := by
        rw [← Text.occurs_iff hmark, hoccurs]
        exact Bool.false_ne_true
      exact scanLine_of_line hline hbefore

/-- A block comment that opens before a line comment is entered. -/
theorem scanLine_of_dropLineComment_eq_some {s before rest : Text}
    (h : Text.cut? BlockMark.opening.text (dropLineComment s) = some (before, rest)) :
    scanLine false s = (before ++ 32 :: (scanLine true rest).1, (scanLine true rest).2) := by
  have hmark := BlockMark.opening.text_ne_nil
  unfold dropLineComment at h
  cases hline : Text.cut? lineMark s with
  | none =>
    rw [hline] at h
    exact scanLine_of_opening h fun front back hfront => by simp [hline] at hfront
  | some parts =>
    obtain ⟨front, back⟩ := parts
    simp only [hline] at h
    cases hoccurs : Text.occurs BlockMark.opening.text front with
    | true =>
      simp only [hoccurs, if_true] at h
      refine scanLine_of_opening h fun front' back' hfront => ?_
      rw [hline, Option.some.injEq, Prod.mk.injEq] at hfront
      rw [← hfront.1]
      exact (Text.occurs_iff hmark).1 hoccurs
    | false =>
      simp only [hoccurs, Bool.false_eq_true, if_false] at h
      simp [Text.occurs, h] at hoccurs

/-! ### Inside a block comment -/

theorem scanLine_closing (t : Text) :
    scanLine true (BlockMark.closing.text ++ t) = scanLine false t := rfl

theorem scanLine_block_cons {b : UInt8} {t : Text} (h : ¬ BlockMark.closing.text <+: b :: t) :
    scanLine true (b :: t) = scanLine true t := by
  rw [scanLine]
  rintro u rfl rfl
  exact h ⟨u, rfl⟩

theorem scanLine_block_of_none {s : Text} (h : Text.cut? BlockMark.closing.text s = none) :
    scanLine true s = ([], true) := by
  induction s with
  | nil => rfl
  | cons b s ih =>
    obtain ⟨hnot, hcut⟩ := Text.cut?_cons_eq_none h
    rw [scanLine_block_cons hnot, ih hcut]

theorem scanLine_block_of_closing {s before after : Text}
    (h : Text.cut? BlockMark.closing.text s = some (before, after)) :
    scanLine true s = scanLine false after := by
  induction s generalizing before with
  | nil => cases h
  | cons b s ih =>
    rcases Text.cut?_cons_eq_some h with ⟨-, hs⟩ | ⟨hnot, front, -, hcut⟩
    · rw [hs, scanLine_closing]
    · rw [scanLine_block_cons hnot, ih hcut]

/-! ## Stripping a line -/

theorem dropLineComment_isPrefix (s : Text) : dropLineComment s <+: s := by
  unfold dropLineComment
  split
  · exact List.prefix_refl s
  · next before after hcut =>
    split
    · exact List.prefix_refl s
    · rw [Text.cut?_eq_some hcut, List.append_assoc]
      exact List.prefix_append _ _

/-- What is left of a line has these words, and nothing is left if there are none. -/
structure LeavesWords (text : Text) (ws : List Text) : Prop where
  words_eq : text.words = ws
  eq_nil_iff : text = [] ↔ ws = []

theorem leavesWords_trim {t : Text} {ws : List Text} (h : t.words = ws) : LeavesWords t.trim ws :=
  ⟨(Text.words_trim t).trans h, h ▸ Text.trim_eq_nil_iff⟩

theorem stripCode_scanLine {s text : Text} {b : Bool} (h : stripCode s = (b, .ok text)) :
    (scanLine false s).2 = b ∧ LeavesWords text (scanLine false s).1.words := by
  have hmark := BlockMark.opening.text_ne_nil
  simp only [stripCode] at h
  split at h
  · simp at h
  · next hopens =>
    cases hopen : Text.cut? BlockMark.opening.text (dropLineComment s) with
    | none =>
      simp only [hopen, Prod.mk.injEq, Except.ok.injEq] at h
      obtain ⟨rfl, rfl⟩ := h
      rw [scanLine_of_dropLineComment_eq_none hopen]
      exact ⟨rfl, leavesWords_trim rfl⟩
    | some parts =>
      obtain ⟨before, rest⟩ := parts
      rw [scanLine_of_dropLineComment_eq_some hopen]
      simp only [hopen] at h
      split at h
      · simp at h
      · cases hclose : Text.cut? BlockMark.closing.text rest with
        | none =>
          simp only [hclose, Prod.mk.injEq, Except.ok.injEq] at h
          obtain ⟨rfl, rfl⟩ := h
          rw [scanLine_block_of_none hclose]
          refine ⟨rfl, leavesWords_trim ?_⟩
          rw [Text.words_append_space, Text.words_nil, List.append_nil]
        | some parts =>
          obtain ⟨inside, after⟩ := parts
          simp only [hclose, Prod.mk.injEq, Except.ok.injEq] at h
          obtain ⟨rfl, rfl⟩ := h
          -- the line has one opening mark, so none comes after the block comment
          have hnone : Text.cut? BlockMark.opening.text (dropLineComment after) = none := by
            have hone := Text.occurrences_of_cut? hmark hopen
            have hrest := (Text.occurrences_eq_zero_iff hmark (t := rest)).1 (by omega)
            rw [Text.cut?_eq_none_iff hmark] at hrest ⊢
            intro hinner
            apply hrest
            rw [Text.cut?_eq_some hclose]
            exact (hinner.trans (dropLineComment_isPrefix after).isInfix).trans
              (List.suffix_append _ _).isInfix
          rw [scanLine_block_of_closing hclose, scanLine_of_dropLineComment_eq_none hnone]
          refine ⟨rfl, leavesWords_trim ?_⟩
          rw [List.append_assoc, show utf8 " " ++ (dropLineComment after).trim =
            32 :: (dropLineComment after).trim from rfl, Text.words_append_space,
            Text.words_append_space, Text.words_trim, Text.words_trim]

/-- **Stripping a line and reading it from left to right leave the same words**, and the line ends
inside a block comment for both or for none. -/
theorem strip_scanLine {inBlock b : Bool} {s text : Text} (h : strip inBlock s = (b, .ok text)) :
    (scanLine inBlock s).2 = b ∧ LeavesWords text (scanLine inBlock s).1.words := by
  cases inBlock with
  | false => exact stripCode_scanLine h
  | true =>
    simp only [strip, if_true] at h
    split at h
    · simp at h
    · cases hclose : Text.cut? BlockMark.closing.text s with
      | none =>
        simp only [hclose, Prod.mk.injEq, Except.ok.injEq] at h
        obtain ⟨rfl, rfl⟩ := h
        rw [scanLine_block_of_none hclose]
        exact ⟨rfl, Text.words_nil, by simp⟩
      | some parts =>
        obtain ⟨inside, rest⟩ := parts
        simp only [hclose] at h
        rw [scanLine_block_of_closing hclose]
        exact stripCode_scanLine h

/-! ## Reading a source -/

/-- What is kept of the lines of a source, and whether the source ends inside a block comment, given
whether it begins inside one. -/
def scanLines (inBlock : Bool) : List Text → List Text × Bool
  | [] => ([], inBlock)
  | raw :: rest =>
    let (kept, b) := scanLine inBlock raw
    let (keptRest, b') := scanLines b rest
    (kept :: keptRest, b')

theorem scanLines_cons_snd (inBlock : Bool) (s : Text) (rest : List Text) :
    (scanLines inBlock (s :: rest)).2 = (scanLines (scanLine inBlock s).2 rest).2 := rfl

/-- The lines that have a word, with their numbers, the first line being numbered `number`. -/
def wordLines (number : Nat) (lines : List Text) : List (Int × List Text) :=
  ((lines.zipIdx number).filter fun (line, _) => line.words ≠ []).map
    fun (line, n) => ((n : Int), line.words)

theorem wordLines_cons (number : Nat) (line : Text) (lines : List Text) :
    wordLines number (line :: lines) =
      if line.words = [] then wordLines (number + 1) lines
      else ((number : Int), line.words) :: wordLines (number + 1) lines := by
  by_cases h : line.words = []
  · simp [wordLines, h]
  · simp [wordLines, h]

namespace CommandLine

theorem readFrom_cons_eq_ok {number : Nat} {inBlock b : Bool} {s : Text} {rest : List Text}
    {lines : List CommandLine} (h : readFrom number inBlock (s :: rest) = (b, .ok lines)) :
    ∃ b₁ text linesRest, strip inBlock s = (b₁, .ok text) ∧
      readFrom (number + 1) b₁ rest = (b, .ok linesRest) ∧
      lines = if text = [] then linesRest else ⟨number, startColumn s text, text⟩ :: linesRest := by
  rw [readFrom] at h
  rcases hstrip : strip inBlock s with ⟨b₁, _ | text⟩
  · simp [hstrip] at h
  · rcases hrest : readFrom (number + 1) b₁ rest with ⟨b₂, _ | linesRest⟩
    · simp [hstrip, hrest] at h
    · simp only [hstrip, hrest, Prod.mk.injEq, Except.ok.injEq] at h
      obtain ⟨rfl, rfl⟩ := h
      exact ⟨b₁, text, linesRest, rfl, hrest, rfl⟩

theorem readFrom_scanLines {number : Nat} {inBlock b : Bool} {raw : List Text}
    {lines : List CommandLine} (h : readFrom number inBlock raw = (b, .ok lines)) :
    (scanLines inBlock raw).2 = b ∧
      lines.map (fun l => (l.number, l.text.words)) =
        wordLines number (scanLines inBlock raw).1 := by
  induction raw generalizing number inBlock lines with
  | nil =>
    simp only [readFrom, Prod.mk.injEq, Except.ok.injEq] at h
    obtain ⟨rfl, rfl⟩ := h
    exact ⟨rfl, rfl⟩
  | cons s rest ih =>
    obtain ⟨b₁, text, linesRest, hstrip, hrest, rfl⟩ := readFrom_cons_eq_ok h
    obtain ⟨hstate, hwords⟩ := strip_scanLine hstrip
    obtain ⟨hend, hlines⟩ := ih hrest
    simp only [scanLines, hstate]
    refine ⟨hend, ?_⟩
    rw [wordLines_cons, ← hlines]
    by_cases htext : text = []
    · rw [if_pos htext, if_pos (hwords.eq_nil_iff.1 htext)]
    · rw [if_neg htext, if_neg (mt hwords.eq_nil_iff.2 htext), List.map_cons, hwords.words_eq]

end CommandLine

/-- **A source reader agrees with reading character by character**, whatever it read before. Unless
a comment is refused, the lines it returns are those on which the scan leaves a word, with their
numbers and these words; there are none exactly if it reports an empty source; and it stops inside a
block comment exactly if the scan does. -/
theorem read_agrees_with_scan (r : SourceReader) (raw : List Text)
    (h : ∀ e, (r.read raw).2 ≠ .error (.comment e)) :
    (∀ lines, (r.read raw).2 = .ok lines →
      lines.map (fun l => (l.number, l.text.words)) = wordLines 1 (scanLines false raw).1) ∧
    ((r.read raw).2 = .error .empty ↔ wordLines 1 (scanLines false raw).1 = []) ∧
    (r.read raw).1.inBlock = (scanLines false raw).2 := by
  rw [SourceReader.read, SourceReader.reset] at *
  rcases hread : CommandLine.readFrom 1 false raw with ⟨b, e | lines⟩
  · simp [hread] at h
  · obtain ⟨hstate, hlines⟩ := CommandLine.readFrom_scanLines hread
    rw [hstate, ← hlines]
    cases lines with
    | nil => simp
    | cons l lines => simp

/-- Marks that overlap are read from the left, also by a reader that stopped inside a block comment
before. -/
theorem read_overlapping_marks :
    let raw := [utf8 "a //* b", utf8 "c /*/ d", utf8 "e *// f", utf8 "g /* h */ i // j",
      utf8 "/* k", utf8 "*/* l /*"]
    let r : SourceReader := { inBlock := true }
    (∀ e, (r.read raw).2 ≠ .error (.comment e)) ∧
      (∀ lines, (r.read raw).2 = .ok lines →
        lines.map (fun l => (l.number, l.text.words)) =
          [(1, [utf8 "a"]), (2, [utf8 "c"]), (3, [utf8 "/", utf8 "f"]), (4, [utf8 "g", utf8 "i"]),
            (6, [utf8 "*", utf8 "l"])]) ∧
      (r.read raw).2 ≠ .error .empty ∧ (r.read raw).1.inBlock = true := by
  intro raw r
  have hok : ∀ e, (r.read raw).2 ≠ .error (.comment e) := by
    obtain ⟨lines, hlines⟩ : ∃ lines, (r.read raw).2 = .ok lines := ⟨_, rfl⟩
    intro e he
    rw [hlines] at he
    cases he
  have hscan : wordLines 1 (scanLines false raw).1 = [(1, [utf8 "a"]), (2, [utf8 "c"]),
      (3, [utf8 "/", utf8 "f"]), (4, [utf8 "g", utf8 "i"]), (6, [utf8 "*", utf8 "l"])] := by
    rfl
  obtain ⟨hlines, hempty, hstate⟩ := read_agrees_with_scan r raw hok
  rw [hscan] at hlines hempty
  exact ⟨hok, hlines, fun h => by simpa using hempty.1 h, hstate.trans rfl⟩

end HackVM
