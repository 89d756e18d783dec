import HackVM.Proofs.Comments

/-!
# Surplus block marks

A line with more than one opening or more than one closing mark is to be refused, unless the marks
stand in a line comment that begins outside of block comments and before any opening mark.
`counted` is the part of a line in which marks count by this rule, and `Malformed` says that the
rule refuses the line. A source reader counts otherwise: on a line that begins in code it counts
closing marks only behind the first opening mark, and on a line that begins inside a block comment
it counts opening marks only behind the first closing mark, and closing marks also in a line comment
(`Refused`). `surplus_marks_of_read` says that it reports the first line that is refused so, and
that this is the first malformed line if the marks of every line stand in the usual order.
-/

namespace HackVM

/-! ## The part of a line that counts -/

/-- A line without the line comment that begins outside of block comments and before any opening
mark, given whether the line begins inside a block comment. -/
def counted : Bool → Text → Text
  | _, [] => []
  | false, 47 :: 47 :: _ => []
  | false, 47 :: 42 :: t => 47 :: 42 :: t
  | false, b :: t => b :: counted false t
  | true, 42 :: 47 :: t => 42 :: 47 :: counted false t
  | true, b :: t => b :: counted true t

theorem counted_lineMark (t : Text) : counted false (lineMark ++ t) = [] := rfl

theorem counted_opening (t : Text) :
    counted false (BlockMark.opening.text ++ t) = BlockMark.opening.text ++ t := rfl

theorem counted_cons {b : UInt8} {t : Text} (hline : ¬ lineMark <+: b :: t)
    (hopen : ¬ BlockMark.opening.text <+: b :: t) :
    counted false (b :: t) = b :: counted false t := by
  rw [counted]
  · rintro u rfl rfl
    exact hline ⟨u, rfl⟩
  · rintro u rfl rfl
    exact hopen ⟨u, rfl⟩

theorem counted_closing (t : Text) :
    counted true (BlockMark.closing.text ++ t) = BlockMark.closing.text ++ counted false t := rfl

theorem counted_block_cons {b : UInt8} {t : Text} (h : ¬ BlockMark.closing.text <+: b :: t) :
    counted true (b :: t) = b :: counted true t := by
  rw [counted]
  rintro u rfl rfl
  exact h ⟨u, rfl⟩

/-! ### In code -/

theorem dropLineComment_lineMark (t : Text) : dropLineComment (lineMark ++ t) = [] := by
  simp [dropLineComment, Text.cut?_append lineMark_ne_nil, Text.occurs, Text.cut?,
    BlockMark.text_ne_nil]

theorem dropLineComment_opening (t : Text) :
    dropLineComment (BlockMark.opening.text ++ t) = BlockMark.opening.text ++ t := by
  unfold dropLineComment
  split
  · rfl
  · next before after hcut =>
    rw [if_pos]
    rw [Text.occurs_iff BlockMark.opening.text_ne_nil]
    have hsplit := Text.cut?_eq_some hcut
    -- the star is no slash, so the line mark comes after the opening mark
    match before with
    | [] =>
      have hstar : (42 : UInt8) = 47 := (List.cons.inj (List.cons.inj hsplit).2).1
      exact absurd hstar (by decide)
    | [b] =>
      have hstar : (42 : UInt8) = 47 := (List.cons.inj (List.cons.inj hsplit).2).1
      exact absurd hstar (by decide)
    | b :: c :: before =>
      obtain ⟨rfl, hrest⟩ := List.cons.inj hsplit
      obtain ⟨rfl, -⟩ := List.cons.inj hrest
      exact ⟨[], before, rfl⟩

theorem dropLineComment_cons {b : UInt8} {t : Text} (hline : ¬ lineMark <+: b :: t)
    (hopen : ¬ BlockMark.opening.text <+: b :: t) :
    dropLineComment (b :: t) = b :: dropLineComment t := by
  rw [dropLineComment, Text.cut?_cons_of_not_prefix hline, dropLineComment]
  cases hcut : Text.cut? lineMark t with
  | none => rfl
  | some parts =>
    obtain ⟨before, after⟩ := parts
    have hnot : ¬ BlockMark.opening.text <+: b :: before := fun hmark => by
      refine hopen (hmark.trans ?_)
      rw [Text.cut?_eq_some hcut, List.append_assoc]
      exact List.prefix_append (b :: before) _
    have hoccurs : Text.occurs BlockMark.opening.text (b :: before) =
        Text.occurs BlockMark.opening.text before := by
      rw [Text.occurs, Text.cut?_cons_of_not_prefix hnot, Option.isSome_map, Text.occurs]
    simp only [Option.map_some, hoccurs]
    split <;> rfl

/-- In code, what counts is what dropping a line comment leaves. -/
theorem dropLineComment_eq_counted (s : Text) : dropLineComment s = counted false s := by
  induction s with
  | nil => rfl
  | cons b s ih =>
    by_cases hline : lineMark <+: b :: s
    · obtain ⟨t, ht⟩ := hline
      rw [← ht, dropLineComment_lineMark, counted_lineMark]
    · by_cases hopen : BlockMark.opening.text <+: b :: s
      · obtain ⟨t, ht⟩ := hopen
        rw [← ht, dropLineComment_opening, counted_opening]
      · rw [dropLineComment_cons hline hopen, counted_cons hline hopen, ih]

/-! ### Inside a block comment -/

theorem head?_counted_true (s : Text) : (counted true s).head? = s.head? := by
  cases s with
  | nil => rfl
  | cons b s =>
    by_cases h : BlockMark.closing.text <+: b :: s
    · obtain ⟨t, ht⟩ := h
      rw [← ht, counted_closing]
      rfl
    · rw [counted_block_cons h]
      rfl

/-- A line that begins inside a block comment counts up to its first closing mark, and then as a
line that begins in code. -/
theorem cut?_counted_true (s : Text) :
    Text.cut? BlockMark.closing.text (counted true s) =
      (Text.cut? BlockMark.closing.text s).map fun (before, after) =>
        (before, counted false after) := by
  induction s with
  | nil => rfl
  | cons b s ih =>
    by_cases h : BlockMark.closing.text <+: b :: s
    · obtain ⟨t, ht⟩ := h
      rw [← ht, counted_closing, Text.cut?_append BlockMark.closing.text_ne_nil,
        Text.cut?_append BlockMark.closing.text_ne_nil]
      rfl
    · have hnot : ¬ BlockMark.closing.text <+: b :: counted true s := by
        rintro ⟨t, ht⟩
        obtain ⟨rfl, htail⟩ := List.cons.inj ht
        have hslash : s.head? = some 47 := by
          rw [← head?_counted_true, ← htail]
          rfl
        obtain ⟨u, rfl⟩ := List.head?_eq_some_iff.1 hslash
        exact h ⟨u, rfl⟩
      rw [counted_block_cons h, Text.cut?_cons_of_not_prefix hnot, Text.cut?_cons_of_not_prefix h,
        ih, Option.map_map, Option.map_map]
      rfl

/-! ## Two rules -/

/-- What stands behind the first occurrence of a mark, and nothing if the mark does not occur. -/
def Text.behind (mark t : Text) : Text :=
  match cut? mark t with
  | none => []
  | some (_, after) => after

theorem behind_counted_true (s : Text) :
    Text.behind BlockMark.closing.text (counted true s) =
      counted false (Text.behind BlockMark.closing.text s) := by
  rw [Text.behind, Text.behind, cut?_counted_true]
  cases Text.cut? BlockMark.closing.text s with
  | none => rfl
  | some parts => rfl

/-- More than one mark of the kind occurs in the text. -/
def BlockMark.Repeated (m : BlockMark) (t : Text) : Prop := 1 < Text.occurrences m.text t

/-- The part of the line that counts has more than one opening or more than one closing mark. -/
def Malformed (inBlock : Bool) (s : Text) : Prop :=
  BlockMark.opening.Repeated (counted inBlock s) ∨ BlockMark.closing.Repeated (counted inBlock s)

/-- The marks that a source reader counts on a line repeat. -/
def Refused : Bool → Text → Prop
  | false, s => BlockMark.opening.Repeated (counted false s) ∨
      BlockMark.closing.Repeated (Text.behind BlockMark.opening.text (counted false s))
  | true, s => BlockMark.closing.Repeated s ∨
      BlockMark.opening.Repeated (Text.behind BlockMark.closing.text (counted true s))

/-- On a line that begins in code, all closing marks that count stand behind the first opening mark.
On a line that begins inside a block comment, all opening marks that count stand behind the first
closing mark, and no closing mark stands in a line comment. -/
def MarksInOrder : Bool → Text → Prop
  | false, s =>
    Text.occurrences BlockMark.closing.text
        (Text.behind BlockMark.opening.text (counted false s)) =
      Text.occurrences BlockMark.closing.text (counted false s)
  | true, s =>
    Text.occurrences BlockMark.opening.text
        (Text.behind BlockMark.closing.text (counted true s)) =
      Text.occurrences BlockMark.opening.text (counted true s) ∧
    Text.occurrences BlockMark.closing.text s =
      Text.occurrences BlockMark.closing.text (counted true s)

theorem refused_iff_malformed {inBlock : Bool} {s : Text} (h : MarksInOrder inBlock s) :
    Refused inBlock s ↔ Malformed inBlock s := by
  cases inBlock with
  | false =>
    rw [MarksInOrder] at h
    rw [Refused, Malformed, BlockMark.Repeated, BlockMark.Repeated, BlockMark.Repeated, h]
  | true =>
    obtain ⟨hopens, hcloses⟩ := h
    rw [Refused, Malformed, BlockMark.Repeated, BlockMark.Repeated, hopens, hcloses]
    exact or_comm

/-! ## Stripping a line -/

theorem BlockMark.not_repeated_nil (m : BlockMark) : ¬ m.Repeated [] := Nat.not_lt_zero 1

theorem not_repeated_of_cut?_eq_none {m : BlockMark} {t : Text} (h : Text.cut? m.text t = none) :
    ¬ m.Repeated t := by
  rw [BlockMark.Repeated, (Text.occurrences_eq_zero_iff m.text_ne_nil).2 h]
  exact Nat.not_lt_zero 1

theorem stripCode_eq_error_iff {s : Text} :
    (∃ e, (stripCode s).2 = .error e) ↔ Refused false s := by
  rw [Refused, BlockMark.Repeated, Text.behind]
  simp only [stripCode, dropLineComment_eq_counted]
  by_cases hopens : 1 < Text.occurrences BlockMark.opening.text (counted false s)
  · simp [hopens]
  · rw [if_neg hopens]
    cases Text.cut? BlockMark.opening.text (counted false s) with
    | none => simp [hopens, BlockMark.not_repeated_nil]
    | some parts =>
      obtain ⟨before, rest⟩ := parts
      by_cases hcloses : 1 < Text.occurrences BlockMark.closing.text rest
      · simp [hcloses, BlockMark.Repeated]
      · simp only [hopens, hcloses, BlockMark.Repeated, if_false, or_self, iff_false]
        rintro ⟨e, he⟩
        cases hclose : Text.cut? BlockMark.closing.text rest <;> simp [hclose] at he

theorem behind_isSuffix (mark t : Text) : Text.behind mark t <:+ t := by
  unfold Text.behind
  split
  · exact List.nil_suffix
  · next before after hcut =>
    rw [Text.cut?_eq_some hcut]
    exact List.suffix_append _ _

/-- **A line is refused for its surplus marks, and for nothing else.** -/
theorem strip_eq_error_iff {inBlock : Bool} {s : Text} :
    (∃ e, (strip inBlock s).2 = .error e) ↔ Refused inBlock s := by
  cases inBlock with
  | false => exact stripCode_eq_error_iff
  | true =>
    rw [Refused, behind_counted_true, BlockMark.Repeated, Text.behind]
    simp only [strip, if_true]
    by_cases hcloses : 1 < Text.occurrences BlockMark.closing.text s
    · simp [hcloses]
    · rw [if_neg hcloses]
      cases hclose : Text.cut? BlockMark.closing.text s with
      | none => simp [hcloses, show counted false [] = [] from rfl, BlockMark.not_repeated_nil]
      | some parts =>
        obtain ⟨before, rest⟩ := parts
        -- the line has no further closing mark
        have hrest : Text.cut? BlockMark.closing.text rest = none := by
          have hone := Text.occurrences_of_cut? BlockMark.closing.text_ne_nil hclose
          exact (Text.occurrences_eq_zero_iff BlockMark.closing.text_ne_nil).1 (by omega)
        have hnot : ¬ BlockMark.closing.Repeated
            (Text.behind BlockMark.opening.text (counted false rest)) := by
          refine not_repeated_of_cut?_eq_none ?_
          rw [Text.cut?_eq_none_iff BlockMark.closing.text_ne_nil] at hrest ⊢
          intro hinner
          apply hrest
          rw [← dropLineComment_eq_counted] at hinner
          exact (hinner.trans (behind_isSuffix _ _).isInfix).trans
            (dropLineComment_isPrefix rest).isInfix
        simp only [stripCode_eq_error_iff, Refused, hnot, or_false, hcloses, false_or]

/-! ## Reading lines -/

/-- The rule holds of the line with this index, read as the lines before it leave off. -/
def HoldsAt (rule : Bool → Text → Prop) (inBlock : Bool) (raw : List Text) (i : Nat) : Prop :=
  ∃ s, raw[i]? = some s ∧ rule (scanLines inBlock (raw.take i)).2 s

/-- The rule holds of the line with this index and of no line before it. -/
def FirstAt (rule : Bool → Text → Prop) (inBlock : Bool) (raw : List Text) (i : Nat) : Prop :=
  HoldsAt rule inBlock raw i ∧ ∀ j < i, ¬ HoldsAt rule inBlock raw j

section Lines

variable {rule : Bool → Text → Prop} {inBlock : Bool} {s : Text} {rest : List Text}

theorem holdsAt_zero : HoldsAt rule inBlock (s :: rest) 0 ↔ rule inBlock s := by
  simp [HoldsAt, scanLines]

theorem holdsAt_succ {i : Nat} :
    HoldsAt rule inBlock (s :: rest) (i + 1) ↔ HoldsAt rule (scanLine inBlock s).2 rest i := by
  rw [HoldsAt, HoldsAt, List.take_succ_cons, scanLines_cons_snd]
  rfl

theorem holdsAt_congr {rule' : Bool → Text → Prop} {raw : List Text}
    (h : ∀ i s, raw[i]? = some s →
      (rule (scanLines inBlock (raw.take i)).2 s ↔ rule' (scanLines inBlock (raw.take i)).2 s))
    (i : Nat) : HoldsAt rule inBlock raw i ↔ HoldsAt rule' inBlock raw i :=
  exists_congr fun s => and_congr_right (h i s)

theorem firstAt_zero : FirstAt rule inBlock (s :: rest) 0 ↔ rule inBlock s := by
  simp [FirstAt, holdsAt_zero]

theorem firstAt_succ {i : Nat} :
    FirstAt rule inBlock (s :: rest) (i + 1) ↔
      ¬ rule inBlock s ∧ FirstAt rule (scanLine inBlock s).2 rest i := by
  rw [FirstAt, FirstAt, Nat.forall_lt_succ_left, holdsAt_zero, holdsAt_succ]
  simp only [holdsAt_succ]
  tauto

theorem exists_firstAt {raw : List Text} :
    (∃ i, FirstAt rule inBlock raw i) ↔ ∃ i, HoldsAt rule inBlock raw i := by
  classical
  constructor
  · rintro ⟨i, h, -⟩
    exact ⟨i, h⟩
  · intro h
    exact ⟨Nat.find h, Nat.find_spec h, fun j => Nat.find_min h⟩

end Lines

namespace CommandLine

variable {number : Nat} {inBlock : Bool} {s : Text} {rest raw : List Text} {e : BadComment}

theorem readFrom_of_refused (number : Nat) (rest : List Text) (h : Refused inBlock s) :
    ∃ e, (readFrom number inBlock (s :: rest)).2 = .error e ∧ e.line = number := by
  obtain ⟨surplus, hstrip⟩ := strip_eq_error_iff.2 h
  rw [readFrom]
  rcases hparts : strip inBlock s with ⟨b, result⟩
  rw [hparts] at hstrip
  obtain rfl : result = .error surplus := hstrip
  exact ⟨_, rfl, rfl⟩

theorem readFrom_of_not_refused (h : ¬ Refused inBlock s) :
    (readFrom number inBlock (s :: rest)).2 = .error e ↔
      (readFrom (number + 1) (scanLine inBlock s).2 rest).2 = .error e := by
  rcases hparts : strip inBlock s with ⟨b, surplus | text⟩
  · exact absurd (strip_eq_error_iff.1 ⟨surplus, by rw [hparts]⟩) h
  · rw [(strip_scanLine hparts).1, readFrom]
    rcases hrest : readFrom (number + 1) b rest with ⟨b', e' | lines⟩
    · simp [hparts, hrest]
    · simp [hparts, hrest]

theorem le_line_of_readFrom (h : (readFrom number inBlock raw).2 = .error e) :
    number ≤ e.line := by
  induction raw generalizing number inBlock with
  | nil => cases h
  | cons s rest ih =>
    by_cases hs : Refused inBlock s
    · obtain ⟨e', he', hline⟩ := readFrom_of_refused number rest hs
      obtain rfl := Except.error.inj (h.symm.trans he')
      exact hline.ge
    · exact (Nat.le_succ number).trans (ih ((readFrom_of_not_refused hs).1 h))

/-- Reading stops at the first line that is refused. -/
theorem readFrom_eq_error_iff {i : Nat} :
    (∃ e, (readFrom number inBlock raw).2 = .error e ∧ e.line = number + i) ↔
      FirstAt Refused inBlock raw i := by
  induction raw generalizing number inBlock i with
  | nil =>
    constructor
    · rintro ⟨e, he, -⟩
      cases he
    · rintro ⟨⟨s, hs, -⟩, -⟩
      cases hs
  | cons s rest ih =>
    by_cases hs : Refused inBlock s
    · obtain ⟨e, he, hline⟩ := readFrom_of_refused number rest hs
      cases i with
      | zero => exact ⟨fun _ => firstAt_zero.2 hs, fun _ => ⟨e, he, hline⟩⟩
      | succ i =>
        refine ⟨?_, fun hfirst => absurd hs (firstAt_succ.1 hfirst).1⟩
        rintro ⟨e', he', hline'⟩
        obtain rfl := Except.error.inj (he.symm.trans he')
        omega
    · simp only [readFrom_of_not_refused hs]
      cases i with
      | zero =>
        refine ⟨?_, fun hfirst => absurd (firstAt_zero.1 hfirst) hs⟩
        rintro ⟨e, he, hline⟩
        have := le_line_of_readFrom he
        omega
      | succ i =>
        rw [firstAt_succ, ← ih, ← Nat.add_assoc, Nat.add_right_comm]
        exact (and_iff_right hs).symm

end CommandLine

theorem SourceReader.read_eq_comment_iff {r : SourceReader} {raw : List Text} {e : BadComment} :
    (r.read raw).2 = .error (.comment e) ↔ (CommandLine.readFrom 1 false raw).2 = .error e := by
  rw [read, reset]
  rcases CommandLine.readFrom 1 false raw with ⟨b, e' | _ | ⟨l, ls⟩⟩
  · simp
  · simp
  · simp

/-- **Which surplus marks are reported.** A source reader, whatever it read before, reports a
comment exactly if it refuses a line, and then it names the first line that it refuses. If the marks
of all lines stand in order, that is the first malformed line, and there is one exactly if a comment
is reported. -/
theorem surplus_marks_of_read (r : SourceReader) (raw : List Text) :
    ((∃ e, (r.read raw).2 = .error (.comment e)) ↔ ∃ i, HoldsAt Refused false raw i) ∧
    (∀ i, (∃ e, (r.read raw).2 = .error (.comment e) ∧ e.line = i + 1) ↔
      FirstAt Refused false raw i) ∧
    ((∀ i s, raw[i]? = some s → MarksInOrder (scanLines false (raw.take i)).2 s) →
      ((∃ e, (r.read raw).2 = .error (.comment e)) ↔ ∃ i, HoldsAt Malformed false raw i) ∧
      ∀ i, (∃ e, (r.read raw).2 = .error (.comment e) ∧ e.line = i + 1) ↔
        FirstAt Malformed false raw i) := by
  simp only [SourceReader.read_eq_comment_iff]
  have hfirst (i : Nat) : (∃ e, (CommandLine.readFrom 1 false raw).2 = .error e ∧
      e.line = i + 1) ↔ FirstAt Refused false raw i := by
    rw [Nat.add_comm, CommandLine.readFrom_eq_error_iff]
  have hexists : (∃ e, (CommandLine.readFrom 1 false raw).2 = .error e) ↔
      ∃ i, HoldsAt Refused false raw i := by
    rw [← exists_firstAt]
    constructor
    · rintro ⟨e, he⟩
      have hline := CommandLine.le_line_of_readFrom he
      exact ⟨e.line - 1, (hfirst _).1 ⟨e, he, by omega⟩⟩
    · rintro ⟨i, hi⟩
      obtain ⟨e, he, -⟩ := (hfirst i).2 hi
      exact ⟨e, he⟩
  refine ⟨hexists, hfirst, fun horder => ?_⟩
  have hrules := holdsAt_congr fun i s hs => refused_iff_malformed (horder i s hs)
  simp only [FirstAt, ← hrules]
  exact ⟨hexists, hfirst⟩

/-- Closing marks in a line comment, and two opening marks behind the end of a block comment. -/
theorem surplus_marks_of_read_third_line :
    let raw := [utf8 "add // */ */", utf8 "/* a", utf8 "b */ c /* d /* e"]
    (∀ i s, raw[i]? = some s → MarksInOrder (scanLines false (raw.take i)).2 s) ∧
      (∃ e, (SourceReader.read {} raw).2 = .error (.comment e) ∧ e.line = 3) ∧
      FirstAt Malformed false raw 2 := by
  intro raw
  have horder : ∀ i s, raw[i]? = some s → MarksInOrder (scanLines false (raw.take i)).2 s := by
    intro i s hs
    match i with
    | 0 | 1 =>
      obtain rfl := Option.some.inj hs
      rfl
    | 2 =>
      obtain rfl := Option.some.inj hs
      exact ⟨rfl, rfl⟩
    | i + 3 => cases hs
  have herror : ∃ e, (SourceReader.read {} raw).2 = .error (.comment e) ∧ e.line = 3 :=
    ⟨_, rfl, rfl⟩
  exact ⟨horder, herror, (((surplus_marks_of_read {} raw).2.2 horder).2 2).1 herror⟩

/-- Two closing marks in code are kept as they are. -/
theorem closing_marks_unreported :
    (SourceReader.read {} [utf8 "add */ */"]).2 = .ok [⟨1, 1, utf8 "add */ */"⟩] ∧
      FirstAt Malformed false [utf8 "add */ */"] 0 := by
  refine ⟨rfl, firstAt_zero.2 (.inr ?_)⟩
  rw [BlockMark.Repeated]
  decide

end HackVM
