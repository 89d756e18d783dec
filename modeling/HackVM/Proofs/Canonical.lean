import HackVM.Proofs.Lexing
import HackVM.Proofs.Passes

/-!
# Canonical text

Every operation is written with one word or with three (`Operation.words`), and the text of its
instruction is these words with spaces between them. A command line with just these words, whatever
the white space around them, decodes to the operation (`CommandLine.decode_of_words`). The text
holds no slash, so there is no comment in it, and lines made of such texts are read and decoded to
the same operations (`readFrom_text`).
-/

namespace HackVM

/-! ## The words of an operation -/

/-- The words that an operation is written with. -/
def Operation.words : Operation → List Text
  | literal n => [Command.push.word, Segment.constant.word, Text.ofNat n]
  | push r n => [Command.push.word, (Segment.region r).word, Text.ofNat n]
  | pop r n => [Command.pop.word, (Segment.region r).word, Text.ofNat n]
  | unary op => [(Command.unary op).word]
  | binary op => [(Command.binary op).word]
  | compare rel => [(Command.compare rel).word]

theorem Instruction.text_of_triple (c : Command) (s : Segment) (n : Nat) (line : Int) :
    (⟨c.word, s.word, n, line⟩ : Instruction).text =
      c.word ++ 32 :: (s.word ++ 32 :: Text.ofNat n) := by
  rw [Instruction.text, if_neg s.word_ne_nil, Text.ofInt_natCast]
  simp [show utf8 " " = [32] from rfl]

theorem words_of_triple (c : Command) (s : Segment) (n : Nat) :
    Text.words (c.word ++ 32 :: (s.word ++ 32 :: Text.ofNat n)) =
      [c.word, s.word, Text.ofNat n] := by
  rw [Text.words_append_space, Text.words_append_space,
    Text.words_of_plain c.word_ne_nil c.plain_word, Text.words_of_plain s.word_ne_nil s.plain_word,
    Text.words_of_plain (Text.ofNat_ne_nil n) (Text.plain_ofNat n)]
  rfl

/-- The text of an instruction has the words of its operation. -/
theorem Operation.words_text (op : Operation) (line : Int) :
    (op.instruction line).text.words = op.words := by
  cases op with
  | literal n =>
    rw [instruction, Instruction.text_of_triple .push .constant n line]
    exact words_of_triple _ _ _
  | push r n =>
    rw [instruction, Instruction.text_of_triple .push (.region r) n line]
    exact words_of_triple _ _ _
  | pop r n =>
    rw [instruction, Instruction.text_of_triple .pop (.region r) n line]
    exact words_of_triple _ _ _
  | unary op => exact Text.words_of_plain (Command.word_ne_nil _) (Command.plain_word _)
  | binary op => exact Text.words_of_plain (Command.word_ne_nil _) (Command.plain_word _)
  | compare rel => exact Text.words_of_plain (Command.word_ne_nil _) (Command.plain_word _)

/-! ## Decoding words -/

theorem Operation.words_of_operands? {op : Operation} {s : Segment} {n : Nat}
    (h : op.operands? = some (s, n)) : op.words = [op.command.word, s.word, Text.ofNat n] := by
  cases op <;> cases h <;> rfl

theorem Operation.words_of_operands?_eq_none {op : Operation} (h : op.operands? = none) :
    op.words = [op.command.word] := by
  cases op <;> simp [Operation.operands?] at h <;> rfl

theorem decodeOffset_of_literal {tok : Token} {n : Nat} (h : tok.literal = Text.ofNat n)
    (hn : n ≤ largestOffset) : decodeOffset tok = .ok n := by
  have hvalue := Text.value?_ofNat n
  rw [Text.value?] at hvalue
  split at hvalue
  · next hdigits =>
    rw [decodeOffset_eq_ok_iff, Token.isNumber, h]
    exact ⟨hdigits.2, Option.some.inj hvalue, hn⟩
  · cases hvalue

theorem decodeTokens_of_words {strict : Bool} {op : Operation} (hop : op.InRange strict)
    {toks : List Token} (h : toks.map Token.literal = op.words) :
    decodeTokens strict toks = .ok op := by
  cases hoperands : op.operands? with
  | none =>
    rw [Operation.words_of_operands?_eq_none hoperands] at h
    obtain ⟨tok, rfl, htok⟩ := List.map_eq_singleton_iff.1 h
    exact decodeSingle_eq_ok_iff.2 ⟨hoperands, htok⟩
  | some operands =>
    obtain ⟨s, n⟩ := operands
    rw [Operation.words_of_operands? hoperands] at h
    obtain ⟨cmd, toks, rfl, hcmd, h⟩ := List.map_eq_cons_iff.1 h
    obtain ⟨seg, toks, rfl, hseg, h⟩ := List.map_eq_cons_iff.1 h
    obtain ⟨off, rfl, hoff⟩ := List.map_eq_singleton_iff.1 h
    have hoffset : decodeOffset off = .ok n :=
      decodeOffset_of_literal hoff (hop.le_of_operands? hoperands)
    exact decodeTriple_eq_ok_iff.2 ⟨s, n, hoperands, hcmd, hseg, hoffset, hop⟩

/-- **A command line with the words of an operation decodes to it.** -/
theorem CommandLine.decode_of_words {strict : Bool} {op : Operation} (hop : op.InRange strict)
    {line : CommandLine} (h : line.text.words = op.words) :
    line.decode strict = .ok (op.instruction line.number) := by
  rw [← map_literal_tokenize] at h
  rw [decode, decodeTokens_of_words hop h]

/-! ## Reading canonical text -/

/-- A line without a slash holds no comment. -/
theorem strip_of_slash_not_mem {t : Text} (h : (47 : UInt8) ∉ t) :
    strip false t = (false, .ok t.trim) := by
  have hline : Text.cut? lineMark t = none := Text.cut?_eq_none_of_not_mem h
  have hopen : Text.cut? BlockMark.opening.text t = none := Text.cut?_eq_none_of_not_mem h
  have hcode : dropLineComment t = t := by rw [dropLineComment, hline]
  have hcount : Text.occurrences BlockMark.opening.text t = 0 :=
    Text.occurrences_eq_zero_iff BlockMark.opening.text_ne_nil |>.2 hopen
  simp [strip, stripCode, hcode, hopen, hcount]

@[simp]
theorem Operation.instruction_with_line (op : Operation) (line other : Int) :
    { op.instruction line with line := other } = op.instruction other := by
  cases op <;> rfl

/-- The instructions on the lines counted from `number` on. -/
def renumber (number : Nat) : List Instruction → List Instruction
  | [] => []
  | i :: is => { i with line := number } :: renumber (number + 1) is

/-- The texts of decoded instructions are read without an error and decoded to the same
instructions on their new lines. -/
theorem readFrom_text {strict : Bool} {p : List Instruction} (h : ∀ i ∈ p, i.IsDecoded strict)
    (number : Nat) :
    ∃ lines, CommandLine.readFrom number false (p.map Instruction.text) = (false, .ok lines) ∧
      CommandLine.decodeAll strict lines = .ok (renumber number p) := by
  induction p generalizing number with
  | nil => exact ⟨[], rfl, rfl⟩
  | cons i is ih =>
    obtain ⟨lines, hread, hdecode⟩ := ih (fun j hj => h j (by simp [hj])) (number + 1)
    obtain ⟨op, line, hop, rfl⟩ := h i (by simp)
    have hslash : (47 : UInt8) ∉ (op.instruction line).text :=
      not_mem_text_instruction (by decide) (by decide) op line
    have hwords : (op.instruction line).text.trim.words = op.words := by
      rw [Text.words_trim, op.words_text]
    have hne : (op.instruction line).text.trim ≠ [] := by
      rw [ne_eq, Text.trim_eq_nil_iff, op.words_text]
      cases op <;> exact List.cons_ne_nil _ _
    let first : CommandLine := ⟨number, CommandLine.startColumn (op.instruction line).text
      (op.instruction line).text.trim, (op.instruction line).text.trim⟩
    have hfirst : first.decode strict = .ok (op.instruction number) :=
      CommandLine.decode_of_words hop hwords
    refine ⟨first :: lines, ?_, ?_⟩
    · rw [List.map_cons, CommandLine.readFrom, strip_of_slash_not_mem hslash]
      simp only [hread, if_neg hne]
      rfl
    · rw [CommandLine.decodeAll_cons, hfirst, hdecode, renumber, Operation.instruction_with_line]

end HackVM
