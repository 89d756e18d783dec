import HackVM.Proofs.Canonical

/-!
# The command grammar

A command line is one word, the name of a command without operands, or three: `push` or `pop`, a
segment and an offset in decimal digits. `Spells` writes these rules down for the words of a line,
and `CommandLine.decode_eq_ok_iff_spells` says that decoding accepts exactly the lines that follow
them. The white space around the words, leading zeros and bytes that form no character make no
difference: the words are all that counts.
-/

namespace HackVM

/-- The words that make a command by themselves. -/
def bareCommandWords : List Text :=
  [utf8 "add", utf8 "sub", utf8 "neg", utf8 "eq", utf8 "gt", utf8 "lt", utf8 "and", utf8 "or",
    utf8 "not"]

/-- The words for segments. -/
def segmentWords : List Text :=
  [utf8 "local", utf8 "argument", utf8 "this", utf8 "that", utf8 "constant", utf8 "static",
    utf8 "pointer", utf8 "temp"]

/-- The number that decimal digits write out; the last digit counts ones. -/
def Text.decimal (t : Text) : Nat := Nat.ofDigits 10 (t.reverse.map fun b => b.toNat - 48)

/-- The instructions that lists of words spell on a line. -/
inductive Spells (strict : Bool) (line : Int) : List Text → Instruction → Prop
  | bare {c : Text} (hc : c ∈ bareCommandWords) : Spells strict line [c] ⟨c, [], 0, line⟩
  | access {c s d : Text} (hc : c = utf8 "push" ∨ c = utf8 "pop") (hs : s ∈ segmentWords)
      (hne : d ≠ []) (hdigits : ∀ b ∈ d, b ∈ utf8 "0123456789") (hmax : d.decimal ≤ 32767)
      (hconstant : ¬ (c = utf8 "pop" ∧ s = utf8 "constant"))
      (hpointer : strict = true → s = utf8 "pointer" → d.decimal < 2)
      (htemp : strict = true → s = utf8 "temp" → d.decimal < 8) :
      Spells strict line [c, s, d] ⟨c, s, d.decimal, line⟩

/-! ## Words and what they stand for -/

theorem mem_bareCommandWords_iff {c : Text} :
    c ∈ bareCommandWords ↔ ∃ op : Operation, op.operands? = none ∧ c = op.command.word := by
  constructor
  · intro h
    simp only [bareCommandWords, List.mem_cons, List.not_mem_nil, or_false] at h
    rcases h with rfl | rfl | rfl | rfl | rfl | rfl | rfl | rfl | rfl
    · exact ⟨.binary .add, rfl, rfl⟩
    · exact ⟨.binary .sub, rfl, rfl⟩
    · exact ⟨.unary .neg, rfl, rfl⟩
    · exact ⟨.compare .eq, rfl, rfl⟩
    · exact ⟨.compare .gt, rfl, rfl⟩
    · exact ⟨.compare .lt, rfl, rfl⟩
    · exact ⟨.binary .and, rfl, rfl⟩
    · exact ⟨.binary .or, rfl, rfl⟩
    · exact ⟨.unary .not, rfl, rfl⟩
  · rintro ⟨op, hop, rfl⟩
    cases op with
    | literal n => cases hop
    | push r n => cases hop
    | pop r n => cases hop
    | unary op => cases op <;> decide
    | binary op => cases op <;> decide
    | compare rel => cases rel <;> decide

theorem mem_segmentWords_iff {w : Text} : w ∈ segmentWords ↔ ∃ s : Segment, w = s.word := by
  have hwords : segmentWords = Segment.all.map Segment.word := rfl
  have hall (s : Segment) : s ∈ Segment.all := by
    rcases s with _ | ((_ | _ | _ | _) | _ | _ | _) <;> decide
  rw [hwords, List.mem_map]
  exact ⟨fun ⟨s, _, hs⟩ => ⟨s, hs.symm⟩, fun ⟨s, hs⟩ => ⟨s, hall s, hs.symm⟩⟩

theorem Command.word_injective : Function.Injective Command.word := by
  intro c c' h
  have hword := Command.ofWord?_word c
  rw [h, Command.ofWord?_word, Option.some.injEq] at hword
  exact hword.symm

theorem Segment.word_injective : Function.Injective Segment.word := by
  intro s s' h
  have hword := Segment.ofWord?_word s
  rw [h, Segment.ofWord?_word, Option.some.injEq] at hword
  exact hword.symm

theorem Text.decimal_eq_value (t : Text) : t.decimal = t.value := by
  rw [decimal, value, Nat.ofDigits_eq_foldr, List.foldr_map, List.foldr_reverse]
  congr
  funext n b
  exact Nat.add_comm _ _

theorem Text.mem_digits_iff (b : UInt8) : b ∈ utf8 "0123456789" ↔ isDigit b = true := by
  have hall : ∀ n < 256, UInt8.ofNat n ∈ utf8 "0123456789" ↔ isDigit (UInt8.ofNat n) = true := by
    decide +kernel
  have hb := hall b.toNat b.toNat_lt
  rwa [UInt8.ofNat_toNat] at hb

theorem Token.isNumber_iff {tok : Token} :
    tok.isNumber = true ↔ ∀ b ∈ tok.literal, b ∈ utf8 "0123456789" := by
  simp only [isNumber, List.all_eq_true, Text.mem_digits_iff]

/-! ## Operations and their instructions -/

theorem Operation.instruction_of_operands? {op : Operation} {s : Segment} {n : Nat}
    (h : op.operands? = some (s, n)) (line : Int) :
    op.instruction line = ⟨op.command.word, s.word, n, line⟩ := by
  cases op <;> cases h <;> rfl

theorem Operation.instruction_of_operands?_eq_none {op : Operation} (h : op.operands? = none)
    (line : Int) : op.instruction line = ⟨op.command.word, [], 0, line⟩ := by
  cases op <;> simp [operands?] at h <;> rfl

theorem slotProblem?_eq_none_iff {strict : Bool} {r : Region} {n : Nat} :
    slotProblem? strict r n = none ↔
      (strict = true → r = .pointer → n < 2) ∧ (strict = true → r = .temp → n < 8) := by
  cases strict with
  | false => simp [slotProblem?]
  | true =>
    cases r with
    | based base => simp [slotProblem?]
    | static => simp [slotProblem?]
    | pointer =>
      show (if pointerSize ≤ n then some _ else none) = none ↔ _
      rw [ite_eq_right_iff]
      simp [pointerSize]
    | temp =>
      show (if tempSize ≤ n then some _ else none) = none ↔ _
      rw [ite_eq_right_iff]
      simp [tempSize]

/-- Which commands, segments and offsets make an operation in range. -/
theorem exists_operation_iff {strict : Bool} {c : Text} {s : Segment} {n : Nat} :
    (∃ op : Operation, op.operands? = some (s, n) ∧ c = op.command.word ∧ op.InRange strict) ↔
      (c = Command.push.word ∨ c = Command.pop.word) ∧ n ≤ 32767 ∧
        ¬ (c = Command.pop.word ∧ s = .constant) ∧
        (strict = true → s = .region .pointer → n < 2) ∧
        (strict = true → s = .region .temp → n < 8) := by
  constructor
  · rintro ⟨op, hoperands, rfl, hop⟩
    cases op with
    | literal m =>
      cases hoperands
      have hword : Command.push.word ≠ Command.pop.word := by decide
      exact ⟨.inl rfl, hop, fun h => hword h.1, by simp, by simp⟩
    | push r m =>
      cases hoperands
      have hslots := slotProblem?_eq_none_iff.1 hop.2
      exact ⟨.inl rfl, hop.1, by simp, by simpa using hslots.1, by simpa using hslots.2⟩
    | pop r m =>
      cases hoperands
      have hslots := slotProblem?_eq_none_iff.1 hop.2
      exact ⟨.inr rfl, hop.1, by simp, by simpa using hslots.1, by simpa using hslots.2⟩
    | unary op => cases hoperands
    | binary op => cases hoperands
    | compare rel => cases hoperands
  · rintro ⟨hc, hmax, hconstant, hpointer, htemp⟩
    cases s with
    | constant =>
      rcases hc with rfl | rfl
      · exact ⟨.literal n, rfl, rfl, hmax⟩
      · exact absurd ⟨rfl, rfl⟩ hconstant
    | region r =>
      have hslots : slotProblem? strict r n = none :=
        slotProblem?_eq_none_iff.2 ⟨by simpa using hpointer, by simpa using htemp⟩
      rcases hc with rfl | rfl
      · exact ⟨.push r n, rfl, rfl, hmax, hslots⟩
      · exact ⟨.pop r n, rfl, rfl, hmax, hslots⟩

/-! ## Decoding -/

/-- What tokens decode to is what their words spell. -/
theorem spells_of_decodeTokens {strict : Bool} {toks : List Token} {op : Operation}
    (hne : ∀ tok ∈ toks, tok.literal ≠ []) (h : decodeTokens strict toks = .ok op) (line : Int) :
    Spells strict line (toks.map Token.literal) (op.instruction line) := by
  rcases decodeTokens_eq_ok_iff.1 h with ⟨tok, rfl, hop⟩ | ⟨cmd, seg, off, rfl, hop⟩
  · obtain ⟨hoperands, hc⟩ := decodeSingle_eq_ok_iff.1 hop
    rw [Operation.instruction_of_operands?_eq_none hoperands, ← hc]
    exact .bare (mem_bareCommandWords_iff.2 ⟨op, hoperands, hc⟩)
  · obtain ⟨s, n, hoperands, hc, hs, hoff, hrange⟩ := decodeTriple_eq_ok_iff.1 hop
    obtain ⟨hdigits, hvalue, -⟩ := decodeOffset_eq_ok_iff.1 hoff
    obtain ⟨hcommand, hmax, hconstant, hpointer, htemp⟩ :=
      exists_operation_iff.1 ⟨op, hoperands, hc, hrange⟩
    rw [← Text.decimal_eq_value] at hvalue
    subst hvalue
    rw [Operation.instruction_of_operands? hoperands, ← hc, ← hs]
    refine .access hcommand (mem_segmentWords_iff.2 ⟨s, hs⟩) (hne off (by simp))
      (Token.isNumber_iff.1 hdigits) hmax ?_ ?_ ?_
    · exact fun h => hconstant ⟨h.1, Segment.word_injective (hs.symm.trans h.2)⟩
    · exact fun hstrict h => hpointer hstrict (Segment.word_injective (hs.symm.trans h))
    · exact fun hstrict h => htemp hstrict (Segment.word_injective (hs.symm.trans h))

/-- Tokens whose words spell an instruction decode to it. -/
theorem decodeTokens_of_spells {strict : Bool} {line : Int} {toks : List Token} {i : Instruction}
    (h : Spells strict line (toks.map Token.literal) i) :
    ∃ op, decodeTokens strict toks = .ok op ∧ op.instruction line = i := by
  generalize hwords : toks.map Token.literal = words at h
  cases h with
  | bare hc =>
    obtain ⟨tok, rfl, rfl⟩ := List.map_eq_singleton_iff.1 hwords
    obtain ⟨op, hoperands, hword⟩ := mem_bareCommandWords_iff.1 hc
    refine ⟨op, decodeSingle_eq_ok_iff.2 ⟨hoperands, hword⟩, ?_⟩
    rw [Operation.instruction_of_operands?_eq_none hoperands, ← hword]
  | access hc hs hne hdigits hmax hconstant hpointer htemp =>
    obtain ⟨cmd, rest, rfl, rfl, hrest⟩ := List.map_eq_cons_iff.1 hwords
    obtain ⟨seg, last, rfl, rfl, hlast⟩ := List.map_eq_cons_iff.1 hrest
    obtain ⟨off, rfl, rfl⟩ := List.map_eq_singleton_iff.1 hlast
    obtain ⟨s, hsegment⟩ := mem_segmentWords_iff.1 hs
    obtain ⟨op, hoperands, hword, hrange⟩ : ∃ op : Operation,
        op.operands? = some (s, off.literal.decimal) ∧ cmd.literal = op.command.word ∧
          op.InRange strict :=
      exists_operation_iff.2 ⟨hc, hmax, fun h => hconstant ⟨h.1, by rw [hsegment, h.2]; rfl⟩,
        fun hstrict h => hpointer hstrict (by rw [hsegment, h]; rfl),
        fun hstrict h => htemp hstrict (by rw [hsegment, h]; rfl)⟩
    have hoff : decodeOffset off = .ok off.literal.decimal :=
      decodeOffset_eq_ok_iff.2
        ⟨Token.isNumber_iff.2 hdigits, off.literal.decimal_eq_value.symm, hmax⟩
    refine ⟨op, ?_, ?_⟩
    · exact decodeTriple_eq_ok_iff.2 ⟨s, _, hoperands, hword, hsegment, hoff, hrange⟩
    · rw [Operation.instruction_of_operands? hoperands, ← hword, ← hsegment]

/-- **Decoding accepts exactly the command grammar.** Whatever the bytes of a line are, it decodes
if and only if its words spell an instruction, and then to this instruction on the line's number. -/
theorem CommandLine.decode_eq_ok_iff_spells (strict : Bool) (line : CommandLine)
    (i : Instruction) :
    line.decode strict = .ok i ↔ Spells strict line.number line.text.words i := by
  have hdecode : line.decode strict = .ok i ↔
      ∃ op, decodeTokens strict (tokenize line.text) = .ok op ∧ op.instruction line.number = i := by
    rw [decode]
    cases decodeTokens strict (tokenize line.text) <;> simp
  rw [hdecode, ← map_literal_tokenize]
  constructor
  · rintro ⟨op, hop, rfl⟩
    have hne : ∀ tok ∈ tokenize line.text, tok.literal ≠ [] := by
      intro tok htok
      apply Text.ne_nil_of_mem_words (t := line.text)
      rw [← map_literal_tokenize]
      exact List.mem_map_of_mem htok
    exact spells_of_decodeTokens hne hop line.number
  · exact decodeTokens_of_spells

end HackVM
