import HackVM.Proofs.Grammar

/-!
# Instructions and their text

The text of an instruction decodes to the instruction (`canonical_text_decodes`). Three rules say
which instructions there are: the check of an instruction, the rules for decoding a line, and the
operations with their words. They agree: what passes the check writes out an operation
(`exists_operation_of_check`) unless it pops a constant or has an offset that its command does not
take, every operation passes the check when it is written out (`check_instruction`), and its text
decodes to it if its offset is in range (`decode_text_instruction`).
-/

namespace HackVM

/-! ## Instructions that pass the check -/

namespace Instruction

/-- An instruction passes the check if `push` and `pop` have a segment and a natural offset and the
other commands have no segment. -/
theorem check_eq_ok_iff {i : Instruction} :
    i.check = .ok () ↔ ∃ c : Command, i.command = c.word ∧
      if c.takesOperands then ∃ (s : Segment) (n : Nat), i.segment = s.word ∧ i.offset = n
      else i.segment = [] := by
  simp only [← Command.ofWord?_eq_some_iff, ← Segment.ofWord?_eq_some_iff, check]
  cases Command.ofWord? i.command with
  | none => simp
  | some c =>
    simp only [Option.some.injEq, exists_eq_left']
    split
    · cases Segment.ofWord? i.segment with
      | none => simp
      | some s =>
        simp only [Option.some.injEq, exists_and_left, exists_eq_left']
        split
        · next hneg => simpa using fun n hn => by omega
        · next hnat => simpa using Int.eq_ofNat_of_zero_le (Int.not_lt.1 hnat)
    · split <;> simp_all

/-- An instruction that passes the check writes out an operation, unless it pops a constant or has
an offset that its command does not take. -/
theorem exists_operation_of_check {i : Instruction} (h : i.check = .ok ())
    (hbare : i.command ≠ Command.push.word → i.command ≠ Command.pop.word → i.offset = 0)
    (hconstant : ¬ (i.command = Command.pop.word ∧ i.segment = Segment.constant.word)) :
    ∃ (op : Operation) (line : Int), i = op.instruction line := by
  obtain ⟨c, hc, hoperands⟩ := check_eq_ok_iff.1 h
  obtain ⟨command, segment, offset, line⟩ := i
  obtain rfl : command = c.word := hc
  simp only [Command.word_injective.ne_iff] at hbare
  cases c with
  | push =>
    obtain ⟨s, n, rfl, rfl⟩ := hoperands
    cases s with
    | constant => exact ⟨.literal n, line, rfl⟩
    | region r => exact ⟨.push r n, line, rfl⟩
  | pop =>
    obtain ⟨s, n, rfl, rfl⟩ := hoperands
    cases s with
    | constant => exact absurd ⟨rfl, rfl⟩ hconstant
    | region r => exact ⟨.pop r n, line, rfl⟩
  | unary op =>
    obtain rfl : segment = [] := hoperands
    obtain rfl := hbare (by simp) (by simp)
    exact ⟨.unary op, line, rfl⟩
  | binary op =>
    obtain rfl : segment = [] := hoperands
    obtain rfl := hbare (by simp) (by simp)
    exact ⟨.binary op, line, rfl⟩
  | compare rel =>
    obtain rfl : segment = [] := hoperands
    obtain rfl := hbare (by simp) (by simp)
    exact ⟨.compare rel, line, rfl⟩

theorem check_instruction (op : Operation) (line : Int) : (op.instruction line).check = .ok () := by
  refine check_eq_ok_iff.2 ⟨op.command, op.command_instruction line, ?_⟩
  cases op with
  | literal n => exact ⟨.constant, n, rfl, rfl⟩
  | push r n => exact ⟨.region r, n, rfl, rfl⟩
  | pop r n => exact ⟨.region r, n, rfl, rfl⟩
  | unary op => rfl
  | binary op => rfl
  | compare rel => rfl

end Instruction

/-! ## Offsets in range -/

namespace Operation

theorem inRange_false_iff {op : Operation} :
    op.InRange false ↔ ∀ s n, op.operands? = some (s, n) → n ≤ largestOffset := by
  cases op <;> simp [InRange, operands?, slotProblem?]

/-- Permissive decoding lets every offset pass that strict decoding does. -/
theorem InRange.weaken {strict mode : Bool} {op : Operation} (h : op.InRange strict)
    (hmode : mode = true → strict = true) : op.InRange mode := by
  cases mode with
  | true => rwa [hmode rfl] at h
  | false => exact inRange_false_iff.2 fun s n hop => h.le_of_operands? hop

theorem command_of_operands? {op : Operation} {s : Segment} {n : Nat}
    (h : op.operands? = some (s, n)) : op.command = .push ∨ op.command = .pop := by
  cases op with
  | literal n => exact .inl rfl
  | push r n => exact .inl rfl
  | pop r n => exact .inr rfl
  | unary op => cases h
  | binary op => cases h
  | compare rel => cases h

end Operation

/-! ## Decoding the text of an instruction -/

theorem CommandLine.decode_text_instruction {strict : Bool} {op : Operation}
    (hop : op.InRange strict) (line number : Int) (column : Nat) :
    decode strict ⟨number, column, (op.instruction line).text⟩ = .ok (op.instruction number) :=
  decode_of_words hop (op.words_text line)

/-- **Canonical text decodes to the instruction that it is the text of.** Permissive decoding gives
back every instruction that passes the check with an offset in range, unless it pops a constant, on
the line where its text stands. What decodes at all passes the check, and its text decodes to the
same instruction again, in the same mode and in the permissive one. -/
theorem canonical_text_decodes :
    (∀ i : Instruction, i.check = .ok () →
      (i.command = utf8 "push" ∨ i.command = utf8 "pop" → i.offset ≤ 32767) →
      (i.command ≠ utf8 "push" → i.command ≠ utf8 "pop" → i.offset = 0) →
      ¬ (i.command = utf8 "pop" ∧ i.segment = utf8 "constant") →
      ∀ (k : Int) (column : Nat),
        CommandLine.decode false ⟨k, column, i.text⟩ = .ok { i with line := k }) ∧
    ∀ (strict : Bool) (line : CommandLine) (i : Instruction), line.decode strict = .ok i →
      i.check = .ok () ∧
      ∀ (mode : Bool) (column : Nat), (mode = true → strict = true) →
        CommandLine.decode mode ⟨line.number, column, i.text⟩ = .ok i := by
  constructor
  · intro i hcheck hmax hbare hconstant k column
    obtain ⟨op, line, rfl⟩ := Instruction.exists_operation_of_check hcheck hbare hconstant
    have hrange : op.InRange false := by
      refine Operation.inRange_false_iff.2 fun s n hoperands => ?_
      rw [Operation.instruction_of_operands? hoperands] at hmax
      have hword : op.command.word = utf8 "push" ∨ op.command.word = utf8 "pop" :=
        (Operation.command_of_operands? hoperands).imp (congrArg Command.word)
          (congrArg Command.word)
      exact Int.ofNat_le.1 (hmax hword)
    rw [CommandLine.decode_text_instruction hrange, Operation.instruction_with_line]
  · intro strict line i hdecode
    obtain ⟨op, hop, rfl⟩ := CommandLine.decode_eq_ok_iff.1 hdecode
    refine ⟨Instruction.check_instruction op line.number, fun mode column hmode => ?_⟩
    have hrange := (decodeTokens_inRange hop).weaken hmode
    exact CommandLine.decode_text_instruction hrange line.number line.number column

/-- `pop that` with the largest offset, found again on line 9, and `push temp`, whose offset is
written with a zero too many between wide spaces. -/
theorem canonical_text_decodes_largest_offset :
    let i : Instruction := ⟨utf8 "pop", utf8 "that", 32767, 4⟩
    let line : CommandLine := ⟨3, 1, utf8 "push\u3000temp\u300007"⟩
    let j : Instruction := ⟨utf8 "push", utf8 "temp", 7, 3⟩
    i.check = .ok () ∧ CommandLine.decode false ⟨9, 1, utf8 "pop that 32767"⟩ =
        .ok ⟨utf8 "pop", utf8 "that", 32767, 9⟩ ∧
      line.decode true = .ok j ∧ j.check = .ok () ∧
      CommandLine.decode true ⟨3, 1, utf8 "push temp 7"⟩ = .ok j := by
  intro i line j
  have hcheck : i.check = .ok () := by decide
  have hline : line.decode true = .ok j := by decide +kernel
  have htext : i.text = utf8 "pop that 32767" ∧ j.text = utf8 "push temp 7" := by decide +kernel
  have hagain := canonical_text_decodes.2 true line j hline
  rw [← htext.1, ← htext.2]
  exact ⟨hcheck, canonical_text_decodes.1 i hcheck (by decide) (by decide) (by decide) 9 1, hline,
    hagain.1, hagain.2 true 1 id⟩

end HackVM
