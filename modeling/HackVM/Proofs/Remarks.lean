import HackVM.Proofs.Canonical

/-!
# Compiling the remarks of an assembly

Above the code of every instruction an emitter writes the instruction as a remark. No other line of
an assembly looks like one (`Readable.not_remark`), so the remarks are the texts of the compiled
program (`filterMap_remark?_listing`). They are a source themselves: compiling it gives the same
assembly and the same program on other lines (`compile_remarks`).
-/

namespace HackVM

/-! ## The remarks in a text -/

/-- What stands after `// ` on the lines of a text that begin with it. -/
def remarks (t : Text) : List Text :=
  ((t.splitOn Text.lineFeed).filter (utf8 "// ").isPrefixOf).map (List.drop 3)

/-- The remark that a line makes. -/
def AsmLine.remark? : AsmLine → Option Text
  | comment t => some t
  | load _ | compute _ | label _ => none

/-- The assembler drops what looks like a remark, so no line of code looks like one. -/
theorem AsmLine.Readable.not_remark {l : AsmLine} (h : l.Readable) (hl : l.remark? = none) :
    (utf8 "// ").isPrefixOf l.text = false := by
  have hcode : codeText l.text = l.text ∧ l.text ≠ [] := by
    cases l with
    | comment t => cases hl
    | load operand => exact ⟨h.hasForm.1, List.cons_ne_nil _ _⟩
    | compute code => exact ⟨h.hasForm.1, h.hasForm.2.1⟩
    | label name => exact ⟨h.hasForm.1, List.cons_ne_nil _ _⟩
  cases hp : (utf8 "// ").isPrefixOf l.text with
  | false => rfl
  | true =>
    obtain ⟨t, ht⟩ := List.isPrefixOf_iff_prefix.1 hp
    have hnil : codeText l.text = [] := by
      rw [← ht]
      exact codeText_comment t
    exact absurd (hcode.1.symm.trans hnil) hcode.2

/-- The remarks of rendered lines are those that the lines make. -/
theorem remarks_render {ls : List AsmLine} (h : ∀ l ∈ ls, l.Readable) :
    remarks (AsmLine.render ls) = ls.filterMap AsmLine.remark? := by
  have hsplit : (AsmLine.render ls).splitOn Text.lineFeed = ls.map AsmLine.text ++ [[]] := by
    rw [← AsmLine.splitOn_render h,
      Text.joinLineEnds_of_not_mem (AsmLine.carriageReturn_not_mem_render h)]
  have hlast : ([[]] : List Text).filter (utf8 "// ").isPrefixOf = [] := rfl
  rw [remarks, hsplit, List.filter_append, hlast, List.append_nil]
  clear hsplit
  induction ls with
  | nil => rfl
  | cons l ls ih =>
    have hrest := ih fun m hm => h m (by simp [hm])
    cases hl : l.remark? with
    | none =>
      have hnot := (h l (by simp)).not_remark hl
      rw [List.map_cons, List.filter_cons_of_neg (by simp [hnot]), hrest,
        List.filterMap_cons_none hl]
    | some t =>
      obtain rfl : l = .comment t := by
        cases l <;> simp_all [AsmLine.remark?]
      rw [List.map_cons, List.filter_cons_of_pos rfl, List.map_cons, hrest,
        List.filterMap_cons_some hl]
      rfl

theorem filterMap_remark?_code (ns : Text) (k : Int64) (op : Operation) :
    (Block.code ns k op).filterMap AsmLine.remark? = [] := by
  cases op with
  | literal n => rfl
  | push r n => cases r <;> rfl
  | pop r n => cases r <;> rfl
  | unary op => rfl
  | binary op => rfl
  | compare rel => rfl

theorem filterMap_remark?_listing {p : List Instruction}
    (h : ∀ i ∈ p, ∃ op, i.operation = .ok op) (ns : Text) (k : Int64) :
    (listing ns k p).filterMap AsmLine.remark? = p.map Instruction.text := by
  induction p generalizing k with
  | nil => rfl
  | cons i is ih =>
    obtain ⟨op, hop⟩ := h i (by simp)
    rw [listing_cons hop, List.cons_append, List.filterMap_cons, List.filterMap_append,
      filterMap_remark?_code, ih fun j hj => h j (by simp [hj])]
    rfl

/-! ## Programs on other lines -/

/-- The instruction without its line. -/
def Instruction.unplaced (i : Instruction) : Instruction := { i with line := 0 }

theorem map_unplaced_renumber (number : Nat) (p : List Instruction) :
    (renumber number p).map Instruction.unplaced = p.map Instruction.unplaced := by
  induction p generalizing number with
  | nil => rfl
  | cons i is ih =>
    rw [renumber, List.map_cons, List.map_cons, ih]
    rfl

section Renumber

variable {strict : Bool} {p : List Instruction}

/-- The line of an instruction has no influence on its code. -/
theorem listing_renumber (h : ∀ i ∈ p, i.IsDecoded strict) (ns : Text) (k : Int64) (number : Nat) :
    listing ns k (renumber number p) = listing ns k p := by
  induction p generalizing k number with
  | nil => rfl
  | cons i is ih =>
    obtain ⟨op, line, -, rfl⟩ := h i (by simp)
    have htext : (op.instruction number).text = (op.instruction line).text := by
      cases op <;> rfl
    rw [renumber, Operation.instruction_with_line,
      listing_cons (Instruction.operation_instruction number op),
      listing_cons (Instruction.operation_instruction line op),
      ih fun j hj => h j (by simp [hj]), htext]

theorem countP_renumber (h : ∀ i ∈ p, i.IsDecoded strict) (number : Nat) :
    (renumber number p).countP Instruction.isComparison = p.countP Instruction.isComparison := by
  induction p generalizing number with
  | nil => rfl
  | cons i is ih =>
    obtain ⟨op, line, -, rfl⟩ := h i (by simp)
    rw [renumber, Operation.instruction_with_line, List.countP_cons, List.countP_cons,
      Instruction.isComparison_eq (Instruction.operation_instruction number op),
      Instruction.isComparison_eq (Instruction.operation_instruction line op),
      ih fun j hj => h j (by simp [hj])]

theorem renumber_ne_nil (hp : p ≠ []) (number : Nat) : renumber number p ≠ [] := by
  cases p with
  | nil => exact absurd rfl hp
  | cons i is => exact List.cons_ne_nil _ _

end Renumber

/-- The texts of a decoded program are a source that is decoded to the same program, on the lines
counted from one. -/
theorem decodeAll_text {strict : Bool} {p : List Instruction} (hne : p ≠ [])
    (h : ∀ i ∈ p, i.IsDecoded strict) :
    ∃ lines, (CommandLine.read (p.map Instruction.text)).lines = .ok lines ∧
      CommandLine.decodeAll strict lines = .ok (renumber 1 p) := by
  obtain ⟨lines, hread, hdecode⟩ := readFrom_text h 1
  refine ⟨lines, CommandLine.read_lines_eq_ok_iff.2 ⟨?_, false, hread⟩, hdecode⟩
  rintro rfl
  exact renumber_ne_nil hne 1 (Except.ok.inj hdecode).symm

/-- **The remarks of an assembly are the compiled program, and compiling them gives the assembly
again.** -/
theorem compile_remarks (file file' : Text) (raw : List Text) (strict : Bool) {asm : Text}
    (h : (compile file raw { strict := strict }).assembly = .ok asm) :
    remarks asm = (compile file raw { strict := strict }).instructions.map Instruction.text ∧
      (compile file' (remarks asm) { strict := strict }).assembly = .ok asm ∧
      (compile file' (remarks asm) { strict := strict }).labels =
        (compile file raw { strict := strict }).labels ∧
      (compile file' (remarks asm) { strict := strict }).instructions.map Instruction.unplaced =
        (compile file raw { strict := strict }).instructions.map Instruction.unplaced := by
  obtain ⟨lines, p, hread, hp⟩ := (compile_ok_iff file _).1 ⟨asm, h⟩
  obtain ⟨hasm, hinstructions, -⟩ := compile_of_decodeAll_ok file _ hread hp
  have hdecoded := CommandLine.decodeAll_decoded hp
  have hlisting (q : List Instruction) :
      ((CompilationOptions.emitter { strict := strict }).emitAll q).written = listing [] 0 q :=
    Emitter.emitAll_written rfl rfl q
  rw [h, hlisting, Except.ok.injEq] at hasm
  have hremarks : remarks asm = p.map Instruction.text := by
    rw [hasm, remarks_render (readable_listing hdecoded 0),
      filterMap_remark?_listing (operation_of_decoded hdecoded)]
  have hne : p ≠ [] := by
    rintro rfl
    have hlength := CommandLine.length_of_decodeAll hp
    exact (CommandLine.read_lines_eq_ok_iff.1 hread).1 (List.length_eq_zero_iff.1 hlength.symm)
  obtain ⟨lines', hread', hp'⟩ := decodeAll_text hne hdecoded
  obtain ⟨hasm', hinstructions', -⟩ := compile_of_decodeAll_ok file' { strict := strict } hread' hp'
  rw [labels_compile, labels_compile, hremarks, hasm', hinstructions', hinstructions, hlisting,
    listing_renumber hdecoded, countP_renumber hdecoded, map_unplaced_renumber, ← hasm]
  exact ⟨rfl, rfl, rfl, rfl⟩

/-- Comments, blanks and leading zeros are gone from the remarks, and nothing else. -/
theorem compile_remarks_commented_source :
    let raw := [utf8 "  push constant 007 // seven", utf8 "/* and", utf8 "*/ push temp 3",
      utf8 "eq"]
    ∃ asm, (compile (utf8 "Main.vm") raw { strict := true }).assembly = .ok asm ∧
      remarks asm = [utf8 "push constant 7", utf8 "push temp 3", utf8 "eq"] ∧
      (compile (utf8 "Again.vm") (remarks asm) { strict := true }).assembly = .ok asm ∧
      (compile (utf8 "Again.vm") (remarks asm) { strict := true }).labels = 1 ∧
      (compile (utf8 "Again.vm") (remarks asm) { strict := true }).instructions.map
        Instruction.unplaced = [(Operation.literal 7).instruction 0,
          (Operation.push .temp 3).instruction 0, (Operation.compare .eq).instruction 0] := by
  intro raw
  have hread : (CommandLine.read raw).lines = .ok [⟨1, 3, utf8 "push constant 007"⟩,
      ⟨3, 4, utf8 "push temp 3"⟩, ⟨4, 1, utf8 "eq"⟩] := rfl
  have hdecode : CommandLine.decodeAll true [⟨1, 3, utf8 "push constant 007"⟩,
      ⟨3, 4, utf8 "push temp 3"⟩, ⟨4, 1, utf8 "eq"⟩] = .ok [(Operation.literal 7).instruction 1,
        (Operation.push .temp 3).instruction 3, (Operation.compare .eq).instruction 4] := by
    decide +kernel
  obtain ⟨hasm, hinstructions, hcount⟩ := compile_of_decodeAll_ok (utf8 "Main.vm")
    { strict := true } hread hdecode
  obtain ⟨hremarks, hagain, hlabels, hprogram⟩ :=
    compile_remarks (utf8 "Main.vm") (utf8 "Again.vm") raw true hasm
  rw [hcount] at hlabels
  rw [hinstructions] at hremarks hprogram
  exact ⟨_, hasm, hremarks, hagain, hlabels, hprogram⟩

end HackVM
