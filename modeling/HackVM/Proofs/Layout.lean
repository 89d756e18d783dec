import HackVM.Proofs.Assembling
import HackVM.Proofs.Listing

/-!
# The listing of a program assembles

The lines of a block are readable (`readable_code`): every computation in it has a meaning
(`Decodes`), and the operands are numbers, registers, static cells and the labels of the block
itself. Labels are new and, as long as the numbers of comparisons do not repeat, all different
(`nodup_labelsFrom`). So the listing of a decoded program assembles (`assemble_listing`).
-/

namespace HackVM

open AsmLine

/-! ## Computations -/

/-- The code of a compute line says what is stored where and which condition jumps. -/
structure Decodes (code dest : Text) (c : Computation) (jump : Text) : Prop where
  plain : code.Plain
  ne_nil : code ≠ []
  head_ne_paren : code.head? ≠ some 40
  head_ne_at : code.head? ≠ some 64
  encode : ∃ comp, Computation.ofText? comp = some c ∧
    ∀ number, encodeCompute number code = .ok (.compute dest comp jump number)

/-- The function of a unary command on the selected cell. -/
def Unary.function : Unary → AluFunction
  | neg => .negX
  | not => .notX

/-- The function of a binary command on `D` and the selected cell. -/
def Binary.function : Binary → AluFunction
  | add => .sum
  | sub => .xMinusD
  | and => .conj
  | or => .disj

namespace Decodes

theorem loadAddress : Decodes (utf8 "D=A") (utf8 "D") ⟨.x, false⟩ [] :=
  ⟨by decide, by decide, by decide, by decide, utf8 "A", rfl, fun _ => rfl⟩

theorem loadCell : Decodes (utf8 "D=M") (utf8 "D") ⟨.x, true⟩ [] :=
  ⟨by decide, by decide, by decide, by decide, utf8 "M", rfl, fun _ => rfl⟩

theorem storeData : Decodes (utf8 "M=D") (utf8 "M") ⟨.d, false⟩ [] :=
  ⟨by decide, by decide, by decide, by decide, utf8 "D", rfl, fun _ => rfl⟩

theorem followCell : Decodes (utf8 "A=M") (utf8 "A") ⟨.x, true⟩ [] :=
  ⟨by decide, by decide, by decide, by decide, utf8 "M", rfl, fun _ => rfl⟩

theorem addOffset : Decodes (utf8 "A=D+A") (utf8 "A") ⟨.sum, false⟩ [] :=
  ⟨by decide, by decide, by decide, by decide, utf8 "D+A", rfl, fun _ => rfl⟩

theorem increment : Decodes (utf8 "M=M+1") (utf8 "M") ⟨.succX, true⟩ [] :=
  ⟨by decide, by decide, by decide, by decide, utf8 "M+1", rfl, fun _ => rfl⟩

theorem decrement : Decodes (utf8 "M=M-1") (utf8 "M") ⟨.predX, true⟩ [] :=
  ⟨by decide, by decide, by decide, by decide, utf8 "M-1", rfl, fun _ => rfl⟩

theorem difference : Decodes (utf8 "D=M-D") (utf8 "D") ⟨.xMinusD, true⟩ [] :=
  ⟨by decide, by decide, by decide, by decide, utf8 "M-D", rfl, fun _ => rfl⟩

theorem storeFalse : Decodes (utf8 "M=0") (utf8 "M") ⟨.zero, false⟩ [] :=
  ⟨by decide, by decide, by decide, by decide, utf8 "0", rfl, fun _ => rfl⟩

theorem storeTrue : Decodes (utf8 "M=-1") (utf8 "M") ⟨.minusOne, false⟩ [] :=
  ⟨by decide, by decide, by decide, by decide, utf8 "-1", rfl, fun _ => rfl⟩

theorem jumpIf (rel : Relation) : Decodes (utf8 "D;" ++ rel.jump) [] ⟨.d, false⟩ rel.jump := by
  cases rel <;>
    exact ⟨by decide, by decide, by decide, by decide, utf8 "D", rfl, fun _ => rfl⟩

theorem jumpAlways : Decodes (utf8 "0;JMP") [] ⟨.zero, false⟩ (utf8 "JMP") :=
  ⟨by decide, by decide, by decide, by decide, utf8 "0", rfl, fun _ => rfl⟩

theorem unary (op : Unary) : Decodes op.code (utf8 "M") ⟨op.function, true⟩ [] := by
  cases op with
  | neg => exact ⟨by decide, by decide, by decide, by decide, utf8 "-M", rfl, fun _ => rfl⟩
  | not => exact ⟨by decide, by decide, by decide, by decide, utf8 "!M", rfl, fun _ => rfl⟩

theorem binary (op : Binary) : Decodes op.code (utf8 "M") ⟨op.function, true⟩ [] := by
  cases op with
  | add => exact ⟨by decide, by decide, by decide, by decide, utf8 "D+M", rfl, fun _ => rfl⟩
  | sub => exact ⟨by decide, by decide, by decide, by decide, utf8 "M-D", rfl, fun _ => rfl⟩
  | and => exact ⟨by decide, by decide, by decide, by decide, utf8 "D&M", rfl, fun _ => rfl⟩
  | or => exact ⟨by decide, by decide, by decide, by decide, utf8 "D|M", rfl, fun _ => rfl⟩

theorem readable {code dest jump : Text} {c : Computation} (h : Decodes code dest c jump) :
    (compute code).Readable := by
  obtain ⟨comp, -, hencode⟩ := h.encode
  exact Readable.of_plain h.plain
    ⟨codeText_of_plain h.plain, h.ne_nil, h.head_ne_paren, h.head_ne_at, dest, comp, jump, hencode⟩

end Decodes

/-! ## Readable lines -/

theorem readable_load_symbol {name : Text} (hplain : name.Plain) (hne : name ≠ [])
    (hdigit : startsWithDigit name = false) : (load name).Readable := by
  have htext : (load name).text.Plain := Text.Plain.append (s := utf8 "@") (by decide) hplain
  exact Readable.of_plain htext
    ⟨codeText_of_plain htext, hne, fun h => by simp [hdigit] at h⟩

theorem readable_load_append {s t : Text} (hs : s.Plain) (hne : s ≠ [])
    (hdigit : startsWithDigit s = false) (ht : t.Plain) : (load (s ++ t)).Readable := by
  refine readable_load_symbol (hs.append ht) (fun h => hne (List.append_eq_nil_iff.1 h).1) ?_
  cases s with
  | nil => exact absurd rfl hne
  | cons b s => exact hdigit

theorem readable_load_number {n : Nat} (hn : n ≤ largestConstant) :
    (load (Text.ofNat n)).Readable := by
  have htext : (load (Text.ofNat n)).text.Plain :=
    Text.Plain.append (s := utf8 "@") (by decide) (Text.plain_ofNat n)
  exact Readable.of_plain htext
    ⟨codeText_of_plain htext, Text.ofNat_ne_nil n, fun _ => ⟨n, hn, Text.value?_ofNat n⟩⟩

theorem readable_label {name : Text} (hplain : name.Plain) (hne : name ≠ []) :
    (label name).Readable := by
  have htext : (label name).text.Plain :=
    Text.Plain.append (Text.Plain.append (s := utf8 "(") (by decide) hplain) (by decide)
  exact Readable.of_plain htext ⟨codeText_of_plain htext, hne⟩

theorem plain_trueLabel (k : Int64) : (trueLabel k).Plain :=
  Text.Plain.append (by decide) (Text.plain_ofInt _)

theorem plain_endLabel (k : Int64) : (endLabel k).Plain :=
  Text.Plain.append (by decide) (Text.plain_ofInt _)

theorem readable_load_trueLabel (k : Int64) : (load (trueLabel k)).Readable :=
  readable_load_append (by decide) (by decide) (by decide) (Text.plain_ofInt _)

theorem readable_load_endLabel (k : Int64) : (load (endLabel k)).Readable :=
  readable_load_append (by decide) (by decide) (by decide) (Text.plain_ofInt _)

theorem readable_load_register (base n : Nat) : (load (registerName base n)).Readable :=
  readable_load_append (by decide) (by decide) (by decide) (Text.plain_ofInt _)

theorem readable_load_static (n : Nat) : (load (staticName [] n)).Readable := by
  rw [staticName, if_pos rfl]
  exact readable_load_append (by decide) (by decide) (by decide) (Text.plain_ofNat n)

namespace Block

theorem readable_raiseSP : ∀ l ∈ raiseSP, l.Readable := by
  simp only [raiseSP, List.forall_mem_cons, List.not_mem_nil, false_implies, implies_true, and_true]
  exact ⟨readable_load_symbol (by decide) (by decide) (by decide), Decodes.increment.readable⟩

theorem readable_lowerSP : ∀ l ∈ lowerSP, l.Readable := by
  simp only [lowerSP, List.forall_mem_cons, List.not_mem_nil, false_implies, implies_true, and_true]
  exact ⟨readable_load_symbol (by decide) (by decide) (by decide), Decodes.decrement.readable⟩

theorem readable_selectSP : ∀ l ∈ selectSP, l.Readable := by
  simp only [selectSP, List.forall_mem_cons, List.not_mem_nil, false_implies, implies_true,
    and_true]
  exact ⟨readable_load_symbol (by decide) (by decide) (by decide), Decodes.followCell.readable⟩

theorem readable_takeTop : ∀ l ∈ takeTop, l.Readable := by
  simp only [takeTop, List.forall_mem_append, List.forall_mem_cons, List.not_mem_nil,
    false_implies, implies_true, and_true]
  exact ⟨readable_lowerSP, Decodes.followCell.readable, Decodes.loadCell.readable⟩

theorem readable_takeTwo : ∀ l ∈ takeTwo, l.Readable := by
  simp only [takeTwo, List.forall_mem_append]
  exact ⟨⟨readable_takeTop, readable_lowerSP⟩, readable_selectSP⟩

theorem readable_pushD : ∀ l ∈ pushD, l.Readable := by
  simp only [pushD, List.forall_mem_append, List.forall_mem_cons, List.not_mem_nil,
    false_implies, implies_true, and_true]
  exact ⟨⟨readable_selectSP, Decodes.storeData.readable⟩, readable_raiseSP⟩

theorem readable_address {n : Nat} (hn : n ≤ largestConstant) (r : Region) :
    ∀ l ∈ address [] n r, l.Readable := by
  cases r with
  | based b =>
    simp only [address, List.forall_mem_cons, List.not_mem_nil, false_implies, implies_true,
      and_true]
    refine ⟨?_, Decodes.loadCell.readable, readable_load_number hn, Decodes.addOffset.readable⟩
    cases b <;> exact readable_load_symbol (by decide) (by decide) (by decide)
  | static => simpa [address] using readable_load_static n
  | pointer => simpa [address] using readable_load_register firstPointerRegister n
  | temp => simpa [address] using readable_load_register firstTempRegister n

theorem readable_spare : (load spareRegister).Readable :=
  readable_load_symbol (by decide) (by decide) (by decide)

theorem readable_comparison (k : Int64) (rel : Relation) : ∀ l ∈ comparison k rel, l.Readable := by
  have htrue : trueLabel k ≠ [] := List.cons_ne_nil _ _
  have hend : endLabel k ≠ [] := List.cons_ne_nil _ _
  simp only [comparison, List.forall_mem_append, List.forall_mem_cons, List.not_mem_nil,
    false_implies, implies_true, and_true]
  refine ⟨⟨⟨⟨⟨⟨readable_takeTwo, Decodes.difference.readable,
    readable_load_trueLabel k, (Decodes.jumpIf rel).readable⟩,
    readable_selectSP⟩, Decodes.storeFalse.readable,
    readable_load_endLabel k, Decodes.jumpAlways.readable,
    readable_label (plain_trueLabel k) htrue⟩, readable_selectSP⟩, Decodes.storeTrue.readable,
    readable_label (plain_endLabel k) hend⟩, readable_raiseSP⟩

/-- Every line of the block of an operation in range is readable. -/
theorem readable_code {strict : Bool} {op : Operation} (h : op.InRange strict) (k : Int64) :
    ∀ l ∈ code [] k op, l.Readable := by
  cases op with
  | literal n =>
    simp only [code, List.forall_mem_append, List.forall_mem_cons, List.not_mem_nil,
      false_implies, implies_true, and_true]
    exact ⟨⟨readable_load_number h, Decodes.loadAddress.readable⟩, readable_pushD⟩
  | push r n =>
    simp only [code, List.forall_mem_append, List.forall_mem_cons, List.not_mem_nil,
      false_implies, implies_true, and_true]
    exact ⟨⟨readable_address h.1 r, Decodes.loadCell.readable⟩, readable_pushD⟩
  | pop r n =>
    simp only [code, List.forall_mem_append, List.forall_mem_cons, List.not_mem_nil,
      false_implies, implies_true, and_true]
    exact ⟨⟨⟨readable_address h.1 r, Decodes.loadAddress.readable, readable_spare,
      Decodes.storeData.readable⟩, readable_takeTop⟩, readable_spare, Decodes.followCell.readable,
      Decodes.storeData.readable⟩
  | unary op =>
    simp only [code, List.forall_mem_append, List.forall_mem_cons, List.not_mem_nil,
      false_implies, implies_true, and_true]
    exact ⟨⟨⟨readable_lowerSP, readable_selectSP⟩, (Decodes.unary op).readable⟩, readable_raiseSP⟩
  | binary op =>
    simp only [code, List.forall_mem_append, List.forall_mem_cons, List.not_mem_nil,
      false_implies, implies_true, and_true]
    exact ⟨⟨readable_takeTwo, (Decodes.binary op).readable⟩, readable_raiseSP⟩
  | compare rel => exact readable_comparison k rel

end Block

/-! ## Labels -/

/-- The labels of `n` comparisons numbered from `k` on. -/
def labelsFrom (k : Int64) : Nat → List Text
  | 0 => []
  | n + 1 => trueLabel k :: endLabel k :: labelsFrom (k + 1) n

/-- Does the instruction compare? -/
def Instruction.isComparison (i : Instruction) : Bool :=
  match i.operation with
  | .ok (.compare _) => true
  | _ => false

theorem trueLabel_injective : Function.Injective trueLabel := by
  intro j k h
  exact Int64.toInt_inj.1 (Text.ofInt_injective (List.append_cancel_left h))

theorem endLabel_injective : Function.Injective endLabel := by
  intro j k h
  exact Int64.toInt_inj.1 (Text.ofInt_injective (List.append_cancel_left h))

theorem trueLabel_ne_endLabel (j k : Int64) : trueLabel j ≠ endLabel k := by
  intro h
  have hhead : (some 76 : Option UInt8) = some 69 := congrArg List.head? h
  exact absurd hhead (by decide)

theorem add_ofNat_succ (k : Int64) (j : Nat) :
    k + Int64.ofNat (j + 1) = k + 1 + Int64.ofNat j := by
  rw [Int64.ofNat_add, Int64.add_comm (Int64.ofNat j), ← Int64.add_assoc]
  rfl

theorem mem_labelsFrom {k : Int64} {n : Nat} {name : Text} :
    name ∈ labelsFrom k n ↔
      ∃ j < n, name = trueLabel (k + Int64.ofNat j) ∨ name = endLabel (k + Int64.ofNat j) := by
  induction n generalizing k with
  | zero => simp [labelsFrom]
  | succ n ih =>
    simp only [labelsFrom, List.mem_cons, ih]
    constructor
    · rintro (rfl | rfl | ⟨j, hj, h⟩)
      · exact ⟨0, by omega, Or.inl (by simp)⟩
      · exact ⟨0, by omega, Or.inr (by simp)⟩
      · exact ⟨j + 1, by omega, by rwa [add_ofNat_succ]⟩
    · rintro ⟨j, hj, h⟩
      cases j with
      | zero => simpa [← or_assoc] using Or.inl h
      | succ j => exact Or.inr (Or.inr ⟨j, by omega, by rwa [← add_ofNat_succ]⟩)

/-- Numbers of comparisons do not repeat before the counter has gone all the way round. -/
theorem nodup_labelsFrom (k : Int64) {n : Nat} (hn : n ≤ 2 ^ 64) : (labelsFrom k n).Nodup := by
  induction n generalizing k with
  | zero => exact List.nodup_nil
  | succ n ih =>
    have hne : ∀ j < n, k ≠ k + 1 + Int64.ofNat j := by
      intro j hj h
      have hzero : Int64.ofNat (1 + j) = 0 := by
        rw [Int64.add_assoc] at h
        rw [Int64.ofNat_add]
        exact Int64.left_eq_add.1 h
      have hmod : (1 + j) % 2 ^ 64 = 0 := by
        rw [← UInt64.toNat_ofNat', ← Int64.toUInt64_ofNat', hzero]
        rfl
      omega
    refine List.nodup_cons.2 ⟨?_, List.nodup_cons.2 ⟨?_, ih (k + 1) (by omega)⟩⟩
    · rw [List.mem_cons, mem_labelsFrom]
      rintro (h | ⟨j, hj, h | h⟩)
      · exact trueLabel_ne_endLabel k k h
      · exact hne j hj (trueLabel_injective h)
      · exact trueLabel_ne_endLabel _ _ h
    · rw [mem_labelsFrom]
      rintro ⟨j, hj, h | h⟩
      · exact trueLabel_ne_endLabel _ _ h.symm
      · exact hne j hj (endLabel_injective h)

theorem lookup_predefined_append {s : Text}
    (h : ∀ e ∈ predefinedSymbols, s.isPrefixOf e.1 = false) (t : Text) :
    ({} : Assembler).lookup (s ++ t) = none := by
  refine List.lookup_eq_none_iff.2 fun e he => bne_iff_ne.2 fun heq => ?_
  have hprefix := h e he
  rw [← heq, List.isPrefixOf_iff_prefix.2 (List.prefix_append s t)] at hprefix
  cases hprefix

theorem lookup_predefined_labelsFrom {k : Int64} {n : Nat} {name : Text}
    (h : name ∈ labelsFrom k n) : ({} : Assembler).lookup name = none := by
  obtain ⟨j, -, rfl | rfl⟩ := mem_labelsFrom.1 h
  · exact lookup_predefined_append (by decide) _
  · exact lookup_predefined_append (by decide) _

/-! ## Listings of decoded programs -/

theorem declaredLabels_code (ns : Text) (k : Int64) (op : Operation) :
    declaredLabels (Block.code ns k op) =
      match op with
      | .compare _ => [trueLabel k, endLabel k]
      | _ => [] := by
  cases op with
  | literal n => rfl
  | push r n => cases r <;> rfl
  | pop r n => cases r <;> rfl
  | unary op => rfl
  | binary op => rfl
  | compare rel => rfl

theorem declaredLabels_listing {p : List Instruction} (h : ∀ i ∈ p, ∃ op, i.operation = .ok op)
    (ns : Text) (k : Int64) :
    declaredLabels (listing ns k p) = labelsFrom k (p.countP Instruction.isComparison) := by
  induction p generalizing k with
  | nil => rfl
  | cons i is ih =>
    obtain ⟨op, hop⟩ := h i (by simp)
    have ih := ih (fun j hj => h j (by simp [hj]))
    rw [listing_cons hop, List.cons_append, declaredLabels_cons, declaredLabels_append,
      declaredLabels_code, ih, List.countP_cons]
    cases op <;> simp [label?, Operation.nextLabel, Instruction.isComparison, hop, labelsFrom]

namespace Block

@[simp]
theorem wordCount_raiseSP : wordCount raiseSP = 2 := rfl

@[simp]
theorem wordCount_lowerSP : wordCount lowerSP = 2 := rfl

@[simp]
theorem wordCount_selectSP : wordCount selectSP = 2 := rfl

@[simp]
theorem wordCount_takeTop : wordCount takeTop = 4 := rfl

@[simp]
theorem wordCount_takeTwo : wordCount takeTwo = 8 := rfl

@[simp]
theorem wordCount_pushD : wordCount pushD = 5 := rfl

theorem one_le_wordCount_address (ns : Text) (n : Nat) (r : Region) :
    1 ≤ wordCount (address ns n r) := by
  cases r <;> simp [address, words]

/-- Every block has seven words at least. -/
theorem seven_le_wordCount_code (ns : Text) (k : Int64) (op : Operation) :
    7 ≤ wordCount (code ns k op) := by
  cases op with
  | literal n => simp [code, words]
  | push r n =>
    have := one_le_wordCount_address ns n r
    simp [code, words]
    omega
  | pop r n => simp [code, words]
  | unary op => simp [code, words]
  | binary op => simp [code, words]
  | compare rel => simp [code, comparison, words]

end Block

theorem le_wordCount_listing {p : List Instruction} (h : ∀ i ∈ p, ∃ op, i.operation = .ok op)
    (ns : Text) (k : Int64) : 7 * p.length ≤ wordCount (listing ns k p) := by
  induction p generalizing k with
  | nil => simp
  | cons i is ih =>
    obtain ⟨op, hop⟩ := h i (by simp)
    have hrest := ih (fun j hj => h j (by simp [hj])) (op.nextLabel k)
    have hcode := Block.seven_le_wordCount_code ns k op
    rw [listing_cons hop, List.cons_append, wordCount_cons, wordCount_append, List.length_cons]
    omega

theorem not_mem_text_instruction {b : UInt8} (hb : Text.isPlainByte b = false) (hspace : b ≠ 32)
    (op : Operation) (line : Int) : b ∉ (op.instruction line).text := by
  have hword (c : Command) : b ∉ c.word := c.plain_word.not_mem hb
  have hsegment (s : Segment) : b ∉ s.word := s.plain_word.not_mem hb
  have hnumber (n : Int) : b ∉ Text.ofInt n := (Text.plain_ofInt n).not_mem hb
  have hblank : b ∉ utf8 " " := by
    rw [show utf8 " " = [32] by decide, List.mem_singleton]
    exact hspace
  unfold Instruction.text
  split
  · rw [Operation.command_instruction]
    exact hword _
  · simp only [List.mem_append, not_or, Operation.command_instruction]
    refine ⟨⟨⟨⟨hword _, hblank⟩, ?_⟩, hblank⟩, hnumber _⟩
    cases op with
    | literal n => exact hsegment .constant
    | push r n => exact hsegment (.region r)
    | pop r n => exact hsegment (.region r)
    | unary op => exact List.not_mem_nil
    | binary op => exact List.not_mem_nil
    | compare rel => exact List.not_mem_nil

theorem readable_listing {strict : Bool} {p : List Instruction}
    (h : ∀ i ∈ p, i.IsDecoded strict) (k : Int64) : ∀ l ∈ listing [] k p, l.Readable := by
  induction p generalizing k with
  | nil => simp [listing]
  | cons i is ih =>
    obtain ⟨op, line, hrange, rfl⟩ := h i (by simp)
    rw [listing_cons (Instruction.operation_instruction line op), List.cons_append]
    refine List.forall_mem_cons.2 ⟨⟨?_, ?_, trivial⟩, List.forall_mem_append.2
      ⟨Block.readable_code hrange k, ih (fun j hj => h j (by simp [hj])) _⟩⟩
    · intro hmem
      rcases List.mem_append.1 hmem with hmem | hmem
      · revert hmem; decide
      · exact not_mem_text_instruction (by decide) (by decide) op line hmem
    · intro hmem
      rcases List.mem_append.1 hmem with hmem | hmem
      · revert hmem; decide
      · exact not_mem_text_instruction (by decide) (by decide) op line hmem

/-- The number of words of a program. -/
def codeSize (p : List Instruction) : Nat := wordCount (listing [] 0 p)

theorem codeSize_concat {p : List Instruction} (hp : ∀ j ∈ p, ∃ op, j.operation = .ok op)
    {i : Instruction} {op : Operation} (hop : i.operation = .ok op) :
    codeSize (p ++ [i]) = codeSize p + wordCount (Block.code [] (labelAfter 0 p) op) := by
  rw [codeSize, listing_append hp, listing_cons hop, wordCount_append, List.cons_append,
    wordCount_cons, wordCount_append]
  simp [codeSize, words, listing]

theorem seven_mul_length_le_codeSize {p : List Instruction}
    (hp : ∀ j ∈ p, ∃ op, j.operation = .ok op) : 7 * p.length ≤ codeSize p :=
  le_wordCount_listing hp [] 0

theorem codeSize_le_append {p : List Instruction} (hp : ∀ j ∈ p, ∃ op, j.operation = .ok op)
    (q : List Instruction) : codeSize p ≤ codeSize (p ++ q) := by
  rw [codeSize, codeSize, listing_append hp, wordCount_append]
  exact Nat.le_add_right _ _

/-- The block of an instruction stands where the instructions before it end. -/
theorem placed_block {sym : Assembler} {rom : Array Word} {before after : List Instruction}
    (hp : ∀ j ∈ before, ∃ op, j.operation = .ok op) {i : Instruction} {op : Operation}
    (hop : i.operation = .ok op) (h : Placed sym rom 0 (listing [] 0 (before ++ i :: after))) :
    Placed sym rom (codeSize before) (Block.code [] (labelAfter 0 before) op) := by
  rw [listing_append hp, placed_append, Nat.zero_add] at h
  rw [listing_cons hop, placed_append] at h
  exact h.2.1.2

/-- The symbols that are known when the assembly of a program has been assembled. -/
def programSymbols (p : List Instruction) : Assembler :=
  ({} : Assembler).afterLines (listing [] 0 p)

section Decoded

variable {strict : Bool} {p : List Instruction}

theorem operation_of_decoded (h : ∀ i ∈ p, i.IsDecoded strict) :
    ∀ i ∈ p, ∃ op, i.operation = .ok op := fun i hi =>
  let ⟨op, _, hop⟩ := (h i hi).operation
  ⟨op, hop⟩

theorem new_of_mem_declaredLabels (h : ∀ i ∈ p, i.IsDecoded strict) :
    ∀ name ∈ declaredLabels (listing [] 0 p), ({} : Assembler).lookup name = none := by
  rw [declaredLabels_listing (operation_of_decoded h)]
  exact fun _ => lookup_predefined_labelsFrom

/-- **The listing of a decoded program assembles** unless the numbers of its comparisons repeat. -/
theorem assemble_listing (h : ∀ i ∈ p, i.IsDecoded strict)
    (hcount : p.countP Instruction.isComparison ≤ 2 ^ 64) :
    ∃ rom, assemble (assembly p) = .ok rom := by
  have hlabels := declaredLabels_listing (operation_of_decoded h) [] 0
  obtain ⟨rom, hrom, -⟩ := Assembler.assemble_render (readable_listing h 0)
    (hlabels ▸ nodup_labelsFrom 0 hcount) {} (new_of_mem_declaredLabels h)
  exact ⟨rom, by rw [assemble, assembly_eq, hrom]⟩

/-- The words of an assembled program, and where its lines stand among them. -/
theorem placed_listing (h : ∀ i ∈ p, i.IsDecoded strict) {rom : List Word}
    (hrom : assemble (assembly p) = .ok rom) :
    rom.length = codeSize p ∧
      Placed (programSymbols p) rom.toArray 0 (listing [] 0 p) := by
  have hread := readable_listing h 0
  rw [assemble, assembly_eq] at hrom
  obtain ⟨hnodup, hnew⟩ := Assembler.nodup_of_assemble_ok hread hrom
  obtain ⟨rom', hrom', hlen, hplaced⟩ := Assembler.assemble_render hread hnodup {} hnew
  rw [hrom'] at hrom
  obtain rfl := Except.ok.inj hrom
  exact ⟨hlen, hplaced⟩

theorem lookup_programSymbols (h : ∀ i ∈ p, i.IsDecoded strict) {name : Text} {address : Nat}
    (hname : ({} : Assembler).lookup name = some address) :
    (programSymbols p).lookup name = some address :=
  Assembler.lookup_afterLines_of_some (new_of_mem_declaredLabels h) hname

end Decoded

end HackVM
