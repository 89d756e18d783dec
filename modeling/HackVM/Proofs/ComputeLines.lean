import HackVM.Proofs.ComputeInstructions
import HackVM.Proofs.Resolution
import HackVM.Proofs.Stepping

/-!
# Compute lines

Whether a compute line is accepted does not depend on the other lines of the text: the text is
accepted with the line exactly if it is accepted with an empty line in its place and the line is a
compute instruction (`Assembler.accepts_iff_of_rawLines`). Its word does what the instruction says
(`ComputeInstruction.step_word`). `compute_lines_accepted` puts both together.
-/

namespace HackVM

/-! ## Which lines are accepted -/

/-- The line is one of code, but does not load an address. -/
def IsComputeLine (raw : Text) : Prop :=
  codeText raw ≠ [] ∧ (codeText raw).head? ≠ some 40 ∧ (codeText raw).head? ≠ some 64

/-- The assembler takes the text. -/
def Assembler.Accepts (a : Assembler) (t : Text) : Prop := ∃ rom, (a.assemble t).2 = .ok rom

theorem Assembler.accepts_iff {a : Assembler} {t : Text} {ls : List AsmLine}
    (h : List.Forall₂ AsmLine.Reads (rawLines t) ls) :
    a.Accepts t ↔ (declaredLabels ls).Nodup ∧ (∀ name ∈ declaredLabels ls, a.lookup name = none) ∧
      ∀ l ∈ ls, l.Encodable := by
  constructor
  · rintro ⟨rom, hrom⟩
    obtain ⟨hnodup, hnew, hls, -⟩ := (assemble_eq_ok_iff h).1 (Prod.ext rfl hrom)
    exact ⟨hnodup, hnew, hls⟩
  · rintro ⟨hnodup, hnew, hls⟩
    exact ⟨_, congrArg Prod.snd ((assemble_eq_ok_iff h).2 ⟨hnodup, hnew, hls, rfl, rfl⟩)⟩

namespace AsmLine

/-- The line that a compute line is taken for. -/
theorem Reads.eq_compute {raw : Text} {l : AsmLine} (h : l.Reads raw) (hraw : IsComputeLine raw) :
    l = compute (codeText raw) := by
  obtain ⟨hne, hparen, hat⟩ := hraw
  cases l with
  | comment t => exact absurd h hne
  | load operand => exact absurd (by rw [show codeText raw = 64 :: operand from h]; rfl) hat
  | compute code => rw [h.1]
  | label name => exact absurd (by rw [h.1]; rfl) hparen

theorem encodable_compute_iff {code : Text} :
    (compute code).Encodable ↔
      ∃ i : ComputeInstruction, ∃ operand ∈ operandLetters, code = i.text operand := by
  constructor
  · rintro ⟨dest, comp, jump, hencode⟩
    obtain ⟨i, operand, hoperand, hcode, -⟩ :=
      ComputeInstruction.encodeCompute_eq_ok_iff_text.1 (hencode 0)
    exact ⟨i, operand, hoperand, hcode⟩
  · rintro ⟨i, operand, hoperand, hcode⟩
    exact ⟨_, _, _, fun number =>
      ComputeInstruction.encodeCompute_eq_ok_iff_text.2 ⟨i, operand, hoperand, hcode, rfl⟩⟩

end AsmLine

theorem exists_of_forall₂_append_cons {α β : Type} {R : α → β → Prop} {xs ys : List α} {x : α}
    {zs : List β} (h : List.Forall₂ R (xs ++ x :: ys) zs) :
    ∃ front z back, zs = front ++ z :: back ∧ List.Forall₂ R xs front ∧ R x z ∧
      List.Forall₂ R ys back := by
  induction xs generalizing zs with
  | nil =>
    cases h with
    | cons hx hys => exact ⟨[], _, _, rfl, .nil, hx, hys⟩
  | cons w xs ih =>
    cases h with
    | cons hw hrest =>
      obtain ⟨front, z, back, rfl, hfront, hz, hback⟩ := ih hrest
      exact ⟨_ :: front, z, back, rfl, .cons hw hfront, hz, hback⟩

/-- A line that loads no address matters for its own sake only. -/
theorem Assembler.accepts_compute_iff {a : Assembler} {t u code : Text} (front back : List AsmLine)
    (ht : List.Forall₂ AsmLine.Reads (rawLines t) (front ++ .compute code :: back))
    (hu : List.Forall₂ AsmLine.Reads (rawLines u) (front ++ .comment [] :: back)) :
    a.Accepts t ↔ a.Accepts u ∧ (AsmLine.compute code).Encodable := by
  have hlabels : declaredLabels (front ++ .compute code :: back) =
      declaredLabels (front ++ .comment [] :: back) := by
    rw [declaredLabels_append, declaredLabels_append]
    rfl
  rw [accepts_iff ht, accepts_iff hu, hlabels, List.forall_mem_append, List.forall_mem_append,
    List.forall_mem_cons, List.forall_mem_cons]
  simp only [show (AsmLine.comment []).Encodable from trivial, true_and]
  tauto

section Around

variable {t u raw : Text} {before after : List Text}
  (ht : Assembler.rawLines t = before ++ raw :: after)
  (hu : Assembler.rawLines u = before ++ [] :: after) (hraw : IsComputeLine raw)

include ht hu hraw in
/-- The text is accepted exactly if it is without the line and the line has a meaning. -/
theorem Assembler.accepts_iff_of_rawLines (a : Assembler) :
    a.Accepts t ↔ a.Accepts u ∧ (AsmLine.compute (codeText raw)).Encodable := by
  -- what the text is taken for, with the line or without it
  have haround {front back : List AsmLine} (hfront : List.Forall₂ AsmLine.Reads before front)
      (hback : List.Forall₂ AsmLine.Reads after back) :
      a.Accepts t ↔ a.Accepts u ∧ (AsmLine.compute (codeText raw)).Encodable := by
    refine accepts_compute_iff front back ?_ ?_
    · rw [ht]
      exact List.rel_append hfront (.cons ⟨rfl, hraw⟩ hback)
    · rw [hu]
      exact List.rel_append hfront (.cons rfl hback)
  constructor
  · intro hacc
    obtain ⟨rom, hrom⟩ := hacc
    obtain ⟨ls, hls⟩ := exists_reads_of_assemble_ok (a := a) (t := t) (Prod.ext rfl hrom)
    rw [ht] at hls
    obtain ⟨front, l, back, -, hfront, -, hback⟩ := exists_of_forall₂_append_cons hls
    exact (haround hfront hback).1 ⟨rom, hrom⟩
  · rintro ⟨⟨rom, hrom⟩, hencodable⟩
    obtain ⟨ls, hls⟩ := exists_reads_of_assemble_ok (a := a) (t := u) (Prod.ext rfl hrom)
    rw [hu] at hls
    obtain ⟨front, l, back, -, hfront, -, hback⟩ := exists_of_forall₂_append_cons hls
    exact (haround hfront hback).2 ⟨⟨rom, hrom⟩, hencodable⟩

include ht hraw in
/-- The word of an accepted line stands among those of the text, with the number of the line. -/
theorem word_mem_of_assemble {a : Assembler} {rom : List Word} (hrom : (a.assemble t).2 = .ok rom)
    {i : ComputeInstruction} {operand : UInt8} (hoperand : operand ∈ operandLetters)
    (hcode : codeText raw = i.text operand) : i.word operand (before.length + 1) ∈ rom := by
  have hok : a.assemble t = ((a.assemble t).1, .ok rom) := Prod.ext rfl hrom
  obtain ⟨ls, hls⟩ := Assembler.exists_reads_of_assemble_ok hok
  obtain ⟨-, -, hencodable, hafter, rfl⟩ := (Assembler.assemble_eq_ok_iff hls).1 hok
  rw [ht] at hls
  obtain ⟨front, l, back, rfl, hfront, hl, -⟩ := exists_of_forall₂_append_cons hls
  obtain rfl := hl.eq_compute hraw
  rw [hafter]
  obtain ⟨w, hw, hmem⟩ := Assembler.exists_word?_image hencodable
    (fun name => Assembler.exists_lookup_afterLines a) rfl
  have hword : encodeCompute (before.length + 1) (codeText raw) =
      .ok (i.word operand (before.length + 1)) :=
    ComputeInstruction.encodeCompute_eq_ok_iff_text.2 ⟨i, operand, hoperand, hcode, rfl⟩
  rw [AsmLine.word?_compute, ← hfront.length_eq, hword] at hw
  rw [Except.ok.inj hw]
  exact List.mem_of_getElem? hmem

end Around

/-! ## What accepted lines do -/

namespace Expression

theorem value_of_not_usesOperand {e : Expression} (h : e.usesOperand = false) (d x y : Int16) :
    e.value d x = e.value d y := by
  cases e with
  | zero | one | minusOne => rfl
  | input i | not i | neg i | succ i | pred i =>
    cases i with
    | d => rfl
    | x => cases h
  | binary op first => cases h

end Expression

theorem JumpCondition.jumpTaken_word (j : JumpCondition) (v : Int16) :
    jumpTaken j.word v = true ↔ j.Holds v := by
  cases j with
  | gt => exact decide_eq_true_iff
  | eq => exact beq_iff_eq
  | ge => exact decide_eq_true_iff
  | lt => exact decide_eq_true_iff
  | ne => exact bne_iff_ne
  | le => exact decide_eq_true_iff
  | always => exact ⟨fun _ => trivial, fun _ => rfl⟩

/-- What the letter of an operand stands for: the cell that `A` addresses, or `A` itself. -/
def Machine.operand (m : Machine) (letter : UInt8) : Int16 :=
  if letter = letterM then m.cells m.a.toInt else m.a

namespace ComputeInstruction

/-- The instruction reads or writes the cell that `A` addresses. -/
def NeedsCell (i : ComputeInstruction) (operand : UInt8) : Prop :=
  i.expression.usesOperand = true ∧ operand = letterM ∨ .m ∈ i.dest

/-- The instruction jumps, given the value of its expression. -/
def Jumps (i : ComputeInstruction) (v : Int16) : Prop := ∃ j ∈ i.jump, j.Holds v

/-- What the instruction does with the value of its expression: it is stored in every destination,
the cell being the one that `A` addressed before; the computer goes on at the address in `A`, or
with the next word. -/
structure Effect (i : ComputeInstruction) (v : Int16) (m m' : Machine) : Prop where
  rom_eq : m'.rom = m.rom
  steps_eq : m'.steps = m.steps + 1
  cells_eq : m'.cells = if .m ∈ i.dest then Function.update m.cells m.a.toInt v else m.cells
  a_eq : m'.a = if .a ∈ i.dest then v else m.a
  d_eq : m'.d = if .d ∈ i.dest then v else m.d
  pc_of_jumps : i.Jumps v → m'.pc = m'.a.toUInt16.toNat
  pc_of_not_jumps : ¬ i.Jumps v → m'.pc = m.pc + 1

theorem contains_destText (i : ComputeInstruction) (place : Destination) :
    i.destText.contains place.letter = true ↔ place ∈ i.dest := by
  rw [List.contains_iff_mem, destText]
  refine List.mem_map_of_injective ?_
  rintro (_ | _ | _) (_ | _ | _) h
  all_goals first | rfl | cases h

theorem jumpTaken_jumpText (i : ComputeInstruction) (v : Int16) :
    jumpTaken i.jumpText v = true ↔ i.Jumps v := by
  unfold jumpText Jumps
  cases i.jump with
  | none =>
    have hnever : jumpTaken [] v = false := rfl
    simp [hnever]
  | some j => simp [j.jumpTaken_word v]

theorem effect_of_stored {i : ComputeInstruction} {v : Int16} {m m' : Machine}
    (h : m.Stored i.destText i.jumpText v m') : i.Effect v m m' where
  rom_eq := h.rom_eq
  steps_eq := h.steps_eq
  cells_eq := by
    rw [h.cells_eq]
    exact if_congr (i.contains_destText .m) rfl rfl
  a_eq := by
    rw [h.a_eq]
    exact if_congr (i.contains_destText .a) rfl rfl
  d_eq := by
    rw [h.d_eq]
    exact if_congr (i.contains_destText .d) rfl rfl
  pc_of_jumps hjumps := by rw [h.pc_eq, if_pos ((i.jumpTaken_jumpText v).2 hjumps)]
  pc_of_not_jumps hjumps := by rw [h.pc_eq, if_neg (mt (i.jumpTaken_jumpText v).1 hjumps)]

section Fetched

variable {i : ComputeInstruction} {operand : UInt8} {number : Nat} {m : Machine}
  (hoperand : operand ∈ operandLetters) (h : m.fetch = some (i.word operand number))

include hoperand h in
/-- Executing the word of an instruction evaluates its expression. -/
theorem step_word (hmem : i.NeedsCell operand → InMemory m.a.toInt) :
    ∃ m', m.step = (m', none) ∧
      i.Effect (i.expression.value m.d (m.operand operand)) m m' := by
  have hneeds : (i.expression.usesOperand && operand == letterM) = true ∨
      i.destText.contains letterM = true → i.NeedsCell operand := by
    refine Or.imp (fun hread => ?_) (i.contains_destText .m).1
    rwa [Bool.and_eq_true, beq_iff_eq] at hread
  obtain ⟨m', hstep, hstored⟩ := Machine.step_of_inMemory h
    (i.expression.ofText?_text hoperand) fun hor => hmem (hneeds hor)
  have hvalue : m.value ⟨i.expression.function, i.expression.usesOperand && operand == letterM⟩ =
      i.expression.value m.d (m.operand operand) := by
    rw [Machine.value, Expression.eval_function]
    cases huses : i.expression.usesOperand with
    | false => exact Expression.value_of_not_usesOperand huses _ _ _
    | true => simp [Machine.operand]
  exact ⟨m', hstep, effect_of_stored (hvalue ▸ hstored)⟩

include hoperand h in
/-- Executing it fails if it needs a cell and `A` addresses none. -/
theorem step_word_outside (hneeds : i.NeedsCell operand) (hout : ¬ InMemory m.a.toInt) :
    ∃ fault : Fault, fault.IsOutside ∧
      m.step = ({ m with steps := m.steps + 1 }, some fault) := by
  refine Machine.step_of_not_inMemory h (i.expression.ofText?_text hoperand) ?_ hout
  refine Or.imp (fun hread => ?_) (i.contains_destText .m).2 hneeds
  rwa [Bool.and_eq_true, beq_iff_eq]

end Fetched

/-! ## Operands with a letter of their own -/

/-- An instruction in which the letter of the table does not occur has no operand, or another letter
for it. -/
theorem exists_letter_of_not_mem {i : ComputeInstruction} {operand : UInt8}
    (hoperand : operand ∈ operandLetters) (h : letterX ∉ i.text operand) :
    ∃ letter ∈ [letterA, letterM], i.text operand = i.text letter := by
  rcases List.mem_cons.1 hoperand with rfl | hoperand
  · exact ⟨letterA, by simp, rfl⟩
  rcases List.mem_cons.1 hoperand with rfl | hoperand
  · exact ⟨letterM, by simp, rfl⟩
  · obtain rfl := List.mem_singleton.1 hoperand
    refine ⟨letterA, by simp, ?_⟩
    have hexpression : letterX ∉ i.expression.text letterX := fun hmem => h (by simp [text, hmem])
    rw [text, text, i.expression.text_eq_withOperand letterA, withOperand_of_not_mem hexpression]

theorem letterX_not_mem_text {i : ComputeInstruction} {letter : UInt8}
    (h : letter ∈ [letterA, letterM]) : letterX ∉ i.text letter := by
  have hdest : letterX ∉ destPart i.dest := by
    unfold destPart
    split
    · simp
    · intro hmem
      rcases List.mem_append.1 hmem with hmem | hmem
      · obtain ⟨place, -, hplace⟩ := List.mem_map.1 hmem
        cases place <;> cases hplace
      · revert hmem
        decide
  have hexpression : letterX ∉ i.expression.text letter := by
    rw [i.expression.text_eq_withOperand]
    refine letterX_not_mem_withOperand ?_ _
    rintro rfl
    revert h
    decide
  have hjump : letterX ∉ jumpPart i.jump := by
    rcases i.jump with _ | (_ | _ | _ | _ | _ | _ | _) <;> decide
  rw [text, List.mem_append, List.mem_append, not_or, not_or]
  exact ⟨⟨hdest, hexpression⟩, hjump⟩

end ComputeInstruction

/-- **The assembler accepts the compute instructions.** A line of code that loads no address is
accepted, among whatever other lines, exactly if it is written `dest=comp;jump`, with the letter of
`A` or `M` for the operand, or the letter that stands for both in the table of functions; the last
one means `A`. The word that an accepted line becomes evaluates its expression, whatever the state
of the computer, unless it needs a cell and `A` addresses none. -/
theorem compute_lines_accepted (a : Assembler) {t u raw : Text} {before after : List Text}
    (ht : Assembler.rawLines t = before ++ raw :: after)
    (hu : Assembler.rawLines u = before ++ [] :: after) (hraw : IsComputeLine raw) :
    (a.Accepts t ↔ a.Accepts u ∧
      ∃ i : ComputeInstruction, ∃ x ∈ [letterA, letterM, letterX], codeText raw = i.text x) ∧
    (letterX ∉ codeText raw → (a.Accepts t ↔ a.Accepts u ∧
      ∃ i : ComputeInstruction, ∃ x ∈ [letterA, letterM], codeText raw = i.text x)) ∧
    ∀ rom, (a.assemble t).2 = .ok rom →
      ∀ i : ComputeInstruction, ∀ x ∈ [letterA, letterM, letterX], codeText raw = i.text x →
        i.word x (before.length + 1) ∈ rom ∧
        ∀ m : Machine, m.fetch = some (i.word x (before.length + 1)) →
          ((i.NeedsCell x → InMemory m.a.toInt) → ∃ m', m.step = (m', none) ∧
            i.Effect (i.expression.value m.d (m.operand x)) m m') ∧
          (i.NeedsCell x → ¬ InMemory m.a.toInt → ∃ fault : Fault, fault.IsOutside ∧
            m.step = ({ m with steps := m.steps + 1 }, some fault)) := by
  have haccepts := Assembler.accepts_iff_of_rawLines ht hu hraw a
  rw [AsmLine.encodable_compute_iff] at haccepts
  refine ⟨haccepts, fun hX => ?_, fun rom hrom i x hx hcode => ?_⟩
  · rw [haccepts]
    refine and_congr_right fun _ => ⟨?_, ?_⟩
    · rintro ⟨i, x, hx, hcode⟩
      obtain ⟨letter, hletter, htext⟩ :=
        ComputeInstruction.exists_letter_of_not_mem hx (hcode ▸ hX)
      exact ⟨i, letter, hletter, hcode.trans htext⟩
    · rintro ⟨i, x, hx, hcode⟩
      exact ⟨i, x, List.mem_append_left [letterX] hx, hcode⟩
  · refine ⟨word_mem_of_assemble ht hraw hrom hx hcode, fun m hm => ⟨fun hmem => ?_, ?_⟩⟩
    · exact ComputeInstruction.step_word hx hm hmem
    · exact fun hneeds hout => ComputeInstruction.step_word_outside hx hm hneeds hout

/-- A line with blanks and a comment between a label and a line that loads it. It increments the
cell that `A` addresses and has `A` follow it. -/
theorem compute_lines_accepted_increment :
    let t := utf8 "(UP)\n AM = M + 1 // next\r\n@UP"
    let i : ComputeInstruction := ⟨[.a, .m], .succ .x, none⟩
    codeText (utf8 " AM = M + 1 // next") = i.text letterM ∧ ({} : Assembler).Accepts t ∧
      ∀ m : Machine, m.fetch = some (i.word letterM 2) → InMemory m.a.toInt →
        ∃ m', m.step = (m', none) ∧ m'.a = m.cells m.a.toInt + 1 ∧
          m'.cells = Function.update m.cells m.a.toInt (m.cells m.a.toInt + 1) := by
  intro t i
  have hcode : codeText (utf8 " AM = M + 1 // next") = i.text letterM := by rfl
  have ht : Assembler.rawLines t =
      [utf8 "(UP)"] ++ utf8 " AM = M + 1 // next" :: [utf8 "@UP"] := by rfl
  have hu : Assembler.rawLines (utf8 "(UP)\n\n@UP") = [utf8 "(UP)"] ++ [] :: [utf8 "@UP"] := by rfl
  have hraw : IsComputeLine (utf8 " AM = M + 1 // next") := by
    rw [IsComputeLine, hcode]
    decide
  obtain ⟨haccepts, -, hwords⟩ := compute_lines_accepted {} ht hu hraw
  have hok : ({} : Assembler).Accepts t :=
    haccepts.2 ⟨⟨_, rfl⟩, i, letterM, by decide, hcode⟩
  refine ⟨hcode, hok, fun m hm hmem => ?_⟩
  obtain ⟨rom, hrom⟩ := hok
  obtain ⟨-, hsteps⟩ := hwords rom hrom i letterM (by decide) hcode
  obtain ⟨m', hstep, heffect⟩ := (hsteps m hm).1 fun _ => hmem
  exact ⟨m', hstep, heffect.a_eq, heffect.cells_eq⟩

/-- The letter of the table of functions is accepted, although it is the letter of no operand. -/
theorem table_letter_accepted :
    assemble (utf8 "D=X") = .ok [.compute (utf8 "D") (utf8 "X") [] 1] ∧
      ¬ ∃ i : ComputeInstruction, ∃ x ∈ [letterA, letterM], codeText (utf8 "D=X") = i.text x := by
  refine ⟨rfl, ?_⟩
  rintro ⟨i, x, hx, hcode⟩
  refine ComputeInstruction.letterX_not_mem_text (i := i) hx ?_
  rw [← hcode]
  decide

end HackVM
