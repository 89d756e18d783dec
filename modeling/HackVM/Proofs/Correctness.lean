import HackVM.Proofs.OperandStack
import HackVM.Proofs.Statics

/-!
# The code of a program does what the program means

`Simulates` relates memory to a state of the stack machine: memory holds the operand stack, and the
cells agree except for the stack pointer, the spare register and the cells that the stack uses. A
block keeps the relation (`Simulates.effect`), so the code of a program keeps it from beginning to
end (`Assembled.simulates_run`), and with one step for each word a run comes to its end
(`compiled_code_correct`).
-/

namespace HackVM

open Function (update update_self update_of_ne)

/-- The cell is neither that of the stack pointer, nor the spare register, nor used by a stack of
this depth. -/
def IsData (depth : Nat) (address : Int) : Prop :=
  address ≠ 0 ∧ address ≠ 13 ∧
    (address < stackStart ∨ (stackStart : Int) + depth ≤ address)

instance (depth : Nat) (address : Int) : Decidable (IsData depth address) :=
  inferInstanceAs (Decidable (_ ∧ _ ∧ _))

theorem IsData.ne_stack {depth : Nat} {address : Int} (h : IsData depth address) {j : Nat}
    (hj : j < depth) : address ≠ stackStart + j := by
  obtain ⟨-, -, hout⟩ := h
  omega

/-- Memory represents a state of the stack machine whose stack grows up to the depth. -/
structure Simulates (depth : Nat) (c : Int → Int16) (s : StackState) : Prop where
  stack : HoldsStack c s.stack
  cells : ∀ address, IsData depth address → c address = s.cells address

/-- The code and the stack machine address the same cell of data. -/
structure AddressesData (sym : Assembler) (statics : List Nat) (depth : Nat) (c : Int → Int16)
    (s : StackState) (op : Operation) : Prop where
  target : ∀ t, op.target? sym c = some t → op.cell? statics s.cells = some t.toInt
  inMemory : ∀ a, op.cell? statics s.cells = some a → InMemory a
  isData : ∀ a, op.cell? statics s.cells = some a → IsData depth a

namespace Simulates

variable {sym : Assembler} {statics : List Nat} {depth : Nat} {c : Int → Int16} {s s' : StackState}
  {op : Operation}

theorem cells_base (h : Simulates depth c s) (b : Base) : c b.index = s.cells b.index := by
  apply h.cells
  have hstart : (stackStart : Int) = 256 := rfl
  refine ⟨?_, ?_, .inl ?_⟩ <;> cases b <;> simp only [Base.index] <;> omega

/-- An operation that the stack machine performs finds what its block needs. -/
theorem enabled (h : Simulates depth c s) (hexec : s.exec statics op = some s')
    (hdepth : s.stack.length ≤ depth) (hdepth' : s'.stack.length ≤ depth)
    (hroom : stackStart + depth ≤ memorySize) (hdata : AddressesData sym statics depth c s op) :
    op.Enabled sym c := by
  have hsp := h.stack.sp
  obtain ⟨hoperands, hlength⟩ := StackState.length_of_exec hexec
  refine ⟨by omega, by omega, by omega, fun t ht => ?_, ?_⟩
  · exact hdata.inMemory _ (hdata.target t ht)
  · rintro r n rfl
    exact (hdata.isData _ (hdata.target _ rfl)).1

section Updates

variable {vs : List Int16} {cells : Int → Int16} {x y : Int16}

theorem push (h : Simulates depth c ⟨vs, cells⟩) (hdepth : vs.length < depth)
    (hroom : stackStart + depth ≤ memorySize) (v : Int16) :
    Simulates depth (update (update c (c 0).toInt v) 0 (c 0 + 1)) ⟨v :: vs, cells⟩ := by
  have hsp : (c 0).toInt = stackStart + vs.length := h.stack.sp
  refine ⟨h.stack.push (by omega) v, fun address haddress => ?_⟩
  rw [update_of_ne haddress.1, hsp, update_of_ne (haddress.ne_stack hdepth)]
  exact h.cells address haddress

/-- The address is kept in the spare register on the way. -/
theorem pop (h : Simulates depth c ⟨x :: vs, cells⟩) (hdepth : vs.length ≤ depth) {t : Int16}
    (ht : IsData depth t.toInt) :
    Simulates depth (update (update (update c 13 t) 0 (c 0 - 1)) t.toInt (c (c 0 - 1).toInt))
      ⟨vs, update cells t.toInt x⟩ := by
  have hstart : (13 : Int) < stackStart := by decide
  have hsaved := h.stack.update (by decide : (13 : Int) ≠ 0) (.inl hstart) t
  have hdrop := hsaved.drop
  rw [update_of_ne (by decide)] at hdrop
  rw [h.stack.top]
  refine ⟨hdrop.update ht.1 (ht.2.2.imp_right fun hle => by omega) x, fun address haddress => ?_⟩
  dsimp only
  by_cases hsame : address = t.toInt
  · rw [hsame, update_self, update_self]
  · rw [update_of_ne hsame, update_of_ne haddress.1, update_of_ne haddress.2.1, update_of_ne hsame]
    exact h.cells address haddress

theorem replaceTop (h : Simulates depth c ⟨x :: vs, cells⟩) (hdepth : vs.length < depth)
    (v : Int16) : Simulates depth (update c (c 0 - 1).toInt v) ⟨v :: vs, cells⟩ := by
  refine ⟨h.stack.replaceTop v, fun address haddress => ?_⟩
  rw [h.stack.toInt_top, update_of_ne (haddress.ne_stack hdepth)]
  exact h.cells address haddress

theorem replaceTwo (h : Simulates depth c ⟨y :: x :: vs, cells⟩) (hdepth : vs.length < depth)
    (v : Int16) :
    Simulates depth (update (update c 0 (c 0 - 1)) (c 0 - 1 - 1).toInt v) ⟨v :: vs, cells⟩ := by
  refine ⟨h.stack.replaceTwo v, fun address haddress => ?_⟩
  rw [h.stack.toInt_second, update_of_ne (haddress.ne_stack hdepth), update_of_ne haddress.1]
  exact h.cells address haddress

end Updates

/-- **The effect of a block is the effect of its operation.** -/
theorem effect (h : Simulates depth c s) (hexec : s.exec statics op = some s')
    (hdepth' : s'.stack.length ≤ depth) (hroom : stackStart + depth ≤ memorySize)
    (hdata : AddressesData sym statics depth c s op) : Simulates depth (op.effect sym c) s' := by
  obtain ⟨vs, cells⟩ := s
  cases op with
  | literal n =>
    obtain rfl := Option.some.inj hexec
    exact h.push hdepth' hroom _
  | push r n =>
    obtain rfl := Option.some.inj hexec
    have htarget := hdata.target _ rfl
    have hvalue : c (r.address sym c n).toInt = cells (r.cell statics cells n) := by
      rw [h.cells _ (hdata.isData _ htarget), ← Option.some.inj htarget]
    rw [← hvalue]
    exact h.push hdepth' hroom _
  | pop r n =>
    match vs with
    | [] => cases hexec
    | x :: vs =>
      obtain rfl := Option.some.inj hexec
      have htarget := hdata.target _ rfl
      have hcell : r.cell statics cells n = (r.address sym c n).toInt := Option.some.inj htarget
      rw [hcell]
      exact h.pop hdepth' (hdata.isData _ htarget)
  | unary op =>
    match vs with
    | [] => cases hexec
    | x :: vs =>
      obtain rfl := Option.some.inj hexec
      rw [Operation.effect, h.stack.top]
      exact h.replaceTop hdepth' _
  | binary op =>
    match vs with
    | [] => cases hexec
    | [_] => cases hexec
    | y :: x :: vs =>
      obtain rfl := Option.some.inj hexec
      rw [Operation.effect, h.stack.top, h.stack.second]
      exact h.replaceTwo hdepth' _
  | compare rel =>
    match vs with
    | [] => cases hexec
    | [_] => cases hexec
    | y :: x :: vs =>
      obtain rfl := Option.some.inj hexec
      rw [Operation.effect, h.stack.top, h.stack.second]
      exact h.replaceTwo hdepth' _

end Simulates

/-! ## Programs -/

section Program

variable {p : List Instruction} {rom : List Word} {depth : Nat} {c : Int → Int16} {s : StackState}

/-- A strictly decoded program addresses the cells of the stack machine. -/
theorem Assembled.addressesData (h : Assembled p rom) (hp : ∀ j ∈ p, j.IsDecoded true)
    {i : Instruction} (hi : i ∈ p) {op : Operation} (hop : i.operation = .ok op)
    (hsim : Simulates depth c s)
    (hcells : ∀ a, op.cell? (staticOffsets p) s.cells = some a → InMemory a ∧ IsData depth a) :
    AddressesData (programSymbols p) (staticOffsets p) depth c s op := by
  refine ⟨?_, fun a ha => (hcells a ha).1, fun a ha => (hcells a ha).2⟩
  have hrange : op.InRange true := by
    obtain ⟨op', hrange, hop'⟩ := (hp i hi).operation
    rwa [Except.ok.inj (hop.symm.trans hop')]
  have hstatic {n : Nat} : op.static? = some n → n ∈ staticOffsets p := mem_staticOffsets hi hop
  have hregion {r : Region} {n : Nat} (hr : slotProblem? true r n = none)
      (hn : r = .static → n ∈ staticOffsets p)
      (hmem : InMemory (r.cell (staticOffsets p) s.cells n)) :
      r.cell (staticOffsets p) s.cells n = (r.address (programSymbols p) c n).toInt := by
    have hsize : (memorySize : Int) = 24577 := rfl
    have hlt := hmem.2
    exact (Region.toInt_address hp h.predefined hr hn hsim.cells_base (by omega)).symm
  intro t ht
  cases op with
  | literal n => cases ht
  | unary op => cases ht
  | binary op => cases ht
  | compare rel => cases ht
  | push r n =>
    obtain rfl := Option.some.inj ht
    exact congrArg some (hregion hrange.2 (fun hr => hstatic (by rw [hr]; rfl)) (hcells _ rfl).1)
  | pop r n =>
    obtain rfl := Option.some.inj ht
    exact congrArg some (hregion hrange.2 (fun hr => hstatic (by rw [hr]; rfl)) (hcells _ rfl).1)

/-- A run of the stack machine from the end of some instructions on, carried out by the code. -/
theorem Assembled.simulates_run {before after : List Instruction}
    (h : Assembled (before ++ after) rom) (hp : ∀ j ∈ before ++ after, j.IsDecoded true)
    (hsize : codeSize (before ++ after) ≤ 65536) {r : RunRecord}
    (hrun : s.run (staticOffsets (before ++ after)) after = some r) (hpeak : r.peak ≤ depth)
    (hroom : stackStart + depth ≤ memorySize)
    (hcells : ∀ a ∈ r.addressed, InMemory a ∧ IsData depth a) (hsim : Simulates depth c s)
    (a d : Int16) :
    ∃ c' a' d', Leads rom.toArray ⟨c, a, d, codeSize before⟩
      ⟨c', a', d', codeSize (before ++ after)⟩ ∧ Simulates depth c' r.final := by
  induction after generalizing before s r c a d with
  | nil =>
    obtain rfl := Option.some.inj hrun
    rw [List.append_nil]
    exact ⟨c, a, d, Leads.refl _, hsim⟩
  | cons i after ih =>
    obtain ⟨op, s', r', hop, hexec, hrun', rfl⟩ := StackState.run_cons hrun
    have hlength := StackState.length_le_peak hrun'
    simp only [Nat.max_le] at hpeak
    have hdata := h.addressesData hp (by simp) hop hsim fun a ha => hcells a (by simp [ha])
    have henabled := hsim.enabled hexec (by omega) (by omega) hroom hdata
    obtain ⟨a', d', hblock⟩ :=
      h.leads_block hop (Nat.le_trans h.codeSize_block_le hsize) henabled a d
    have hsim' := hsim.effect hexec (by omega) hroom hdata
    -- go on after the block
    have hconcat : before ++ i :: after = before ++ [i] ++ after := by simp
    rw [hconcat] at h hp hsize hrun' hsim' hblock ⊢
    obtain ⟨c'', a'', d'', hleads, hfinal⟩ := ih h hp hsize hrun' (by omega)
      (fun a ha => hcells a (by simp [ha])) hsim' a' d'
    exact ⟨c'', a'', d'', hblock.trans hleads, hfinal⟩

/-- **Compiler correctness.** A strictly decoded program whose code fits the program memory can be
emitted and assembled. If the stack machine runs the program from an empty stack on the cells of
the computer, and memory has room for the stack and keeps it apart from the cells that the program
addresses, then the computer runs the code to its end within one step for each word. It leaves the
operand stack in memory and the cells of the stack machine everywhere else. -/
theorem compiled_code_correct {lines : List CommandLine}
    (hdecode : CommandLine.decodeAll true lines = .ok p) (hsize : codeSize p ≤ 65536) :
    (({} : Emitter).emitAll p).error = none ∧
    ∃ rom, assemble (assembly p) = .ok rom ∧ rom.length = codeSize p ∧
      ∀ (m : Machine) (r : RunRecord), m.rom = rom.toArray → m.pc = 0 → m.cells 0 = 256 →
        StackState.run (staticOffsets p) p ⟨[], m.cells⟩ = some r →
        stackStart + r.peak ≤ memorySize →
        (∀ address ∈ r.addressed, InMemory address ∧ IsData r.peak address) →
        ∀ limit : Int64, m.steps.toInt + rom.length ≤ limit.toInt →
          ∃ m', m.run limit = (m', none) ∧ HoldsStack m'.cells r.final.stack ∧
            ∀ address, IsData r.peak address → m'.cells address = r.final.cells address := by
  have hdecoded := CommandLine.decodeAll_decoded hdecode
  have hoperation := operation_of_decoded hdecoded
  have hcount : p.countP Instruction.isComparison ≤ 2 ^ 64 := by
    have hlength := seven_mul_length_le_codeSize hoperation
    have hle := List.countP_le_length (p := Instruction.isComparison) (l := p)
    omega
  obtain ⟨rom, hassemble⟩ := assemble_listing hdecoded hcount
  have h : Assembled ([] ++ p) rom := assembled_of_decode hdecode hassemble
  refine ⟨Emitter.emitAll_error rfl rfl hoperation, rom, hassemble, h.length, ?_⟩
  intro m r hrom hpc hsp hrun hroom hcells limit hlimit
  have hstart : (m.cells 0).toInt = stackStart := by
    rw [hsp]
    rfl
  have hsim : Simulates r.peak m.cells ⟨[], m.cells⟩ := ⟨⟨hstart, trivial⟩, fun _ _ => rfl⟩
  obtain ⟨c', a', d', hleads, hfinal⟩ := h.simulates_run hdecoded hsize hrun (Nat.le_refl _) hroom
    hcells hsim m.a m.d
  obtain ⟨m', hpath, hm', -⟩ := hleads m ⟨hrom, rfl, rfl, rfl, hpc⟩ (Int.le_of_eq hstart.symm)
  have hpc' : m'.pc = rom.length := by
    rw [h.length]
    exact hm'.pc_eq
  obtain ⟨k, hk, hrunFor⟩ := hpath.runFor (h.isHalted hm'.rom_eq hm'.pc_eq)
  refine ⟨m', hrunFor _ (by omega), ?_, ?_⟩
  · rw [hm'.cells_eq]
    exact hfinal.stack
  · rw [hm'.cells_eq]
    exact hfinal.cells

/-- A program that uses a local and a static cell and compares: `5 < 7`. -/
theorem compiled_code_correct_less_than :
    ∃ rom, assemble (assembly [(Operation.literal 5).instruction 1,
        (Operation.pop (.based .lcl) 2).instruction 2,
        (Operation.push (.based .lcl) 2).instruction 3, (Operation.literal 7).instruction 4,
        (Operation.compare .lt).instruction 5, (Operation.pop .static 9).instruction 6,
        (Operation.push .static 9).instruction 7]) = .ok rom ∧
      ∃ m', (((Machine.load rom).poke 0 256).poke 1 300).run 77 = (m', none) ∧
        HoldsStack m'.cells [-1] ∧ m'.cells 302 = 5 ∧ m'.cells 16 = -1 := by
  have hdecode : CommandLine.decodeAll true [⟨1, 1, utf8 "push constant 5"⟩,
      ⟨2, 1, utf8 "pop local 2"⟩, ⟨3, 1, utf8 "push local 2"⟩, ⟨4, 1, utf8 "push constant 7"⟩,
      ⟨5, 1, utf8 "lt"⟩, ⟨6, 1, utf8 "pop static 9"⟩, ⟨7, 1, utf8 "push static 9"⟩] =
      .ok [(Operation.literal 5).instruction 1, (Operation.pop (.based .lcl) 2).instruction 2,
        (Operation.push (.based .lcl) 2).instruction 3, (Operation.literal 7).instruction 4,
        (Operation.compare .lt).instruction 5, (Operation.pop .static 9).instruction 6,
        (Operation.push .static 9).instruction 7] := by
    decide +kernel
  have hlt : Relation.lt.apply 5 7 = -1 := rfl
  have hrun (m : Machine) (hm : m.cells 1 = 300) : StackState.run [9]
      [(Operation.literal 5).instruction 1, (Operation.pop (.based .lcl) 2).instruction 2,
        (Operation.push (.based .lcl) 2).instruction 3, (Operation.literal 7).instruction 4,
        (Operation.compare .lt).instruction 5, (Operation.pop .static 9).instruction 6,
        (Operation.push .static 9).instruction 7] ⟨[], m.cells⟩ =
      some ⟨⟨[-1], update (update m.cells 302 5) 16 (-1)⟩, [302, 302, 16, 16], 2⟩ := by
    simp [StackState.run, StackState.exec, Region.cell, Operation.cell?, Base.index, hm, hlt]
  have hroom : stackStart + 2 ≤ memorySize := by decide
  have haddressed : ∀ address ∈ [302, 302, 16, 16], InMemory address ∧ IsData 2 address := by decide
  obtain ⟨-, rom, hassemble, hlength, hcorrect⟩ :=
    compiled_code_correct hdecode (by decide +kernel)
  have hsize : rom.length = 77 := hlength.trans (by decide +kernel)
  have hlimit : (((Machine.load rom).poke 0 256).poke 1 300).steps.toInt + (rom.length : Int) ≤
      (77 : Int64).toInt := by
    rw [hsize]
    exact Int.le_refl 77
  obtain ⟨m', hm', hstack, hcells⟩ :=
    hcorrect _ _ rfl rfl rfl (hrun _ rfl) hroom haddressed 77 hlimit
  refine ⟨rom, hassemble, m', hm', hstack, ?_, ?_⟩
  · exact hcells 302 (haddressed 302 (by decide)).2
  · exact hcells 16 (haddressed 16 (by decide)).2

end Program

end HackVM
