import HackVM.Instruction.StackDepth
import HackVM.Proofs.Blocks

/-!
# Stack depth and the stack pointer

The depth that is counted from the commands of a program is what its code does to the stack
pointer. A block that finds its operands changes the stack pointer by the depth change of its
command and never lets it fall below the beginning of the stack; one that lacks an operand does
(`meets_below_code`). So without an underflow the stack pointer stays in the stack and ends at the
depth, and an underflow shows in some step (`stackDepth_exact`).
-/

namespace HackVM

open Function (update update_self update_of_ne)

/-! ## Counting commands -/

theorem Instruction.ofWord?_command {i : Instruction} {op : Operation} (h : i.operation = .ok op) :
    Command.ofWord? i.command = some op.command := by
  unfold Instruction.operation at h
  split at h
  · cases h
  · next hword =>
    rw [hword]
    split at h
    · cases h
    · obtain rfl := Except.ok.inj h
      rfl
    · obtain rfl := Except.ok.inj h
      rfl
  · next hword =>
    rw [hword]
    split at h
    · cases h
    · cases h
    · obtain rfl := Except.ok.inj h
      rfl
  · next hword =>
    obtain rfl := Except.ok.inj h
    exact hword
  · next hword =>
    obtain rfl := Except.ok.inj h
    exact hword
  · next hword =>
    obtain rfl := Except.ok.inj h
    exact hword

theorem Command.depthChange_le_one (c : Command) : c.depthChange ≤ 1 := by
  cases c <;> simp [Command.depthChange]

namespace StackDepth

theorem depth_le_length {p : List Instruction} (hp : ∀ i ∈ p, ∃ op, i.operation = .ok op) :
    (ofProgram p).depth ≤ p.length := by
  induction p using List.reverseRecOn with
  | nil => simp [ofProgram]
  | append_singleton p i ih =>
    obtain ⟨op, hop⟩ := hp i (by simp)
    have hrest := ih fun j hj => hp j (by simp [hj])
    have hchange : i.depthChange ≤ 1 := by
      simp only [Instruction.depthChange, Instruction.ofWord?_command hop, Option.map_some,
        Option.getD_some]
      exact Command.depthChange_le_one _
    rw [ofProgram_concat, List.length_append, List.length_singleton]
    simp only [next]
    omega

/-- An underflow is not forgotten. -/
theorem underflow_append {p : List Instruction} (h : (ofProgram p).underflow = true)
    (q : List Instruction) : (ofProgram (p ++ q)).underflow = true := by
  induction q using List.reverseRecOn with
  | nil => rwa [List.append_nil]
  | append_singleton q i ih =>
    rw [← List.append_assoc, ofProgram_concat]
    simp [next, ih]

end StackDepth

/-- The stack pointer moves by the depth change of the command. -/
theorem Operation.Enabled.toInt_effect_zero {sym : Assembler} {c : Int → Int16} {op : Operation}
    (h : op.Enabled sym c) : (op.effect sym c 0).toInt = (c 0).toInt + op.command.depthChange := by
  obtain ⟨hlow, hhigh, hroom, -, hne⟩ := h
  have hsize : (memorySize : Int) = 24577 := rfl
  have hstart : (stackStart : Int) = 256 := rfl
  cases op with
  | literal n =>
    simp only [command, Command.operands, Command.depthChange] at *
    rw [effect, update_self, toInt_add_one (by omega)]
  | push r n =>
    simp only [command, Command.operands, Command.depthChange] at *
    rw [effect, update_self, toInt_add_one (by omega)]
  | pop r n =>
    simp only [command, Command.operands, Command.depthChange] at *
    rw [effect, update_of_ne (hne r n rfl).symm, update_self, toInt_sub_one (by omega)]
    omega
  | unary op =>
    simp only [command, Command.operands, Command.depthChange] at *
    have hsub := toInt_sub_one (x := c 0) (by omega)
    rw [effect, update_of_ne (by omega)]
    omega
  | binary op =>
    simp only [command, Command.operands, Command.depthChange] at *
    have hsub := toInt_sub_one (x := c 0) (by omega)
    have hsub' := toInt_sub_one (x := c 0 - 1) (by omega)
    rw [effect, update_of_ne (by omega), update_self]
    omega
  | compare rel =>
    simp only [command, Command.operands, Command.depthChange] at *
    have hsub := toInt_sub_one (x := c 0) (by omega)
    have hsub' := toInt_sub_one (x := c 0 - 1) (by omega)
    rw [effect, update_of_ne (by omega), update_self]
    omega

/-! ## Blocks that leave the stack or memory -/

/-- From a view every computer comes to one with the property. -/
def Meets (rom : Array Word) (s : View) (P : Machine → Prop) : Prop :=
  ∀ m : Machine, m.Shows rom s → (stackStart : Int) ≤ s.sp → ∃ m', m.Reaches m' ∧ P m'

theorem Leads.meets {rom : Array Word} {s t : View} {P : Machine → Prop} (hst : Leads rom s t)
    (ht : Meets rom t P) : Meets rom s P := by
  intro m hm hsp
  obtain ⟨m', hpath, hm', hsp'⟩ := hst m hm hsp
  obtain ⟨m'', hreaches, hP⟩ := ht m' hm' hsp'
  exact ⟨m'', hpath.reaches.trans hreaches, hP⟩

/-- The stack pointer is below the beginning of the stack. -/
def Machine.BelowStack (m : Machine) : Prop := (m.cells 0).toInt < stackStart

/-- The next word fails. -/
def Machine.Fails (m : Machine) : Prop := ∃ m' fault, m.step = (m', some fault)

theorem Machine.Shows.isHalted {m : Machine} {rom : Array Word} {s : View} (hm : m.Shows rom s)
    {sym : Assembler} {l : AsmLine} (hp : l.PlacedAt sym rom s.pc) (hwords : l.words = 1) :
    m.isHalted = false := by
  obtain ⟨w, hw, -⟩ := hp.word hwords
  rw [Machine.isHalted, hm.fetch, hw]
  rfl

namespace Block

variable {sym : Assembler} {rom : Array Word} {c : Int → Int16} {a d : Int16} {pc : Nat} {k : Int64}

theorem meets_below_lowerSP (hsym : sym.HasPredefined) (hp : Placed sym rom pc lowerSP)
    (hsp : (c 0).toInt = stackStart) : Meets rom ⟨c, a, d, pc⟩ Machine.BelowStack := by
  obtain ⟨hload, hlower, -⟩ := hp
  have hstart : (stackStart : Int) = 256 := rfl
  refine (leads_loadSP hsym hload).meets ?_
  intro m hm _
  obtain ⟨m', hstep, hm'⟩ := Machine.step_compute hm hlower Decodes.decrement fun _ => inMemory_zero
  refine ⟨m', .single ⟨hm.isHalted hlower rfl, hstep⟩, ?_⟩
  have hcell : m'.cells 0 = c 0 - 1 := by
    rw [hm'.cells_eq]
    exact update_self 0 (c 0 - 1) c
  rw [Machine.BelowStack, hcell, toInt_sub_one (by omega)]
  omega

theorem meets_below_takeTwo (hsym : sym.HasPredefined) (hp : Placed sym rom pc takeTwo)
    (hlow : (stackStart : Int) ≤ (c 0).toInt) (hfew : (c 0).toInt < stackStart + 2) :
    Meets rom ⟨c, a, d, pc⟩ Machine.BelowStack := by
  obtain ⟨hrest, -⟩ := placed_append.1 hp
  obtain ⟨htop, hlower⟩ := placed_append.1 hrest
  have hstart : (stackStart : Int) = 256 := rfl
  have hsize : (memorySize : Int) = 24577 := rfl
  by_cases hempty : (c 0).toInt = stackStart
  · exact meets_below_lowerSP hsym (placed_append.1 htop).1 hempty
  · have hsub := toInt_sub_one (x := c 0) (by omega)
    refine (leads_takeTop hsym htop (by omega) (by omega)).meets ?_
    apply meets_below_lowerSP hsym hlower
    rw [update_self]
    omega

/-- A block that lacks an operand takes the stack pointer below the stack. -/
theorem meets_below_code (hsym : sym.HasPredefined) {op : Operation}
    (hp : Placed sym rom pc (code [] k op)) (hlow : (stackStart : Int) ≤ (c 0).toInt)
    (hfew : (c 0).toInt < stackStart + op.command.operands) :
    Meets rom ⟨c, a, d, pc⟩ Machine.BelowStack := by
  cases op with
  | literal n =>
    simp only [Operation.command, Command.operands] at hfew
    omega
  | push r n =>
    simp only [Operation.command, Command.operands] at hfew
    omega
  | pop r n =>
    simp only [Operation.command, Command.operands] at hfew
    have hparts := popAt_of_placed hp
    refine (leads_pop_saved hsym hparts).meets ?_
    apply meets_below_lowerSP hsym (placed_append.1 hparts.take).1
    rw [update_of_ne (by decide)]
    omega
  | unary op =>
    simp only [Operation.command, Command.operands] at hfew
    obtain ⟨hrest, -⟩ := placed_append.1 hp
    obtain ⟨hrest, -⟩ := placed_append.1 hrest
    exact meets_below_lowerSP hsym (placed_append.1 hrest).1 (by omega)
  | binary op =>
    simp only [Operation.command, Command.operands] at hfew
    obtain ⟨hrest, -⟩ := placed_append.1 hp
    exact meets_below_takeTwo hsym (placed_append.1 hrest).1 hlow (by omega)
  | compare rel =>
    simp only [Operation.command, Command.operands] at hfew
    exact meets_below_takeTwo hsym (comparisonAt_of_placed hp).take hlow (by omega)

/-- A block that addresses a cell where there is none fails. -/
theorem meets_fails_code (hsym : sym.HasPredefined) {op : Operation}
    (hp : Placed sym rom pc (code [] k op))
    (hlow : (stackStart : Int) + op.command.operands ≤ (c 0).toInt)
    (hhigh : (c 0).toInt ≤ memorySize) {t : Int16} (ht : op.target? sym c = some t)
    (hout : ¬ InMemory t.toInt) : Meets rom ⟨c, a, d, pc⟩ Machine.Fails := by
  cases op with
  | literal n => cases ht
  | unary op => cases ht
  | binary op => cases ht
  | compare rel => cases ht
  | push r n =>
    obtain rfl := Option.some.inj ht
    obtain ⟨hrest, -⟩ := placed_append.1 hp
    obtain ⟨haddress, htake, -⟩ := placed_append.1 hrest
    obtain ⟨d', hleads⟩ := leads_address (c := c) (a := a) (d := d) hsym haddress
    refine hleads.meets ?_
    intro m hm _
    obtain ⟨m', fault, hstep, -⟩ := Machine.step_outside hm htake Decodes.loadCell (.inl rfl) hout
    exact ⟨m, .refl, m', fault, hstep⟩
  | pop r n =>
    obtain rfl := Option.some.inj ht
    simp only [Operation.command, Command.operands] at hlow
    have hparts := popAt_of_placed hp
    refine (leads_pop_ready hsym hparts (by omega) hhigh).meets ?_
    intro m hm _
    obtain ⟨m', fault, hstep, -⟩ :=
      Machine.step_outside hm hparts.store Decodes.storeData (.inr rfl) hout
    exact ⟨m, .refl, m', fault, hstep⟩

end Block

/-! ## Programs -/

namespace Machine

/-- A computer on the way to a halted one does not fail. -/
theorem Reaches.not_fails {m s final : Machine} (hs : m.Reaches s) (hfinal : m.Reaches final)
    (hhalted : final.isHalted = true) : ¬ s.Fails := by
  rintro ⟨s', fault, hstep⟩
  rcases (hs.reaches_final hfinal hhalted).cases_head with rfl | ⟨t, ht, -⟩
  · simp [step_of_isHalted hhalted] at hstep
  · simp [ht.2] at hstep

/-- No `pop` of the program writes the cell of the stack pointer: at the last word of its block,
which stores, another cell is selected. -/
def NoPopIntoSP (m : Machine) (p : List Instruction) : Prop :=
  ∀ before i after r n, p = before ++ i :: after → i.operation = .ok (.pop r n) →
    ∀ s, m.Reaches s → s.pc + 1 = codeSize (before ++ [i]) → s.a ≠ 0

theorem NoPopIntoSP.of_reaches {m m' : Machine} {p : List Instruction} (h : m.NoPopIntoSP p)
    (hm : m.Reaches m') : m'.NoPopIntoSP p := by
  intro before i after r n hp hi s hs
  exact h before i after r n hp hi s (hm.trans hs)

end Machine

section Assembled

variable {rom : List Word} {before after : List Instruction} {i : Instruction} {op : Operation}
  {m final : Machine} {c : Int → Int16} {a d : Int16}

/-- A block that has its operands finds the cell it addresses if the program halts. -/
theorem Assembled.enabled_of_halts (h : Assembled (before ++ i :: after) rom)
    (hop : i.operation = .ok op) (hm : m.Shows rom.toArray ⟨c, a, d, codeSize before⟩)
    (hlow : (stackStart : Int) + op.command.operands ≤ (c 0).toInt)
    (hhigh : (c 0).toInt < memorySize) (hfinal : m.Reaches final) (hhalted : final.isHalted = true)
    (hpop : m.NoPopIntoSP (before ++ i :: after)) :
    op.Enabled (programSymbols (before ++ i :: after)) c := by
  have hchange := Command.depthChange_le_one op.command
  have hsp : (stackStart : Int) ≤ (c 0).toInt := by omega
  refine ⟨hlow, by omega, by omega, ?_, ?_⟩
  · intro t ht
    by_contra hout
    obtain ⟨s, hs, hfails⟩ := Block.meets_fails_code h.predefined (h.placed_block hop) hlow
      (by omega) ht hout m hm hsp
    exact hs.not_fails hfinal hhalted hfails
  · rintro r n rfl
    simp only [Operation.command, Command.operands] at hlow
    have hparts := Block.popAt_of_placed (h.placed_block hop)
    obtain ⟨s, hpath, hs, -⟩ :=
      Block.leads_pop_ready h.predefined hparts (by omega) (by omega) m hm hsp
    have hpc : s.pc = (codeSize before + wordCount (Block.address [] n r) + 9 : Nat) := hs.pc_eq
    have hne : s.a ≠ 0 := by
      apply hpop before i after r n rfl hop s hpath.reaches
      rw [hpc, h.codeSize_block hop, Block.wordCount_pop]
      omega
    rw [hs.a_eq] at hne
    exact fun hzero => hne (Int16.toInt_inj.1 hzero)

/-- One instruction: without an underflow the block moves the stack pointer as counted, with one
the stack pointer falls below the stack. -/
theorem Assembled.depth_block (h : Assembled (before ++ i :: after) rom)
    (hsize : codeSize (before ++ [i]) ≤ 65536) (hroom : (m.cells 0).toInt < memorySize)
    (hrom : m.rom = rom.toArray) (hpc : m.pc = codeSize before)
    (hsp : (stackStart : Int) ≤ (m.cells 0).toInt) (hfinal : m.Reaches final)
    (hhalted : final.isHalted = true) (hpop : m.NoPopIntoSP (before ++ i :: after)) :
    if (stackStart : Int) + i.operands ≤ (m.cells 0).toInt then
      ∃ m', m.Path m' ∧ m'.rom = rom.toArray ∧ m'.pc = codeSize (before ++ [i]) ∧
        (m'.cells 0).toInt = (m.cells 0).toInt + i.depthChange ∧
        (stackStart : Int) ≤ (m'.cells 0).toInt
    else ∃ s, m.Reaches s ∧ s.BelowStack := by
  obtain ⟨op, hop⟩ := h.operation i (by simp)
  have hoperands : i.operands = op.command.operands := by
    simp [Instruction.operands, Instruction.ofWord?_command hop]
  have hchange : i.depthChange = op.command.depthChange := by
    simp [Instruction.depthChange, Instruction.ofWord?_command hop]
  have hm : m.Shows rom.toArray ⟨m.cells, m.a, m.d, codeSize before⟩ := ⟨hrom, rfl, rfl, rfl, hpc⟩
  rw [hoperands, hchange]
  split
  · next henough =>
    have henabled := h.enabled_of_halts hop hm henough hroom hfinal hhalted hpop
    obtain ⟨a', d', hleads⟩ := h.leads_block hop hsize henabled m.a m.d
    obtain ⟨m', hpath, hm', hsp'⟩ := hleads m hm hsp
    refine ⟨m', hpath, hm'.rom_eq, hm'.pc_eq, ?_, ?_⟩
    · rw [hm'.cells_eq]
      exact henabled.toInt_effect_zero
    · rw [hm'.cells_eq]
      exact hsp'
  · next hfew =>
    exact Block.meets_below_code h.predefined (h.placed_block hop) hsp (by omega) m hm hsp

/-- What the count of a program says about the run of a computer. -/
def DepthAgrees (p : List Instruction) (m final : Machine) : Prop :=
  ((StackDepth.ofProgram p).underflow = false →
    (∀ s, m.Reaches s → ¬ s.BelowStack) ∧
      (final.cells 0).toInt = stackStart + (StackDepth.ofProgram p).depth) ∧
  ((StackDepth.ofProgram p).underflow = true → ∃ s, m.Reaches s ∧ s.BelowStack)

/-- A path that keeps to the stack changes nothing about this. -/
theorem DepthAgrees.of_path {p : List Instruction} {m' : Machine} (h : DepthAgrees p m' final)
    (hpath : m.Path m') (hsp : (stackStart : Int) ≤ (m.cells 0).toInt) :
    DepthAgrees p m final := by
  refine ⟨fun hfalse => ⟨fun s hs => ?_, (h.1 hfalse).2⟩, fun htrue => ?_⟩
  · rcases hpath.sp_or_reaches hsp hs with hs' | hs'
    · exact Int.not_lt.2 hs'
    · exact (h.1 hfalse).1 s hs'
  · obtain ⟨s, hs, hbelow⟩ := h.2 htrue
    exact ⟨s, hpath.reaches.trans hs, hbelow⟩

/-- A run from the end of some instructions on, in which the count was right up to there. -/
theorem Assembled.depthAgrees (h : Assembled (before ++ after) rom)
    (hsize : codeSize (before ++ after) ≤ 65536) (hrom : m.rom = rom.toArray)
    (hpc : m.pc = codeSize before)
    (hdepth : (m.cells 0).toInt = stackStart + (StackDepth.ofProgram before).depth)
    (hunderflow : (StackDepth.ofProgram before).underflow = false)
    (hsp : (stackStart : Int) ≤ (m.cells 0).toInt) (hfinal : m.Reaches final)
    (hhalted : final.isHalted = true) (hpop : m.NoPopIntoSP (before ++ after)) :
    DepthAgrees (before ++ after) m final := by
  induction after generalizing before m with
  | nil =>
    -- the program counter is past the last word
    simp only [List.append_nil] at *
    have hend := h.isHalted hrom hpc
    obtain rfl := hfinal.eq_of_isHalted hend
    refine ⟨fun _ => ⟨fun s hs => ?_, hdepth⟩, fun htrue => ?_⟩
    · rw [← Machine.Reaches.eq_of_isHalted hs hend]
      exact Int.not_lt.2 hsp
    · simp [hunderflow] at htrue
  | cons i after ih =>
    have hroom : (m.cells 0).toInt < memorySize := by
      have hlength := seven_mul_length_le_codeSize h.operation
      have hle := StackDepth.depth_le_length (p := before) fun j hj => h.operation j (by simp [hj])
      have hstart : (stackStart : Int) = 256 := rfl
      have hmemory : (memorySize : Int) = 24577 := rfl
      rw [List.length_append, List.length_cons] at hlength
      omega
    have hblock := h.depth_block (Nat.le_trans h.codeSize_block_le hsize) hroom hrom hpc hsp hfinal
      hhalted hpop
    have hconcat : before ++ i :: after = before ++ [i] ++ after := by simp
    split at hblock
    · next henough =>
      obtain ⟨m', hpath, hrom', hpc', hsp', hlow'⟩ := hblock
      rw [hconcat] at h hsize hpop ⊢
      refine DepthAgrees.of_path ?_ hpath hsp
      apply ih h hsize hrom' hpc' _ _ hlow'
      · exact hpath.reaches.reaches_final hfinal hhalted
      · exact hpop.of_reaches hpath.reaches
      · rw [StackDepth.ofProgram_concat, StackDepth.next, hsp']
        dsimp only
        omega
      · rw [StackDepth.ofProgram_concat, StackDepth.next, hunderflow, Bool.false_or,
          decide_eq_false_iff_not]
        omega
    · next hfew =>
      have hunder : (StackDepth.ofProgram (before ++ i :: after)).underflow = true := by
        rw [hconcat]
        apply StackDepth.underflow_append
        rw [StackDepth.ofProgram_concat, StackDepth.next, hunderflow, Bool.false_or,
          decide_eq_true_eq]
        omega
      exact ⟨fun hfalse => by simp [hunder] at hfalse, fun _ => hblock⟩

/-- **The counted depth is exact.** If the code of a program halts and no `pop` writes the cell of
the stack pointer, then without an underflow the stack pointer never falls below the beginning of
the stack and ends at the counted depth, and with an underflow it falls below in some step. -/
theorem stackDepth_exact {lines : List CommandLine} {p : List Instruction}
    (hdecode : CommandLine.decodeAll false lines = .ok p)
    (hassemble : assemble (assembly p) = .ok rom) (hsize : rom.length ≤ 65536)
    (hrom : m.rom = rom.toArray) (hpc : m.pc = 0) (hsp : m.cells 0 = 256) {limit : Int64}
    (hrun : m.run limit = (final, none)) (hpop : m.NoPopIntoSP p) :
    ((StackDepth.ofProgram p).underflow = false →
      (∀ s, m.Reaches s → 256 ≤ (s.cells 0).toInt) ∧
        (final.cells 0).toInt = 256 + (StackDepth.ofProgram p).depth) ∧
    ((StackDepth.ofProgram p).underflow = true →
      ∃ s, m.Reaches s ∧ (s.cells 0).toInt < 256) := by
  have h : Assembled ([] ++ p) rom := assembled_of_decode hdecode hassemble
  obtain ⟨hhalted, _, -, hreaches⟩ := Machine.run_eq_iff.1 hrun
  have hfinal := hreaches.reaches
  have hstart : (m.cells 0).toInt = 256 := by
    rw [hsp]
    rfl
  have hagree : DepthAgrees ([] ++ p) m final := by
    rw [h.length] at hsize
    exact h.depthAgrees hsize hrom hpc hstart rfl (Int.le_of_eq hstart.symm) hfinal hhalted hpop
  refine ⟨fun hfalse => ⟨fun s hs => ?_, (hagree.1 hfalse).2⟩, hagree.2⟩
  exact Int.not_lt.1 ((hagree.1 hfalse).1 s hs)

/-- An `add` with one operand after a `pop`: the depth never is negative, but the stack pointer
falls below the beginning of the stack. -/
theorem stackDepth_exact_add_one_operand :
    ∃ rom, assemble (assembly [(Operation.literal 7).instruction 1,
        (Operation.pop .temp 0).instruction 2, (Operation.literal 1).instruction 3,
        (Operation.binary .add).instruction 4]) = .ok rom ∧
      (((Machine.load rom).poke 0 256).run 36).2 = none ∧
      StackDepth.ofProgram [(Operation.literal 7).instruction 1,
        (Operation.pop .temp 0).instruction 2, (Operation.literal 1).instruction 3,
        (Operation.binary .add).instruction 4] = ⟨0, true⟩ ∧
      ∃ s, ((Machine.load rom).poke 0 256).Reaches s ∧ (s.cells 0).toInt < 256 := by
  have hdecode : CommandLine.decodeAll false [⟨1, 1, utf8 "push constant 7"⟩,
      ⟨2, 1, utf8 "pop temp 0"⟩, ⟨3, 1, utf8 "push constant 1"⟩, ⟨4, 1, utf8 "add"⟩] =
      .ok [(Operation.literal 7).instruction 1, (Operation.pop .temp 0).instruction 2,
        (Operation.literal 1).instruction 3, (Operation.binary .add).instruction 4] := by
    decide +kernel
  have hrun (m : Machine) (hm : (m.run 36).2 = none) : m.run 36 = ((m.run 36).1, none) :=
    Prod.ext rfl hm
  -- the only `pop` ends after 18 words, and no state of the run selects cell 0 at its last word
  have hpop (m : Machine) (hhalted : ((fun m => m.step.1)^[36] m).isHalted = true)
      (hsteps : ∀ k ≤ 36, ((fun m => m.step.1)^[k] m).pc + 1 = 18 →
        ((fun m => m.step.1)^[k] m).a ≠ 0) :
      m.NoPopIntoSP [(Operation.literal 7).instruction 1, (Operation.pop .temp 0).instruction 2,
        (Operation.literal 1).instruction 3, (Operation.binary .add).instruction 4] := by
    intro before i after r n hp hi s hs hend
    obtain ⟨k, hk, rfl⟩ := hs.exists_iterate hhalted
    apply hsteps k hk
    rw [hend]
    rcases before with _ | ⟨_, _ | ⟨_, _ | ⟨_, _ | ⟨_, _⟩⟩⟩⟩
    · cases hp
      cases hi
    · cases hp
      rfl
    · cases hp
      cases hi
    · cases hp
      cases hi
    · simp at hp
  refine ⟨_, rfl, by decide +kernel, by decide, ?_⟩
  exact (stackDepth_exact hdecode rfl (by decide +kernel) rfl rfl rfl
    (hrun _ (by decide +kernel)) (hpop _ (by decide +kernel) (by decide +kernel))).2 (by decide)

end Assembled

end HackVM
