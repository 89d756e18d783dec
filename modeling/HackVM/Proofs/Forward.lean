import HackVM.Proofs.Blocks

/-!
# Code moves forward

The only jumps in a listing are those of comparisons, and they go to labels further down. So every
step moves the program counter forward or fails at an access outside memory (`MovesForward`), and a
run ends within as many steps as the program has words (`MovesForward.runFor_ne_stepLimit`).

The argument goes through the listing backwards: `ForwardAt` says that everything from a place on
moves forward, and the lines before it inherit this.
-/

namespace HackVM

/-- Every step from here on goes forward, up to the end of the program or an access outside
memory. -/
inductive Machine.MovesForward : Machine → Prop
  | halted {m : Machine} (h : m.isHalted = true) : MovesForward m
  | outside {m m' : Machine} {fault : Fault} (hstep : m.step = (m', some fault))
      (h : fault.IsOutside) : MovesForward m
  | step {m m' : Machine} (hstep : m.step = (m', none)) (hpc : m.pc < m'.pc)
      (h : MovesForward m') : MovesForward m

namespace Machine.MovesForward

variable {m m' : Machine}

/-- What a computer that moves forward does next. -/
theorem next (h : m.MovesForward) :
    m.isHalted = true ∨ (∃ m', m.step = (m', none) ∧ m.pc < m'.pc) ∨
      ∃ m' fault, m.step = (m', some fault) ∧ fault.IsOutside := by
  cases h with
  | halted h => exact .inl h
  | outside hstep h => exact .inr (.inr ⟨_, _, hstep, h⟩)
  | step hstep hpc _ => exact .inr (.inl ⟨_, hstep, hpc⟩)

theorem of_continues (h : m.MovesForward) (hm : m.Continues m') : m'.MovesForward := by
  cases h with
  | halted h => simp [hm.1] at h
  | outside hstep _ => exact absurd (hm.2.symm.trans hstep) (by simp)
  | step hstep _ h =>
    obtain rfl := congrArg Prod.fst (hm.2.symm.trans hstep)
    exact h

theorem of_reaches (h : m.MovesForward) (hm : m.Reaches m') : m'.MovesForward := by
  induction hm with
  | refl => exact h
  | tail _ hlast ih => exact ih.of_continues hlast

/-- With one step for each word that is left, a run does not come to its limit. -/
theorem runFor_ne_stepLimit (h : m.MovesForward) {n : Nat} (hn : (m.rom.size : Int) ≤ m.pc + n)
    (steps : Int64) (pc : Int) : (m.runFor n).2 ≠ some (.stepLimit steps pc) := by
  induction h generalizing n with
  | halted h => simp [runFor_of_isHalted h]
  | @outside m m' fault hstep houtside =>
    cases hhalted : m.isHalted with
    | true => simp [runFor_of_isHalted hhalted]
    | false =>
      have hinside := mt m.isHalted_eq_true_iff.2 (by simp [hhalted])
      obtain ⟨n, rfl⟩ : ∃ k, n = k + 1 := ⟨n - 1, by omega⟩
      rw [runFor, if_neg (by simp [hhalted])]
      simp only [hstep]
      rintro ⟨rfl⟩
      exact houtside
  | @step m m' hstep hpc _ ih =>
    cases hhalted : m.isHalted with
    | true => simp [runFor_of_isHalted hhalted]
    | false =>
      have hinside := mt m.isHalted_eq_true_iff.2 (by simp [hhalted])
      have hrom : m'.rom = m.rom := by rw [← rom_step m, hstep]
      obtain ⟨n, rfl⟩ : ∃ k, n = k + 1 := ⟨n - 1, by omega⟩
      rw [runFor_of_continues ⟨hhalted, hstep⟩]
      apply ih
      rw [hrom]
      omega

end Machine.MovesForward

/-- Every computer that runs the program moves forward from the place on. -/
def ForwardAt (rom : Array Word) (pc : Nat) : Prop :=
  ∀ (m : Machine) (s : View), m.Shows rom s → s.pc = pc → m.MovesForward

/-- A line that does not jump. -/
def AsmLine.Straight : AsmLine → Prop
  | compute code => ∃ dest c, Decodes code dest c []
  | comment _ | load _ | label _ => True

@[simp]
theorem AsmLine.straight_load (operand : Text) : (AsmLine.load operand).Straight := trivial

theorem Decodes.straight {code dest : Text} {c : Computation} (h : Decodes code dest c []) :
    (AsmLine.compute code).Straight :=
  ⟨dest, c, h⟩

namespace ForwardAt

variable {sym : Assembler} {rom : Array Word} {pc : Nat}

theorem of_size_le (h : rom.size ≤ pc) : ForwardAt rom pc := by
  intro m s hm hpc
  refine .halted (m.isHalted_eq_true_iff.2 (.inr ?_))
  rw [hm.rom_eq, hm.pc_eq, hpc]
  omega

/-- A compute line whose jump goes forward, if there is one. -/
theorem compute {code dest jump : Text} {c : Computation} (hd : Decodes code dest c jump)
    {m : Machine} {s : View} (hm : m.Shows rom s)
    (hp : (AsmLine.compute code).PlacedAt sym rom s.pc)
    (hpc : s.pc < (s.compute dest c jump).pc)
    (hnext : ForwardAt rom (s.compute dest c jump).pc) : m.MovesForward := by
  by_cases hmem : (c.readsMemory = true ∨ dest.contains letterM = true) ∧ ¬ InMemory s.a.toInt
  · obtain ⟨m', fault, hstep, houtside⟩ := Machine.step_outside hm hp hd hmem.1 hmem.2
    exact .outside hstep houtside
  · obtain ⟨m', hstep, hm'⟩ := Machine.step_compute hm hp hd fun h =>
      Decidable.not_not.1 fun hout => hmem ⟨h, hout⟩
    refine .step hstep ?_ (hnext m' _ hm' rfl)
    rw [hm.pc_eq, hm'.pc_eq]
    omega

theorem straight {l : AsmLine} (hl : l.Straight) (hp : l.PlacedAt sym rom pc)
    (hnext : ForwardAt rom (pc + l.words)) : ForwardAt rom pc := by
  cases l with
  | comment text => exact hnext
  | label name => exact hnext
  | load operand =>
    rintro m s hm rfl
    obtain ⟨m', hstep, hm'⟩ := Machine.step_load hm hp
    refine .step hstep ?_ (hnext m' _ hm' rfl)
    rw [hm.pc_eq, hm'.pc_eq]
    exact Int.lt_succ _
  | compute code =>
    rintro m s hm rfl
    obtain ⟨dest, c, hd⟩ := hl
    exact compute hd hm hp (Nat.lt_succ_self s.pc) hnext

theorem straightLines {ls : List AsmLine} (hls : ∀ l ∈ ls, l.Straight) (hp : Placed sym rom pc ls)
    (hnext : ForwardAt rom (pc + wordCount ls)) : ForwardAt rom pc := by
  induction ls generalizing pc with
  | nil => exact hnext
  | cons l ls ih =>
    obtain ⟨hl, hrest⟩ := hp
    refine straight (hls l (by simp)) hl (ih (fun l' hl' => hls l' (by simp [hl'])) hrest ?_)
    rwa [Nat.add_assoc, ← wordCount_cons]

/-- A jump to a label further down. -/
theorem jumpForward {name code jump : Text} {c : Computation} {target : Nat}
    (hd : Decodes code [] c jump) (hdigit : startsWithDigit name = false)
    (hlookup : sym.lookup name = some target) (hload : (AsmLine.load name).PlacedAt sym rom pc)
    (hjump : (AsmLine.compute code).PlacedAt sym rom (pc + 1)) (hforward : pc + 1 < target)
    (hrange : target < 65536) (htarget : ForwardAt rom target) (hnext : ForwardAt rom (pc + 2)) :
    ForwardAt rom pc := by
  rintro m s hm rfl
  obtain ⟨m', hstep, hm'⟩ := Machine.step_load hm hload
  rw [Assembler.operandValue?_of_lookup hdigit hlookup, Option.getD_some] at hm'
  refine .step hstep ?_ ?_
  · rw [hm.pc_eq, hm'.pc_eq]
    exact Int.lt_succ _
  · -- the jump is taken to the label or not taken
    have hpc : (View.compute { s with a := Int16.ofNat target, pc := s.pc + 1 } [] c jump).pc =
        target ∨ (View.compute { s with a := Int16.ofNat target, pc := s.pc + 1 } [] c jump).pc =
        s.pc + 2 := by
      simp only [View.compute]
      split
      · exact .inl (Block.toNat_toUInt16_ofNat hrange)
      · exact .inr rfl
    refine compute hd hm' hjump ?_ ?_
    · rcases hpc with hpc | hpc <;> rw [hpc]
      · exact hforward
      · exact Nat.lt_succ_self _
    · rcases hpc with hpc | hpc <;> rw [hpc]
      · exact htarget
      · exact hnext

end ForwardAt

namespace Block

/-! ## Blocks -/

theorem straight_raiseSP : ∀ l ∈ raiseSP, l.Straight := by
  simp [raiseSP, Decodes.increment.straight]

theorem straight_lowerSP : ∀ l ∈ lowerSP, l.Straight := by
  simp [lowerSP, Decodes.decrement.straight]

theorem straight_selectSP : ∀ l ∈ selectSP, l.Straight := by
  simp [selectSP, Decodes.followCell.straight]

theorem straight_takeTop : ∀ l ∈ takeTop, l.Straight := by
  simp only [takeTop, List.forall_mem_append]
  exact ⟨straight_lowerSP, by simp [Decodes.followCell.straight, Decodes.loadCell.straight]⟩

theorem straight_takeTwo : ∀ l ∈ takeTwo, l.Straight := by
  simp only [takeTwo, List.forall_mem_append]
  exact ⟨⟨straight_takeTop, straight_lowerSP⟩, straight_selectSP⟩

theorem straight_pushD : ∀ l ∈ pushD, l.Straight := by
  simp only [pushD, List.forall_mem_append]
  exact ⟨⟨straight_selectSP, by simp [Decodes.storeData.straight]⟩, straight_raiseSP⟩

theorem straight_address (n : Nat) (r : Region) : ∀ l ∈ address [] n r, l.Straight := by
  cases r with
  | based b => simp [address, Decodes.loadCell.straight, Decodes.addOffset.straight]
  | static => simp [address]
  | pointer => simp [address]
  | temp => simp [address]

/-- Only comparisons jump. -/
theorem straight_code {op : Operation} (hop : ∀ rel, op ≠ .compare rel) (k : Int64) :
    ∀ l ∈ code [] k op, l.Straight := by
  cases op with
  | compare rel => exact absurd rfl (hop rel)
  | literal n =>
    simp only [code, List.forall_mem_append]
    exact ⟨by simp [Decodes.loadAddress.straight], straight_pushD⟩
  | push r n =>
    simp only [code, List.forall_mem_append]
    exact ⟨⟨straight_address n r, by simp [Decodes.loadCell.straight]⟩, straight_pushD⟩
  | pop r n =>
    simp only [code, List.forall_mem_append]
    exact ⟨⟨⟨straight_address n r,
      by simp [Decodes.loadAddress.straight, Decodes.storeData.straight]⟩, straight_takeTop⟩,
      by simp [Decodes.followCell.straight, Decodes.storeData.straight]⟩
  | unary op =>
    simp only [code, List.forall_mem_append]
    exact ⟨⟨⟨straight_lowerSP, straight_selectSP⟩, by simp [(Decodes.unary op).straight]⟩,
      straight_raiseSP⟩
  | binary op =>
    simp only [code, List.forall_mem_append]
    exact ⟨⟨straight_takeTwo, by simp [(Decodes.binary op).straight]⟩, straight_raiseSP⟩

theorem forwardAt_comparison {sym : Assembler} {rom : Array Word} {pc : Nat} {k : Int64}
    {rel : Relation} (h : ComparisonAt sym rom pc k rel) (hrom : pc + 21 ≤ 65536)
    (hnext : ForwardAt rom (pc + 21)) : ForwardAt rom pc := by
  have hend : ForwardAt rom (pc + 19) := .straightLines straight_raiseSP h.raise hnext
  have hyes : ForwardAt rom (pc + 16) := by
    apply ForwardAt.straightLines straight_selectSP h.selectTrue
    exact .straight Decodes.storeTrue.straight h.storeTrue hend
  have hskip : ForwardAt rom (pc + 14) := by
    apply ForwardAt.jumpForward Decodes.jumpAlways rfl h.lookup_end h.loadEnd h.skip
    · omega
    · omega
    · exact hend
    · exact hyes
  have hno : ForwardAt rom (pc + 11) := by
    apply ForwardAt.straightLines straight_selectSP h.selectFalse
    exact .straight Decodes.storeFalse.straight h.storeFalse hskip
  have htest : ForwardAt rom (pc + 9) := by
    apply ForwardAt.jumpForward (Decodes.jumpIf rel) rfl h.lookup_true h.loadTrue h.jump
    · omega
    · omega
    · exact hyes
    · exact hno
  apply ForwardAt.straightLines straight_takeTwo h.take
  exact .straight Decodes.difference.straight h.difference htest

theorem forwardAt_code {sym : Assembler} {rom : Array Word} {pc : Nat} {k : Int64} {op : Operation}
    (hp : Placed sym rom pc (code [] k op)) (hrom : pc + wordCount (code [] k op) ≤ 65536)
    (hnext : ForwardAt rom (pc + wordCount (code [] k op))) : ForwardAt rom pc := by
  by_cases hop : ∃ rel, op = .compare rel
  · obtain ⟨rel, rfl⟩ := hop
    rw [wordCount_compare] at hrom hnext
    exact forwardAt_comparison (comparisonAt_of_placed hp) hrom hnext
  · exact .straightLines (straight_code (fun rel h => hop ⟨rel, h⟩) k) hp hnext

end Block

/-! ## Programs -/

theorem forwardAt_listing {sym : Assembler} {rom : Array Word} {p : List Instruction}
    (hp : ∀ i ∈ p, ∃ op, i.operation = .ok op) {pc : Nat} {k : Int64}
    (hplaced : Placed sym rom pc (listing [] k p))
    (hrom : pc + wordCount (listing [] k p) ≤ 65536)
    (hend : ForwardAt rom (pc + wordCount (listing [] k p))) : ForwardAt rom pc := by
  induction p generalizing pc k with
  | nil => exact hend
  | cons i is ih =>
    obtain ⟨op, hop⟩ := hp i (by simp)
    rw [listing_cons hop, wordCount_append, wordCount_cons] at hrom hend
    rw [listing_cons hop, placed_append] at hplaced
    obtain ⟨⟨-, hblock⟩, hrest⟩ := hplaced
    have hwords : (AsmLine.comment i.text).words = 0 := rfl
    simp only [hwords, Nat.zero_add, Nat.add_zero, wordCount_cons, ← Nat.add_assoc] at *
    apply Block.forwardAt_code hblock (by omega)
    exact ih (fun j hj => hp j (by simp [hj])) hrest hrom hend

/-- **Assembled code moves forward.** As long as addresses in the program fit into a register,
every step goes forward or fails at an access outside memory, whatever memory and registers hold at
the beginning, so a run does not come to a limit of one step for each word. -/
theorem assembled_code_moves_forward {lines : List CommandLine} {p : List Instruction}
    {rom : List Word} (hdecode : CommandLine.decodeAll false lines = .ok p)
    (hassemble : assemble (assembly p) = .ok rom) (hsize : rom.length ≤ 65536) {m : Machine}
    (hrom : m.rom = rom.toArray) (hpc : m.pc = 0) :
    (∀ s, m.Reaches s → s.isHalted = true ∨ (∃ s', s.step = (s', none) ∧ s.pc < s'.pc) ∨
      ∃ s' fault, s.step = (s', some fault) ∧ fault.IsOutside) ∧
    ∀ limit : Int64, m.steps.toInt + rom.length ≤ limit.toInt →
      ∀ steps pc, (m.run limit).2 ≠ some (.stepLimit steps pc) := by
  have h := assembled_of_decode hdecode hassemble
  have hlength : rom.length = wordCount (listing [] 0 p) := h.length
  have hstart : ForwardAt rom.toArray 0 := by
    apply forwardAt_listing h.operation h.placed
    · rwa [Nat.zero_add, ← hlength]
    · apply ForwardAt.of_size_le
      apply Nat.le_of_eq
      rw [Nat.zero_add, ← hlength, List.size_toArray]
  have hforward : m.MovesForward :=
    hstart m ⟨m.cells, m.a, m.d, 0⟩ ⟨hrom, rfl, rfl, rfl, by simp [hpc]⟩ rfl
  refine ⟨fun s hs => (hforward.of_reaches hs).next, fun limit hlimit steps pc => ?_⟩
  apply hforward.runFor_ne_stepLimit
  rw [hrom, List.size_toArray, hpc]
  omega

/-- The assembly of `7 > 2` has 35 words and ends within 35 steps. -/
theorem comparison_moves_forward :
    ∃ rom, assemble (assembly [(Operation.literal 7).instruction 1,
        (Operation.literal 2).instruction 2, (Operation.compare .gt).instruction 3]) = .ok rom ∧
      rom.length = 35 ∧
      (∀ s, (Machine.load rom).Reaches s → s.isHalted = true ∨
        (∃ s', s.step = (s', none) ∧ s.pc < s'.pc) ∨
        ∃ s' fault, s.step = (s', some fault) ∧ fault.IsOutside) ∧
      ∀ limit : Int64, 0 + 35 ≤ limit.toInt →
        ∀ steps pc, ((Machine.load rom).run limit).2 ≠ some (.stepLimit steps pc) := by
  have hdecode : CommandLine.decodeAll false
      [⟨1, 1, utf8 "push constant 7"⟩, ⟨2, 1, utf8 "push constant 2"⟩, ⟨3, 1, utf8 "gt"⟩] =
      .ok [(Operation.literal 7).instruction 1, (Operation.literal 2).instruction 2,
        (Operation.compare .gt).instruction 3] := by
    decide +kernel
  exact ⟨_, rfl, rfl, assembled_code_moves_forward hdecode rfl (by decide +kernel) rfl rfl⟩

end HackVM
