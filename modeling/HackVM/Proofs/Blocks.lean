import HackVM.Proofs.Execution
import HackVM.Proofs.Interpreter

/-!
# What blocks do

Each piece of a block leads from one view of the computer to another, as long as the stack pointer
stays inside the stack. Put together they give the effect of a whole block on memory
(`Operation.effect`, `Block.leads_code`): operands are taken from the cells below the stack
pointer and the result is left in their place.
-/

namespace HackVM

/-- The assembler knows the predefined symbols. -/
def Assembler.HasPredefined (sym : Assembler) : Prop :=
  ∀ name address, ({} : Assembler).lookup name = some address → sym.lookup name = some address

theorem Assembler.HasPredefined.operandValue? {sym : Assembler} (hsym : sym.HasPredefined)
    {name : Text} {n : Nat} (hdigit : startsWithDigit name = false)
    (h : ({} : Assembler).lookup name = some n) :
    sym.operandValue? name = some (Int16.ofNat n) :=
  Assembler.operandValue?_of_lookup hdigit (hsym name n h)

theorem Assembler.operandValue?_ofNat (sym : Assembler) (n : Nat) :
    sym.operandValue? (Text.ofNat n) = some (Int16.ofNat n) := by
  simp [Assembler.operandValue?, Text.startsWithDigit_ofNat]

/-- The address of an element of a region. -/
def Region.address (sym : Assembler) (c : Int → Int16) (n : Nat) : Region → Int16
  | based b => c b.index + Int16.ofNat n
  | static => (sym.operandValue? (staticName [] n)).getD 0
  | pointer => (sym.operandValue? (registerName firstPointerRegister n)).getD 0
  | temp => (sym.operandValue? (registerName firstTempRegister n)).getD 0

theorem toInt_sub_one {x : Int16} (h : -32768 < x.toInt) : (x - 1).toInt = x.toInt - 1 := by
  have := x.toInt_lt
  rw [Int16.toInt_sub, show Int16.toInt 1 = 1 from rfl]
  exact Int.bmod_eq_of_le (by omega) (by omega)

theorem toInt_add_one {x : Int16} (h : x.toInt < 32767) : (x + 1).toInt = x.toInt + 1 := by
  have := x.le_toInt
  rw [Int16.toInt_add, show Int16.toInt 1 = 1 from rfl]
  exact Int.bmod_eq_of_le (by omega) (by omega)

namespace Block

open Function (update update_self update_of_ne)

variable {sym : Assembler} {rom : Array Word} {c : Int → Int16} {a d : Int16} {pc : Nat}

/-! ## The stack pointer -/

theorem inMemory_zero : InMemory (Int16.toInt 0) := by decide

theorem leads_loadSP (hsym : sym.HasPredefined)
    (hp : (AsmLine.load (utf8 "SP")).PlacedAt sym rom pc) :
    Leads rom ⟨c, a, d, pc⟩ ⟨c, 0, d, pc + 1⟩ :=
  Leads.load hp (by rw [hsym.operandValue? (n := 0) rfl rfl]; rfl)

theorem leads_lowerSP (hsym : sym.HasPredefined) (hp : Placed sym rom pc lowerSP)
    (hlow : (stackStart : Int) < (c 0).toInt) :
    Leads rom ⟨c, a, d, pc⟩ ⟨update c 0 (c 0 - 1), 0, d, pc + 2⟩ := by
  obtain ⟨hload, hdec, -⟩ := hp
  have hsub := toInt_sub_one (x := c 0) (by omega)
  refine (leads_loadSP hsym hload).trans ?_
  refine Leads.setM Decodes.decrement hdec rfl inMemory_zero fun _ => ?_
  rw [show Int16.toInt 0 = 0 from rfl, update_self]
  exact (by omega : (stackStart : Int) ≤ (c 0 - 1).toInt)

theorem leads_raiseSP (hsym : sym.HasPredefined) (hp : Placed sym rom pc raiseSP)
    (hhigh : (c 0).toInt < memorySize) :
    Leads rom ⟨c, a, d, pc⟩ ⟨update c 0 (c 0 + 1), 0, d, pc + 2⟩ := by
  obtain ⟨hload, hinc, -⟩ := hp
  have hsize : (memorySize : Int) = 24577 := rfl
  have hadd := toInt_add_one (x := c 0) (by omega)
  refine (leads_loadSP hsym hload).trans ?_
  refine Leads.setM Decodes.increment hinc rfl inMemory_zero fun hsp => ?_
  rw [show Int16.toInt 0 = 0 from rfl, update_self]
  exact (by omega : (stackStart : Int) ≤ (c 0 + 1).toInt)

theorem leads_selectSP (hsym : sym.HasPredefined) (hp : Placed sym rom pc selectSP) :
    Leads rom ⟨c, a, d, pc⟩ ⟨c, c 0, d, pc + 2⟩ := by
  obtain ⟨hload, hfollow, -⟩ := hp
  exact (leads_loadSP hsym hload).trans
    (Leads.setA Decodes.followCell hfollow rfl fun _ => inMemory_zero)

/-! ## Taking operands and leaving results -/

/-- A cell of the stack is not the one that holds the stack pointer. -/
theorem ne_zero_of_stackStart_le {x : Int} (h : (stackStart : Int) ≤ x) : x ≠ 0 := by
  simp only [stackStart] at h
  omega

theorem leads_takeTop (hsym : sym.HasPredefined) (hp : Placed sym rom pc takeTop)
    (hlow : (stackStart : Int) < (c 0).toInt) (hhigh : (c 0).toInt ≤ memorySize) :
    Leads rom ⟨c, a, d, pc⟩
      ⟨update c 0 (c 0 - 1), c 0 - 1, c (c 0 - 1).toInt, pc + 4⟩ := by
  obtain ⟨hlower, hfollow, htake, -⟩ := placed_append.1 hp
  have hsub := toInt_sub_one (x := c 0) (by omega)
  have hmem : InMemory (c 0 - 1).toInt := ⟨by omega, by omega⟩
  have hne : (c 0 - 1).toInt ≠ 0 := ne_zero_of_stackStart_le (by omega)
  refine (leads_lowerSP hsym hlower hlow).trans ?_
  refine (Leads.setA (v := c 0 - 1) Decodes.followCell hfollow ?_ fun _ => inMemory_zero).trans ?_
  · exact update_self 0 (c 0 - 1) c
  · exact Leads.setD Decodes.loadCell htake (update_of_ne hne _ _) fun _ => hmem

theorem leads_takeTwo (hsym : sym.HasPredefined) (hp : Placed sym rom pc takeTwo)
    (hlow : (stackStart : Int) + 1 < (c 0).toInt) (hhigh : (c 0).toInt ≤ memorySize) :
    Leads rom ⟨c, a, d, pc⟩
      ⟨update c 0 (c 0 - 1 - 1), c 0 - 1 - 1, c (c 0 - 1).toInt, pc + 8⟩ := by
  obtain ⟨hrest, hselect⟩ := placed_append.1 hp
  obtain ⟨htop, hlower⟩ := placed_append.1 hrest
  have hsub := toInt_sub_one (x := c 0) (by omega)
  have hsp : update c 0 (c 0 - 1) 0 = c 0 - 1 := update_self 0 _ c
  refine (leads_takeTop hsym htop (by omega) hhigh).trans ?_
  have h := leads_lowerSP (c := update c 0 (c 0 - 1)) (a := c 0 - 1) (d := c (c 0 - 1).toInt) hsym
    hlower (by rw [hsp]; omega)
  rw [hsp, Function.update_idem] at h
  refine h.trans ?_
  have h' := leads_selectSP (c := update c 0 (c 0 - 1 - 1)) (a := 0) (d := c (c 0 - 1).toInt) hsym
    hselect
  rwa [update_self] at h'

theorem leads_pushD (hsym : sym.HasPredefined) (hp : Placed sym rom pc pushD)
    (hlow : (stackStart : Int) ≤ (c 0).toInt) (hhigh : (c 0).toInt < memorySize) :
    Leads rom ⟨c, a, d, pc⟩ ⟨update (update c (c 0).toInt d) 0 (c 0 + 1), 0, d, pc + 5⟩ := by
  obtain ⟨hrest, hraise⟩ := placed_append.1 hp
  obtain ⟨hselect, hstore, -⟩ := placed_append.1 hrest
  have hne := ne_zero_of_stackStart_le hlow
  have hsp : update c (c 0).toInt d 0 = c 0 := update_of_ne hne.symm _ _
  refine (leads_selectSP hsym hselect).trans ?_
  refine (Leads.setM (v := d) Decodes.storeData hstore rfl ⟨by omega, hhigh⟩ fun h => ?_).trans ?_
  · rwa [hsp]
  · have h := leads_raiseSP (c := update c (c 0).toInt d) (a := c 0) (d := d) hsym hraise
      (by rwa [hsp])
    rwa [hsp] at h

/-! ## Addresses -/

theorem leads_address (hsym : sym.HasPredefined) {n : Nat} {r : Region}
    (hp : Placed sym rom pc (address [] n r)) :
    ∃ d', Leads rom ⟨c, a, d, pc⟩
      ⟨c, r.address sym c n, d', pc + wordCount (address [] n r)⟩ := by
  cases r with
  | based b =>
    obtain ⟨hload, htake, hoffset, hadd, -⟩ := hp
    have hbase : sym.operandValue? b.register = some (Int16.ofNat b.index) := by
      cases b <;> exact hsym.operandValue? rfl rfl
    have hmem : InMemory (Int16.ofNat b.index).toInt := by cases b <;> decide
    have hindex : (Int16.ofNat b.index).toInt = b.index := by cases b <;> rfl
    refine ⟨c b.index, ?_⟩
    refine (Leads.load (v := Int16.ofNat b.index) hload (by rw [hbase]; rfl)).trans ?_
    refine (Leads.setD (v := c b.index) Decodes.loadCell htake ?_ fun _ => hmem).trans ?_
    · exact congrArg c hindex
    · refine (Leads.load (v := Int16.ofNat n) hoffset ?_).trans ?_
      · rw [Assembler.operandValue?_ofNat]
        rfl
      · exact Leads.setA Decodes.addOffset hadd rfl fun h => by cases h
  | static => exact ⟨d, Leads.load hp.1 rfl⟩
  | pointer => exact ⟨d, Leads.load hp.1 rfl⟩
  | temp => exact ⟨d, Leads.load hp.1 rfl⟩

end Block

/-! ## Effects -/

theorem Unary.eval_function (op : Unary) (d x : Int16) : op.function.eval d x = op.apply x := by
  cases op <;> rfl

theorem Binary.eval_function (op : Binary) (x y : Int16) : op.function.eval y x = op.apply x y := by
  cases op with
  | add => exact Int16.add_comm y x
  | sub => rfl
  | and => exact Int16.and_comm y x
  | or => exact Int16.or_comm y x

theorem Relation.jumpTaken_jump (rel : Relation) (v : Int16) :
    jumpTaken rel.jump v = rel.accepts v := by
  cases rel with
  | eq => exact Bool.beq_eq_decide_eq v 0
  | gt => rfl
  | lt => rfl

namespace Operation

open Function (update)

/-- Memory after the block of an operation, if the block finds its operands on the stack. -/
def effect (sym : Assembler) (c : Int → Int16) : Operation → Int → Int16
  | literal n => update (update c (c 0).toInt (Int16.ofNat n)) 0 (c 0 + 1)
  | push r n => update (update c (c 0).toInt (c (r.address sym c n).toInt)) 0 (c 0 + 1)
  | pop r n =>
    update (update (update c 13 (r.address sym c n)) 0 (c 0 - 1)) (r.address sym c n).toInt
      (c (c 0 - 1).toInt)
  | unary op => update c (c 0 - 1).toInt (op.apply (c (c 0 - 1).toInt))
  | binary op =>
    update (update c 0 (c 0 - 1)) (c 0 - 1 - 1).toInt
      (op.apply (c (c 0 - 1 - 1).toInt) (c (c 0 - 1).toInt))
  | compare rel =>
    update (update c 0 (c 0 - 1)) (c 0 - 1 - 1).toInt
      (rel.apply (c (c 0 - 1 - 1).toInt) (c (c 0 - 1).toInt))

/-- The address of the cell that the operation pushes or pops into. -/
def target? (sym : Assembler) (c : Int → Int16) : Operation → Option Int16
  | push r n | pop r n => some (r.address sym c n)
  | literal _ | unary _ | binary _ | compare _ => none

/-- The block of the operation finds its operands on the stack, room for its result and the cell
it addresses. -/
structure Enabled (sym : Assembler) (c : Int → Int16) (op : Operation) : Prop where
  low : (stackStart : Int) + op.command.operands ≤ (c 0).toInt
  high : (c 0).toInt ≤ memorySize
  room : (c 0).toInt + op.command.depthChange ≤ memorySize
  inMemory : ∀ t, op.target? sym c = some t → InMemory t.toInt
  ne_zero : ∀ r n, op = .pop r n → (r.address sym c n).toInt ≠ 0

end Operation

namespace Block

open Function (update update_self update_of_ne update_comm update_idem update_eq_self)

variable {sym : Assembler} {rom : Array Word} {c : Int → Int16} {a d : Int16} {pc : Nat} {k : Int64}

/-! ## Whole blocks -/

theorem leads_literal (hsym : sym.HasPredefined) {n : Nat}
    (hp : Placed sym rom pc (code [] k (.literal n))) (hlow : (stackStart : Int) ≤ (c 0).toInt)
    (hhigh : (c 0).toInt < memorySize) :
    ∃ a' d', Leads rom ⟨c, a, d, pc⟩
      ⟨(Operation.literal n).effect sym c, a', d', pc + wordCount (code [] k (.literal n))⟩ := by
  obtain ⟨⟨hload, htake, -⟩, hpush⟩ := placed_append.1 hp
  refine ⟨0, Int16.ofNat n, ?_⟩
  refine (Leads.load (v := Int16.ofNat n) hload ?_).trans ?_
  · rw [Assembler.operandValue?_ofNat]
    rfl
  · refine (Leads.setD Decodes.loadAddress htake rfl fun h => by cases h).trans ?_
    exact leads_pushD hsym hpush hlow hhigh

theorem leads_push (hsym : sym.HasPredefined) {r : Region} {n : Nat}
    (hp : Placed sym rom pc (code [] k (.push r n))) (hlow : (stackStart : Int) ≤ (c 0).toInt)
    (hhigh : (c 0).toInt < memorySize) (hmem : InMemory (r.address sym c n).toInt) :
    ∃ a' d', Leads rom ⟨c, a, d, pc⟩
      ⟨(Operation.push r n).effect sym c, a', d', pc + wordCount (code [] k (.push r n))⟩ := by
  obtain ⟨hrest, hpush⟩ := placed_append.1 hp
  obtain ⟨haddress, htake, -⟩ := placed_append.1 hrest
  obtain ⟨d', hleads⟩ := leads_address (c := c) (a := a) (d := d) hsym haddress
  refine ⟨0, c (r.address sym c n).toInt, ?_⟩
  refine hleads.trans ?_
  refine (Leads.setD Decodes.loadCell htake rfl fun _ => hmem).trans ?_
  rw [show wordCount (code [] k (.push r n)) = wordCount (address [] n r) + 1 + 5 by
    simp [code, AsmLine.words]]
  simp only [wordCount_append, wordCount_cons, wordCount_nil, AsmLine.words] at hpush
  exact leads_pushD hsym hpush hlow hhigh

/-- The parts of a `pop` and where they stand. -/
structure PopAt (sym : Assembler) (rom : Array Word) (pc : Nat) (r : Region) (n : Nat) : Prop where
  address : Placed sym rom pc (address [] n r)
  takeAddress :
    (AsmLine.compute (utf8 "D=A")).PlacedAt sym rom (pc + wordCount (Block.address [] n r))
  spare : (AsmLine.load spareRegister).PlacedAt sym rom (pc + wordCount (Block.address [] n r) + 1)
  save :
    (AsmLine.compute (utf8 "M=D")).PlacedAt sym rom (pc + wordCount (Block.address [] n r) + 2)
  take : Placed sym rom (pc + wordCount (Block.address [] n r) + 3) takeTop
  spareAgain :
    (AsmLine.load spareRegister).PlacedAt sym rom (pc + wordCount (Block.address [] n r) + 7)
  follow :
    (AsmLine.compute (utf8 "A=M")).PlacedAt sym rom (pc + wordCount (Block.address [] n r) + 8)
  store :
    (AsmLine.compute (utf8 "M=D")).PlacedAt sym rom (pc + wordCount (Block.address [] n r) + 9)

theorem popAt_of_placed {r : Region} {n : Nat} (hp : Placed sym rom pc (code [] k (.pop r n))) :
    PopAt sym rom pc r n := by
  simp only [code, placed_append, Placed, wordCount_append, wordCount_cons, wordCount_nil,
    wordCount_takeTop, AsmLine.words, Nat.add_zero, and_true, ← Nat.add_assoc] at hp
  obtain ⟨⟨⟨haddress, htakeAddress, hspare, hsave⟩, htake⟩, hspareAgain, hfollow, hstore⟩ := hp
  exact ⟨haddress, htakeAddress, hspare, hsave, htake, hspareAgain, hfollow, hstore⟩

theorem wordCount_pop (k : Int64) (r : Region) (n : Nat) :
    wordCount (code [] k (.pop r n)) = wordCount (address [] n r) + 10 := by
  simp [code, AsmLine.words]

theorem operandValue?_spareRegister (hsym : sym.HasPredefined) :
    (sym.operandValue? spareRegister).getD 0 = 13 := by
  rw [hsym.operandValue? (n := 13) rfl rfl]
  rfl

/-- A `pop` saves the address before it reads the stack. -/
theorem leads_pop_saved (hsym : sym.HasPredefined) {r : Region} {n : Nat}
    (h : PopAt sym rom pc r n) :
    Leads rom ⟨c, a, d, pc⟩ ⟨update c 13 (r.address sym c n), 13, r.address sym c n,
      pc + wordCount (address [] n r) + 3⟩ := by
  obtain ⟨d', hleads⟩ := leads_address (c := c) (a := a) (d := d) hsym h.address
  refine hleads.trans ?_
  refine (Leads.setD Decodes.loadAddress h.takeAddress rfl fun h => by cases h).trans ?_
  refine (Leads.load h.spare (operandValue?_spareRegister hsym)).trans ?_
  refine Leads.setM Decodes.storeData h.save rfl (by decide) fun hsp => ?_
  rwa [show Int16.toInt 13 = 13 from rfl, update_of_ne (by decide)]

/-- A `pop` up to its last word: the address is selected and the top is in `D`. -/
theorem leads_pop_ready (hsym : sym.HasPredefined) {r : Region} {n : Nat}
    (h : PopAt sym rom pc r n) (hlow : (stackStart : Int) < (c 0).toInt)
    (hhigh : (c 0).toInt ≤ memorySize) :
    Leads rom ⟨c, a, d, pc⟩
      ⟨update (update c 13 (r.address sym c n)) 0 (c 0 - 1), r.address sym c n,
        c (c 0 - 1).toInt, pc + wordCount (address [] n r) + 9⟩ := by
  have hsub := toInt_sub_one (x := c 0) (by omega)
  have hstart : (stackStart : Int) = 256 := rfl
  -- the stack pointer and the top are not touched by the store into the spare register
  have hsp : update c 13 (r.address sym c n) 0 = c 0 := update_of_ne (by decide) _ _
  have htopCell : update c 13 (r.address sym c n) (c 0 - 1).toInt = c (c 0 - 1).toInt :=
    update_of_ne (by omega) _ _
  have htake := leads_takeTop (c := update c 13 (r.address sym c n)) (a := 13)
    (d := r.address sym c n) hsym h.take (by rwa [hsp]) (by rwa [hsp])
  rw [hsp, htopCell] at htake
  refine (leads_pop_saved hsym h).trans (htake.trans ?_)
  refine (Leads.load h.spareAgain (operandValue?_spareRegister hsym)).trans ?_
  refine Leads.setA Decodes.followCell h.follow ?_ fun _ => by decide
  change update (update c 13 (r.address sym c n)) 0 (c 0 - 1) 13 = _
  rw [update_of_ne (by decide), update_self]

theorem leads_pop (hsym : sym.HasPredefined) {r : Region} {n : Nat}
    (hp : Placed sym rom pc (code [] k (.pop r n))) (hlow : (stackStart : Int) < (c 0).toInt)
    (hhigh : (c 0).toInt ≤ memorySize) (hmem : InMemory (r.address sym c n).toInt)
    (hne : (r.address sym c n).toInt ≠ 0) :
    ∃ a' d', Leads rom ⟨c, a, d, pc⟩
      ⟨(Operation.pop r n).effect sym c, a', d', pc + wordCount (code [] k (.pop r n))⟩ := by
  have hparts := popAt_of_placed hp
  refine ⟨r.address sym c n, c (c 0 - 1).toInt, ?_⟩
  refine (leads_pop_ready hsym hparts hlow hhigh).trans ?_
  rw [wordCount_pop]
  refine Leads.setM Decodes.storeData hparts.store rfl hmem fun h => ?_
  rwa [update_of_ne hne.symm]

theorem leads_unary (hsym : sym.HasPredefined) {op : Unary}
    (hp : Placed sym rom pc (code [] k (.unary op))) (hlow : (stackStart : Int) < (c 0).toInt)
    (hhigh : (c 0).toInt ≤ memorySize) :
    ∃ a' d', Leads rom ⟨c, a, d, pc⟩
      ⟨(Operation.unary op).effect sym c, a', d', pc + wordCount (code [] k (.unary op))⟩ := by
  obtain ⟨hrest, hraise⟩ := placed_append.1 hp
  obtain ⟨hrest, hop, -⟩ := placed_append.1 hrest
  obtain ⟨hlower, hselect⟩ := placed_append.1 hrest
  have hsub := toInt_sub_one (x := c 0) (by omega)
  have hne : (c 0 - 1).toInt ≠ 0 := ne_zero_of_stackStart_le (by omega)
  have hmem : InMemory (c 0 - 1).toInt := ⟨by omega, by omega⟩
  have hsp : update c 0 (c 0 - 1) 0 = c 0 - 1 := update_self 0 _ c
  have hcell : update c 0 (c 0 - 1) (c 0 - 1).toInt = c (c 0 - 1).toInt := update_of_ne hne _ _
  set v := op.apply (c (c 0 - 1).toInt) with hv
  refine ⟨0, d, ?_⟩
  refine (leads_lowerSP hsym hlower hlow).trans ?_
  have hleads := leads_selectSP (c := update c 0 (c 0 - 1)) (a := 0) (d := d) hsym hselect
  rw [hsp] at hleads
  refine hleads.trans ?_
  have hsp' : update (update c 0 (c 0 - 1)) (c 0 - 1).toInt v 0 = c 0 - 1 := by
    rw [update_of_ne hne.symm, hsp]
  refine (Leads.setM (v := v) (Decodes.unary op) hop ?_ hmem fun h => ?_).trans ?_
  · exact (Unary.eval_function op d _).trans (by rw [hv]; exact congrArg op.apply hcell)
  · rw [hsp', ← hsp]
    exact h
  · have h := leads_raiseSP (c := update (update c 0 (c 0 - 1)) (c 0 - 1).toInt v) (a := c 0 - 1)
      (d := d) hsym hraise (by rw [hsp']; exact hmem.2)
    have hcells : update (update (update c 0 (c 0 - 1)) (c 0 - 1).toInt v) 0 (c 0 - 1 + 1) =
        update c (c 0 - 1).toInt v := by
      rw [update_comm hne.symm, update_idem, Int16.sub_add_cancel, update_comm hne, update_eq_self]
    rw [hsp', hcells] at h
    exact h

/-- The end of a block that replaces two operands by one result. -/
theorem leads_replaceTwo (hsym : sym.HasPredefined) {v : Int16} (hp : Placed sym rom pc raiseSP)
    (hlow : (stackStart : Int) + 1 < (c 0).toInt) (hhigh : (c 0).toInt ≤ memorySize) :
    Leads rom ⟨update (update c 0 (c 0 - 1 - 1)) (c 0 - 1 - 1).toInt v, a, d, pc⟩
      ⟨update (update c 0 (c 0 - 1)) (c 0 - 1 - 1).toInt v, 0, d, pc + 2⟩ := by
  have hsub := toInt_sub_one (x := c 0) (by omega)
  have hsub' := toInt_sub_one (x := c 0 - 1) (by omega)
  have hne : (c 0 - 1 - 1).toInt ≠ 0 := ne_zero_of_stackStart_le (by omega)
  have hsp : update (update c 0 (c 0 - 1 - 1)) (c 0 - 1 - 1).toInt v 0 = c 0 - 1 - 1 := by
    rw [update_of_ne hne.symm, update_self]
  have hcells : update (update (update c 0 (c 0 - 1 - 1)) (c 0 - 1 - 1).toInt v) 0 (c 0 - 1) =
      update (update c 0 (c 0 - 1)) (c 0 - 1 - 1).toInt v := by
    rw [update_comm hne, update_idem]
  have h := leads_raiseSP (c := update (update c 0 (c 0 - 1 - 1)) (c 0 - 1 - 1).toInt v) (a := a)
    (d := d) hsym hp (by rw [hsp]; omega)
  rwa [hsp, Int16.sub_add_cancel, hcells] at h

theorem leads_binary (hsym : sym.HasPredefined) {op : Binary}
    (hp : Placed sym rom pc (code [] k (.binary op)))
    (hlow : (stackStart : Int) + 1 < (c 0).toInt) (hhigh : (c 0).toInt ≤ memorySize) :
    ∃ a' d', Leads rom ⟨c, a, d, pc⟩
      ⟨(Operation.binary op).effect sym c, a', d', pc + wordCount (code [] k (.binary op))⟩ := by
  obtain ⟨hrest, hraise⟩ := placed_append.1 hp
  obtain ⟨htake, hop, -⟩ := placed_append.1 hrest
  have hsub := toInt_sub_one (x := c 0) (by omega)
  have hsub' := toInt_sub_one (x := c 0 - 1) (by omega)
  have hne : (c 0 - 1 - 1).toInt ≠ 0 := ne_zero_of_stackStart_le (by omega)
  refine ⟨0, c (c 0 - 1).toInt, ?_⟩
  refine (leads_takeTwo hsym htake hlow hhigh).trans ?_
  refine (Leads.setM (v := op.apply (c (c 0 - 1 - 1).toInt) (c (c 0 - 1).toInt)) (Decodes.binary op)
    hop ?_ ⟨by omega, by omega⟩ fun h => ?_).trans ?_
  · have hcell : update c 0 (c 0 - 1 - 1) (c 0 - 1 - 1).toInt = c (c 0 - 1 - 1).toInt :=
      update_of_ne hne _ _
    rw [← hcell]
    exact Binary.eval_function op _ _
  · rwa [update_of_ne hne.symm]
  · exact leads_replaceTwo hsym hraise hlow hhigh

/-- A constant is stored in the first free cell. -/
theorem leads_storeConstant (hsym : sym.HasPredefined) {text : Text} {f : AluFunction} {v : Int16}
    (hd : Decodes text (utf8 "M") ⟨f, false⟩ []) (hv : ∀ y x, f.eval y x = v)
    (hselect : Placed sym rom pc selectSP)
    (hstore : (AsmLine.compute text).PlacedAt sym rom (pc + 2))
    (hlow : (stackStart : Int) ≤ (c 0).toInt) (hhigh : (c 0).toInt < memorySize) :
    Leads rom ⟨c, a, d, pc⟩ ⟨update c (c 0).toInt v, c 0, d, pc + 3⟩ := by
  have hne := ne_zero_of_stackStart_le hlow
  refine (leads_selectSP hsym hselect).trans ?_
  refine Leads.setM hd hstore (hv d (c 0)) ⟨by omega, hhigh⟩ fun h => ?_
  rwa [update_of_ne hne.symm]

theorem toNat_toUInt16_ofNat {n : Nat} (h : n < 65536) : (Int16.ofNat n).toUInt16.toNat = n := by
  rw [Int16.toUInt16_ofNat', UInt16.toNat_ofNat_of_lt' h]

theorem leads_loadLabel {name : Text} {n : Nat} (hdigit : startsWithDigit name = false)
    (hlookup : sym.lookup name = some n) (hp : (AsmLine.load name).PlacedAt sym rom pc) :
    Leads rom ⟨c, a, d, pc⟩ ⟨c, Int16.ofNat n, d, pc + 1⟩ := by
  refine Leads.load hp ?_
  rw [Assembler.operandValue?_of_lookup hdigit hlookup]
  rfl

/-- The parts of a comparison and where they stand. -/
structure ComparisonAt (sym : Assembler) (rom : Array Word) (pc : Nat) (k : Int64)
    (rel : Relation) : Prop where
  take : Placed sym rom pc takeTwo
  difference : (AsmLine.compute (utf8 "D=M-D")).PlacedAt sym rom (pc + 8)
  loadTrue : (AsmLine.load (trueLabel k)).PlacedAt sym rom (pc + 9)
  jump : (AsmLine.compute (utf8 "D;" ++ rel.jump)).PlacedAt sym rom (pc + 10)
  selectFalse : Placed sym rom (pc + 11) selectSP
  storeFalse : (AsmLine.compute (utf8 "M=0")).PlacedAt sym rom (pc + 13)
  loadEnd : (AsmLine.load (endLabel k)).PlacedAt sym rom (pc + 14)
  skip : (AsmLine.compute (utf8 "0;JMP")).PlacedAt sym rom (pc + 15)
  lookup_true : sym.lookup (trueLabel k) = some (pc + 16)
  selectTrue : Placed sym rom (pc + 16) selectSP
  storeTrue : (AsmLine.compute (utf8 "M=-1")).PlacedAt sym rom (pc + 18)
  lookup_end : sym.lookup (endLabel k) = some (pc + 19)
  raise : Placed sym rom (pc + 19) raiseSP

theorem comparisonAt_of_placed {rel : Relation} (hp : Placed sym rom pc (comparison k rel)) :
    ComparisonAt sym rom pc k rel := by
  simp only [comparison, placed_append, Placed, wordCount_append, wordCount_cons, wordCount_nil,
    wordCount_takeTwo, wordCount_selectSP, AsmLine.words, Nat.add_assoc, Nat.reduceAdd,
    Nat.add_zero, and_true] at hp
  obtain ⟨⟨⟨⟨⟨⟨htake, hdifference, hloadTrue, hjump⟩, hselectFalse⟩, hstoreFalse, hloadEnd, hskip,
    htrue⟩, hselectTrue⟩, hstoreTrue, hend⟩, hraise⟩ := hp
  exact ⟨htake, hdifference, hloadTrue, hjump, hselectFalse, hstoreFalse, hloadEnd, hskip,
    htrue.label _ rfl, hselectTrue, hstoreTrue, hend.label _ rfl, hraise⟩

theorem wordCount_compare (k : Int64) (rel : Relation) :
    wordCount (code [] k (.compare rel)) = 21 := by
  simp [code, comparison, AsmLine.words]

theorem leads_answerNo (hsym : sym.HasPredefined) {rel : Relation}
    (h : ComparisonAt sym rom pc k rel) (hrom : pc + 21 ≤ 65536)
    (hlow : (stackStart : Int) ≤ (c 0).toInt) (hhigh : (c 0).toInt < memorySize) :
    Leads rom ⟨c, a, d, pc + 11⟩ ⟨update c (c 0).toInt 0, Int16.ofNat (pc + 19), d, pc + 19⟩ := by
  refine (leads_storeConstant hsym Decodes.storeFalse (fun _ _ => rfl) h.selectFalse h.storeFalse
    hlow hhigh).trans ?_
  refine (leads_loadLabel rfl h.lookup_end h.loadEnd).trans ?_
  exact Leads.jump Decodes.jumpAlways h.skip rfl rfl (toNat_toUInt16_ofNat (by omega)) (by omega)

theorem leads_answerYes (hsym : sym.HasPredefined) {rel : Relation}
    (h : ComparisonAt sym rom pc k rel)
    (hlow : (stackStart : Int) ≤ (c 0).toInt) (hhigh : (c 0).toInt < memorySize) :
    Leads rom ⟨c, a, d, pc + 16⟩ ⟨update c (c 0).toInt (-1), c 0, d, pc + 19⟩ :=
  leads_storeConstant hsym Decodes.storeTrue (fun _ _ => rfl) h.selectTrue h.storeTrue hlow hhigh

/-- The two branches of a comparison meet at the end label with the truth value stored. -/
theorem leads_answer (hsym : sym.HasPredefined) {rel : Relation}
    (h : ComparisonAt sym rom pc k rel) (hrom : pc + 21 ≤ 65536)
    (hlow : (stackStart : Int) ≤ (c 0).toInt) (hhigh : (c 0).toInt < memorySize) (b : Bool) :
    ∃ a', Leads rom ⟨c, a, d, if b then pc + 16 else pc + 11⟩
      ⟨update c (c 0).toInt (truthValue b), a', d, pc + 19⟩ := by
  cases b with
  | true => exact ⟨_, leads_answerYes hsym h hlow hhigh⟩
  | false => exact ⟨_, leads_answerNo hsym h hrom hlow hhigh⟩

theorem leads_test (hsym : sym.HasPredefined) {rel : Relation}
    (h : ComparisonAt sym rom pc k rel) (hrom : pc + 21 ≤ 65536)
    (hlow : (stackStart : Int) + 1 < (c 0).toInt) (hhigh : (c 0).toInt ≤ memorySize) :
    Leads rom ⟨c, a, d, pc⟩ ⟨update c 0 (c 0 - 1 - 1), Int16.ofNat (pc + 16),
      c (c 0 - 1 - 1).toInt - c (c 0 - 1).toInt,
      if rel.accepts (c (c 0 - 1 - 1).toInt - c (c 0 - 1).toInt) then pc + 16 else pc + 11⟩ := by
  have hsub := toInt_sub_one (x := c 0) (by omega)
  have hsub' := toInt_sub_one (x := c 0 - 1) (by omega)
  have hne : (c 0 - 1 - 1).toInt ≠ 0 := ne_zero_of_stackStart_le (by omega)
  have hcell : update c 0 (c 0 - 1 - 1) (c 0 - 1 - 1).toInt = c (c 0 - 1 - 1).toInt :=
    update_of_ne hne _ _
  refine (leads_takeTwo hsym h.take hlow hhigh).trans ?_
  refine (Leads.setD (v := c (c 0 - 1 - 1).toInt - c (c 0 - 1).toInt) Decodes.difference
    h.difference ?_ fun _ => ⟨by omega, by omega⟩).trans ?_
  · exact congrArg (· - c (c 0 - 1).toInt) hcell
  · refine (leads_loadLabel rfl h.lookup_true h.loadTrue).trans ?_
    rw [← Relation.jumpTaken_jump]
    exact Leads.jump (Decodes.jumpIf rel) h.jump rfl rfl (toNat_toUInt16_ofNat (by omega))
      (by omega)

theorem leads_compare (hsym : sym.HasPredefined) {rel : Relation}
    (hp : Placed sym rom pc (code [] k (.compare rel))) (hrom : pc + 21 ≤ 65536)
    (hlow : (stackStart : Int) + 1 < (c 0).toInt) (hhigh : (c 0).toInt ≤ memorySize) :
    ∃ a' d', Leads rom ⟨c, a, d, pc⟩ ⟨(Operation.compare rel).effect sym c, a', d',
      pc + wordCount (code [] k (.compare rel))⟩ := by
  have hparts := comparisonAt_of_placed hp
  have hsub := toInt_sub_one (x := c 0) (by omega)
  have hsub' := toInt_sub_one (x := c 0 - 1) (by omega)
  have hsp : update c 0 (c 0 - 1 - 1) 0 = c 0 - 1 - 1 := update_self 0 _ c
  obtain ⟨a', hanswer⟩ := leads_answer (c := update c 0 (c 0 - 1 - 1)) (a := Int16.ofNat (pc + 16))
    (d := c (c 0 - 1 - 1).toInt - c (c 0 - 1).toInt) hsym hparts hrom (by rw [hsp]; omega)
    (by rw [hsp]; omega) (rel.accepts (c (c 0 - 1 - 1).toInt - c (c 0 - 1).toInt))
  rw [hsp] at hanswer
  rw [wordCount_compare]
  exact ⟨0, _, ((leads_test hsym hparts hrom hlow hhigh).trans hanswer).trans
    (leads_replaceTwo hsym hparts.raise hlow hhigh)⟩

/-- **A block has the effect of its operation.** -/
theorem leads_code (hsym : sym.HasPredefined) {op : Operation}
    (hp : Placed sym rom pc (code [] k op)) (hrom : pc + wordCount (code [] k op) ≤ 65536)
    (h : op.Enabled sym c) :
    ∃ a' d', Leads rom ⟨c, a, d, pc⟩
      ⟨op.effect sym c, a', d', pc + wordCount (code [] k op)⟩ := by
  obtain ⟨hlow, hhigh, hroom, hmem, hne⟩ := h
  cases op with
  | literal n =>
    simp only [Operation.command, Command.operands, Command.depthChange] at hlow hroom
    exact leads_literal hsym hp (by omega) (by omega)
  | push r n =>
    simp only [Operation.command, Command.operands, Command.depthChange] at hlow hroom
    exact leads_push hsym hp (by omega) (by omega) (hmem _ rfl)
  | pop r n =>
    simp only [Operation.command, Command.operands] at hlow
    exact leads_pop hsym hp (by omega) hhigh (hmem _ rfl) (hne r n rfl)
  | unary op =>
    simp only [Operation.command, Command.operands] at hlow
    exact leads_unary hsym hp (by omega) hhigh
  | binary op =>
    simp only [Operation.command, Command.operands] at hlow
    exact leads_binary hsym hp (by omega) hhigh
  | compare rel =>
    simp only [Operation.command, Command.operands] at hlow
    rw [wordCount_compare] at hrom
    exact leads_compare hsym hp hrom (by omega) hhigh

end Block

/-! ## Blocks of a program -/

/-- The program has been assembled into the words. -/
structure Assembled (p : List Instruction) (rom : List Word) : Prop where
  operation : ∀ i ∈ p, ∃ op, i.operation = .ok op
  length : rom.length = codeSize p
  placed : Placed (programSymbols p) rom.toArray 0 (listing [] 0 p)
  predefined : (programSymbols p).HasPredefined

/-- What assembling a decoded program yields. -/
theorem assembled_of_decode {strict : Bool} {lines : List CommandLine} {p : List Instruction}
    {rom : List Word} (hdecode : CommandLine.decodeAll strict lines = .ok p)
    (hassemble : assemble (assembly p) = .ok rom) : Assembled p rom := by
  have hdecoded := CommandLine.decodeAll_decoded hdecode
  obtain ⟨hlength, hplaced⟩ := placed_listing hdecoded hassemble
  exact ⟨operation_of_decoded hdecoded, hlength, hplaced,
    fun _ _ => lookup_programSymbols hdecoded⟩

namespace Assembled

variable {rom : List Word} {before after : List Instruction} {i : Instruction} {op : Operation}

/-- A run has come to its end when it is past the last block. -/
theorem isHalted {p : List Instruction} (h : Assembled p rom) {m : Machine}
    (hrom : m.rom = rom.toArray) (hpc : m.pc = codeSize p) : m.isHalted = true := by
  apply m.isHalted_eq_true_iff.2
  rw [hrom, List.size_toArray, h.length, hpc]
  omega

theorem codeSize_block (h : Assembled (before ++ i :: after) rom) (hop : i.operation = .ok op) :
    codeSize (before ++ [i]) =
      codeSize before + wordCount (Block.code [] (labelAfter 0 before) op) :=
  codeSize_concat (fun j hj => h.operation j (by simp [hj])) hop

theorem codeSize_block_le (h : Assembled (before ++ i :: after) rom) :
    codeSize (before ++ [i]) ≤ codeSize (before ++ i :: after) := by
  have hle := codeSize_le_append (p := before ++ [i]) (fun j hj => h.operation j (by
    simp only [List.mem_append, List.mem_cons, List.not_mem_nil, or_false] at hj ⊢
    exact hj.imp_right .inl)) after
  rwa [List.append_assoc, List.singleton_append] at hle

theorem placed_block (h : Assembled (before ++ i :: after) rom) (hop : i.operation = .ok op) :
    Placed (programSymbols (before ++ i :: after)) rom.toArray (codeSize before)
      (Block.code [] (labelAfter 0 before) op) :=
  HackVM.placed_block (fun j hj => h.operation j (by simp [hj])) hop h.placed

/-- The block of an instruction of a program has the effect of its operation. -/
theorem leads_block (h : Assembled (before ++ i :: after) rom) (hop : i.operation = .ok op)
    (hsize : codeSize (before ++ [i]) ≤ 65536) {c : Int → Int16}
    (henabled : op.Enabled (programSymbols (before ++ i :: after)) c) (a d : Int16) :
    ∃ a' d', Leads rom.toArray ⟨c, a, d, codeSize before⟩
      ⟨op.effect (programSymbols (before ++ i :: after)) c, a', d', codeSize (before ++ [i])⟩ := by
  rw [h.codeSize_block hop] at hsize ⊢
  exact Block.leads_code h.predefined (h.placed_block hop) hsize henabled

end Assembled

end HackVM
