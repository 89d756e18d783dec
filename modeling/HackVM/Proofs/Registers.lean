import HackVM.Proofs.Resolution
import HackVM.Proofs.Statics

/-!
# Which cells registers are

Code for an element of `pointer` or `temp` loads the symbol of a register. Only the first 16 have
predefined symbols, and only these are the cells of the same number. A register beyond them is a
free cell like any other: it comes behind the free cells that the program uses before it
(`registerCell`, `lookup_registerCell`). `register_block` says what a block then loads, when that is
the number of the register, and which cell the block reads or writes.
-/

namespace HackVM

/-- The number of the register that an element of a region is, if it is one. -/
def Region.register? (n : Nat) : Region → Option Nat
  | pointer => some (firstPointerRegister + n)
  | temp => some (firstTempRegister + n)
  | based _ | static => none

/-- The cell that is a register of a program. -/
def registerCell (p : List Instruction) (j : Nat) : Nat :=
  if j < 16 then j else 16 + (freeCells p).idxOf (.register j)

section Region

variable {r : Region} {n j : Nat} (hr : r.register? n = some j)

include hr

theorem Region.freeCell?_of_register? (hj : 16 ≤ j) : r.freeCell? n = some (.register j) := by
  cases r with
  | based b => cases hr
  | static => cases hr
  | pointer =>
    obtain rfl := Option.some.inj hr
    exact if_neg (by omega)
  | temp =>
    obtain rfl := Option.some.inj hr
    exact if_neg (by omega)

theorem Region.symbol_of_register? (hn : n ≤ largestOffset) :
    r.symbol n = utf8 "R" ++ Text.ofNat j := by
  have hle : n ≤ 32767 := hn
  cases r with
  | based b => cases hr
  | static => cases hr
  | pointer =>
    obtain rfl := Option.some.inj hr
    exact registerName_eq (by rw [firstPointerRegister]; omega)
  | temp =>
    obtain rfl := Option.some.inj hr
    exact registerName_eq (by rw [firstTempRegister]; omega)

theorem Region.address_of_register? :
    Block.address [] n r = [.load (r.symbol n)] ∧ startsWithDigit (r.symbol n) = false ∧
      ∀ sym c, r.address sym c n = (sym.operandValue? (r.symbol n)).getD 0 := by
  cases r with
  | based b => cases hr
  | static => cases hr
  | pointer => exact ⟨rfl, rfl, fun sym c => rfl⟩
  | temp => exact ⟨rfl, rfl, fun sym c => rfl⟩

end Region

/-- The element of a region that an operation pushes or pops into. -/
def Operation.element? : Operation → Option (Region × Nat)
  | push r n | pop r n => some (r, n)
  | literal _ | unary _ | binary _ | compare _ => none

theorem Operation.InRange.le_of_element? {strict : Bool} {op : Operation} (h : op.InRange strict)
    {r : Region} {n : Nat} (hop : op.element? = some (r, n)) : n ≤ largestOffset := by
  cases op with
  | push s m =>
    cases hop
    exact h.1
  | pop s m =>
    cases hop
    exact h.1
  | literal m => cases hop
  | unary op => cases hop
  | binary op => cases hop
  | compare rel => cases hop

theorem Operation.freeCell?_of_element? {op : Operation} {r : Region} {n : Nat}
    (hop : op.element? = some (r, n)) : op.freeCell? = r.freeCell? n := by
  cases op <;> cases hop <;> rfl

section Program

variable {strict : Bool} {p : List Instruction} (hp : ∀ i ∈ p, i.IsDecoded strict)

include hp

/-- **A register is the cell of its number if its symbol is predefined**, and one behind the free
cells before it if not. -/
theorem lookup_registerCell {i : Instruction} (hi : i ∈ p) {op : Operation}
    (hop : i.operation = .ok op) {r : Region} {n : Nat} (helement : op.element? = some (r, n))
    {j : Nat} (hr : r.register? n = some j) :
    (programSymbols p).lookup (r.symbol n) = some (registerCell p j) := by
  obtain ⟨op', hrange, hop'⟩ := (hp i hi).operation
  obtain rfl := Except.ok.inj (hop.symm.trans hop')
  rw [Region.symbol_of_register? hr (hrange.le_of_element? helement), registerCell]
  split
  · next hlt => exact lookup_programSymbols hp (lookup_predefined_register j hlt)
  · next hge =>
    have hmem : .register j ∈ freeCells p := mem_freeCells.2 ⟨i, hi, op, hop, by
      rw [Operation.freeCell?_of_element? helement,
        Region.freeCell?_of_register? hr (Nat.not_lt.1 hge)]⟩
    exact lookup_freeCell hp hmem

/-- The free cells that programs can have. -/
def possibleFreeCells : Finset FreeCell :=
  (Finset.range 32768).image .static ∪ (Finset.Ico 16 32773).image .register

omit hp in
theorem card_possibleFreeCells_le : possibleFreeCells.card ≤ 65525 := by
  have hstatic : ((Finset.range 32768).image FreeCell.static).card ≤ 32768 := by
    simpa using Finset.card_image_le (s := Finset.range 32768) (f := FreeCell.static)
  have hregister : ((Finset.Ico 16 32773).image FreeCell.register).card ≤ 32757 := by
    simpa using Finset.card_image_le (s := Finset.Ico 16 32773) (f := FreeCell.register)
  exact (Finset.card_union_le _ _).trans (by omega)

theorem mem_possibleFreeCells {x : FreeCell} (hx : x ∈ freeCells p) : x ∈ possibleFreeCells := by
  obtain ⟨i, hi, op, hop, hcell⟩ := mem_freeCells.1 hx
  obtain ⟨op', hrange, hop'⟩ := (hp i hi).operation
  obtain rfl := Except.ok.inj (hop.symm.trans hop')
  have hregion {r : Region} {n : Nat} (hn : n ≤ largestOffset) (hcell : r.freeCell? n = some x) :
      x ∈ possibleFreeCells := by
    have hle : n ≤ 32767 := hn
    rw [possibleFreeCells, Finset.mem_union, Finset.mem_image, Finset.mem_image]
    cases r with
    | based b => cases hcell
    | static => exact Or.inl ⟨n, by simp; omega, Option.some.inj hcell⟩
    | pointer =>
      obtain ⟨hge, rfl⟩ := FreeCell.ofRegister?_eq_some hcell
      rw [firstPointerRegister] at hge ⊢
      exact Or.inr ⟨_, by simp; omega, rfl⟩
    | temp =>
      obtain ⟨hge, rfl⟩ := FreeCell.ofRegister?_eq_some hcell
      rw [firstTempRegister] at hge ⊢
      exact Or.inr ⟨_, by simp; omega, rfl⟩
  cases op with
  | push r n => exact hregion hrange.1 hcell
  | pop r n => exact hregion hrange.1 hcell
  | literal n => cases hcell
  | unary op => cases hcell
  | binary op => cases hcell
  | compare rel => cases hcell

theorem idxOf_freeCells_le {x : FreeCell} (hx : x ∈ freeCells p) :
    (freeCells p).idxOf x ≤ 65525 := by
  rw [freeCells, idxOf_eraseDups (List.mem_eraseDups.1 hx)]
  refine (Finset.card_le_card fun y hy => ?_).trans card_possibleFreeCells_le
  have hmem := (List.takeWhile_sublist _).subset (List.mem_toFinset.1 hy)
  exact mem_possibleFreeCells hp (List.mem_eraseDups.2 hmem)

/-- The word that loads a register holds the number of the register exactly if the register is the
cell of that number. There are too few free cells for an address to come round to it again. -/
theorem toInt_registerCell {j : Nat} (hmem : 16 ≤ j → .register j ∈ freeCells p) :
    (Int16.ofNat (registerCell p j)).toInt = j ↔ registerCell p j = j ∧ j < 32768 := by
  unfold registerCell
  split
  · next hlt =>
    rw [toInt_ofNat (by omega)]
    omega
  · next hge =>
    have hle := idxOf_freeCells_le hp (hmem (by omega))
    rw [Int16.toInt_ofNat', show (Int16.size : Nat) = 65536 from rfl, Int.bmod_def]
    split <;> omega

end Program

/-! ## Blocks -/

section Block

open Function (update)

variable {before after : List Instruction} {i : Instruction} {rom : List Word} {r : Region}
  {n : Nat} {m : Machine}

namespace Assembled

/-- A `push` block leaves its element on the stack. -/
theorem reaches_push (h : Assembled (before ++ i :: after) rom)
    (hop : i.operation = .ok (.push r n)) (hrom : m.rom = rom.toArray)
    (hpc : m.pc = codeSize before) (hlow : (stackStart : Int) ≤ (m.cells 0).toInt)
    (hhigh : (m.cells 0).toInt < memorySize)
    (hmem : InMemory (r.address (programSymbols (before ++ i :: after)) m.cells n).toInt) :
    ∃ m', m.Reaches m' ∧ m'.pc = codeSize (before ++ [i]) ∧
      m'.cells = (Operation.push r n).effect (programSymbols (before ++ i :: after)) m.cells := by
  obtain ⟨a', d', hleads⟩ := Block.leads_push (a := m.a) (d := m.d) h.predefined
    (h.placed_block hop) hlow hhigh hmem
  have hshows : m.Shows rom.toArray ⟨m.cells, m.a, m.d, codeSize before⟩ :=
    ⟨hrom, rfl, rfl, rfl, hpc⟩
  obtain ⟨m', hpath, hm', -⟩ := hleads m hshows hlow
  exact ⟨m', hpath.reaches, by rw [h.codeSize_block hop, hm'.pc_eq], hm'.cells_eq⟩

/-- A `pop` block moves the top of the stack to its element. -/
theorem reaches_pop (h : Assembled (before ++ i :: after) rom)
    (hop : i.operation = .ok (.pop r n)) (hrom : m.rom = rom.toArray)
    (hpc : m.pc = codeSize before) (hlow : (stackStart : Int) < (m.cells 0).toInt)
    (hhigh : (m.cells 0).toInt ≤ memorySize)
    (hmem : InMemory (r.address (programSymbols (before ++ i :: after)) m.cells n).toInt)
    (hne : (r.address (programSymbols (before ++ i :: after)) m.cells n).toInt ≠ 0) :
    ∃ m', m.Reaches m' ∧ m'.pc = codeSize (before ++ [i]) ∧
      m'.cells = (Operation.pop r n).effect (programSymbols (before ++ i :: after)) m.cells := by
  obtain ⟨a', d', hleads⟩ := Block.leads_pop (a := m.a) (d := m.d) h.predefined
    (h.placed_block hop) hlow hhigh hmem hne
  have hshows : m.Shows rom.toArray ⟨m.cells, m.a, m.d, codeSize before⟩ :=
    ⟨hrom, rfl, rfl, rfl, hpc⟩
  obtain ⟨m', hpath, hm', -⟩ := hleads m hshows hlow.le
  exact ⟨m', hpath.reaches, by rw [h.codeSize_block hop, hm'.pc_eq], hm'.cells_eq⟩

/-- The first word of a block for a register loads the register's address. -/
theorem exists_address_word (h : Assembled (before ++ i :: after) rom) {op : Operation}
    (hop : i.operation = .ok op) (helement : op.element? = some (r, n)) {j : Nat}
    (hr : r.register? n = some j) {v : Int16}
    (hv : (programSymbols (before ++ i :: after)).operandValue? (r.symbol n) = some v) :
    ∃ line, rom[codeSize before]? = some (.address v line) := by
  have hfirst : ∃ rest, Block.code [] (labelAfter 0 before) op = .load (r.symbol n) :: rest := by
    obtain ⟨haddress, -⟩ := Region.address_of_register? hr
    cases op <;> cases helement <;> rw [Block.code, haddress] <;> exact ⟨_, rfl⟩
  obtain ⟨rest, hcode⟩ := hfirst
  have hplaced := h.placed_block hop
  rw [hcode] at hplaced
  obtain ⟨w, hw, v', line, hv', rfl⟩ := hplaced.1.word rfl
  obtain rfl := Option.some.inj (hv.symm.trans hv')
  exact ⟨line, by simpa using hw⟩

end Assembled

/-- **Which cell a register is.** The block of a `push` or `pop` whose element is register `j`
begins with a word that loads the address of that register, and it reads or writes the cell with
this address. The address is `j` whatever the program is if `j` is below 16. Otherwise it depends on
how many free cells the program uses before, and it is `j` only if these are `j - 16`. -/
theorem register_block {strict : Bool} {lines : List CommandLine} {op : Operation} {j : Nat}
    (hdecode : CommandLine.decodeAll strict lines = .ok (before ++ i :: after))
    (hassemble : assemble (assembly (before ++ i :: after)) = .ok rom)
    (hop : i.operation = .ok op) (helement : op.element? = some (r, n))
    (hr : r.register? n = some j) :
    ∃ v line, rom[codeSize before]? = some (.address v line) ∧
      v = Int16.ofNat (registerCell (before ++ i :: after) j) ∧ (j < 16 → v.toInt = j) ∧
      (v.toInt = j ↔ registerCell (before ++ i :: after) j = j ∧ j < 32768) ∧
      ∀ m : Machine, m.rom = rom.toArray → m.pc = codeSize before → InMemory v.toInt →
        (op = .push r n → (stackStart : Int) ≤ (m.cells 0).toInt →
          (m.cells 0).toInt < memorySize →
          ∃ m', m.Reaches m' ∧ m'.pc = codeSize (before ++ [i]) ∧
            m'.cells = update (update m.cells (m.cells 0).toInt (m.cells v.toInt)) 0
              (m.cells 0 + 1)) ∧
        (op = .pop r n → (stackStart : Int) < (m.cells 0).toInt →
          (m.cells 0).toInt ≤ memorySize → v.toInt ≠ 0 →
          ∃ m', m.Reaches m' ∧ m'.pc = codeSize (before ++ [i]) ∧
            m'.cells = update (update (update m.cells 13 v) 0 (m.cells 0 - 1)) v.toInt
              (m.cells (m.cells 0 - 1).toInt)) := by
  have hdecoded := CommandLine.decodeAll_decoded hdecode
  have hassembled := assembled_of_decode hdecode hassemble
  have hi : i ∈ before ++ i :: after := by simp
  obtain ⟨-, hdigit, haddress⟩ := Region.address_of_register? hr
  have hlookup := lookup_registerCell hdecoded hi hop helement hr
  have hvalue := Assembler.operandValue?_of_lookup hdigit hlookup
  obtain ⟨line, hword⟩ := hassembled.exists_address_word hop helement hr hvalue
  have hmem (hj : 16 ≤ j) : .register j ∈ freeCells (before ++ i :: after) :=
    mem_freeCells.2 ⟨i, hi, op, hop, by
      rw [Operation.freeCell?_of_element? helement, Region.freeCell?_of_register? hr hj]⟩
  have hiff := toInt_registerCell hdecoded hmem
  refine ⟨_, line, hword, rfl, fun hj => hiff.2 ⟨if_pos hj, by omega⟩, hiff, ?_⟩
  -- the element's address does not depend on memory, and it is the one that was loaded
  have hcell (c : Int → Int16) : r.address (programSymbols (before ++ i :: after)) c n =
      Int16.ofNat (registerCell (before ++ i :: after) j) := by
    rw [haddress, hvalue, Option.getD_some]
  intro m hrom hpc hinMemory
  constructor
  · rintro rfl hlow hhigh
    obtain ⟨m', hreaches, hpc', hcells⟩ :=
      hassembled.reaches_push hop hrom hpc hlow hhigh (by rwa [hcell])
    exact ⟨m', hreaches, hpc', by rw [hcells, Operation.effect, hcell]⟩
  · rintro rfl hlow hhigh hne
    obtain ⟨m', hreaches, hpc', hcells⟩ :=
      hassembled.reaches_pop hop hrom hpc hlow hhigh (by rwa [hcell]) (by rwa [hcell])
    exact ⟨m', hreaches, hpc', by rw [hcells, Operation.effect, hcell]⟩

/-- Element 5 of `pointer` is register 8, also if a static cell is used before it. -/
theorem register_block_pointer_five :
    ∃ rom line, assemble (assembly [(Operation.push .static 0).instruction 1,
        (Operation.pop .pointer 5).instruction 2]) = .ok rom ∧
      rom[7]? = some (.address 8 line) ∧
      ∃ m', Machine.Reaches { ((Machine.load rom).poke 0 257).poke 256 11 with pc := 7 } m' ∧
        m'.cells 8 = 11 := by
  have hdecode : CommandLine.decodeAll false [⟨1, 1, utf8 "push static 0"⟩,
      ⟨2, 1, utf8 "pop pointer 5"⟩] = .ok ([(Operation.push .static 0).instruction 1] ++
        (Operation.pop .pointer 5).instruction 2 :: []) := by
    decide +kernel
  have hsize : codeSize [(Operation.push .static 0).instruction 1] = 7 := rfl
  obtain ⟨v, line, hword, rfl, hlow, -, heffect⟩ := register_block hdecode rfl rfl rfl rfl
  rw [hsize] at hword heffect
  obtain ⟨-, hpop⟩ := heffect { ((Machine.load _).poke 0 257).poke 256 11 with pc := 7 } rfl rfl
    (by decide)
  obtain ⟨m', hreaches, -, hcells⟩ := hpop rfl (by decide) (by decide) (by decide)
  refine ⟨_, line, rfl, hword, m', hreaches, ?_⟩
  rw [hcells]
  rfl

/-- Element 12 of `temp` is register 17, but without other free cells it becomes cell 16. -/
theorem temp_twelve_misses_register :
    ∃ rom, assemble (assembly [(Operation.literal 7).instruction 1,
        (Operation.pop .temp 12).instruction 2]) = .ok rom ∧
      rom[7]? = some (.address 16 10) ∧
      (((Machine.load rom).poke 0 256).run 100).2 = none ∧
      (((Machine.load rom).poke 0 256).run 100).1.cells 16 = 7 ∧
      (((Machine.load rom).poke 0 256).run 100).1.cells 17 = 0 := by
  refine ⟨_, rfl, ?_, ?_, ?_, ?_⟩
  · decide +kernel
  · decide +kernel
  · decide +kernel
  · decide +kernel

end Block

end HackVM
