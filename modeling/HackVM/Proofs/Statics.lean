import HackVM.Proofs.Blocks

/-!
# Where the segments of a program lie

The symbols that are left over after the first pass of the assembler belong to the free cells of a
program: its static cells, and registers beyond those that have predefined symbols
(`filter_loadedSymbols_listing`). The assembler numbers them from 16 on in the order of first use
(`lookup_freeCell`). A strictly decoded program has no such registers, so that its static cells are
numbered alone (`lookup_static`), and its code addresses the cells that the stack machine does
(`Region.toInt_address`).
-/

namespace HackVM

/-! ## Lists without repetitions -/

theorem eraseDups_map {α β : Type} [BEq α] [LawfulBEq α] [BEq β] [LawfulBEq β] {f : α → β}
    (hf : Function.Injective f) (l : List α) : (l.map f).eraseDups = l.eraseDups.map f := by
  induction hlength : l.length using Nat.strongRecOn generalizing l with
  | ind length ih =>
    cases l with
    | nil => rfl
    | cons x l =>
      have hfilter : (l.map f).filter (fun y => !y == f x) = (l.filter fun y => !y == x).map f := by
        rw [List.filter_map]
        congr 1
        apply List.filter_congr
        intro y _
        rw [Function.comp_apply, Bool.eq_iff_iff]
        simp [hf.eq_iff]
      have hle := List.length_filter_le (fun y => !y == x) l
      rw [List.map_cons, List.eraseDups_cons, List.eraseDups_cons, List.map_cons, hfilter]
      rw [ih _ (by simp only [List.length_cons] at hlength; omega) _ rfl]

theorem idxOf_map {α β : Type} [BEq α] [LawfulBEq α] [BEq β] [LawfulBEq β] {f : α → β}
    (hf : Function.Injective f) (l : List α) (x : α) : (l.map f).idxOf (f x) = l.idxOf x := by
  induction l with
  | nil => rfl
  | cons y l ih =>
    by_cases h : y = x
    · subst h
      simp
    · have hne : f y ≠ f x := hf.ne h
      rw [List.map_cons, List.idxOf_cons, List.idxOf_cons, beq_false_of_ne h,
        beq_false_of_ne hne, ih]

/-! ## Registers -/

theorem lookup_predefined_register :
    ∀ j < 16, ({} : Assembler).lookup (utf8 "R" ++ Text.ofNat j) = some j := by
  decide

theorem registerName_eq {base n : Nat} (h : base + n < 2 ^ 63) :
    registerName base n = utf8 "R" ++ Text.ofNat (base + n) := by
  have hnumber : Int.bmod (base + n) UInt64.size = ((base + n : Nat) : Int) := by
    rw [show UInt64.size = 18446744073709551616 from rfl]
    rw [Int.bmod_eq_of_le (by omega) (by omega)]
    omega
  rw [registerName, hnumber, Text.ofInt_natCast]

theorem Assembler.HasPredefined.lookup_register {sym : Assembler} (hsym : sym.HasPredefined)
    {base n : Nat} (h : base + n < 16) : sym.lookup (registerName base n) = some (base + n) := by
  rw [registerName_eq (by omega)]
  exact hsym _ _ (lookup_predefined_register _ h)

/-- Registers from 16 on have no predefined symbols. -/
theorem lookup_predefined_register_eq_none {j : Nat} (h : 16 ≤ j) :
    ({} : Assembler).lookup (utf8 "R" ++ Text.ofNat j) = none := by
  refine List.lookup_eq_none_iff.2 fun e he => bne_iff_ne.2 ?_
  rcases List.mem_append.1 he with he | he
  · have hhead : ∀ e ∈ [(utf8 "SP", 0), (utf8 "LCL", 1), (utf8 "ARG", 2), (utf8 "THIS", 3),
        (utf8 "THAT", 4), (utf8 "SCREEN", 16384), (utf8 "KBD", 24576)],
        e.1.head? ≠ some 82 := by decide
    intro heq
    exact hhead e he (heq ▸ rfl)
  · obtain ⟨i, hi, rfl⟩ := List.mem_map.1 he
    have hlt := List.mem_range.1 hi
    intro heq
    have hij : j = i := Text.ofNat_injective (List.append_cancel_left heq)
    omega

/-! ## Names of static cells -/

theorem staticName_injective : Function.Injective (staticName []) := by
  intro j k h
  rw [staticName, staticName, if_pos rfl] at h
  exact Text.ofNat_injective (List.append_cancel_left h)

theorem lookup_predefined_staticName (n : Nat) :
    ({} : Assembler).lookup (staticName [] n) = none := by
  rw [staticName, if_pos rfl]
  exact lookup_predefined_append (by decide) _

/-! ## The symbols that a listing leaves to the second pass -/

/-- The symbol that selects an element of a region. -/
def Region.symbol (n : Nat) : Region → Text
  | based b => b.register
  | static => staticName [] n
  | pointer => registerName firstPointerRegister n
  | temp => registerName firstTempRegister n

/-- The symbols by which code selects memory cells. -/
inductive IsCellSymbol : Text → Prop
  | stackPointer : IsCellSymbol (utf8 "SP")
  | spare : IsCellSymbol spareRegister
  | element (r : Region) (n : Nat) : IsCellSymbol (r.symbol n)

theorem IsCellSymbol.not_isPrefix_label {name : Text} (h : IsCellSymbol name) :
    ¬ utf8 "LABEL_" <+: name ∧ ¬ utf8 "ENDLABEL_" <+: name := by
  simp only [← List.isPrefixOf_iff_prefix, Bool.not_eq_true]
  cases h with
  | stackPointer => decide
  | spare => decide
  | element r n =>
    cases r with
    | based b => cases b <;> exact ⟨rfl, rfl⟩
    | static => exact ⟨rfl, rfl⟩
    | pointer => exact ⟨rfl, rfl⟩
    | temp => exact ⟨rfl, rfl⟩

theorem IsCellSymbol.not_mem_labelsFrom {name : Text} (h : IsCellSymbol name) (k : Int64)
    (n : Nat) : name ∉ labelsFrom k n := by
  intro hmem
  obtain ⟨j, -, rfl | rfl⟩ := mem_labelsFrom.1 hmem
  · exact h.not_isPrefix_label.1 (List.prefix_append _ _)
  · exact h.not_isPrefix_label.2 (List.prefix_append _ _)

theorem pointerRegister_lt {n : Nat} (h : slotProblem? true .pointer n = none) :
    firstPointerRegister + n < 16 := by
  have hn : n < pointerSize := by simpa [slotProblem?] using h
  rw [pointerSize] at hn
  rw [firstPointerRegister]
  omega

theorem tempRegister_lt {n : Nat} (h : slotProblem? true .temp n = none) :
    firstTempRegister + n < 16 := by
  have hn : n < tempSize := by simpa [slotProblem?] using h
  rw [tempSize] at hn
  rw [firstTempRegister]
  omega

/-- Under strict checking the symbols of elements are predefined, except for static cells. -/
theorem Assembler.HasPredefined.lookup_symbol {sym : Assembler} (hsym : sym.HasPredefined)
    {r : Region} {n : Nat} (hr : slotProblem? true r n = none) :
    sym.lookup (r.symbol n) =
      match r with
      | .based b => some b.index
      | .static => sym.lookup (staticName [] n)
      | .pointer => some (3 + n)
      | .temp => some (5 + n) := by
  cases r with
  | based b => cases b <;> exact hsym _ _ rfl
  | static => rfl
  | pointer => exact hsym.lookup_register (pointerRegister_lt hr)
  | temp => exact hsym.lookup_register (tempRegister_lt hr)

theorem loadedSymbols_address (n : Nat) (r : Region) :
    loadedSymbols (Block.address [] n r) = [r.symbol n] := by
  cases r with
  | based b =>
    have hdigit : startsWithDigit b.register = false := by cases b <;> rfl
    simp [Block.address, loadedSymbols, AsmLine.symbol?, hdigit, Text.startsWithDigit_ofNat,
      Region.symbol]
  | static => rfl
  | pointer => rfl
  | temp => rfl

/-- The symbols that a block loads, in order. -/
theorem loadedSymbols_code (k : Int64) (op : Operation) :
    loadedSymbols (Block.code [] k op) =
      match op with
      | .literal _ => [utf8 "SP", utf8 "SP"]
      | .push r n => [r.symbol n, utf8 "SP", utf8 "SP"]
      | .pop r n => [r.symbol n, spareRegister, utf8 "SP", spareRegister]
      | .unary _ => [utf8 "SP", utf8 "SP", utf8 "SP"]
      | .binary _ => [utf8 "SP", utf8 "SP", utf8 "SP", utf8 "SP"]
      | .compare _ => [utf8 "SP", utf8 "SP", utf8 "SP", trueLabel k, utf8 "SP", endLabel k,
          utf8 "SP", utf8 "SP"] := by
  cases op with
  | literal n =>
    have hnumber : (AsmLine.load (Text.ofNat n)).symbol? = none := by
      simp [AsmLine.symbol?, Text.startsWithDigit_ofNat]
    rw [Block.code, loadedSymbols_append, loadedSymbols_cons, hnumber]
    rfl
  | push r n =>
    rw [Block.code, loadedSymbols_append, loadedSymbols_append, loadedSymbols_address]
    rfl
  | pop r n =>
    rw [Block.code, loadedSymbols_append, loadedSymbols_append, loadedSymbols_append,
      loadedSymbols_address]
    rfl
  | unary op => rfl
  | binary op => rfl
  | compare rel => rfl

/-! ## Free cells -/

/-- A cell whose address is left to the assembler: a static one, or a register that has no
predefined symbol. -/
inductive FreeCell
  | static (n : Nat)
  | register (j : Nat)
  deriving DecidableEq, Repr

namespace FreeCell

/-- The symbol of a free cell. -/
def symbol : FreeCell → Text
  | static n => staticName [] n
  | register j => utf8 "R" ++ Text.ofNat j

/-- The register as a free cell, if it is one. -/
def ofRegister? (j : Nat) : Option FreeCell := if j < 16 then none else some (register j)

theorem symbol_injective : Function.Injective symbol := by
  intro x y h
  cases x with
  | static m =>
    cases y with
    | static n => rw [staticName_injective h]
    | register j => cases congrArg List.head? h
  | register j =>
    cases y with
    | static n => cases congrArg List.head? h
    | register k => rw [Text.ofNat_injective (List.append_cancel_left h)]

theorem symbol_not_mem_labelsFrom (x : FreeCell) (k : Int64) (n : Nat) :
    x.symbol ∉ labelsFrom k n := by
  intro hmem
  obtain ⟨j, -, h | h⟩ := mem_labelsFrom.1 hmem <;> cases x <;> cases congrArg List.head? h

end FreeCell

/-- The free cell that an element of a region is, if it is one. -/
def Region.freeCell? (n : Nat) : Region → Option FreeCell
  | based _ => none
  | static => some (.static n)
  | pointer => FreeCell.ofRegister? (firstPointerRegister + n)
  | temp => FreeCell.ofRegister? (firstTempRegister + n)

/-- The free cell that an operation uses. -/
def Operation.freeCell? : Operation → Option FreeCell
  | push r n | pop r n => r.freeCell? n
  | literal _ | unary _ | binary _ | compare _ => none

/-- The free cell that an instruction uses. -/
def Instruction.freeCell? (i : Instruction) : Option FreeCell :=
  match i.operation with
  | .ok op => op.freeCell?
  | .error _ => none

/-- The free cells of a program, each once, in the order of first use. -/
def freeCells (p : List Instruction) : List FreeCell :=
  (p.filterMap Instruction.freeCell?).eraseDups

theorem FreeCell.ofRegister?_eq_some {j : Nat} {x : FreeCell} (h : ofRegister? j = some x) :
    16 ≤ j ∧ x = .register j := by
  unfold ofRegister? at h
  split at h
  · cases h
  · exact ⟨by omega, (Option.some.inj h).symm⟩

theorem Region.symbol_of_freeCell? {r : Region} {n : Nat} {x : FreeCell} (hn : n ≤ largestOffset)
    (h : r.freeCell? n = some x) : r.symbol n = x.symbol := by
  have hle : n ≤ 32767 := hn
  cases r with
  | based b => cases h
  | static =>
    obtain rfl := Option.some.inj h
    rfl
  | pointer =>
    obtain ⟨-, rfl⟩ := FreeCell.ofRegister?_eq_some h
    exact registerName_eq (by rw [firstPointerRegister]; omega)
  | temp =>
    obtain ⟨-, rfl⟩ := FreeCell.ofRegister?_eq_some h
    exact registerName_eq (by rw [firstTempRegister]; omega)

theorem lookup_predefined_freeCell {r : Region} {n : Nat} {x : FreeCell}
    (h : r.freeCell? n = some x) : ({} : Assembler).lookup x.symbol = none := by
  cases r with
  | based b => cases h
  | static =>
    obtain rfl := Option.some.inj h
    exact lookup_predefined_staticName n
  | pointer =>
    obtain ⟨hle, rfl⟩ := FreeCell.ofRegister?_eq_some h
    exact lookup_predefined_register_eq_none hle
  | temp =>
    obtain ⟨hle, rfl⟩ := FreeCell.ofRegister?_eq_some h
    exact lookup_predefined_register_eq_none hle

/-- An element that is no free cell has a predefined symbol. -/
theorem Assembler.HasPredefined.exists_lookup_symbol {sym : Assembler} (hsym : sym.HasPredefined)
    {r : Region} {n : Nat} (h : r.freeCell? n = none) :
    ∃ address, sym.lookup (r.symbol n) = some address := by
  cases r with
  | based b => cases b <;> exact ⟨_, hsym _ _ rfl⟩
  | static => cases h
  | pointer =>
    have hlt : firstPointerRegister + n < 16 := by
      simpa [Region.freeCell?, FreeCell.ofRegister?] using h
    exact ⟨_, hsym.lookup_register hlt⟩
  | temp =>
    have hlt : firstTempRegister + n < 16 := by
      simpa [Region.freeCell?, FreeCell.ofRegister?] using h
    exact ⟨_, hsym.lookup_register hlt⟩

section Free

variable {a : Assembler} (hpredefined : a.HasPredefined)
  (hfree : ∀ r n x, Region.freeCell? n r = some x → a.lookup x.symbol = none) {strict : Bool}

include hpredefined hfree

theorem filter_symbol {r : Region} {n : Nat} (hn : n ≤ largestOffset) :
    [r.symbol n].filter (fun name => (a.lookup name).isNone) =
      (r.freeCell? n).toList.map FreeCell.symbol := by
  cases hx : r.freeCell? n with
  | some x => simp [Region.symbol_of_freeCell? hn hx, hfree r n x hx]
  | none =>
    obtain ⟨address, haddress⟩ := hpredefined.exists_lookup_symbol hx
    simp [haddress]

/-- The only symbols of a block that are not bound are those of free cells. -/
theorem filter_loadedSymbols_code {op : Operation} (hop : op.InRange strict) {k : Int64}
    (hlabels : ∀ name ∈ declaredLabels (Block.code [] k op), (a.lookup name).isSome) :
    (loadedSymbols (Block.code [] k op)).filter (fun name => (a.lookup name).isNone) =
      op.freeCell?.toList.map FreeCell.symbol := by
  have hsp : a.lookup (utf8 "SP") = some 0 := hpredefined _ _ rfl
  have hspare : a.lookup spareRegister = some 13 := hpredefined _ _ rfl
  rw [loadedSymbols_code]
  cases op with
  | literal n => simp [hsp, Operation.freeCell?]
  | unary op => simp [hsp, Operation.freeCell?]
  | binary op => simp [hsp, Operation.freeCell?]
  | compare rel =>
    rw [declaredLabels_code] at hlabels
    have htrue := Option.isSome_iff_ne_none.1 (hlabels (trueLabel k) (by simp))
    have hend := Option.isSome_iff_ne_none.1 (hlabels (endLabel k) (by simp))
    simp [hsp, Operation.freeCell?, htrue, hend]
  | push r n =>
    have hfirst : [r.symbol n, utf8 "SP", utf8 "SP"] =
        [r.symbol n] ++ [utf8 "SP", utf8 "SP"] := rfl
    simp only
    rw [hfirst, List.filter_append, filter_symbol hpredefined hfree hop.1]
    simp [hsp, Operation.freeCell?]
  | pop r n =>
    have hfirst : [r.symbol n, spareRegister, utf8 "SP", spareRegister] =
        [r.symbol n] ++ [spareRegister, utf8 "SP", spareRegister] := rfl
    simp only
    rw [hfirst, List.filter_append, filter_symbol hpredefined hfree hop.1]
    simp [hsp, hspare, Operation.freeCell?]

theorem filter_loadedSymbols_listing {p : List Instruction} (hp : ∀ i ∈ p, i.IsDecoded strict)
    {k : Int64} (hlabels : ∀ name ∈ declaredLabels (listing [] k p), (a.lookup name).isSome) :
    (loadedSymbols (listing [] k p)).filter (fun name => (a.lookup name).isNone) =
      (p.filterMap Instruction.freeCell?).map FreeCell.symbol := by
  induction p generalizing k with
  | nil => rfl
  | cons i is ih =>
    obtain ⟨op, hrange, hop⟩ := (hp i (by simp)).operation
    rw [listing_cons hop, List.cons_append, declaredLabels_cons, declaredLabels_append] at hlabels
    have hblock := filter_loadedSymbols_code hpredefined hfree hrange (k := k) fun name hname =>
      hlabels name (by simp [hname])
    have hrest := ih (fun j hj => hp j (by simp [hj])) fun name hname =>
      hlabels name (List.mem_append_right _ (List.mem_append_right _ hname))
    have hcomment : (AsmLine.comment i.text).symbol?.toList = [] := rfl
    rw [listing_cons hop, List.cons_append, loadedSymbols_cons, loadedSymbols_append, hcomment,
      List.nil_append, List.filter_append, hblock, hrest]
    have hi : i.freeCell? = op.freeCell? := by rw [Instruction.freeCell?, hop]
    rw [List.filterMap_cons, hi]
    cases op.freeCell? <;> simp

end Free

/-! ## Addresses in a program -/

section Program

variable {strict : Bool} {p : List Instruction}

/-- No label of the program is the symbol of a free cell. -/
theorem lookup_bindAll_freeCell (hp : ∀ i ∈ p, i.IsDecoded strict) {r : Region} {n : Nat}
    {x : FreeCell} (hx : r.freeCell? n = some x) :
    (({} : Assembler).bindAll 0 (listing [] 0 p)).lookup x.symbol = none := by
  rw [Assembler.lookup_bindAll_of_not_mem, lookup_predefined_freeCell hx]
  rw [declaredLabels_listing (operation_of_decoded hp) [] 0]
  exact x.symbol_not_mem_labelsFrom 0 _

theorem unbound_listing (hp : ∀ i ∈ p, i.IsDecoded strict) :
    (({} : Assembler).bindAll 0 (listing [] 0 p)).unbound (loadedSymbols (listing [] 0 p)) =
      (freeCells p).map FreeCell.symbol := by
  have hpredefined : (({} : Assembler).bindAll 0 (listing [] 0 p)).HasPredefined := by
    intro name address hname
    rw [Assembler.lookup_bindAll_of_not_mem _ _ fun hmem => ?_, hname]
    simp [new_of_mem_declaredLabels hp name hmem] at hname
  rw [Assembler.unbound, filter_loadedSymbols_listing hpredefined
    (fun r n x => lookup_bindAll_freeCell hp) hp
    fun name hname => Assembler.isSome_lookup_bindAll hname _ _,
    eraseDups_map FreeCell.symbol_injective]
  rfl

theorem mem_freeCells {x : FreeCell} :
    x ∈ freeCells p ↔ ∃ i ∈ p, ∃ op, i.operation = .ok op ∧ op.freeCell? = some x := by
  rw [freeCells, List.mem_eraseDups, List.mem_filterMap]
  refine exists_congr fun i => and_congr_right fun _ => ?_
  rw [Instruction.freeCell?]
  cases i.operation <;> simp

/-- **Free cells are numbered from 16 on in the order of first use.** -/
theorem lookup_freeCell (hp : ∀ i ∈ p, i.IsDecoded strict) {x : FreeCell} (hx : x ∈ freeCells p) :
    (programSymbols p).lookup x.symbol = some (16 + (freeCells p).idxOf x) := by
  have hnone : (({} : Assembler).bindAll 0 (listing [] 0 p)).lookup x.symbol = none := by
    obtain ⟨i, -, op, -, hcell⟩ := mem_freeCells.1 hx
    cases op with
    | push r n => exact lookup_bindAll_freeCell hp hcell
    | pop r n => exact lookup_bindAll_freeCell hp hcell
    | literal n => cases hcell
    | unary op => cases hcell
    | binary op => cases hcell
    | compare rel => cases hcell
  rw [programSymbols, Assembler.afterLines, Assembler.lookup_allocate, hnone, unbound_listing hp]
  simp only [List.mem_map_of_mem hx, if_true, Assembler.nextVariable_bindAll,
    idxOf_map FreeCell.symbol_injective]
  rfl

end Program

section Program

variable {p : List Instruction}

theorem Operation.freeCell?_of_strict {op : Operation} (h : op.InRange true) :
    op.freeCell? = op.static?.map .static := by
  have hregion {r : Region} {n : Nat} (hr : slotProblem? true r n = none) (hne : r ≠ .static) :
      r.freeCell? n = none := by
    cases r with
    | static => exact absurd rfl hne
    | based b => rfl
    | pointer => exact if_pos (pointerRegister_lt hr)
    | temp => exact if_pos (tempRegister_lt hr)
  cases op with
  | push r n => cases r <;> first | rfl | exact hregion h.2 (by simp)
  | pop r n => cases r <;> first | rfl | exact hregion h.2 (by simp)
  | literal n => rfl
  | unary op => rfl
  | binary op => rfl
  | compare rel => rfl

/-- Under strict checking, static cells are the only free ones. -/
theorem freeCells_of_strict (hp : ∀ i ∈ p, i.IsDecoded true) :
    freeCells p = (staticOffsets p).map .static := by
  have hinjective : Function.Injective FreeCell.static := fun m n h => FreeCell.static.inj h
  have hfilter : p.filterMap Instruction.freeCell? =
      (p.filterMap Instruction.static?).map .static := by
    rw [List.map_filterMap]
    refine List.filterMap_congr fun i hi => ?_
    obtain ⟨op, hrange, hop⟩ := (hp i hi).operation
    rw [Instruction.freeCell?, Instruction.static?, hop]
    exact Operation.freeCell?_of_strict hrange
  rw [freeCells, hfilter, eraseDups_map hinjective, staticOffsets]

/-- **Static cells are numbered from 16 on in the order of first use.** -/
theorem lookup_static (hp : ∀ i ∈ p, i.IsDecoded true) {n : Nat} (hn : n ∈ staticOffsets p) :
    (programSymbols p).lookup (staticName [] n) = some (16 + (staticOffsets p).idxOf n) := by
  have hinjective : Function.Injective FreeCell.static := fun m n h => FreeCell.static.inj h
  have hcells := freeCells_of_strict hp
  have hmem : FreeCell.static n ∈ freeCells p := by
    rw [hcells]
    exact List.mem_map_of_mem hn
  have hlookup := lookup_freeCell hp hmem
  rwa [hcells, idxOf_map hinjective] at hlookup

theorem mem_staticOffsets {i : Instruction} (hi : i ∈ p) {op : Operation}
    (hop : i.operation = .ok op) {n : Nat} (hn : op.static? = some n) : n ∈ staticOffsets p := by
  apply List.mem_eraseDups.2
  apply List.mem_filterMap.2
  refine ⟨i, hi, ?_⟩
  rw [Instruction.static?, hop]
  exact hn

theorem toInt_ofNat {n : Nat} (h : n < 32768) : (Int16.ofNat n).toInt = n := by
  rw [Int16.toInt_ofNat', show (Int16.size : Nat) = 65536 from rfl,
    Int.bmod_eq_of_le (by omega) (by omega)]

/-- A symbol for a small address is loaded as that address. -/
theorem Assembler.toInt_operandValue {sym : Assembler} {name : Text} {address : Nat}
    (hname : startsWithDigit name = false) (h : sym.lookup name = some address)
    (hlt : address < 32768) : ((sym.operandValue? name).getD 0).toInt = address := by
  rw [operandValue?_of_lookup hname h, Option.getD_some, toInt_ofNat hlt]

/-- The code addresses the cells that the stack machine does. -/
theorem Region.toInt_address (hp : ∀ i ∈ p, i.IsDecoded true)
    (hsym : (programSymbols p).HasPredefined) {r : Region} {n : Nat}
    (hr : slotProblem? true r n = none) (hstatic : r = .static → n ∈ staticOffsets p)
    {c c' : Int → Int16} (hbase : ∀ b : Base, c b.index = c' b.index)
    (hlt : r.cell (staticOffsets p) c' n < 32768) :
    (r.address (programSymbols p) c n).toInt = r.cell (staticOffsets p) c' n := by
  cases r with
  | based b => rw [address, cell, hbase]
  | static =>
    simp only [cell] at hlt ⊢
    rw [address, Assembler.toInt_operandValue rfl (lookup_static hp (hstatic rfl)) (by omega)]
    omega
  | pointer =>
    have hlookup : (programSymbols p).lookup (registerName firstPointerRegister n) = some (3 + n) :=
      hsym.lookup_symbol hr
    simp only [cell] at hlt ⊢
    rw [address, Assembler.toInt_operandValue rfl hlookup (by omega)]
    omega
  | temp =>
    have hlookup : (programSymbols p).lookup (registerName firstTempRegister n) = some (5 + n) :=
      hsym.lookup_symbol hr
    simp only [cell] at hlt ⊢
    rw [address, Assembler.toInt_operandValue rfl hlookup (by omega)]
    omega

end Program

end HackVM
