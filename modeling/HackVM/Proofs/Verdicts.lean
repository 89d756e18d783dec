import HackVM.Conformance.Check
import HackVM.Proofs.OperandStack

/-!
# When a test passes

A test that expects a stack compiles its source, checks the assembly, runs it and compares memory.
Here each of these checks is put as a condition: what the assembly must be like
(`Expectation.Allows`), which computer the test starts with (`Machine.start`), that a halted
computer is reached from it in time (`runAssembly_eq_ok_iff`), and what the cells of that computer
must hold (`Machine.StackIs`, `Machine.Holds`). `passes_iff_of_stack` puts them together. One
condition is weaker than it should be. A stack pointer that does not point to a stack is taken for
an empty stack (`checkStack_eq_ok_iff`), so a test that expects an empty stack passes also where the
program has taken more from the stack than it put there.
-/

namespace HackVM

/-! ## The memory that a test starts with -/

namespace Cells

/-- The value that is put at an address; the last one counts. -/
def value? : Cells → Int → Option Int
  | [], _ => none
  | c :: cs, address => (value? cs address).or (if c.1 = address then some c.2 else none)

end Cells

/-- The value at an address before a test: from its setup, else a default pointer, else zero. -/
def startValue (setup : Cells) (address : Int) : Int :=
  ((setup.value? address).or (defaultCells.value? address)).getD 0

/-- The computer that a test starts with. -/
def Machine.start (program : List Word) (setup : Cells) : Machine :=
  { Machine.load program with ram := Vector.ofFn fun i => Int16.ofInt (startValue setup i) }

namespace Machine

theorem ram_eq_of_cells {m m' : Machine} (h : ∀ i : Fin memorySize, m.cells i = m'.cells i) :
    m.ram = m'.ram := by
  refine Vector.ext fun i hi => ?_
  have hi := h ⟨i, hi⟩
  rwa [cells_eq_get, cells_eq_get] at hi

theorem cells_start (program : List Word) (setup : Cells) (i : Fin memorySize) :
    (start program setup).cells i = Int16.ofInt (startValue setup i) := by
  rw [cells_eq_get, start]
  exact Vector.getElem_ofFn i.isLt

theorem cells_load (program : List Word) (i : Fin memorySize) : (load program).cells i = 0 := by
  rw [cells_eq_get, load]
  exact Vector.getElem_replicate i.isLt

/-- Setting cells changes nothing but memory. -/
theorem exists_ram_of_fill (m : Machine) (cs : Cells) : ∃ ram, m.fill cs = { m with ram } := by
  induction cs generalizing m with
  | nil => exact ⟨m.ram, rfl⟩
  | cons c cs ih =>
    obtain ⟨ram, hram⟩ := ih (m.poke c.1 (Int16.ofInt c.2))
    refine ⟨ram, hram.trans ?_⟩
    unfold poke
    split <;> rfl

theorem cells_fill (m : Machine) {cs : Cells} (h : ∀ c ∈ cs, InMemory c.1) (address : Int) :
    (m.fill cs).cells address = ((cs.value? address).map Int16.ofInt).getD (m.cells address) := by
  induction cs generalizing m with
  | nil => rfl
  | cons c cs ih =>
    have hrest := ih (m.poke c.1 (Int16.ofInt c.2)) fun c' hc' => h c' (by simp [hc'])
    rw [cells_poke m (h c (by simp))] at hrest
    refine hrest.trans ?_
    rw [Cells.value?]
    cases Cells.value? cs address with
    | some v => rfl
    | none =>
      by_cases hc : c.1 = address
      · simp [hc]
      · simp [hc, Function.update_of_ne (Ne.symm hc)]

/-- Setting the default pointers and then the cells of a test. -/
theorem fill_defaultCells_fill (program : List Word) {setup : Cells}
    (h : ∀ c ∈ setup, InMemory c.1) :
    ((load program).fill defaultCells).fill setup = start program setup := by
  have hdefault : ∀ c ∈ defaultCells, InMemory c.1 := by decide
  have hcells (i : Fin memorySize) : (((load program).fill defaultCells).fill setup).cells i =
      (start program setup).cells i := by
    rw [cells_fill _ h, cells_fill _ hdefault, cells_load, cells_start, startValue]
    cases setup.value? i with
    | some v => rfl
    | none => cases defaultCells.value? i <;> rfl
  have hram := ram_eq_of_cells hcells
  obtain ⟨ram, hfill⟩ := exists_ram_of_fill (load program) defaultCells
  obtain ⟨ram', hfill'⟩ := exists_ram_of_fill ((load program).fill defaultCells) setup
  rw [hfill'] at hram ⊢
  rw [hfill, show ram' = (start program setup).ram from hram]
  rfl

end Machine

/-! ## Checks -/

theorem eq_ofInt_iff {v : Int16} {n : Int} : v = Int16.ofInt n ↔ v.toInt ≡ n [ZMOD 2 ^ 16] := by
  rw [eq_comm, Int16.ofInt_eq_iff_bmod_eq_toInt, Int.ModEq]
  constructor
  · intro h
    rw [← h]
    exact Int.bmod_emod
  · intro h
    have hmod : v.toInt % (2 ^ 16 : Nat) = n % (2 ^ 16 : Nat) := h
    calc n.bmod (2 ^ 16) = (v.toInt % (2 ^ 16 : Nat)).bmod (2 ^ 16) := by
          rw [hmod, Int.emod_bmod]
      _ = v.toInt := (Int.emod_bmod _ _).trans v.toInt_bmod

namespace Machine

/-- The cell at an address holds a value, up to a multiple of `2 ^ 16`. -/
def Holds (m : Machine) (address value : Int) : Prop :=
  ∃ v, m.peek? address = some v ∧ v.toInt ≡ value [ZMOD 2 ^ 16]

theorem checkCell_eq_ok_iff {m : Machine} {address value : Int} :
    m.checkCell address value = .ok () ↔ m.Holds address value := by
  simp only [checkCell, Holds, ← eq_ofInt_iff]
  cases m.peek? address with
  | none => simp
  | some v => simp

theorem checkCells_eq_ok_iff {m : Machine} {cs : Cells} :
    m.checkCells cs = .ok () ↔ ∀ c ∈ cs, m.Holds c.1 c.2 := by
  induction cs with
  | nil => simp [checkCells]
  | cons c cs ih =>
    rw [List.forall_mem_cons, ← ih, ← checkCell_eq_ok_iff, checkCells]
    cases m.checkCell c.1 c.2 with
    | error e => simp [bind, Except.bind]
    | ok u => simp [bind, Except.bind]

/-- The values lie on the stack, the top last, up to multiples of `2 ^ 16`, and nothing else
does. -/
structure StackIs (m : Machine) (xs : List Int) : Prop where
  sp : (m.cells 0).toInt = stackStart + xs.length
  holds : ∀ (i : Nat) (x : Int), xs[i]? = some x → m.Holds (stackStart + i) x

theorem Holds.inMemory {m : Machine} {address value : Int} (h : m.Holds address value) :
    InMemory address := by
  obtain ⟨v, hv, -⟩ := h
  by_contra hnot
  simp [peek?, cell?_of_not_inMemory hnot] at hv

theorem holds_iff {m : Machine} {address value : Int} (h : InMemory address) :
    m.Holds address value ↔ m.cells address = Int16.ofInt value := by
  rw [Holds, peek?_of_inMemory m h]
  simp only [Option.some.injEq, exists_eq_left', eq_ofInt_iff]

theorem StackIs.le_memorySize {m : Machine} {xs : List Int} (h : m.StackIs xs) (hne : xs ≠ []) :
    stackStart + xs.length ≤ memorySize := by
  have hpos := List.length_pos_iff.2 hne
  have hlast := (h.holds (xs.length - 1) _ (List.getElem?_eq_getElem (by omega))).inMemory.2
  omega

theorem stack?_eq_some_map_iff {m : Machine} {xs : List Int} (hne : xs ≠ []) :
    m.stack? = some (xs.map Int16.ofInt) ↔ m.StackIs xs := by
  have hcells (hsize : stackStart + xs.length ≤ memorySize) :
      (∀ j < xs.length, (xs.map Int16.ofInt)[j]? = some (m.cells (stackStart + j))) ↔
        ∀ (i : Nat) (x : Int), xs[i]? = some x → m.Holds (stackStart + i) x := by
    constructor
    · intro h i x hx
      have hi : i < xs.length := (List.getElem?_eq_some_iff.1 hx).1
      have hget := h i hi
      rw [List.getElem?_map, hx, Option.map_some, Option.some.injEq] at hget
      exact (holds_iff ⟨by omega, by omega⟩).2 hget.symm
    · intro h j hj
      have hget := h j _ (List.getElem?_eq_getElem hj)
      rw [holds_iff ⟨by omega, by omega⟩] at hget
      rw [List.getElem?_map, List.getElem?_eq_getElem hj, Option.map_some, hget]
  rw [stack?_eq_some_iff, List.length_map]
  constructor
  · rintro ⟨-, hsize, hsp, hvalues⟩
    rw [List.length_reverse, List.length_map] at hsp
    rw [onStack_iff, List.length_reverse, List.length_map, List.reverse_reverse] at hvalues
    exact ⟨hsp, (hcells hsize).1 hvalues⟩
  · intro h
    have hsize := h.le_memorySize hne
    refine ⟨by simpa using hne, hsize, ?_, ?_⟩
    · rw [List.length_reverse, List.length_map]
      exact h.sp
    · rw [onStack_iff, List.length_reverse, List.length_map, List.reverse_reverse]
      exact (hcells hsize).2 h.holds

theorem stack?_eq_none_iff {m : Machine} :
    m.stack? = none ↔ (m.cells 0).toInt ≤ stackStart ∨ (memorySize : Int) < (m.cells 0).toInt := by
  rw [stack?, stackEnd?_eq]
  split
  · next h => simpa using h
  · next h => simpa using h

end Machine

namespace Expectation

/-- The expected values lie on the stack, or none are expected and the stack pointer does not point
to a stack. -/
theorem checkStack_eq_ok_iff {e : Expectation} {m : Machine} {xs : List Int}
    (h : e.stack = some xs) :
    e.checkStack m = .ok () ↔ m.StackIs xs ∨
      xs = [] ∧ ((m.cells 0).toInt < stackStart ∨ (memorySize : Int) < (m.cells 0).toInt) := by
  have hcheck : e.checkStack m = .ok () ↔ m.stack?.getD [] = xs.map Int16.ofInt := by
    simp [checkStack, h]
  rw [hcheck]
  by_cases hne : xs = []
  · subst hne
    have hnone : m.stack?.getD [] = [] ↔ m.stack? = none := by
      cases hstack : m.stack? with
      | none => simp
      | some l => simpa using (Machine.stack?_eq_some_iff.1 hstack).1
    have hempty : m.StackIs [] ↔ (m.cells 0).toInt = stackStart :=
      ⟨fun h => by simpa using h.sp, fun h => ⟨by simpa using h, by simp⟩⟩
    rw [List.map_nil, hnone, Machine.stack?_eq_none_iff, hempty]
    simp only [true_and]
    omega
  · have hsome : m.stack?.getD [] = xs.map Int16.ofInt ↔ m.stack? = some (xs.map Int16.ofInt) := by
      cases m.stack? with
      | none => simpa using Ne.symm hne
      | some l => simp
    rw [hsome, Machine.stack?_eq_some_map_iff hne]
    simp [hne]

theorem compareLines_eq_ok_iff {n : Nat} {es as : List Text} (h : as.length = es.length) :
    compareLines n es as = .ok () ↔ as = es := by
  induction es generalizing n as with
  | nil =>
    rw [List.length_nil, List.length_eq_zero_iff] at h
    simp [compareLines, h]
  | cons e es ih =>
    cases as with
    | nil => cases h
    | cons a as =>
      rw [compareLines, List.cons.injEq]
      split
      · next hsame => simp [hsame, ih (Nat.succ.inj h)]
      · next hother => simp [hother]

/-- The assembly of a test has the expected lines and the expected number of comparisons. -/
structure Allows (e : Expectation) (assembly : Text) (labels : Int64) : Prop where
  lines : ∀ ls, e.lines = some ls → assemblyLines assembly = ls
  contains : ∀ l ∈ e.contains.getD [], l ∈ assemblyLines assembly
  labels : ∀ n, e.labels = some n → labels.toInt = n

theorem checkLines_eq_ok_iff {e : Expectation} {assembly : Text} :
    e.checkLines assembly = .ok () ↔ ∀ ls, e.lines = some ls → assemblyLines assembly = ls := by
  rw [checkLines]
  cases e.lines with
  | none => simp
  | some ls =>
    by_cases hlength : (assemblyLines assembly).length = ls.length
    · simp [hlength, compareLines_eq_ok_iff hlength]
    · have hne : assemblyLines assembly ≠ ls := fun h => hlength (congrArg List.length h)
      simp [hlength, hne]

theorem checkContains_eq_ok_iff {e : Expectation} {assembly : Text} :
    e.checkContains assembly = .ok () ↔
      ∀ l ∈ e.contains.getD [], l ∈ assemblyLines assembly := by
  simp only [checkContains]
  split
  · next l hfind =>
    simp only [reduceCtorEq, false_iff]
    intro h
    have hl := h l (List.mem_of_find?_eq_some hfind)
    simpa [hl] using List.find?_some hfind
  · next hfind => simpa using List.find?_eq_none.1 hfind

theorem checkLabels_eq_ok_iff {e : Expectation} {labels : Int64} :
    e.checkLabels labels = .ok () ↔ ∀ n, e.labels = some n → labels.toInt = n := by
  rw [checkLabels]
  cases e.labels with
  | none => simp
  | some n => simp

end Expectation

/-! ## Verdicts -/

/-- The step limit of a test that is run with the given one. -/
def stepLimit (limit : Int64) : Int64 := if limit ≤ 0 then defaultStepLimit else limit

theorem find?_cell?_eq_none_iff {setup : Cells} :
    (setup.find? fun c => (Machine.cell? c.1).isNone) = none ↔ ∀ c ∈ setup, InMemory c.1 := by
  rw [List.find?_eq_none]
  refine forall₂_congr fun c _ => ?_
  by_cases h : InMemory c.1
  · obtain ⟨i, hi, -⟩ := Machine.cell?_of_inMemory h
    simp [hi, h]
  · simp [Machine.cell?_of_not_inMemory h, h]

theorem runAssembly_eq_ok_iff {assembly : Text} {setup : Cells} {limit : Int64} {m : Machine} :
    runAssembly assembly setup limit = .ok m ↔
      (∀ c ∈ setup, InMemory c.1) ∧ ∃ program, assemble assembly = .ok program ∧
        m.isHalted = true ∧ ∃ n : Nat, (n : Int) ≤ (stepLimit limit).toInt ∧
          (Machine.start program setup).ReachesIn n m := by
  have hlimit : 0 ≤ (stepLimit limit).toInt := by
    unfold stepLimit
    split
    · decide
    · next h => exact Int64.le_iff_toInt_le.1 (Int64.le_of_lt (Int64.not_le.1 h))
  rw [runAssembly]
  cases assemble assembly with
  | error e => simp
  | ok program =>
    cases hfind : setup.find? fun c => (Machine.cell? c.1).isNone with
    | some c =>
      have hnot : ¬ ∀ c ∈ setup, InMemory c.1 := by
        rw [← find?_cell?_eq_none_iff, hfind]
        exact nofun
      simp only [reduceCtorEq, hnot, false_and]
    | none =>
      have hall := find?_cell?_eq_none_iff.1 hfind
      have hleft : max 0 ((stepLimit limit).toInt - (Machine.start program setup).steps.toInt) =
          (stepLimit limit).toInt := by
        rw [show (Machine.start program setup).steps = 0 from rfl, Int64.toInt_zero, Int.sub_zero]
        exact Int.max_eq_right hlimit
      have hhalts : m.isHalted = true ∧ (∃ n : Nat, (n : Int) ≤ (stepLimit limit).toInt ∧
          (Machine.start program setup).ReachesIn n m) ↔
          (Machine.start program setup).run (stepLimit limit) = (m, none) := by
        rw [Machine.run_eq_iff, hleft]
      simp only [Machine.fill_defaultCells_fill program hall, Except.ok.injEq, exists_eq_left',
        hhalts, and_iff_right hall]
      rcases hrun : (Machine.start program setup).run (stepLimit limit) with ⟨m', _ | fault⟩
      · rw [stepLimit] at hrun
        simp [hrun]
      · rw [stepLimit] at hrun
        simp [hrun]

theorem bind_eq_ok_iff {ε α β : Type} {x : Except ε α} {f : α → Except ε β} {b : β} :
    x >>= f = .ok b ↔ ∃ a, x = .ok a ∧ f a = .ok b := by
  cases x with
  | error e => simp [bind, Except.bind]
  | ok a => simp [bind, Except.bind]

namespace TestCase

theorem run_eq_passed_iff {c : TestCase} {limit : Int64} (hskip : c.skip.reason? = none) :
    c.run limit = .passed ↔ c.check limit = .ok () := by
  rw [run, hskip]
  cases c.check limit with
  | error m => simp
  | ok u => simp

theorem checkCompiled_eq_ok_iff {c : TestCase} {assembly : Text} {labels limit : Int64}
    {xs : List Int} (hstack : c.expect.stack = some xs) :
    c.checkCompiled assembly labels limit = .ok () ↔
      c.expect.Allows assembly labels ∧
      ∃ m, runAssembly assembly (c.setup.getD []) limit = .ok m ∧
        c.expect.checkStack m = .ok () ∧ m.checkCells (c.expect.ram.getD []) = .ok () := by
  have hallows : c.expect.Allows assembly labels ↔ c.expect.checkLines assembly = .ok () ∧
      c.expect.checkContains assembly = .ok () ∧ c.expect.checkLabels labels = .ok () := by
    rw [Expectation.checkLines_eq_ok_iff, Expectation.checkContains_eq_ok_iff,
      Expectation.checkLabels_eq_ok_iff]
    exact ⟨fun h => ⟨h.lines, h.contains, h.labels⟩, fun h => ⟨h.1, h.2.1, h.2.2⟩⟩
  rw [hallows, checkCompiled]
  simp only [bind_eq_ok_iff, hstack, Option.isSome_some, Bool.true_or, if_true]
  constructor
  · rintro ⟨_, hlines, _, hcontains, _, hlabels, m, hrun, _, hcheck, hcells⟩
    exact ⟨⟨hlines, hcontains, hlabels⟩, m, hrun, hcheck, hcells⟩
  · rintro ⟨⟨hlines, hcontains, hlabels⟩, m, hrun, hcheck, hcells⟩
    exact ⟨(), hlines, (), hcontains, (), hlabels, m, hrun, (), hcheck, hcells⟩

/-- **When a test with an expected stack passes.** The source is compiled, and its assembly is as
expected; all addresses of the test lie in memory; and the assembled program, started with the cells
of the test over the default pointers, halts within the step limit, with the expected values in
memory and on the stack. If no values are expected on the stack, the stack pointer may also lie
outside of it. -/
theorem passes_iff_of_stack {c : TestCase} {limit : Int64} {xs : List Int}
    (hskip : c.skip.reason? = none) (herror : c.expect.error = [])
    (hstack : c.expect.stack = some xs) :
    c.run limit = .passed ↔
      ∃ assembly program final,
        (compileText (c.name ++ utf8 ".vm") c.source c.options).assembly = .ok assembly ∧
        c.expect.Allows assembly (compileText (c.name ++ utf8 ".vm") c.source c.options).labels ∧
        (∀ cell ∈ c.setup.getD [] ++ c.expect.ram.getD [], InMemory cell.1) ∧
        assemble assembly = .ok program ∧
        (∃ n : Nat, (n : Int) ≤ (stepLimit limit).toInt ∧
          (Machine.start program (c.setup.getD [])).ReachesIn n final) ∧ final.isHalted = true ∧
        (final.StackIs xs ∨ xs = [] ∧ ((final.cells 0).toInt < stackStart ∨
          (memorySize : Int) < (final.cells 0).toInt)) ∧
        ∀ cell ∈ c.expect.ram.getD [], final.Holds cell.1 cell.2 := by
  rw [run_eq_passed_iff hskip, check, if_neg (not_not.2 herror)]
  cases (compileText (c.name ++ utf8 ".vm") c.source c.options).assembly with
  | error d => simp
  | ok assembly =>
    simp only [checkCompiled_eq_ok_iff hstack, runAssembly_eq_ok_iff, Machine.checkCells_eq_ok_iff,
      Expectation.checkStack_eq_ok_iff hstack]
    constructor
    · rintro ⟨hallows, final, ⟨hsetup, program, hprogram, hhalted, hreaches⟩, hfinal, hram⟩
      refine ⟨assembly, program, final, rfl, hallows, fun cell hcell => ?_, hprogram, hreaches,
        hhalted, hfinal, hram⟩
      rcases List.mem_append.1 hcell with hcell | hcell
      · exact hsetup cell hcell
      · exact (hram cell hcell).inMemory
    · rintro ⟨_, program, final, hassembly, hallows, hcells, hprogram, hreaches, hhalted, hfinal,
        hram⟩
      obtain rfl := Except.ok.inj hassembly
      exact ⟨hallows, final, ⟨fun cell hcell => hcells cell (List.mem_append_left _ hcell), program,
        hprogram, hhalted, hreaches⟩, hfinal, hram⟩

/-- A sum, with values that agree only up to multiples of `2 ^ 16`. -/
theorem passes_iff_of_stack_sum :
    let c : TestCase := {
      source := utf8 "push local 0\npush constant 8\nadd\n"
      setup := some [(300, 65543)]
      expect := { stack := some [-65521], ram := some [(257, 8)], labels := some 0 } }
    c.run 0 = .passed ∧ ∃ program final, (Machine.start program [(300, 65543)]).Reaches final ∧
      final.isHalted = true ∧ final.StackIs [-65521] := by
  intro c
  have hpassed : c.run 0 = .passed := by decide +kernel
  obtain
    ⟨assembly, program, final, -, -, -, -, ⟨n, -, hreaches⟩, hhalted, hstack | ⟨hempty, -⟩, -⟩ :=
    (passes_iff_of_stack rfl rfl rfl).1 hpassed
  · exact ⟨hpassed, program, final, hreaches.reaches, hhalted, hstack⟩
  · cases hempty

/-- The program takes a value from the empty stack, so the stack pointer ends below the stack. -/
theorem empty_stack_passes_below_start :
    let c : TestCase := { source := utf8 "pop temp 0\n", expect := { stack := some [] } }
    c.run 0 = .passed ∧ ∃ assembly final,
      (compileText (c.name ++ utf8 ".vm") c.source c.options).assembly = .ok assembly ∧
      runAssembly assembly [] 0 = .ok final ∧ (final.cells 0).toInt = 255 := by
  intro c
  let assembly := utf8
    "// pop temp 0\n@R5\nD=A\n@R13\nM=D\n@SP\nM=M-1\nA=M\nD=M\n@R13\nA=M\nM=D\n"
  have hassembly : (compileText (c.name ++ utf8 ".vm") c.source c.options).assembly =
      .ok assembly := by decide +kernel
  have hsp : ((runAssembly assembly [] 0).toOption.map fun m => (m.cells 0).toInt) = some 255 := by
    decide +kernel
  refine ⟨by decide +kernel, assembly, ?_⟩
  cases hrun : runAssembly assembly [] 0 with
  | error e => simp [hrun, Except.toOption] at hsp
  | ok final =>
    rw [hrun] at hsp
    exact ⟨final, hassembly, rfl, Option.some.inj hsp⟩

end TestCase

end HackVM
