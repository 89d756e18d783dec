import HackVM.Proofs.OperandStack

/-!
# Comparisons

A comparison decides by the sign of the difference of its operands, and differences wrap around. So
`eq` is exact, but `gt` and `lt` agree with the order of the operands only as long as their
difference is a number of 16 bits, and they are wrong on all others (`apply_eq_truthValue_iff`).
-/

namespace HackVM

/-- The comparison of two values as signed integers. -/
def Relation.holds (x y : Int16) : Relation → Bool
  | eq => x.toInt = y.toInt
  | gt => y.toInt < x.toInt
  | lt => x.toInt < y.toInt

theorem truthValue_inj {a b : Bool} : truthValue a = truthValue b ↔ a = b := by
  cases a <;> cases b <;> decide

/-- Where a difference of two values of 16 bits comes to lie. -/
theorem toInt_sub_cases (x y : Int16) :
    ((x - y).toInt = x.toInt - y.toInt ∧ -32768 ≤ x.toInt - y.toInt ∧ x.toInt - y.toInt ≤ 32767) ∨
      ((x - y).toInt < 0 ∧ 32767 < x.toInt - y.toInt) ∨
      (0 < (x - y).toInt ∧ x.toInt - y.toInt < -32768) := by
  have hx := x.le_toInt
  have hx' := x.toInt_lt
  have hy := y.le_toInt
  have hy' := y.toInt_lt
  rw [Int16.toInt_sub, Int.bmod_def]
  split <;> omega

namespace Relation

theorem accepts_iff (rel : Relation) (v : Int16) :
    rel.accepts v = true ↔
      match rel with
      | eq => v.toInt = 0
      | gt => 0 < v.toInt
      | lt => v.toInt < 0 := by
  cases rel with
  | eq => simp [accepts, ← Int16.toInt_inj]
  | gt => simp [accepts, Int16.lt_iff_toInt_lt]
  | lt => simp [accepts, Int16.lt_iff_toInt_lt]

/-- The sign of the difference tells the order exactly if the difference does not wrap around. -/
theorem apply_eq_truthValue_iff (rel : Relation) (x y : Int16) :
    rel.apply x y = truthValue (rel.holds x y) ↔
      rel = eq ∨ (-32768 ≤ x.toInt - y.toInt ∧ x.toInt - y.toInt ≤ 32767) := by
  rw [apply, truthValue_inj, Bool.eq_iff_iff, accepts_iff]
  have hsub := toInt_sub_cases x y
  cases rel with
  | eq =>
    simp only [holds, decide_eq_true_eq, true_or, iff_true]
    omega
  | gt =>
    simp only [holds, decide_eq_true_eq, reduceCtorEq, false_or]
    omega
  | lt =>
    simp only [holds, decide_eq_true_eq, reduceCtorEq, false_or]
    omega

end Relation

section Block

variable {rom : List Word} {before after : List Instruction} {i : Instruction} {rel : Relation}

/-- What the block of a comparison does to a computer that has two values on the stack. -/
theorem Assembled.reaches_compare (h : Assembled (before ++ i :: after) rom)
    (hi : i.operation = .ok (.compare rel)) (hsize : codeSize (before ++ [i]) ≤ 65536)
    {m : Machine} (hrom : m.rom = rom.toArray) (hpc : m.pc = codeSize before)
    {vs : List Int16} {x y : Int16} (hstack : HoldsStack m.cells (y :: x :: vs))
    (hroom : stackStart + (vs.length + 2) ≤ memorySize) :
    ∃ m', m.Reaches m' ∧ m'.pc = codeSize (before ++ [i]) ∧
      HoldsStack m'.cells (rel.apply x y :: vs) ∧
      ∀ address : Int, address ≠ 0 → address ≠ stackStart + vs.length →
        m'.cells address = m.cells address := by
  have hsp := hstack.sp
  simp only [List.length_cons] at hsp
  have henabled :
      (Operation.compare rel).Enabled (programSymbols (before ++ i :: after)) m.cells := by
    refine ⟨?_, by omega, ?_, ?_, ?_⟩
    · simp only [Operation.command, Command.operands]
      omega
    · simp only [Operation.command, Command.depthChange]
      omega
    · intro t ht
      cases ht
    · intro r n hop
      cases hop
  obtain ⟨a', d', hleads⟩ := h.leads_block hi hsize henabled m.a m.d
  have hshows : m.Shows rom.toArray ⟨m.cells, m.a, m.d, codeSize before⟩ :=
    ⟨hrom, rfl, rfl, rfl, hpc⟩
  obtain ⟨m', hpath, hm', -⟩ := hleads m hshows hstack.stackStart_le
  have hcells : m'.cells =
      (Operation.compare rel).effect (programSymbols (before ++ i :: after)) m.cells :=
    hm'.cells_eq
  refine ⟨m', hpath.reaches, hm'.pc_eq, ?_, ?_⟩
  · rw [hcells, Operation.effect, hstack.top, hstack.second]
    exact hstack.replaceTwo _
  · intro address hzero hcell
    rw [hcells, Operation.effect, hstack.toInt_second, Function.update_of_ne hcell,
      Function.update_of_ne hzero]

/-- **Comparisons decide by the sign of the wrapped difference.** The block of a comparison replaces
the two topmost values by `-1` or `0` and leaves everything else, and the result is that of the
comparison as signed integers exactly for `eq` and for operands whose difference does not wrap
around. -/
theorem comparison_decides_by_difference {strict : Bool} {lines : List CommandLine}
    (hdecode : CommandLine.decodeAll strict lines = .ok (before ++ i :: after))
    (hassemble : assemble (assembly (before ++ i :: after)) = .ok rom)
    (hi : i.operation = .ok (.compare rel)) (hsize : codeSize (before ++ [i]) ≤ 65536)
    {m : Machine} (hrom : m.rom = rom.toArray) (hpc : m.pc = codeSize before)
    {s : List Int16} {x y : Int16} (hstack : m.stack? = some (s ++ [x, y])) :
    (∃ m', m.Reaches m' ∧ m'.pc = codeSize (before ++ [i]) ∧
      m'.stack? = some (s ++ [rel.apply x y]) ∧
      ∀ address : Int, address ≠ 0 → address ≠ stackStart + s.length →
        m'.cells address = m.cells address) ∧
    (rel.apply x y = truthValue (rel.holds x y) ↔
      rel = .eq ∨ (-32768 ≤ x.toInt - y.toInt ∧ x.toInt - y.toInt ≤ 32767)) := by
  refine ⟨?_, rel.apply_eq_truthValue_iff x y⟩
  obtain ⟨-, hroom, hholds⟩ := Machine.stack?_eq_some_iff.1 hstack
  simp only [List.reverse_append, List.reverse_cons, List.reverse_nil, List.nil_append,
    List.cons_append, List.length_append, List.length_cons, List.length_nil] at hholds hroom
  obtain ⟨m', hreaches, hpc', hholds', hframe⟩ :=
    (assembled_of_decode hdecode hassemble).reaches_compare hi hsize hrom hpc hholds
      (by rw [List.length_reverse]; omega)
  refine ⟨m', hreaches, hpc', ?_, ?_⟩
  · apply Machine.stack?_eq_some_iff.2
    refine ⟨by simp, ?_, ?_⟩
    · simp only [List.length_append, List.length_cons, List.length_nil]
      omega
    · rwa [List.reverse_append, List.reverse_singleton, List.singleton_append]
  · rwa [List.length_reverse] at hframe

/-- With `-32768` and `1` on the stack `lt` leaves `0`. -/
theorem lt_decides_by_difference :
    ∃ rom, assemble (assembly [(Operation.compare .lt).instruction 1]) = .ok rom ∧
      (∃ m', ((((Machine.load rom).poke 0 258).poke 256 (-32768)).poke 257 1).Reaches m' ∧
        m'.pc = 21 ∧ m'.stack? = some [0]) ∧
      Relation.lt.holds (-32768) 1 = true := by
  have hdecode : CommandLine.decodeAll true [⟨1, 1, utf8 "lt"⟩] =
      .ok ([] ++ (Operation.compare .lt).instruction 1 :: []) := by
    decide +kernel
  have hstack (rom : List Word) :
      ((((Machine.load rom).poke 0 258).poke 256 (-32768)).poke 257 1).stack? =
        some ([] ++ [-32768, 1]) := by
    rfl
  refine ⟨_, rfl, ?_, by decide⟩
  obtain ⟨⟨m', hreaches, hpc, hresult, -⟩, -⟩ :=
    comparison_decides_by_difference hdecode rfl rfl (by decide +kernel) rfl rfl (hstack _)
  exact ⟨m', hreaches, hpc, hresult⟩

/-- The program that compares `32767` with `-1` leaves `0` for `gt`, although `32767` is the
greater: it comes to the comparison after 21 steps. -/
theorem gt_wraps_around :
    ∃ rom, assemble (assembly [(Operation.literal 32767).instruction 1,
        (Operation.literal 1).instruction 2, (Operation.unary .neg).instruction 3,
        (Operation.compare .gt).instruction 4]) = .ok rom ∧
      (((Machine.load rom).poke 0 256).run 21).2 = some (.stepLimit 21 21) ∧
      (((Machine.load rom).poke 0 256).run 21).1.stack? = some [32767, -1] ∧
      (((Machine.load rom).poke 0 256).run 42).2 = none ∧
      (((Machine.load rom).poke 0 256).run 42).1.stack? = some [0] ∧
      Relation.gt.holds 32767 (-1) = true := by
  refine ⟨_, rfl, ?_, ?_, ?_, ?_, ?_⟩
  · decide +kernel
  · decide +kernel
  · decide +kernel
  · decide +kernel
  · decide

end Block

end HackVM
