import HackVM.Proofs.Runs

/-!
# What a compute word does

A compute word whose computation has a meaning needs the cell that `A` addresses if it reads or
writes it. If there is such a cell, or none is needed, the word stores the value of its computation
in the destinations and moves the program counter (`step_of_inMemory`); otherwise the step fails and
changes nothing but the step count (`step_of_not_inMemory`). There is no third way
(`step_compute_cases`), whatever the texts of the word are, so that every step is all or nothing
(`step_all_or_nothing`).
-/

namespace HackVM

namespace Machine

/-- The value of a computation. -/
def value (m : Machine) (c : Computation) : Int16 :=
  c.function.eval m.d (if c.readsMemory then m.cells m.a.toInt else m.a)

/-- The computer with a value in the cell that `A` addresses, if that is a destination. -/
def store (m : Machine) (dest : Text) (v : Int16) : Machine :=
  if dest.contains letterM then m.poke m.a.toInt v else m

theorem compute_of_inMemory {m : Machine} {dest comp : Text} {c : Computation}
    (hc : Computation.ofText? comp = some c)
    (hmem : c.readsMemory = true ∨ dest.contains letterM = true → InMemory m.a.toInt)
    (jump : Text) (line : Int) :
    m.compute dest comp jump line =
      ((m.store dest (m.value c)).finish dest jump (m.value c), none) := by
  have hpeek : (if c.readsMemory then m.peek? m.a.toInt else some m.a) =
      some (if c.readsMemory then m.cells m.a.toInt else m.a) := by
    cases hread : c.readsMemory with
    | false => rfl
    | true => exact peek?_of_inMemory m (hmem (Or.inl hread))
  rw [compute, hc, store]
  simp only [hpeek]
  cases hM : dest.contains letterM with
  | false => rfl
  | true =>
    obtain ⟨i, hi, -⟩ := cell?_of_inMemory (hmem (Or.inr hM))
    simp only [if_true, hi, poke]
    rfl

theorem compute_of_not_inMemory {m : Machine} {dest comp : Text} {c : Computation}
    (hc : Computation.ofText? comp = some c)
    (hneeds : c.readsMemory = true ∨ dest.contains letterM = true)
    (hout : ¬ InMemory m.a.toInt) (jump : Text) (line : Int) :
    ∃ fault : Fault, fault.IsOutside ∧ m.compute dest comp jump line = (m, some fault) := by
  have hcell := cell?_of_not_inMemory hout
  rw [compute, hc]
  cases hread : c.readsMemory with
  | true =>
    refine ⟨.readOutside line m.a, trivial, ?_⟩
    simp [hread, peek?, hcell]
  | false =>
    have hM : dest.contains letterM = true := hneeds.resolve_left (by simp [hread])
    refine ⟨.writeOutside line m.a, trivial, ?_⟩
    simp only [hread, Bool.false_eq_true, if_false, hM, if_true, hcell]

/-! ## What is stored -/

theorem cells_store {m : Machine} {dest : Text}
    (hmem : dest.contains letterM = true → InMemory m.a.toInt) (v : Int16) :
    (m.store dest v).cells =
      if dest.contains letterM then Function.update m.cells m.a.toInt v else m.cells := by
  unfold store
  split
  · next hM => exact cells_poke m (hmem hM) v
  · rfl

/-- A value in memory leaves everything else as it is. -/
theorem exists_ram_of_store (m : Machine) (dest : Text) (v : Int16) :
    ∃ ram, m.store dest v = { m with ram := ram } := by
  unfold store poke
  repeat' split
  · exact ⟨m.ram, rfl⟩
  · exact ⟨_, rfl⟩
  · exact ⟨m.ram, rfl⟩

/-- The computer has executed a compute word with this value. -/
structure Stored (m : Machine) (dest jump : Text) (v : Int16) (m' : Machine) : Prop where
  rom_eq : m'.rom = m.rom
  steps_eq : m'.steps = m.steps + 1
  cells_eq : m'.cells =
    if dest.contains letterM then Function.update m.cells m.a.toInt v else m.cells
  a_eq : m'.a = if dest.contains letterA then v else m.a
  d_eq : m'.d = if dest.contains letterD then v else m.d
  pc_eq : m'.pc = if jumpTaken jump v then (m'.a.toUInt16.toNat : Int) else m.pc + 1

theorem step_of_compute {m : Machine} {dest comp jump : Text} {line : Int}
    (h : m.fetch = some (.compute dest comp jump line)) :
    m.step = compute { m with steps := m.steps + 1 } dest comp jump line := by
  rw [step, h]
  rfl

section Fetched

variable {m : Machine} {dest comp jump : Text} {line : Int} {c : Computation}
  (h : m.fetch = some (.compute dest comp jump line)) (hc : Computation.ofText? comp = some c)

include h hc in
/-- A compute word stores the value of its computation. -/
theorem step_of_inMemory
    (hmem : c.readsMemory = true ∨ dest.contains letterM = true → InMemory m.a.toInt) :
    ∃ m', m.step = (m', none) ∧ m.Stored dest jump (m.value c) m' := by
  have hcompute := compute_of_inMemory (m := { m with steps := m.steps + 1 }) hc hmem jump line
  have hcells := cells_store (m := { m with steps := m.steps + 1 }) (fun hM => hmem (Or.inr hM))
    (m.value c)
  obtain ⟨ram, hram⟩ := exists_ram_of_store { m with steps := m.steps + 1 } dest (m.value c)
  refine ⟨_, (step_of_compute h).trans hcompute, ?_⟩
  have hvalue : value { m with steps := m.steps + 1 } c = m.value c := rfl
  rw [hvalue, hram]
  rw [hram] at hcells
  exact ⟨rfl, rfl, hcells, rfl, rfl, rfl⟩

include h hc in
/-- A compute word that needs a cell fails if there is none, and nothing else happens. -/
theorem step_of_not_inMemory (hneeds : c.readsMemory = true ∨ dest.contains letterM = true)
    (hout : ¬ InMemory m.a.toInt) :
    ∃ fault : Fault, fault.IsOutside ∧
      m.step = ({ m with steps := m.steps + 1 }, some fault) := by
  rw [step_of_compute h]
  exact compute_of_not_inMemory (m := { m with steps := m.steps + 1 }) hc hneeds hout jump line

end Fetched

/-! ## All or nothing -/

/-- The computation of a word has this meaning, and the cell that it reads or writes is there. -/
def Executes (m : Machine) (dest comp : Text) (c : Computation) : Prop :=
  Computation.ofText? comp = some c ∧
    (c.readsMemory = true ∨ dest.contains letterM = true → InMemory m.a.toInt)

/-- A compute word is executed, or it fails and only the step is counted. -/
theorem step_compute_cases {m : Machine} {dest comp jump : Text} {line : Int}
    (h : m.fetch = some (.compute dest comp jump line)) :
    (∃ c m', m.Executes dest comp c ∧ m.step = (m', none) ∧ m.Stored dest jump (m.value c) m') ∨
      (∀ c, ¬ m.Executes dest comp c) ∧
        ∃ fault, m.step = ({ m with steps := m.steps + 1 }, some fault) := by
  cases hc : Computation.ofText? comp with
  | none =>
    refine .inr ⟨fun c hexecutes => ?_, .invalidComputation line comp, ?_⟩
    · rw [Executes, hc] at hexecutes
      cases hexecutes.1
    · rw [step_of_compute h, compute, hc]
  | some c =>
    by_cases hmem : c.readsMemory = true ∨ dest.contains letterM = true → InMemory m.a.toInt
    · obtain ⟨m', hstep, hstored⟩ := step_of_inMemory h hc hmem
      exact .inl ⟨c, m', ⟨hc, hmem⟩, hstep, hstored⟩
    · refine .inr ⟨fun c' hexecutes => ?_, ?_⟩
      · obtain rfl := Option.some.inj (hc.symm.trans hexecutes.1)
        exact hmem hexecutes.2
      · obtain ⟨hneeds, hout⟩ := Classical.not_imp.1 hmem
        obtain ⟨fault, -, hstep⟩ := step_of_not_inMemory h hc hneeds hout
        exact ⟨fault, hstep⟩

/-- Only compute words fail. -/
theorem fetch_of_fault {m m' : Machine} {fault : Fault} (h : m.step = (m', some fault)) :
    ∃ dest comp jump line, m.fetch = some (.compute dest comp jump line) := by
  cases hfetch : m.fetch with
  | none =>
    rw [step, hfetch] at h
    cases h
  | some w =>
    cases w with
    | address value line =>
      rw [step, hfetch] at h
      cases h
    | compute dest comp jump line => exact ⟨dest, comp, jump, line, rfl⟩

/-- **A step does all that its word says or nothing.** A step that fails only counts. A compute word
is executed exactly if its computation has a meaning and the cell that it reads or writes is there.
Then one value, computed from the registers and the memory as they were, goes to all destinations of
the word, to `M` under the address that was in `A` before; everything else stays, and a jump goes to
the address that is in `A` now. -/
theorem step_all_or_nothing (m : Machine) :
    (∀ m' fault, m.step = (m', some fault) → m' = { m with steps := m.steps + 1 }) ∧
    ∀ dest comp jump line, m.fetch = some (.compute dest comp jump line) →
      (m.step.2 = none ↔ ∃ c, m.Executes dest comp c) ∧
      ∀ m', m.step = (m', none) →
        ∃ c, m.Executes dest comp c ∧ m.Stored dest jump (m.value c) m' := by
  refine ⟨fun m' fault hstep => ?_, fun dest comp jump line hfetch => ?_⟩
  · obtain ⟨dest, comp, jump, line, hfetch⟩ := fetch_of_fault hstep
    rcases step_compute_cases hfetch with ⟨c, m'', -, hnone, -⟩ | ⟨-, fault', hfails⟩
    · rw [hnone] at hstep
      cases hstep
    · rw [hfails] at hstep
      cases hstep
      rfl
  · rcases step_compute_cases hfetch with
      ⟨c, m'', hexecutes, hnone, hstored⟩ | ⟨hnot, fault, hfails⟩
    · refine ⟨iff_of_true (by rw [hnone]) ⟨c, hexecutes⟩, fun m' hstep => ⟨c, hexecutes, ?_⟩⟩
      rw [hnone] at hstep
      cases hstep
      exact hstored
    · refine ⟨iff_of_false (by simp [hfails]) (fun ⟨c, hexecutes⟩ => hnot c hexecutes), ?_⟩
      intro m' hstep
      rw [hfails] at hstep
      cases hstep

/-- A word with every destination, which reads its cell and jumps: the cell 5 is written, not the
cell 8, but the jump goes to 8. With -1 in `A` instead, nothing is changed but the count. -/
theorem step_all_or_nothing_every_destination :
    let m : Machine := { load [.compute (utf8 "AMD") (utf8 "M+1") (utf8 "JMP") 1] with
      ram := (Vector.replicate memorySize 0).set 5 7, a := 5 }
    let far : Machine := { m with a := -1 }
    (m.step.1.cells = Function.update m.cells 5 8 ∧ m.step.1.a = 8 ∧ m.step.1.d = 8 ∧
      m.step.1.pc = 8) ∧
    far.step.2 = some (.readOutside 1 (-1)) ∧ far.step.1 = { far with steps := 1 } := by
  intro m far
  have hfetch : m.fetch = some (.compute (utf8 "AMD") (utf8 "M+1") (utf8 "JMP") 1) := rfl
  have hmeaning : Computation.ofText? (utf8 "M+1") = some ⟨.succX, true⟩ := by decide
  have hcell : InMemory (5 : Int16).toInt := by decide
  obtain ⟨hexecuted, hstored⟩ := (step_all_or_nothing m).2 _ _ _ _ hfetch
  have hnone : m.step.2 = none := hexecuted.2 ⟨_, hmeaning, fun _ => hcell⟩
  obtain ⟨c, ⟨hc, -⟩, hstored⟩ := hstored m.step.1 (by rw [← hnone])
  obtain rfl := Option.some.inj (hmeaning.symm.trans hc)
  have hvalue : m.value ⟨.succX, true⟩ = 8 := by decide +kernel
  rw [hvalue] at hstored
  have hfails : far.step = (far.step.1, some (.readOutside 1 (-1))) := by rfl
  refine ⟨⟨hstored.cells_eq, hstored.a_eq, hstored.d_eq, ?_⟩, by rw [hfails], ?_⟩
  · rw [hstored.pc_eq, hstored.a_eq]
    decide
  · exact (step_all_or_nothing far).1 _ _ hfails

end Machine

end HackVM
