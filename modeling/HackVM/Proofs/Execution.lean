import HackVM.Proofs.Layout
import HackVM.Proofs.Stepping

/-!
# Executing placed lines

A `View` is what of a computer changes as it runs, with memory as a function of the address.
A line of code that stands at the program counter acts on views: `step_load` and `step_compute` say
how, and `step_outside` says when it fails instead.

Blocks keep the stack pointer at or above the beginning of the stack and move forward in the
program. `Leads` says that steps of this kind take every computer with one view to one with another
view; the rules for single lines compose by `Leads.trans`.
-/

namespace HackVM

/-- What of a computer changes as it runs. -/
structure View where
  cells : Int → Int16
  a : Int16
  d : Int16
  pc : Nat

namespace View

/-- The address one past the top of the stack. -/
def sp (s : View) : Int := (s.cells 0).toInt

/-- The value of a computation. -/
def value (s : View) (c : Computation) : Int16 :=
  c.function.eval s.d (if c.readsMemory then s.cells s.a.toInt else s.a)

/-- The view after a compute word. -/
def compute (s : View) (dest : Text) (c : Computation) (jump : Text) : View where
  cells := if dest.contains letterM then Function.update s.cells s.a.toInt (s.value c) else s.cells
  a := if dest.contains letterA then s.value c else s.a
  d := if dest.contains letterD then s.value c else s.d
  pc :=
    if jumpTaken jump (s.value c) then
      (if dest.contains letterA then s.value c else s.a).toUInt16.toNat
    else s.pc + 1

end View

namespace Machine

/-- The computer has the program and the view. -/
structure Shows (m : Machine) (rom : Array Word) (s : View) : Prop where
  rom_eq : m.rom = rom
  cells_eq : m.cells = s.cells
  a_eq : m.a = s.a
  d_eq : m.d = s.d
  pc_eq : m.pc = s.pc

/-! ## Single steps -/

theorem Shows.fetch {m : Machine} {rom : Array Word} {s : View} (h : m.Shows rom s) :
    m.fetch = rom[s.pc]? := by
  rw [Machine.fetch, if_neg (by rw [h.pc_eq]; omega), h.rom_eq, h.pc_eq]
  rfl

section Placed

variable {sym : Assembler} {rom : Array Word} {m : Machine} {s : View}

theorem step_load {operand : Text} (h : m.Shows rom s)
    (hp : (AsmLine.load operand).PlacedAt sym rom s.pc) :
    ∃ m', m.step = (m', none) ∧
      m'.Shows rom { s with a := (sym.operandValue? operand).getD 0, pc := s.pc + 1 } := by
  obtain ⟨w, hw, v, line, hv, rfl⟩ := hp.word rfl
  refine ⟨{ m with a := v, pc := m.pc + 1, steps := m.steps + 1 }, ?_, h.rom_eq, h.cells_eq, ?_,
    h.d_eq, ?_⟩
  · rw [step, h.fetch, hw]
    rfl
  · simp [hv]
  · simp [h.pc_eq]

/-- The word of a compute line stands at the program counter. -/
theorem fetch_compute {code dest jump : Text} {c : Computation} (h : m.Shows rom s)
    (hp : (AsmLine.compute code).PlacedAt sym rom s.pc) (hd : Decodes code dest c jump) :
    ∃ comp number, Computation.ofText? comp = some c ∧
      m.fetch = some (.compute dest comp jump number) := by
  obtain ⟨w, hw, number, hencode⟩ := hp.word rfl
  obtain ⟨comp, hc, hencode'⟩ := hd.encode
  obtain rfl := Except.ok.inj ((hencode' number).symm.trans hencode)
  exact ⟨comp, number, hc, h.fetch.trans hw⟩

theorem step_compute {code dest jump : Text} {c : Computation} (h : m.Shows rom s)
    (hp : (AsmLine.compute code).PlacedAt sym rom s.pc) (hd : Decodes code dest c jump)
    (hmem : c.readsMemory = true ∨ dest.contains letterM = true → InMemory s.a.toInt) :
    ∃ m', m.step = (m', none) ∧ m'.Shows rom (s.compute dest c jump) := by
  obtain ⟨comp, number, hc, hfetch⟩ := fetch_compute h hp hd
  obtain ⟨m', hstep, hstored⟩ := step_of_inMemory hfetch hc (by rw [h.a_eq]; exact hmem)
  have hvalue : m.value c = s.value c := by
    rw [value, View.value, h.cells_eq, h.a_eq, h.d_eq]
  rw [hvalue] at hstored
  refine ⟨m', hstep, hstored.rom_eq.trans h.rom_eq, ?_, ?_, ?_, ?_⟩
  · rw [hstored.cells_eq, h.cells_eq, h.a_eq]
    rfl
  · rw [hstored.a_eq, h.a_eq]
    rfl
  · rw [hstored.d_eq, h.d_eq]
    rfl
  · rw [hstored.pc_eq, hstored.a_eq, h.a_eq, h.pc_eq, View.compute]
    split <;> simp

/-- A line that reads or writes a cell where there is none fails. -/
theorem step_outside {code dest jump : Text} {c : Computation} (h : m.Shows rom s)
    (hp : (AsmLine.compute code).PlacedAt sym rom s.pc) (hd : Decodes code dest c jump)
    (hmem : c.readsMemory = true ∨ dest.contains letterM = true) (hout : ¬ InMemory s.a.toInt) :
    ∃ m' fault, m.step = (m', some fault) ∧ fault.IsOutside := by
  obtain ⟨comp, number, hc, hfetch⟩ := fetch_compute h hp hd
  obtain ⟨fault, hfault, hstep⟩ := step_of_not_inMemory hfetch hc hmem (by rwa [h.a_eq])
  exact ⟨_, fault, hstep, hfault⟩

end Placed

end Machine

/-- Steps forward that keep the stack pointer at or above the beginning of the stack take every
computer with the first view to one with the second. -/
def Leads (rom : Array Word) (s t : View) : Prop :=
  ∀ m : Machine, m.Shows rom s → (stackStart : Int) ≤ s.sp →
    ∃ m', m.Path m' ∧ m'.Shows rom t ∧ (stackStart : Int) ≤ t.sp

namespace Leads

variable {sym : Assembler} {rom : Array Word}

theorem refl (s : View) : Leads rom s s := fun m h hsp => ⟨m, .refl, h, hsp⟩

theorem trans {s t u : View} (hst : Leads rom s t) (htu : Leads rom t u) : Leads rom s u := by
  intro m h hsp
  obtain ⟨m', hpath, h', hsp'⟩ := hst m h hsp
  obtain ⟨m'', hpath', h'', hsp''⟩ := htu m' h' hsp'
  exact ⟨m'', hpath.trans hpath', h'', hsp''⟩

theorem of_step {s t : View} (hpc : s.pc < t.pc)
    (hsp : (stackStart : Int) ≤ s.sp → stackStart ≤ t.sp)
    (hstep : ∀ m : Machine, m.Shows rom s → ∃ m', m.step = (m', none) ∧ m'.Shows rom t) :
    Leads rom s t := by
  intro m h hsp'
  obtain ⟨m', hm', h'⟩ := hstep m h
  refine ⟨m', .single ⟨hm', ?_, ?_⟩, h', hsp hsp'⟩
  · rw [h.pc_eq, h'.pc_eq]
    omega
  · rw [h'.cells_eq]
    exact hsp hsp'

variable {c : Int → Int16} {a d : Int16} {pc : Nat}

variable {code : Text} {comp : Computation} {v : Int16}

theorem load {operand : Text} (hp : (AsmLine.load operand).PlacedAt sym rom pc)
    (hv : (sym.operandValue? operand).getD 0 = v) : Leads rom ⟨c, a, d, pc⟩ ⟨c, v, d, pc + 1⟩ := by
  subst hv
  exact of_step (Nat.lt_succ_self pc) id fun _ h => Machine.step_load h hp

/-- A line that sets `D`. -/
theorem setD (hd : Decodes code (utf8 "D") comp [])
    (hp : (AsmLine.compute code).PlacedAt sym rom pc) (hv : View.value ⟨c, a, d, pc⟩ comp = v)
    (hmem : comp.readsMemory = true → InMemory a.toInt) :
    Leads rom ⟨c, a, d, pc⟩ ⟨c, a, v, pc + 1⟩ := by
  subst hv
  exact of_step (Nat.lt_succ_self pc) id fun _ h =>
    Machine.step_compute h hp hd fun hor => hmem (hor.resolve_right (by decide))

/-- A line that sets `A`. -/
theorem setA (hd : Decodes code (utf8 "A") comp [])
    (hp : (AsmLine.compute code).PlacedAt sym rom pc) (hv : View.value ⟨c, a, d, pc⟩ comp = v)
    (hmem : comp.readsMemory = true → InMemory a.toInt) :
    Leads rom ⟨c, a, d, pc⟩ ⟨c, v, d, pc + 1⟩ := by
  subst hv
  exact of_step (Nat.lt_succ_self pc) id fun _ h =>
    Machine.step_compute h hp hd fun hor => hmem (hor.resolve_right (by decide))

/-- A line that sets the selected cell. -/
theorem setM (hd : Decodes code (utf8 "M") comp [])
    (hp : (AsmLine.compute code).PlacedAt sym rom pc) (hv : View.value ⟨c, a, d, pc⟩ comp = v)
    (hmem : InMemory a.toInt)
    (hsp : (stackStart : Int) ≤ (c 0).toInt →
      (stackStart : Int) ≤ (Function.update c a.toInt v 0).toInt) :
    Leads rom ⟨c, a, d, pc⟩ ⟨Function.update c a.toInt v, a, d, pc + 1⟩ := by
  subst hv
  exact of_step (Nat.lt_succ_self pc) hsp fun _ h =>
    Machine.step_compute h hp hd fun _ => hmem

/-- A line that jumps forward, or not. -/
theorem jump {jump : Text} (hd : Decodes code [] comp jump)
    (hp : (AsmLine.compute code).PlacedAt sym rom pc) (hv : View.value ⟨c, a, d, pc⟩ comp = v)
    (hread : comp.readsMemory = false) {target : Nat} (ha : a.toUInt16.toNat = target)
    (hforward : pc < target) :
    Leads rom ⟨c, a, d, pc⟩ ⟨c, a, d, if jumpTaken jump v then target else pc + 1⟩ := by
  subst hv ha
  refine of_step ?_ id fun _ h => Machine.step_compute h hp hd fun hor => ?_
  · split
    · exact hforward
    · exact Nat.lt_succ_self pc
  · rcases hor with hor | hor
    · simp [hread] at hor
    · cases hor

end Leads

end HackVM
