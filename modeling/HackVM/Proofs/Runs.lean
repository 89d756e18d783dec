import Mathlib
import HackVM.Computer.Machine

/-!
# Runs of the computer

Memory is read as a function of the address (`cells`). A computer that is not halted and whose word
does not fail `Continues` with another one; `Reaches` is any number of such steps. A run without a
fault ends in the halted computer that is reached in time (`run_eq_iff`), and it visits every
computer that is reached on the way, because steps are deterministic (`reaches_final`).

`Advances` is a step that goes forward in the program and leaves the stack pointer at or above the
beginning of the stack. Along a `Path` of such steps a run needs no more steps than there are words
between the two ends (`Path.runFor`).
-/

namespace HackVM

/-- The address is that of a memory cell. -/
def InMemory (address : Int) : Prop := 0 ≤ address ∧ address < memorySize

instance (address : Int) : Decidable (InMemory address) := inferInstanceAs (Decidable (_ ∧ _))

/-- The fault is an access outside memory. -/
def Fault.IsOutside : Fault → Prop
  | readOutside _ _ | writeOutside _ _ => True
  | invalidComputation _ _ | stepLimit _ _ => False

namespace Machine

/-! ## Memory -/

/-- The content of the cell at an address, and zero where there is no cell. -/
def cells (m : Machine) (address : Int) : Int16 := (m.peek? address).getD 0

theorem cell?_of_inMemory {address : Int} (h : InMemory address) :
    ∃ i : Fin memorySize, cell? address = some i ∧ (i : Int) = address := by
  refine ⟨⟨address.toNat, ?_⟩, dif_pos h, ?_⟩
  · obtain ⟨hlow, hhigh⟩ := h
    omega
  · exact Int.toNat_of_nonneg h.1

theorem cell?_of_not_inMemory {address : Int} (h : ¬ InMemory address) : cell? address = none :=
  dif_neg h

theorem peek?_of_inMemory (m : Machine) {address : Int} (h : InMemory address) :
    m.peek? address = some (m.cells address) := by
  obtain ⟨i, hi, -⟩ := cell?_of_inMemory h
  simp [cells, peek?, hi]

theorem cells_eq_get (m : Machine) (i : Fin memorySize) : m.cells i = m.ram.get i := by
  have hin : InMemory (i : Nat) := ⟨by omega, by omega⟩
  obtain ⟨j, hj, hji⟩ := cell?_of_inMemory hin
  obtain rfl : j = i := Fin.ext (by omega)
  simp only [cells, peek?, hj, Option.map_some, Option.getD_some]

theorem cells_set (m : Machine) (i : Fin memorySize) (v : Int16) :
    ({ m with ram := m.ram.set i v i.isLt } : Machine).cells = Function.update m.cells i v := by
  funext address
  by_cases h : InMemory address
  · obtain ⟨j, hj, hjaddress⟩ := cell?_of_inMemory h
    subst hjaddress
    by_cases hij : i = j
    · subst hij
      simp only [cells, peek?, hj, Option.map_some, Option.getD_some, Function.update_self]
      exact Vector.getElem_set_self i.isLt
    · have hne : (j : Int) ≠ i := fun he => hij (Fin.ext (by omega))
      have hval : (i : Nat) ≠ j := fun he => hij (Fin.ext he)
      rw [Function.update_of_ne hne]
      simp only [cells, peek?, hj, Option.map_some, Option.getD_some]
      exact Vector.getElem_set_ne _ _ hval
  · have hne : address ≠ i := fun he => h (he ▸ ⟨by omega, by have := i.isLt; omega⟩)
    rw [Function.update_of_ne hne]
    simp [cells, peek?, cell?_of_not_inMemory h]

theorem cells_poke (m : Machine) {address : Int} (h : InMemory address) (v : Int16) :
    (m.poke address v).cells = Function.update m.cells address v := by
  obtain ⟨i, hi, rfl⟩ := cell?_of_inMemory h
  rw [poke, hi]
  exact m.cells_set i v

/-! ## Steps -/

theorem isHalted_eq_true_iff (m : Machine) :
    m.isHalted = true ↔ m.pc < 0 ∨ (m.rom.size : Int) ≤ m.pc := by
  unfold isHalted fetch
  split
  · simp [*]
  · rw [Option.isNone_iff_eq_none, Array.getElem?_eq_none_iff]
    omega

theorem step_of_isHalted {m : Machine} (h : m.isHalted = true) : m.step = (m, none) := by
  rw [step, Option.isNone_iff_eq_none.1 h]

theorem rom_compute (m : Machine) (dest comp jump : Text) (line : Int) :
    (m.compute dest comp jump line).1.rom = m.rom := by
  unfold compute
  repeat' split
  all_goals rfl

theorem rom_step (m : Machine) : m.step.1.rom = m.rom := by
  unfold step
  split
  · rfl
  · next w _ =>
    cases w with
    | address v line => rfl
    | compute dest comp jump line => exact rom_compute _ dest comp jump line

/-- The computer is not halted and its next word leads to the other one. -/
def Continues (m m' : Machine) : Prop := m.isHalted = false ∧ m.step = (m', none)

/-- Any number of steps without a fault. -/
abbrev Reaches : Machine → Machine → Prop := Relation.ReflTransGen Continues

theorem Continues.unique {m s t : Machine} (hs : m.Continues s) (ht : m.Continues t) : s = t :=
  congrArg Prod.fst (hs.2.symm.trans ht.2)

theorem Reaches.eq_of_isHalted {m s : Machine} (h : m.Reaches s) (hm : m.isHalted = true) :
    m = s := by
  cases h.cases_head with
  | inl h => exact h
  | inr h =>
    obtain ⟨m', hcontinues, -⟩ := h
    exact absurd hcontinues.1 (by simp [hm])

/-- What is reached is found by repeating steps until the computer is halted. -/
theorem Reaches.exists_iterate {m s : Machine} (h : m.Reaches s) {n : Nat}
    (hhalted : ((fun m => m.step.1)^[n] m).isHalted = true) :
    ∃ k ≤ n, s = (fun m => m.step.1)^[k] m := by
  have hiterate : ∃ k, s = (fun m => m.step.1)^[k] m := by
    induction h with
    | refl => exact ⟨0, rfl⟩
    | tail _ hlast ih =>
      obtain ⟨k, rfl⟩ := ih
      refine ⟨k + 1, ?_⟩
      rw [Function.iterate_succ_apply', hlast.2]
  obtain ⟨k, rfl⟩ := hiterate
  by_cases hk : k ≤ n
  · exact ⟨k, hk, rfl⟩
  · obtain ⟨j, rfl⟩ := Nat.exists_eq_add_of_le (Nat.le_of_not_le hk)
    refine ⟨n, Nat.le_refl n, ?_⟩
    rw [Nat.add_comm, Function.iterate_add_apply, Function.iterate_fixed]
    exact congrArg Prod.fst (step_of_isHalted hhalted)

/-- What lies on the way to a halted computer leads there. -/
theorem Reaches.reaches_final {m s final : Machine} (hs : m.Reaches s) (hfinal : m.Reaches final)
    (hhalted : final.isHalted = true) : s.Reaches final := by
  have hunique : Relator.RightUnique Continues := fun _ _ _ => Continues.unique
  rcases Relation.ReflTransGen.total_of_right_unique hunique hs hfinal with h | h
  · exact h
  · rw [Reaches.eq_of_isHalted h hhalted]

/-! ## Runs -/

theorem runFor_of_isHalted {m : Machine} (h : m.isHalted = true) (n : Nat) :
    m.runFor n = (m, none) := by
  cases n <;> rw [runFor, if_pos h]

theorem runFor_of_continues {m m' : Machine} (h : m.Continues m') (n : Nat) :
    m.runFor (n + 1) = m'.runFor n := by
  rw [runFor, if_neg (by simp [h.1])]
  simp only [h.2]

/-- A run without a fault has come to its end, or it continues. -/
theorem runFor_cases {n : Nat} {m final : Machine} (h : m.runFor n = (final, none)) :
    m.isHalted = true ∧ m = final ∨
      ∃ k m', n = k + 1 ∧ m.Continues m' ∧ m'.runFor k = (final, none) := by
  cases hhalted : m.isHalted with
  | true =>
    rw [runFor_of_isHalted hhalted] at h
    exact .inl ⟨rfl, congrArg Prod.fst h⟩
  | false =>
    cases n with
    | zero =>
      rw [runFor, if_neg (by simp [hhalted])] at h
      cases h
    | succ k =>
      rw [runFor, if_neg (by simp [hhalted])] at h
      rcases hstep : m.step with ⟨m', _ | fault⟩
      · simp only [hstep] at h
        exact .inr ⟨k, m', rfl, ⟨hhalted, hstep⟩, h⟩
      · simp [hstep] at h

/-! ### Runs within a number of steps -/

theorem steps_compute (m : Machine) (dest comp jump : Text) (line : Int) :
    (m.compute dest comp jump line).1.steps = m.steps := by
  unfold compute
  repeat' split
  all_goals rfl

/-- A step of a computer that is not halted counts, also if it fails. -/
theorem steps_step {m : Machine} (h : m.isHalted = false) : m.step.1.steps = m.steps + 1 := by
  cases hw : m.fetch with
  | none => simp [isHalted, hw] at h
  | some w =>
    rw [step, hw]
    cases w with
    | address v line => rfl
    | compute dest comp jump line => exact steps_compute _ dest comp jump line

theorem Continues.steps_eq {m m' : Machine} (h : m.Continues m') : m'.steps = m.steps + 1 := by
  rw [← steps_step h.1, h.2]

/-- A number of steps without a fault. -/
inductive ReachesIn : Machine → Nat → Machine → Prop
  | refl (m : Machine) : ReachesIn m 0 m
  | head {m m' final : Machine} {n : Nat} :
    m.Continues m' → ReachesIn m' n final → ReachesIn m (n + 1) final

theorem ReachesIn.reaches {m final : Machine} {n : Nat} (h : m.ReachesIn n final) :
    m.Reaches final := by
  induction h with
  | refl m => exact .refl
  | head hcontinues _ ih => exact .head hcontinues ih

theorem runFor_of_reachesIn {m final : Machine} {k n : Nat} (h : m.ReachesIn k final)
    (hhalted : final.isHalted = true) (hk : k ≤ n) : m.runFor n = (final, none) := by
  induction h generalizing n with
  | refl m => exact runFor_of_isHalted hhalted n
  | head hcontinues _ ih =>
    obtain ⟨n, rfl⟩ := Nat.exists_eq_add_of_lt hk
    rw [runFor_of_continues hcontinues]
    exact ih hhalted (by omega)

/-- A run without a fault ends in a halted computer that is reached within its steps. -/
theorem reachesIn_of_runFor {n : Nat} {m final : Machine} (h : m.runFor n = (final, none)) :
    final.isHalted = true ∧ ∃ k ≤ n, m.ReachesIn k final := by
  induction n generalizing m with
  | zero =>
    rcases runFor_cases h with ⟨hhalted, rfl⟩ | ⟨k, m', hk, -, -⟩
    · exact ⟨hhalted, 0, Nat.le_refl 0, .refl _⟩
    · cases hk
  | succ n ih =>
    rcases runFor_cases h with ⟨hhalted, rfl⟩ | ⟨k, m', hk, hcontinues, hrest⟩
    · exact ⟨hhalted, 0, Nat.zero_le _, .refl _⟩
    · obtain rfl := Nat.succ.inj hk
      obtain ⟨hhalted, k, hle, hreaches⟩ := ih hrest
      exact ⟨hhalted, k + 1, Nat.succ_le_succ hle, .head hcontinues hreaches⟩

/-- **A run ends without a fault exactly if a halted computer is reached in time**, that is with no
more steps than the limit leaves after those made before. -/
theorem run_eq_iff {m final : Machine} {limit : Int64} :
    m.run limit = (final, none) ↔ final.isHalted = true ∧
      ∃ k : Nat, (k : Int) ≤ max 0 (limit.toInt - m.steps.toInt) ∧ m.ReachesIn k final := by
  rw [run]
  constructor
  · intro hrun
    obtain ⟨hhalted, k, hk, hreaches⟩ := reachesIn_of_runFor hrun
    exact ⟨hhalted, k, by omega, hreaches⟩
  · rintro ⟨hhalted, k, hk, hreaches⟩
    exact runFor_of_reachesIn hreaches hhalted (by omega)

/-! ## Paths -/

/-- A step that goes forward and leaves the stack pointer at or above the beginning of the stack. -/
structure Advances (m m' : Machine) : Prop where
  step : m.step = (m', none)
  pc_lt : m.pc < m'.pc
  sp : (stackStart : Int) ≤ (m'.cells 0).toInt

/-- Any number of such steps. -/
abbrev Path : Machine → Machine → Prop := Relation.ReflTransGen Advances

theorem Advances.continues {m m' : Machine} (h : m.Advances m') : m.Continues m' := by
  refine ⟨?_, h.step⟩
  by_contra hhalted
  -- a halted computer does not move
  have hsame := (step_of_isHalted (Bool.not_eq_false _ ▸ hhalted)).symm.trans h.step
  obtain rfl : m = m' := congrArg Prod.fst hsame
  exact Int.lt_irrefl _ h.pc_lt

namespace Path

variable {m m' : Machine}

theorem reaches (h : m.Path m') : m.Reaches m' :=
  Relation.ReflTransGen.mono (fun _ _ => Advances.continues) m m' h

/-- A run along a path takes no more steps than there are words between the ends. -/
theorem runFor (h : m.Path m') (hhalted : m'.isHalted = true) :
    ∃ k : Nat, (k : Int) ≤ m'.pc - m.pc ∧ ∀ n, k ≤ n → m.runFor n = (m', none) := by
  induction h using Relation.ReflTransGen.head_induction_on with
  | refl => exact ⟨0, by omega, fun n _ => runFor_of_isHalted hhalted n⟩
  | head hadvances _ ih =>
    obtain ⟨k, hk, hrun⟩ := ih
    have hlt := hadvances.pc_lt
    refine ⟨k + 1, by omega, fun n hn => ?_⟩
    obtain ⟨n, rfl⟩ := Nat.exists_eq_add_of_lt hn
    rw [runFor_of_continues hadvances.continues]
    exact hrun _ (by omega)

/-- A computer that is reached lies on the path, where the stack pointer is at or above the
beginning of the stack, or after it. -/
theorem sp_or_reaches (h : m.Path m') (hsp : (stackStart : Int) ≤ (m.cells 0).toInt) {s : Machine}
    (hs : m.Reaches s) : (stackStart : Int) ≤ (s.cells 0).toInt ∨ m'.Reaches s := by
  induction h using Relation.ReflTransGen.head_induction_on with
  | refl => exact .inr hs
  | head hadvances _ ih =>
    rcases hs.cases_head with rfl | ⟨t, ht, hts⟩
    · exact .inl hsp
    · obtain rfl := ht.unique hadvances.continues
      exact ih hadvances.sp hts

end Path

end Machine

end HackVM
