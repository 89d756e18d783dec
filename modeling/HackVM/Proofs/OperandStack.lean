import HackVM.Proofs.Blocks

/-!
# The operand stack in memory

`HoldsStack` says that the stack in memory is a list of values, the top first: the values lie in
the cells from the beginning of the stack on and the stack pointer points past the top. The
updates that blocks make act on the list as one expects, and `stack?` of a computer is the list,
the top last (`stack?_eq_some_iff`).
-/

namespace HackVM

open Function (update update_self update_of_ne)

/-- The cells from the beginning of the stack on hold the values, the top first. -/
def OnStack (c : Int → Int16) : List Int16 → Prop
  | [] => True
  | v :: vs => c (stackStart + vs.length) = v ∧ OnStack c vs

/-- The stack in memory is the list of values. -/
structure HoldsStack (c : Int → Int16) (vs : List Int16) : Prop where
  sp : (c 0).toInt = stackStart + vs.length
  onStack : OnStack c vs

theorem OnStack.update {c : Int → Int16} {vs : List Int16} (h : OnStack c vs) {address : Int}
    (hout : address < stackStart ∨ (stackStart : Int) + vs.length ≤ address) (v : Int16) :
    OnStack (update c address v) vs := by
  induction vs with
  | nil => trivial
  | cons x vs ih =>
    simp only [List.length_cons] at hout
    refine ⟨?_, ih h.2 (by omega)⟩
    rw [update_of_ne (by omega)]
    exact h.1

theorem onStack_iff {c : Int → Int16} {vs : List Int16} :
    OnStack c vs ↔ ∀ j < vs.length, vs.reverse[j]? = some (c (stackStart + j)) := by
  induction vs with
  | nil => simp [OnStack]
  | cons v vs ih =>
    have hlast : (vs.reverse ++ [v])[vs.length]? = some v := by simp
    simp only [OnStack, List.length_cons, List.reverse_cons]
    constructor
    · rintro ⟨htop, hrest⟩ j hj
      rcases Nat.lt_succ_iff_lt_or_eq.1 hj with hj | rfl
      · rw [List.getElem?_append_left (by simpa using hj)]
        exact ih.1 hrest j hj
      · rw [hlast, htop]
    · intro h
      refine ⟨?_, ih.2 fun j hj => ?_⟩
      · exact (Option.some.inj (hlast.symm.trans (h vs.length (Nat.lt_succ_self _)))).symm
      · rw [← h j (by omega), List.getElem?_append_left (by simpa using hj)]

namespace HoldsStack

variable {c : Int → Int16} {vs : List Int16} {v x y : Int16}

/-! ## Reading the stack -/

theorem stackStart_le (h : HoldsStack c vs) : (stackStart : Int) ≤ (c 0).toInt := by
  have := h.sp
  omega

theorem toInt_top (h : HoldsStack c (x :: vs)) : (c 0 - 1).toInt = stackStart + vs.length := by
  have hsp := h.sp
  simp only [List.length_cons] at hsp
  rw [toInt_sub_one (by omega)]
  omega

theorem toInt_second (h : HoldsStack c (y :: x :: vs)) :
    (c 0 - 1 - 1).toInt = stackStart + vs.length := by
  have htop := h.toInt_top
  simp only [List.length_cons] at htop
  rw [toInt_sub_one (by omega)]
  omega

theorem top (h : HoldsStack c (x :: vs)) : c (c 0 - 1).toInt = x := by
  rw [h.toInt_top]
  exact h.onStack.1

theorem second (h : HoldsStack c (y :: x :: vs)) : c (c 0 - 1 - 1).toInt = x := by
  rw [h.toInt_second]
  exact h.onStack.2.1

/-! ## Changing the stack -/

/-- A cell outside the stack. -/
theorem update (h : HoldsStack c vs) {address : Int} (hne : address ≠ 0)
    (hout : address < stackStart ∨ (stackStart : Int) + vs.length ≤ address) (v : Int16) :
    HoldsStack (update c address v) vs := by
  refine ⟨?_, h.onStack.update hout v⟩
  rw [update_of_ne hne.symm]
  exact h.sp

theorem push (h : HoldsStack c vs) (hroom : (c 0).toInt < memorySize) (v : Int16) :
    HoldsStack (Function.update (Function.update c (c 0).toInt v) 0 (c 0 + 1)) (v :: vs) := by
  have hsp := h.sp
  have hsize : (memorySize : Int) = 24577 := rfl
  have hne := Block.ne_zero_of_stackStart_le h.stackStart_le
  have hzero : (0 : Int) < stackStart := by decide
  refine ⟨?_, ?_, ?_⟩
  · rw [update_self, toInt_add_one (by omega), List.length_cons]
    omega
  · rw [update_of_ne (by omega), ← hsp, update_self]
  · exact (h.onStack.update (by omega) v).update (.inl hzero) _

/-- The top is taken away. -/
theorem drop (h : HoldsStack c (x :: vs)) : HoldsStack (Function.update c 0 (c 0 - 1)) vs := by
  have hzero : (0 : Int) < stackStart := by decide
  refine ⟨?_, h.onStack.2.update (.inl hzero) _⟩
  rw [update_self]
  exact h.toInt_top

/-- The top is replaced. -/
theorem replaceTop (h : HoldsStack c (x :: vs)) (v : Int16) :
    HoldsStack (Function.update c (c 0 - 1).toInt v) (v :: vs) := by
  have hne : (c 0 - 1).toInt ≠ 0 := Block.ne_zero_of_stackStart_le (by rw [h.toInt_top]; omega)
  refine ⟨?_, ?_, ?_⟩
  · rw [update_of_ne hne.symm]
    exact h.sp
  · rw [h.toInt_top, update_self]
  · exact h.onStack.2.update (.inr (Int.le_of_eq h.toInt_top.symm)) v

/-- The two topmost values are replaced by one. -/
theorem replaceTwo (h : HoldsStack c (y :: x :: vs)) (v : Int16) :
    HoldsStack (Function.update (Function.update c 0 (c 0 - 1)) (c 0 - 1 - 1).toInt v)
      (v :: vs) := by
  have hdrop := h.drop.replaceTop v
  rwa [update_self] at hdrop

end HoldsStack

/-! ## The stack of a computer -/

theorem Machine.stackEnd?_eq (m : Machine) :
    m.stackEnd? =
      if (m.cells 0).toInt ≤ stackStart ∨ (memorySize : Int) < (m.cells 0).toInt then none
      else some (m.cells 0).toInt.toNat :=
  rfl

theorem Machine.getElem?_toList_ram (m : Machine) {i : Nat} (h : i < memorySize) :
    m.ram.toList[i]? = some (m.cells i) := by
  have hcell : m.cells i = m.ram[i] := m.cells_eq_get ⟨i, h⟩
  simp [h, hcell]

theorem Machine.drop_take_ram (m : Machine) {e : Nat} (hlow : stackStart ≤ e)
    (hhigh : e ≤ memorySize) (l : List Int16) :
    (m.ram.toList.take e).drop stackStart = l ↔
      stackStart + l.length = e ∧ OnStack m.cells l.reverse := by
  have hlength : ((m.ram.toList.take e).drop stackStart).length = e - stackStart := by
    simp only [List.length_drop, List.length_take, Vector.length_toList]
    omega
  have hget (j : Nat) (hj : j < e - stackStart) :
      ((m.ram.toList.take e).drop stackStart)[j]? = some (m.cells (stackStart + j)) := by
    rw [List.getElem?_drop, List.getElem?_take_of_lt (by omega),
      m.getElem?_toList_ram (by omega), Int.natCast_add]
  rw [onStack_iff, List.reverse_reverse, List.length_reverse]
  constructor
  · rintro rfl
    rw [hlength]
    exact ⟨by omega, hget⟩
  · rintro ⟨hl, hcells⟩
    apply List.ext_getElem?
    intro j
    by_cases hj : j < l.length
    · rw [hget j (by omega), hcells j hj]
    · rw [List.getElem?_eq_none (by omega), List.getElem?_eq_none (by omega)]

/-- The values on the stack, if there are any. -/
theorem Machine.stack?_eq_some_iff {m : Machine} {l : List Int16} :
    m.stack? = some l ↔
      l ≠ [] ∧ stackStart + l.length ≤ memorySize ∧ HoldsStack m.cells l.reverse := by
  rw [stack?, stackEnd?_eq]
  by_cases hout : (m.cells 0).toInt ≤ stackStart ∨ (memorySize : Int) < (m.cells 0).toInt
  · rw [if_pos hout]
    simp only [Option.map_none, reduceCtorEq, false_iff, not_and]
    intro hne hsize hstack
    have hsp := hstack.sp
    rw [List.length_reverse] at hsp
    have hpos := List.length_pos_iff.2 hne
    omega
  · rw [if_neg hout, Option.map_some, Option.some.injEq, m.drop_take_ram (by omega) (by omega)]
    constructor
    · rintro ⟨hsp, hcells⟩
      refine ⟨?_, by omega, ?_, hcells⟩
      · rintro rfl
        simp only [List.length_nil] at hsp
        omega
      · rw [List.length_reverse]
        omega
    · rintro ⟨-, -, hstack⟩
      have hsp := hstack.sp
      rw [List.length_reverse] at hsp
      exact ⟨by omega, hstack.onStack⟩

end HackVM
