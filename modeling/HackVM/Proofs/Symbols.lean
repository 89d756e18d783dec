import Mathlib
import HackVM.Computer.Assembler

/-!
# The symbols of an assembler

`allocate` resolves names one after the other; it gives the cells from `nextVariable` on to the
names that are not bound, in the order of their first use (`lookup_allocate`). The second pass does
nothing else to the symbols, wherever it stops (`encodeLines_fst`), so that it never changes a
binding.
-/

namespace HackVM

namespace Assembler

@[simp]
theorem lookup_bind_self (a : Assembler) (name : Text) (address : Nat) :
    (a.bind name address).lookup name = some address := by
  simp [bind, lookup]

theorem lookup_bind_of_ne (a : Assembler) {name other : Text} (h : other ≠ name) (address : Nat) :
    (a.bind name address).lookup other = a.lookup other := by
  have hbeq : (other == name) = false := by simpa using h
  simp [bind, lookup, List.lookup_cons, hbeq]

/-! ## Resolving a name -/

theorem resolve_of_some {a : Assembler} {name : Text} {address : Nat}
    (h : a.lookup name = some address) : a.resolve name = (address, a) := by
  simp [resolve, h]

theorem resolve_of_none {a : Assembler} {name : Text} (h : a.lookup name = none) :
    a.resolve name = (a.nextVariable,
      { a.bind name a.nextVariable with nextVariable := a.nextVariable + 1 }) := by
  simp [resolve, h]

theorem lookup_resolve_self (a : Assembler) (name : Text) :
    (a.resolve name).2.lookup name = some (a.resolve name).1 := by
  cases h : a.lookup name with
  | some address => simp [resolve_of_some h, h]
  | none =>
    rw [resolve_of_none h]
    exact lookup_bind_self a name a.nextVariable

theorem lookup_resolve_of_ne (a : Assembler) {name other : Text} (h : other ≠ name) :
    (a.resolve name).2.lookup other = a.lookup other := by
  cases hname : a.lookup name with
  | some address => rw [resolve_of_some hname]
  | none =>
    rw [resolve_of_none hname]
    exact lookup_bind_of_ne a h a.nextVariable

/-! ## Variables -/

/-- The assembler after resolving names one after the other. -/
def allocate (a : Assembler) (names : List Text) : Assembler :=
  names.foldl (fun a name => (a.resolve name).2) a

/-- The names among these that are not bound, each once, in the order of first use. -/
def unbound (a : Assembler) (names : List Text) : List Text :=
  (names.filter fun name => (a.lookup name).isNone).eraseDups

theorem unbound_cons_of_some {a : Assembler} {name : Text} {address : Nat} (names : List Text)
    (h : a.lookup name = some address) : a.unbound (name :: names) = a.unbound names := by
  simp [unbound, h]

theorem unbound_cons_of_none {a : Assembler} {name : Text} (names : List Text)
    (h : a.lookup name = none) :
    a.unbound (name :: names) = name :: (a.resolve name).2.unbound names := by
  have hfilter : (names.filter fun other => (a.lookup other).isNone).filter
      (fun other => !other == name) =
        names.filter fun other => ((a.resolve name).2.lookup other).isNone := by
    rw [List.filter_filter]
    refine List.filter_congr fun other _ => ?_
    by_cases hother : other = name
    · subst hother
      simp [lookup_resolve_self]
    · simp [lookup_resolve_of_ne a hother, hother]
  rw [unbound, List.filter_cons_of_pos (by simp [h]), List.eraseDups_cons, hfilter, unbound]

/-- **Names that are not bound get the next free cells in the order of their first use.** -/
theorem lookup_allocate (a : Assembler) (names : List Text) (name : Text) :
    (a.allocate names).lookup name =
      match a.lookup name with
      | some address => some address
      | none =>
        if name ∈ a.unbound names then some (a.nextVariable + (a.unbound names).idxOf name)
        else none := by
  induction names generalizing a with
  | nil => cases h : a.lookup name <;> simp [allocate, unbound, h]
  | cons first names ih =>
    have hstep : a.allocate (first :: names) = (a.resolve first).2.allocate names := rfl
    rw [hstep, ih]
    cases hfirst : a.lookup first with
    | some address => rw [resolve_of_some hfirst, unbound_cons_of_some names hfirst]
    | none =>
      rw [unbound_cons_of_none names hfirst]
      by_cases hname : name = first
      · subst hname
        rw [lookup_resolve_self, resolve_of_none hfirst, hfirst]
        simp
      · have hnext : (a.resolve first).2.nextVariable = a.nextVariable + 1 := by
          rw [resolve_of_none hfirst]
        have hbeq : (first == name) = false := by simpa using fun h => hname h.symm
        rw [lookup_resolve_of_ne a hname, hnext]
        cases a.lookup name with
        | some address => rfl
        | none =>
          simp only [List.mem_cons, hname, false_or, List.idxOf_cons, hbeq, cond_false]
          rw [Nat.add_right_comm, Nat.add_assoc]

theorem lookup_allocate_of_some {a : Assembler} {name : Text} {address : Nat} (names : List Text)
    (h : a.lookup name = some address) : (a.allocate names).lookup name = some address := by
  rw [lookup_allocate, h]

theorem allocate_append (a : Assembler) (names others : List Text) :
    a.allocate (names ++ others) = (a.allocate names).allocate others := by
  simp [allocate]

/-! ## The symbols in the second pass -/

theorem encodeLine_fst (a : Assembler) (l : CodeLine) :
    ∃ names, (a.encodeLine l).1 = a.allocate names := by
  unfold encodeLine
  split
  · unfold encodeAddress
    split
    · exact ⟨[], rfl⟩
    · split
      · split
        · split <;> exact ⟨[], rfl⟩
        · exact ⟨[], rfl⟩
      · next operand _ _ _ => exact ⟨[operand], rfl⟩
  · exact ⟨[], rfl⟩

theorem encodeLines_cons_of_error {a b : Assembler} {l : CodeLine} {p : AsmProblem}
    (h : a.encodeLine l = (b, .error p)) (ls : List CodeLine) :
    (a.encodeLines (l :: ls)).1 = b := by
  rw [encodeLines, h]

theorem encodeLines_cons_of_ok {a b : Assembler} {l : CodeLine} {w : Word}
    (h : a.encodeLine l = (b, .ok w)) (ls : List CodeLine) :
    (a.encodeLines (l :: ls)).1 = (b.encodeLines ls).1 := by
  rw [encodeLines, h]
  rcases hls : b.encodeLines ls with ⟨c, e | ws⟩ <;> simp [hls]

/-- The second pass, finished or not, resolves names and does nothing else. -/
theorem encodeLines_fst (a : Assembler) (ls : List CodeLine) :
    ∃ names, (a.encodeLines ls).1 = a.allocate names := by
  induction ls generalizing a with
  | nil => exact ⟨[], rfl⟩
  | cons l ls ih =>
    obtain ⟨names, hnames⟩ := encodeLine_fst a l
    rcases hl : a.encodeLine l with ⟨b, p | w⟩
    · rw [hl] at hnames
      exact ⟨names, (encodeLines_cons_of_error hl ls).trans hnames⟩
    · rw [hl] at hnames
      obtain rfl : b = a.allocate names := hnames
      obtain ⟨others, hothers⟩ := ih (a.allocate names)
      rw [encodeLines_cons_of_ok hl, hothers, ← allocate_append]
      exact ⟨names ++ others, rfl⟩

theorem lookup_encodeLines_of_some {a : Assembler} {name : Text} {address : Nat}
    (ls : List CodeLine) (h : a.lookup name = some address) :
    (a.encodeLines ls).1.lookup name = some address := by
  obtain ⟨names, hnames⟩ := encodeLines_fst a ls
  rw [hnames]
  exact lookup_allocate_of_some names h

end Assembler

end HackVM
