import Mathlib
import HackVM.Instruction.Basic

/-!
# The stack machine

What programs mean: an operand stack of 16-bit values and memory cells, without code, registers or a
stack pointer. `exec` performs one operation and `run` a program; both fail if a command lacks an
operand. Arithmetic wraps around, and comparisons go by the sign of the wrapped difference. A run
also records which cells it addressed and how high the stack grew.
-/

namespace HackVM

/-! ## Values -/

/-- The value of a unary command. -/
def Unary.apply (x : Int16) : Unary → Int16
  | neg => -x
  | not => ~~~x

/-- The value of a binary command on the second value of the stack and the top. -/
def Binary.apply (x y : Int16) : Binary → Int16
  | add => x + y
  | sub => x - y
  | and => x &&& y
  | or => x ||| y

/-- Does the difference of two values have the sign that the relation asks for? -/
def Relation.accepts (difference : Int16) : Relation → Bool
  | eq => difference = 0
  | gt => 0 < difference
  | lt => difference < 0

/-- The truth values of the stack machine. -/
def truthValue (b : Bool) : Int16 := if b then -1 else 0

/-- The value of a comparison of the second value of the stack and the top. -/
def Relation.apply (x y : Int16) (rel : Relation) : Int16 := truthValue (rel.accepts (x - y))

/-! ## Cells -/

/-- The cell that holds the base address of a segment. -/
def Base.index : Base → Nat
  | lcl => 1
  | arg => 2
  | this => 3
  | that => 4

/-- The offset of the static cell that an operation uses. -/
def Operation.static? : Operation → Option Nat
  | push .static n | pop .static n => some n
  | _ => none

/-- The offset of the static cell that an instruction uses. -/
def Instruction.static? (i : Instruction) : Option Nat :=
  match i.operation with
  | .ok op => op.static?
  | .error _ => none

/-- The offsets of the static cells of a program, each once, in the order of first use. -/
def staticOffsets (p : List Instruction) : List Nat := (p.filterMap Instruction.static?).eraseDups

/-- The cell that an element of a region occupies; static cells are numbered from 16 on in the order
of their offsets in the list. -/
def Region.cell (statics : List Nat) (cells : Int → Int16) (n : Nat) : Region → Int
  | based b => (cells b.index + Int16.ofNat n).toInt
  | static => 16 + statics.idxOf n
  | pointer => 3 + n
  | temp => 5 + n

/-- The cell that an operation pushes or pops into. -/
def Operation.cell? (statics : List Nat) (cells : Int → Int16) : Operation → Option Int
  | push r n | pop r n => some (r.cell statics cells n)
  | literal _ | unary _ | binary _ | compare _ => none

/-! ## Runs -/

/-- The state of the stack machine. -/
structure StackState where
  /-- The operands, the top first. -/
  stack : List Int16
  cells : Int → Int16

namespace StackState

/-- Performs an operation, unless it lacks an operand. -/
def exec (statics : List Nat) : Operation → StackState → Option StackState
  | .literal n, ⟨vs, c⟩ => some ⟨Int16.ofNat n :: vs, c⟩
  | .push r n, ⟨vs, c⟩ => some ⟨c (r.cell statics c n) :: vs, c⟩
  | .pop r n, ⟨v :: vs, c⟩ => some ⟨vs, Function.update c (r.cell statics c n) v⟩
  | .unary op, ⟨x :: vs, c⟩ => some ⟨op.apply x :: vs, c⟩
  | .binary op, ⟨y :: x :: vs, c⟩ => some ⟨op.apply x y :: vs, c⟩
  | .compare rel, ⟨y :: x :: vs, c⟩ => some ⟨rel.apply x y :: vs, c⟩
  | _, _ => none

/-- An operation finds its operands and changes the depth as its command says. -/
theorem length_of_exec {statics : List Nat} {op : Operation} {s s' : StackState}
    (h : s.exec statics op = some s') :
    op.command.operands ≤ s.stack.length ∧
      (s'.stack.length : Int) = s.stack.length + op.command.depthChange := by
  obtain ⟨vs, c⟩ := s
  cases op with
  | literal n =>
    obtain rfl := Option.some.inj h
    simp only [Operation.command, Command.operands, Command.depthChange, List.length_cons]
    omega
  | push r n =>
    obtain rfl := Option.some.inj h
    simp only [Operation.command, Command.operands, Command.depthChange, List.length_cons]
    omega
  | pop r n =>
    match vs with
    | [] => cases h
    | v :: vs =>
      obtain rfl := Option.some.inj h
      simp only [Operation.command, Command.operands, Command.depthChange, List.length_cons]
      omega
  | unary op =>
    match vs with
    | [] => cases h
    | x :: vs =>
      obtain rfl := Option.some.inj h
      simp only [Operation.command, Command.operands, Command.depthChange, List.length_cons]
      omega
  | binary op =>
    match vs with
    | [] => cases h
    | [_] => cases h
    | y :: x :: vs =>
      obtain rfl := Option.some.inj h
      simp only [Operation.command, Command.operands, Command.depthChange, List.length_cons]
      omega
  | compare rel =>
    match vs with
    | [] => cases h
    | [_] => cases h
    | y :: x :: vs =>
      obtain rfl := Option.some.inj h
      simp only [Operation.command, Command.operands, Command.depthChange, List.length_cons]
      omega

end StackState

/-- What a run of the stack machine leaves behind. -/
structure RunRecord where
  final : StackState
  /-- The cells that were pushed or popped into. -/
  addressed : List Int
  /-- The greatest depth of the stack. -/
  peak : Nat

/-- Runs a program, unless one of its commands lacks an operand or has no meaning. -/
def StackState.run (statics : List Nat) : List Instruction → StackState → Option RunRecord
  | [], s => some ⟨s, [], s.stack.length⟩
  | i :: is, s =>
    match i.operation with
    | .error _ => none
    | .ok op =>
      match s.exec statics op with
      | none => none
      | some s' =>
        (s'.run statics is).map fun r =>
          ⟨r.final, (op.cell? statics s.cells).toList ++ r.addressed, max s.stack.length r.peak⟩

namespace StackState

variable {statics : List Nat} {s : StackState} {r : RunRecord}

/-- The first operation of a run and the run after it. -/
theorem run_cons {i : Instruction} {is : List Instruction} (h : s.run statics (i :: is) = some r) :
    ∃ op s' r', i.operation = .ok op ∧ s.exec statics op = some s' ∧ s'.run statics is = some r' ∧
      r = ⟨r'.final, (op.cell? statics s.cells).toList ++ r'.addressed,
        max s.stack.length r'.peak⟩ := by
  rw [run] at h
  split at h
  · cases h
  · next op hop =>
    split at h
    · cases h
    · next s' hexec =>
      obtain ⟨r', hr', hr⟩ := Option.map_eq_some_iff.1 h
      exact ⟨op, s', r', hop, hexec, hr', hr.symm⟩

theorem length_le_peak {p : List Instruction} (h : s.run statics p = some r) :
    s.stack.length ≤ r.peak := by
  cases p with
  | nil =>
    obtain rfl := Option.some.inj h
    exact Nat.le_refl _
  | cons i is =>
    obtain ⟨op, s', r', -, -, -, rfl⟩ := run_cons h
    exact Nat.le_max_left _ _

end StackState

end HackVM
