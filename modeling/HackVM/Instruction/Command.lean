import HackVM.Text.Basic

/-!
# Commands and segments

The vocabulary of the stack machine: the eleven commands, the eight segments that `push` and `pop`
address, and the words they are written with. Words are matched exactly, letter case included.
-/

namespace HackVM

/-- Commands that replace the top of the stack. -/
inductive Unary
  | neg
  | not
  deriving DecidableEq, Repr

/-- Commands that replace the two topmost values by one computed from them. -/
inductive Binary
  | add
  | sub
  | and
  | or
  deriving DecidableEq, Repr

/-- Commands that replace the two topmost values by the truth value of a comparison. -/
inductive Relation
  | eq
  | gt
  | lt
  deriving DecidableEq, Repr

/-- The commands of the stack machine. -/
inductive Command
  | push
  | pop
  | unary (op : Unary)
  | binary (op : Binary)
  | compare (rel : Relation)
  deriving DecidableEq, Repr

/-- The registers that hold the base address of a segment. -/
inductive Base
  | lcl
  | arg
  | this
  | that
  deriving DecidableEq, Repr

/-- The segments whose elements are memory cells. -/
inductive Region
  /-- Counted from the address in a base register. -/
  | based (base : Base)
  /-- A cell that the assembler allocates. -/
  | static
  /-- The base registers of `this` and `that` themselves. -/
  | pointer
  /-- A bank of registers. -/
  | temp
  deriving DecidableEq, Repr

/-- The segments of the stack machine. -/
inductive Segment
  /-- The numbers themselves; its elements have no address. -/
  | constant
  | region (r : Region)
  deriving DecidableEq, Repr

namespace Command

/-- The word a command is written with. -/
def word : Command → Text
  | push => utf8 "push"
  | pop => utf8 "pop"
  | unary .neg => utf8 "neg"
  | unary .not => utf8 "not"
  | binary .add => utf8 "add"
  | binary .sub => utf8 "sub"
  | binary .and => utf8 "and"
  | binary .or => utf8 "or"
  | compare .eq => utf8 "eq"
  | compare .gt => utf8 "gt"
  | compare .lt => utf8 "lt"

/-- All commands. -/
def all : List Command :=
  [push, pop, binary .add, binary .sub, unary .neg, compare .eq, compare .gt, compare .lt,
    binary .and, binary .or, unary .not]

/-- The command a word stands for. -/
def ofWord? (w : Text) : Option Command := all.find? fun c => c.word == w

/-- Does the command take a segment and an offset? -/
def takesOperands : Command → Bool
  | push | pop => true
  | _ => false

/-- Does the command compare? -/
def compares : Command → Bool
  | compare _ => true
  | _ => false

/-- The number of words that follow the command. -/
def arity (c : Command) : Nat := if c.takesOperands then 2 else 0

/-- The number of values the command takes from the stack. -/
def operands : Command → Nat
  | push => 0
  | pop | unary _ => 1
  | binary _ | compare _ => 2

/-- By how much the command changes the depth of the stack. -/
def depthChange : Command → Int
  | push => 1
  | unary _ => 0
  | pop | binary _ | compare _ => -1

@[simp]
theorem ofWord?_word (c : Command) : ofWord? c.word = some c := by
  rcases c with _ | _ | (_ | _) | (_ | _ | _ | _) | (_ | _ | _) <;> decide

theorem ofWord?_eq_some_iff {w : Text} {c : Command} : ofWord? w = some c ↔ w = c.word := by
  constructor
  · intro h
    rw [ofWord?] at h
    exact (eq_of_beq (List.find?_some h :)).symm
  · rintro rfl
    exact ofWord?_word c

end Command

namespace Segment

/-- The word a segment is written with. -/
def word : Segment → Text
  | constant => utf8 "constant"
  | region (.based .lcl) => utf8 "local"
  | region (.based .arg) => utf8 "argument"
  | region (.based .this) => utf8 "this"
  | region (.based .that) => utf8 "that"
  | region .static => utf8 "static"
  | region .pointer => utf8 "pointer"
  | region .temp => utf8 "temp"

/-- All segments. -/
def all : List Segment :=
  [region (.based .lcl), region (.based .arg), region (.based .this), region (.based .that),
    constant, region .static, region .pointer, region .temp]

/-- The segment a word stands for. -/
def ofWord? (w : Text) : Option Segment := all.find? fun s => s.word == w

@[simp]
theorem ofWord?_word (s : Segment) : ofWord? s.word = some s := by
  rcases s with _ | ((_ | _ | _ | _) | _ | _ | _) <;> decide

theorem ofWord?_eq_some_iff {w : Text} {s : Segment} : ofWord? w = some s ↔ w = s.word := by
  constructor
  · intro h
    rw [ofWord?] at h
    exact (eq_of_beq (List.find?_some h :)).symm
  · rintro rfl
    exact ofWord?_word s

end Segment

end HackVM
