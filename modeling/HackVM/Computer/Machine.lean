import HackVM.Computer.Word

/-!
# The Hack computer

A `Machine` is a program with two registers, a program counter and memory. `step` executes the word
at the program counter and `run` goes on until the program counter leaves the program, a word
fails, or a number of steps is reached. A step that fails changes nothing but the step count.
-/

namespace HackVM

/-- The number of memory cells: data, the screen and the keyboard. -/
def memorySize : Nat := 24577

/-- The cell at which the stack begins. -/
def stackStart : Nat := 256

/-- The state of the computer. -/
structure Machine where
  rom : Array Word
  ram : Vector Int16 memorySize := Vector.replicate memorySize 0
  a : Int16 := 0
  d : Int16 := 0
  pc : Int := 0
  /-- How many words have been executed, a count that wraps around. -/
  steps : Int64 := 0

/-- Why the computer stopped before the end of its program. -/
inductive Fault
  | invalidComputation (line : Int) (comp : Text)
  | readOutside (line : Int) (address : Int16)
  | writeOutside (line : Int) (address : Int16)
  | stepLimit (steps : Int64) (pc : Int)
  deriving DecidableEq, Repr

/-- The message of a fault. -/
def Fault.message : Fault → Text
  | invalidComputation line comp =>
    utf8 "line " ++ Text.ofInt line ++ utf8 ": invalid computation " ++ comp.quoted
  | readOutside line address =>
    utf8 "line " ++ Text.ofInt line ++ utf8 ": read outside RAM at " ++ Text.ofInt address.toInt
  | writeOutside line address =>
    utf8 "line " ++ Text.ofInt line ++ utf8 ": write outside RAM at " ++ Text.ofInt address.toInt
  | stepLimit steps pc =>
    utf8 "step limit exceeded after " ++ Text.ofInt steps.toInt ++ utf8 " steps at pc=" ++
      Text.ofInt pc

namespace Machine

/-- A computer at the start of a program, its memory cleared. -/
def load (rom : List Word) : Machine := { rom := rom.toArray }

/-- The word at the program counter, if it lies inside the program. -/
def fetch (m : Machine) : Option Word := if m.pc < 0 then none else m.rom[m.pc.toNat]?

/-- Has the program counter left the program? -/
def isHalted (m : Machine) : Bool := m.fetch.isNone

/-- The memory cell at an address, if there is one. -/
def cell? (address : Int) : Option (Fin memorySize) :=
  if h : 0 ≤ address ∧ address < memorySize then some ⟨address.toNat, by omega⟩ else none

/-- The content of the cell at an address. -/
def peek? (m : Machine) (address : Int) : Option Int16 := (cell? address).map (m.ram.get ·)

/-- The computer with a new value in the cell at an address; without such a cell it stays. -/
def poke (m : Machine) (address : Int) (v : Int16) : Machine :=
  match cell? address with
  | none => m
  | some i => { m with ram := m.ram.set i v }

/-- Stores a computed value in the destinations `A` and `D` and moves the program counter: to the
address in `A` if the condition holds, otherwise to the next word. -/
def finish (m : Machine) (dest jump : Text) (v : Int16) : Machine :=
  let a := if dest.contains letterA then v else m.a
  let d := if dest.contains letterD then v else m.d
  { m with a, d, pc := if jumpTaken jump v then (a.toUInt16.toNat : Int) else m.pc + 1 }

/-- Executes a compute word. -/
def compute (m : Machine) (dest comp jump : Text) (line : Int) : Machine × Option Fault :=
  match Computation.ofText? comp with
  | none => (m, some (.invalidComputation line comp))
  | some c =>
    match (if c.readsMemory then m.peek? m.a.toInt else some m.a) with
    | none => (m, some (.readOutside line m.a))
    | some x =>
      let v := c.function.eval m.d x
      if dest.contains letterM then
        match cell? m.a.toInt with
        | none => (m, some (.writeOutside line m.a))
        | some i => (finish { m with ram := m.ram.set i v } dest jump v, none)
      else (m.finish dest jump v, none)

/-- Executes a word. -/
def execute (m : Machine) : Word → Machine × Option Fault
  | .address value _ => ({ m with a := value, pc := m.pc + 1 }, none)
  | .compute dest comp jump line => m.compute dest comp jump line

/-- Executes the word at the program counter; a halted computer stays as it is. -/
def step (m : Machine) : Machine × Option Fault :=
  match m.fetch with
  | none => (m, none)
  | some w => execute { m with steps := m.steps + 1 } w

/-- Runs until the program ends or a word fails, for at most `n` steps. -/
def runFor : Nat → Machine → Machine × Option Fault
  | n, m =>
    if m.isHalted then (m, none)
    else match n with
      | 0 => (m, some (.stepLimit m.steps m.pc))
      | n + 1 =>
        match m.step with
        | (m', some fault) => (m', some fault)
        | (m', none) => runFor n m'

/-- Runs until the program ends, a word fails, or the count of executed words comes to `limit`. -/
def run (m : Machine) (limit : Int64) : Machine × Option Fault :=
  runFor (limit.toInt - m.steps.toInt).toNat m

/-- The cell one past the top of the stack, if it lies above the first cell of the stack and
inside memory. -/
def stackEnd? (m : Machine) : Option Nat :=
  let sp := (m.ram.get ⟨0, by decide⟩).toInt
  if sp ≤ stackStart ∨ (memorySize : Int) < sp then none else some sp.toNat

/-- The values on the stack, the top last. -/
def stack? (m : Machine) : Option (List Int16) :=
  m.stackEnd?.map fun e => (m.ram.toList.take e).drop stackStart

/-- The value on top of the stack. -/
def top? (m : Machine) : Option Int16 := m.stackEnd?.bind fun e => m.peek? (e - 1 : Int)

end Machine

end HackVM
