import HackVM.Instruction.Basic

/-!
# Stack depth

The depth of the stack after a list of instructions, found from the commands alone. The count goes
on below zero; that it did is recorded as an underflow.
-/

namespace HackVM

/-- The depth of the stack, and whether some command found too few values on it. -/
structure StackDepth where
  depth : Int := 0
  underflow : Bool := false
  deriving DecidableEq, Repr

namespace Instruction

/-- The number of values the command takes from the stack; a word that is no command counts as
taking two. -/
def operands (i : Instruction) : Nat := ((Command.ofWord? i.command).map Command.operands).getD 2

/-- By how much the command changes the depth of the stack; a word that is no command leaves it. -/
def depthChange (i : Instruction) : Int :=
  ((Command.ofWord? i.command).map Command.depthChange).getD 0

end Instruction

namespace StackDepth

/-- The depth after one more instruction. -/
def next (d : StackDepth) (i : Instruction) : StackDepth where
  depth := d.depth + i.depthChange
  underflow := d.underflow || decide (d.depth < i.operands)

/-- The depth after a program, starting from an empty stack. -/
def ofProgram (p : List Instruction) : StackDepth := p.foldl next {}

@[simp]
theorem ofProgram_concat (p : List Instruction) (i : Instruction) :
    ofProgram (p ++ [i]) = (ofProgram p).next i := by
  simp [ofProgram]

end StackDepth

end HackVM
