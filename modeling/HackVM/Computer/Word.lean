import HackVM.Text.Decimal
import HackVM.Text.Quoted

/-!
# Words of the Hack computer

A program of the Hack computer is a list of words. An address word loads a number into the register
`A`. A compute word names a computation on `D` and on `A` or the cell that `A` addresses, the
destinations of its result and a condition for a jump; `Computation.ofText?` gives the meaning of
the first, `jumpTaken` that of the last.
-/

namespace HackVM

/-- A word of a program. The parts of a compute word are texts and need not have a meaning. -/
inductive Word
  | address (value : Int16) (line : Int)
  | compute (dest comp jump : Text) (line : Int)
  deriving DecidableEq, Repr

/-- The functions of the arithmetic unit on `D` and an operand. -/
inductive AluFunction
  | zero
  | one
  | minusOne
  | d
  | x
  | notD
  | notX
  | negD
  | negX
  | succD
  | succX
  | predD
  | predX
  | sum
  | dMinusX
  | xMinusD
  | conj
  | disj
  deriving DecidableEq, Repr

namespace AluFunction

/-- The value of a function, in 16-bit two's complement. -/
def eval (d x : Int16) : AluFunction → Int16
  | .zero => 0
  | .one => 1
  | .minusOne => -1
  | .d => d
  | .x => x
  | .notD => ~~~d
  | .notX => ~~~x
  | .negD => -d
  | .negX => -x
  | .succD => d + 1
  | .succX => x + 1
  | .predD => d - 1
  | .predX => x - 1
  | .sum => d + x
  | .dMinusX => d - x
  | .xMinusD => x - d
  | .conj => d &&& x
  | .disj => d ||| x

/-- How the functions are written, with `X` for the operand. -/
def table : List (Text × AluFunction) :=
  [(utf8 "0", zero), (utf8 "1", one), (utf8 "-1", minusOne), (utf8 "D", d), (utf8 "X", x),
    (utf8 "!D", notD), (utf8 "!X", notX), (utf8 "-D", negD), (utf8 "-X", negX),
    (utf8 "D+1", succD), (utf8 "X+1", succX), (utf8 "D-1", predD), (utf8 "X-1", predX),
    (utf8 "D+X", sum), (utf8 "X+D", sum), (utf8 "D-X", dMinusX), (utf8 "X-D", xMinusD),
    (utf8 "D&X", conj), (utf8 "X&D", conj), (utf8 "D|X", disj), (utf8 "X|D", disj)]

end AluFunction

/-- The letter of the register `A`. -/
def letterA : UInt8 := 65

/-- The letter of the register `D`. -/
def letterD : UInt8 := 68

/-- The letter of the cell that `A` addresses. -/
def letterM : UInt8 := 77

/-- The letter that stands for `A` or `M` in the table of functions. -/
def letterX : UInt8 := 88

/-- A computation: a function, and whether its operand is the cell that `A` addresses. -/
structure Computation where
  function : AluFunction
  readsMemory : Bool
  deriving DecidableEq, Repr

/-- The computation that a text writes out. A text may name `A` or `M`, but not both. -/
def Computation.ofText? (t : Text) : Option Computation :=
  if t.contains letterA && t.contains letterM then none
  else
    let form := t.map fun b => if b = letterA ∨ b = letterM then letterX else b
    (AluFunction.table.lookup form).map fun f => ⟨f, t.contains letterM⟩

/-- The names of the jump conditions. -/
def jumpConditions : List Text :=
  [utf8 "JGT", utf8 "JEQ", utf8 "JGE", utf8 "JLT", utf8 "JNE", utf8 "JLE", utf8 "JMP"]

/-- Does a computed value satisfy the jump condition of this name? Other names never jump. -/
def jumpTaken (jump : Text) (v : Int16) : Bool :=
  if jump = utf8 "JGT" then 0 < v
  else if jump = utf8 "JEQ" then v == 0
  else if jump = utf8 "JGE" then 0 ≤ v
  else if jump = utf8 "JLT" then v < 0
  else if jump = utf8 "JNE" then v != 0
  else if jump = utf8 "JLE" then v ≤ 0
  else jump == utf8 "JMP"

end HackVM
