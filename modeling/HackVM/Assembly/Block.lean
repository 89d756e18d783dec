import HackVM.Instruction.Basic

/-!
# Assembly blocks

The assembly of one operation. The stack lives in memory and the cell `SP` holds the address of the
first free cell above it; every block leaves it pointing one past the new top. A comparison jumps
forward to a label of its own, told apart from the others by its number.
-/

namespace HackVM

/-- A line of assembly. -/
inductive AsmLine
  /-- A remark to the reader. -/
  | comment (text : Text)
  /-- Loads a number or the address of a symbol. -/
  | load (operand : Text)
  /-- Computes, stores and jumps. -/
  | compute (code : Text)
  /-- Names the place of the line that follows. -/
  | label (name : Text)
  deriving DecidableEq, Repr

/-- The line as it is written, without the line feed after it. -/
def AsmLine.text : AsmLine → Text
  | comment t => utf8 "// " ++ t
  | load operand => utf8 "@" ++ operand
  | compute code => code
  | label name => utf8 "(" ++ name ++ utf8 ")"

/-- The text of a list of lines, each ended by a line feed. -/
def AsmLine.render (ls : List AsmLine) : Text := ls.flatMap fun l => l.text ++ [Text.lineFeed]

/-- The register that `pointer 0` stands for. -/
def firstPointerRegister : Nat := 3

/-- The first register of `temp`. -/
def firstTempRegister : Nat := 5

/-- The register that keeps the address of a `pop` while the stack is read. -/
def spareRegister : Text := utf8 "R13"

/-- The name of a register. Registers are numbered in 64-bit two's complement. -/
def registerName (base n : Nat) : Text :=
  utf8 "R" ++ Text.ofInt (Int.bmod (base + n) UInt64.size)

/-- The symbol of a static cell: its number after the name space and a dot, or after the word
`static` if there is no name space. -/
def staticName (ns : Text) (n : Nat) : Text :=
  if ns = [] then utf8 "static" ++ Text.ofNat n else ns ++ utf8 "." ++ Text.ofNat n

/-- The label a comparison jumps to if it holds. -/
def trueLabel (k : Int64) : Text := utf8 "LABEL_" ++ Text.ofInt k.toInt

/-- The label at the end of a comparison. -/
def endLabel (k : Int64) : Text := utf8 "ENDLABEL_" ++ Text.ofInt k.toInt

/-- The register that holds the base address. -/
def Base.register : Base → Text
  | lcl => utf8 "LCL"
  | arg => utf8 "ARG"
  | this => utf8 "THIS"
  | that => utf8 "THAT"

/-- The computation of a unary command on the selected cell. -/
def Unary.code : Unary → Text
  | neg => utf8 "M=-M"
  | not => utf8 "M=!M"

/-- The computation of a binary command on the selected cell and the value popped before. -/
def Binary.code : Binary → Text
  | add => utf8 "M=D+M"
  | sub => utf8 "M=M-D"
  | and => utf8 "M=D&M"
  | or => utf8 "M=D|M"

/-- The jump that is taken if the difference of the operands satisfies the relation. -/
def Relation.jump : Relation → Text
  | eq => utf8 "JEQ"
  | gt => utf8 "JGT"
  | lt => utf8 "JLT"

namespace Block

open AsmLine

/-- Moves the stack pointer up. -/
def raiseSP : List AsmLine := [load (utf8 "SP"), compute (utf8 "M=M+1")]

/-- Moves the stack pointer down. -/
def lowerSP : List AsmLine := [load (utf8 "SP"), compute (utf8 "M=M-1")]

/-- Selects the cell the stack pointer points to. -/
def selectSP : List AsmLine := [load (utf8 "SP"), compute (utf8 "A=M")]

/-- Takes the top of the stack into `D`. -/
def takeTop : List AsmLine := lowerSP ++ [compute (utf8 "A=M"), compute (utf8 "D=M")]

/-- Takes the top of the stack into `D` and selects the cell below, which becomes the first free
one. -/
def takeTwo : List AsmLine := takeTop ++ lowerSP ++ selectSP

/-- Puts `D` on the stack. -/
def pushD : List AsmLine := selectSP ++ [compute (utf8 "M=D")] ++ raiseSP

/-- Selects an element of a region. -/
def address (ns : Text) (n : Nat) : Region → List AsmLine
  | .based b =>
    [load b.register, compute (utf8 "D=M"), load (Text.ofNat n), compute (utf8 "A=D+A")]
  | .static => [load (staticName ns n)]
  | .pointer => [load (registerName firstPointerRegister n)]
  | .temp => [load (registerName firstTempRegister n)]

/-- Replaces the two topmost values by `-1` if their difference makes the jump, by `0` if not. -/
def comparison (k : Int64) (rel : Relation) : List AsmLine :=
  takeTwo ++
    [compute (utf8 "D=M-D"), load (trueLabel k), compute (utf8 "D;" ++ rel.jump)] ++
    selectSP ++
    [compute (utf8 "M=0"), load (endLabel k), compute (utf8 "0;JMP"), label (trueLabel k)] ++
    selectSP ++ [compute (utf8 "M=-1"), label (endLabel k)] ++ raiseSP

/-- The code of an operation; `k` numbers the labels of a comparison. -/
def code (ns : Text) (k : Int64) : Operation → List AsmLine
  | .literal n => [load (Text.ofNat n), compute (utf8 "D=A")] ++ pushD
  | .push r n => address ns n r ++ [compute (utf8 "D=M")] ++ pushD
  | .pop r n =>
    address ns n r ++ [compute (utf8 "D=A"), load spareRegister, compute (utf8 "M=D")] ++
      takeTop ++ [load spareRegister, compute (utf8 "A=M"), compute (utf8 "M=D")]
  | .unary op => lowerSP ++ selectSP ++ [compute op.code] ++ raiseSP
  | .binary op => takeTwo ++ [compute op.code] ++ raiseSP
  | .compare rel => comparison k rel

end Block

end HackVM
