import HackVM.Instruction.Command
import HackVM.Text.Decimal
import HackVM.Text.Quoted

/-!
# Instructions

An `Instruction` is a command as it is written: words for command and segment, which need not name
anything, a number and a source line. An `Operation` is what a well-formed one means. `operation`
gives the meaning or says what stands in its way; `Operation.instruction` writes an operation out,
and the two are inverse to each other (`operation_instruction`).
-/

namespace HackVM

/-- What a command does. -/
inductive Operation
  /-- Pushes a number. -/
  | literal (n : Nat)
  /-- Pushes the content of a cell. -/
  | push (region : Region) (offset : Nat)
  /-- Moves the top of the stack into a cell. -/
  | pop (region : Region) (offset : Nat)
  | unary (op : Unary)
  | binary (op : Binary)
  | compare (rel : Relation)
  deriving DecidableEq, Repr

/-- A command in its written form. Segment and offset belong to `push` and `pop`; the segment word
is empty elsewhere. -/
structure Instruction where
  command : Text
  segment : Text := []
  offset : Int := 0
  /-- The source line, counted from one, or zero if it is not known. -/
  line : Int := 0
  deriving DecidableEq, Repr

/-- The command of an operation. -/
def Operation.command : Operation → Command
  | literal _ | push _ _ => .push
  | pop _ _ => .pop
  | unary op => .unary op
  | binary op => .binary op
  | compare rel => .compare rel

/-- The operation written out, on a given line. -/
def Operation.instruction (line : Int) : Operation → Instruction
  | literal n => ⟨Command.push.word, Segment.constant.word, n, line⟩
  | push r n => ⟨Command.push.word, (Segment.region r).word, n, line⟩
  | pop r n => ⟨Command.pop.word, (Segment.region r).word, n, line⟩
  | unary op => ⟨(Command.unary op).word, [], 0, line⟩
  | binary op => ⟨(Command.binary op).word, [], 0, line⟩
  | compare rel => ⟨(Command.compare rel).word, [], 0, line⟩

/-- Why an instruction has no code. -/
inductive CodeError
  | unknownCommand (line : Int) (word : Text)
  | unknownSegment (line : Int) (word : Text)
  | negativeOffset (line : Int) (offset : Int)
  | popConstant (line : Int)
  deriving DecidableEq, Repr

/-- The message of a code error. -/
def CodeError.message : CodeError → Text
  | unknownCommand line w =>
    utf8 "line " ++ Text.ofInt line ++ utf8 ": no code generation rule for command " ++ w.quoted
  | unknownSegment line w =>
    utf8 "line " ++ Text.ofInt line ++ utf8 ": no addressing rule for segment " ++ w.quoted
  | negativeOffset line n =>
    utf8 "line " ++ Text.ofInt line ++ utf8 ": negative offset " ++ Text.ofInt n
  | popConstant line =>
    utf8 "line " ++ Text.ofInt line ++ utf8 ": pop constant has no destination address"

/-- Why an instruction is not well formed. -/
inductive FormError
  | unknownCommand (word : Text)
  | unknownSegment (command word : Text)
  | negativeOffset (command segment : Text) (offset : Int)
  | straySegment (command : Text)
  deriving DecidableEq, Repr

/-- The message of a form error. -/
def FormError.message : FormError → Text
  | unknownCommand w => utf8 "unknown command " ++ w.quoted
  | unknownSegment c w => c ++ utf8 ": unknown segment " ++ w.quoted
  | negativeOffset c s n => c ++ utf8 " " ++ s ++ utf8 ": negative offset " ++ Text.ofInt n
  | straySegment c => c ++ utf8 " takes no segment"

namespace Instruction

/-- The instruction in one line of text: its words and its offset, or the command alone if the
segment word is empty. -/
def text (i : Instruction) : Text :=
  if i.segment = [] then i.command
  else i.command ++ utf8 " " ++ i.segment ++ utf8 " " ++ Text.ofInt i.offset

/-- Checks that the words are known, that `push` and `pop` have a segment and a natural offset and
that the other commands have no segment. -/
def check (i : Instruction) : Except FormError Unit :=
  match Command.ofWord? i.command with
  | none => .error (.unknownCommand i.command)
  | some c =>
    if c.takesOperands then
      match Segment.ofWord? i.segment with
      | none => .error (.unknownSegment i.command i.segment)
      | some _ =>
        if i.offset < 0 then .error (.negativeOffset i.command i.segment i.offset) else .ok ()
    else if i.segment = [] then .ok () else .error (.straySegment i.command)

/-- The segment and the offset that the instruction addresses. -/
def address (i : Instruction) : Except CodeError (Segment × Nat) :=
  match Segment.ofWord? i.segment with
  | none => .error (.unknownSegment i.line i.segment)
  | some s =>
    if i.offset < 0 then .error (.negativeOffset i.line i.offset) else .ok (s, i.offset.toNat)

/-- What the instruction does. Commands without operands ignore segment and offset. -/
def operation (i : Instruction) : Except CodeError Operation :=
  match Command.ofWord? i.command with
  | none => .error (.unknownCommand i.line i.command)
  | some .push =>
    match i.address with
    | .error e => .error e
    | .ok (.constant, n) => .ok (.literal n)
    | .ok (.region r, n) => .ok (.push r n)
  | some .pop =>
    match i.address with
    | .error e => .error e
    | .ok (.constant, _) => .error (.popConstant i.line)
    | .ok (.region r, n) => .ok (.pop r n)
  | some (.unary op) => .ok (.unary op)
  | some (.binary op) => .ok (.binary op)
  | some (.compare rel) => .ok (.compare rel)

end Instruction

@[simp]
theorem Operation.command_instruction (line : Int) (op : Operation) :
    (op.instruction line).command = op.command.word := by
  cases op <;> rfl

/-- An operation that is written out means itself. -/
@[simp]
theorem Instruction.operation_instruction (line : Int) (op : Operation) :
    (op.instruction line).operation = .ok op := by
  have hnat (n : Nat) : ¬ (n : Int) < 0 := by omega
  cases op <;> simp [Instruction.operation, Operation.instruction, Instruction.address, hnat]

end HackVM
