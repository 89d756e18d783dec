import HackVM.Instruction.Basic
import HackVM.Source.Comment
import HackVM.Source.Lexer

/-!
# Decoding command lines

A command line is one word, the name of a command without operands, or three: `push` or `pop`, a
segment and an offset. `CommandLine.decode` gives the instruction on a line, or what is wrong with
it and at which token.
-/

namespace HackVM

/-- The largest offset of a segment. -/
def largestOffset : Nat := 32767

/-- The number of elements of the `pointer` segment under strict checking. -/
def pointerSize : Nat := 2

/-- The number of elements of the `temp` segment under strict checking. -/
def tempSize : Nat := 8

/-- What is wrong with a command line. -/
inductive DecodeProblem
  | emptyCommand
  | tokenCount (n : Nat)
  | unknownCommand (word : Text)
  | operandsMissing (c : Command)
  | operandsUnwanted (c : Command)
  | unknownSegment (word : Text)
  | offsetNotNumber (word : Text)
  | offsetTooLarge (digits : Text)
  | popConstant
  | pointerTooLarge (n : Nat)
  | tempTooLarge (n : Nat)
  deriving DecidableEq, Repr

/-- The wording of a problem. -/
def DecodeProblem.text : DecodeProblem → Text
  | emptyCommand => utf8 "empty command"
  | tokenCount n => utf8 "expected 1 or 3 tokens, got " ++ Text.ofNat n
  | unknownCommand w => utf8 "unknown command " ++ w.quoted
  | operandsMissing c => c.word ++ utf8 " requires a segment and an offset"
  | operandsUnwanted c => c.word ++ utf8 " takes no operands"
  | unknownSegment w => utf8 "unknown segment " ++ w.quoted
  | offsetNotNumber w => utf8 "offset " ++ w.quoted ++ utf8 " is not a non-negative integer"
  | offsetTooLarge d =>
    utf8 "offset " ++ d ++ utf8 " out of range 0.." ++ Text.ofNat largestOffset
  | popConstant => utf8 "cannot pop into constant: it has no address"
  | pointerTooLarge n =>
    utf8 "pointer offset " ++ Text.ofNat n ++ utf8 " out of range 0.." ++
      Text.ofNat (pointerSize - 1)
  | tempTooLarge n =>
    utf8 "temp offset " ++ Text.ofNat n ++ utf8 " out of range 0.." ++ Text.ofNat (tempSize - 1)

/-- A problem and the token it is about. -/
structure DecodeError where
  problem : DecodeProblem
  line : Int
  /-- The column of the token in the raw line. -/
  column : Nat
  token : Text
  deriving DecidableEq, Repr

/-- The column as it is reported: a number of 64 bits with a sign. -/
def DecodeError.reportedColumn (e : DecodeError) : Int := Int.bmod e.column UInt64.size

/-- The message of a decoding error. -/
def DecodeError.message (e : DecodeError) : Text :=
  utf8 "parser error at line " ++ Text.ofInt e.line ++ utf8 ", column " ++
    Text.ofInt e.reportedColumn ++ utf8 ": " ++ e.problem.text

/-- A problem at a token of the command text. -/
structure Misplaced where
  problem : DecodeProblem
  token : Token

/-- The command that a token names. -/
def decodeCommand (tok : Token) : Except Misplaced Command :=
  match Command.ofWord? tok.literal with
  | some c => .ok c
  | none => .error ⟨.unknownCommand tok.literal, tok⟩

/-- The segment that a token names. -/
def decodeSegment (tok : Token) : Except Misplaced Segment :=
  match Segment.ofWord? tok.literal with
  | some s => .ok s
  | none => .error ⟨.unknownSegment tok.literal, tok⟩

/-- The offset that a token writes out. -/
def decodeOffset (tok : Token) : Except Misplaced Nat :=
  if !tok.isNumber then .error ⟨.offsetNotNumber tok.literal, tok⟩
  else if largestOffset < tok.literal.value then .error ⟨.offsetTooLarge tok.literal, tok⟩
  else .ok tok.literal.value

/-- The command that stands alone on its line. -/
def decodeSingle (tok : Token) : Except Misplaced Operation := do
  match ← decodeCommand tok with
  | .unary op => .ok (.unary op)
  | .binary op => .ok (.binary op)
  | .compare rel => .ok (.compare rel)
  | c => .error ⟨.operandsMissing c, tok⟩

/-- Under strict checking, the problem with an offset that lies outside its segment. -/
def slotProblem? (strict : Bool) (r : Region) (n : Nat) : Option DecodeProblem :=
  if !strict then none
  else match r with
    | .pointer => if pointerSize ≤ n then some (.pointerTooLarge n) else none
    | .temp => if tempSize ≤ n then some (.tempTooLarge n) else none
    | _ => none

/-- The command with its two operands. -/
def decodeTriple (strict : Bool) (cmd seg off : Token) : Except Misplaced Operation := do
  let c ← decodeCommand cmd
  if !c.takesOperands then throw ⟨.operandsUnwanted c, seg⟩
  match ← decodeSegment seg with
  | .constant =>
    let n ← decodeOffset off
    if c = .push then return .literal n else throw ⟨.popConstant, seg⟩
  | .region r =>
    let n ← decodeOffset off
    match slotProblem? strict r n with
    | some p => throw ⟨p, off⟩
    | none => return if c = .push then .push r n else .pop r n

/-- The operation that a list of tokens writes out. -/
def decodeTokens (strict : Bool) : List Token → Except Misplaced Operation
  | [] => .error ⟨.emptyCommand, ⟨[], 1⟩⟩
  | [tok] => decodeSingle tok
  | [cmd, seg, off] => decodeTriple strict cmd seg off
  | toks@(tok :: _) => .error ⟨.tokenCount toks.length, tok⟩

namespace CommandLine

/-- The problem placed in the raw line. -/
def placeError (line : CommandLine) (m : Misplaced) : DecodeError where
  problem := m.problem
  line := line.number
  column := max line.column 1 + m.token.column - 1
  token := m.token.literal

/-- The instruction on a command line. -/
def decode (strict : Bool) (line : CommandLine) : Except DecodeError Instruction :=
  match decodeTokens strict (tokenize line.text) with
  | .ok op => .ok (op.instruction line.number)
  | .error m => .error (line.placeError m)

/-- The instructions on a list of command lines, up to the first error. -/
def decodeAll (strict : Bool) (lines : List CommandLine) : Except DecodeError (List Instruction) :=
  lines.mapM (decode strict)

end CommandLine

end HackVM
