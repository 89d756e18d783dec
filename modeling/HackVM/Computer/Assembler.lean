import HackVM.Computer.Word
import HackVM.Text.Blank

/-!
# The assembler

Assembly text becomes words in two passes. The first binds every label to the number of the word
that follows it; the second encodes the lines and gives the next free memory cell to each symbol
that is not bound yet. An `Assembler` keeps its symbols from one text to the next, also after an
error.
-/

namespace HackVM

/-- The first cell given to a variable. -/
def firstVariable : Nat := 16

/-- The largest number that an address word can load. -/
def largestConstant : Nat := 32767

/-- The symbols that are bound from the start. -/
def predefinedSymbols : List (Text × Nat) :=
  [(utf8 "SP", 0), (utf8 "LCL", 1), (utf8 "ARG", 2), (utf8 "THIS", 3), (utf8 "THAT", 4),
    (utf8 "SCREEN", 16384), (utf8 "KBD", 24576)] ++
  (List.range 16).map fun i => (utf8 "R" ++ Text.ofNat i, i)

/-- What is wrong with a line of assembly. -/
inductive AsmProblem
  | malformedLabel (raw : Text)
  | duplicateLabel (name : Text)
  | missingOperand
  | invalidConstant (operand : Text)
  | invalidDestination (dest : Text)
  | invalidJump (jump : Text)
  | invalidComputation (comp : Text)
  deriving DecidableEq, Repr

/-- The wording of a problem. -/
def AsmProblem.text : AsmProblem → Text
  | malformedLabel t => utf8 "malformed label " ++ t.quoted
  | duplicateLabel t => utf8 "duplicate label " ++ t.quoted
  | missingOperand => utf8 "missing A-instruction operand"
  | invalidConstant t => utf8 "invalid constant " ++ t.quoted
  | invalidDestination t => utf8 "invalid destination " ++ t.quoted
  | invalidJump t => utf8 "invalid jump " ++ t.quoted
  | invalidComputation t => utf8 "invalid computation " ++ t.quoted

/-- A problem and the number of its line. -/
structure AsmError where
  line : Nat
  problem : AsmProblem
  deriving DecidableEq, Repr

/-- The message of an assembler error. -/
def AsmError.message (e : AsmError) : Text :=
  utf8 "line " ++ Text.ofNat e.line ++ utf8 ": " ++ e.problem.text

/-- The symbols of an assembler. -/
structure Assembler where
  /-- The bindings, the latest first. -/
  symbols : List (Text × Nat) := predefinedSymbols
  /-- The cell for the next variable. -/
  nextVariable : Nat := firstVariable
  deriving DecidableEq, Repr

/-- A line of code: its number in the text, and its characters without comment and white space. -/
structure CodeLine where
  number : Nat
  text : Text
  deriving DecidableEq, Repr

/-- A line of assembly without its comment and without white space. -/
def codeText (raw : Text) : Text :=
  match Text.cut? (utf8 "//") raw with
  | none => raw.squeeze
  | some (before, _) => Text.squeeze before

/-- The name in a label line, if it is one: at least one character between parentheses. -/
def labelName? (t : Text) : Option Text :=
  if 3 ≤ t.length ∧ t.getLast? = some 41 then some (t.drop 1).dropLast else none

/-- Is this a constant, not a symbol? -/
def startsWithDigit (t : Text) : Bool := t.head?.any Text.isDigit

/-- The parts of a compute line: what stands before `=`, between, and after `;`. -/
def encodeCompute (number : Nat) (t : Text) : Except AsmProblem Word := do
  let (dest, rest) ← match Text.cut? (utf8 "=") t with
    | none => pure ([], t)
    | some (dest, rest) =>
      if dest = [] ∨ !dest.all fun b => b == letterA || b == letterM || b == letterD then
        throw (.invalidDestination dest)
      else pure (dest, rest)
  let (comp, jump) ← match Text.cut? (utf8 ";") rest with
    | none => pure (rest, [])
    | some (comp, jump) =>
      if jumpConditions.contains jump then pure (comp, jump) else throw (.invalidJump jump)
  match Computation.ofText? comp with
  | none => throw (.invalidComputation comp)
  | some _ => return .compute dest comp jump number

namespace Assembler

/-- The address a symbol is bound to. -/
def lookup (a : Assembler) (name : Text) : Option Nat := a.symbols.lookup name

/-- The assembler with one more binding. -/
def bind (a : Assembler) (name : Text) (address : Nat) : Assembler :=
  { a with symbols := (name, address) :: a.symbols }

/-- The address of a symbol, which becomes a variable if it is not bound. -/
def resolve (a : Assembler) (name : Text) : Nat × Assembler :=
  match a.lookup name with
  | some address => (address, a)
  | none => (a.nextVariable,
      { a.bind name a.nextVariable with nextVariable := a.nextVariable + 1 })

/-- The first pass over lines numbered from `number` on, `address` words of code standing before
them: binds the labels and collects the code lines. -/
def bindLabels (a : Assembler) (number address : Nat) :
    List Text → Assembler × Except AsmError (List CodeLine)
  | [] => (a, .ok [])
  | raw :: rest =>
    let text := codeText raw
    if text = [] then a.bindLabels (number + 1) address rest
    else if text.head? = some 40 then
      match labelName? text with
      | none => (a, .error ⟨number, .malformedLabel raw⟩)
      | some name =>
        if (a.lookup name).isSome then (a, .error ⟨number, .duplicateLabel name⟩)
        else (a.bind name address).bindLabels (number + 1) address rest
    else
      match a.bindLabels (number + 1) (address + 1) rest with
      | (a', .ok lines) => (a', .ok (⟨number, text⟩ :: lines))
      | (a', .error e) => (a', .error e)

/-- Encodes the operand of an address line. -/
def encodeAddress (a : Assembler) (number : Nat) (operand : Text) :
    Assembler × Except AsmProblem Word :=
  if operand = [] then (a, .error .missingOperand)
  else if startsWithDigit operand then
    match operand.value? with
    | some n =>
      if n ≤ largestConstant then (a, .ok (.address (Int16.ofNat n) number))
      else (a, .error (.invalidConstant operand))
    | none => (a, .error (.invalidConstant operand))
  else
    let (address, a') := a.resolve operand
    (a', .ok (.address (Int16.ofNat address) number))

/-- Encodes a line of code. -/
def encodeLine (a : Assembler) (l : CodeLine) : Assembler × Except AsmProblem Word :=
  match l.text with
  | 64 :: operand => a.encodeAddress l.number operand
  | text => (a, encodeCompute l.number text)

/-- The second pass: encodes the code lines up to the first error. -/
def encodeLines (a : Assembler) : List CodeLine → Assembler × Except AsmError (List Word)
  | [] => (a, .ok [])
  | l :: rest =>
    match a.encodeLine l with
    | (a', .error p) => (a', .error ⟨l.number, p⟩)
    | (a', .ok w) =>
      match a'.encodeLines rest with
      | (a'', .error e) => (a'', .error e)
      | (a'', .ok ws) => (a'', .ok (w :: ws))

/-- Assembles a text: the words, and the assembler with the symbols it now knows. -/
def assemble (a : Assembler) (t : Text) : Assembler × Except AsmError (List Word) :=
  match a.bindLabels 1 0 ((Text.joinLineEnds t).splitOn Text.lineFeed) with
  | (a', .error e) => (a', .error e)
  | (a', .ok lines) => a'.encodeLines lines

end Assembler

/-- Assembles a text from the predefined symbols. -/
def assemble (t : Text) : Except AsmError (List Word) := (({} : Assembler).assemble t).2

end HackVM
