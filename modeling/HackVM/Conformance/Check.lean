import HackVM.Conformance.Case
import HackVM.Computer.Assembler
import HackVM.Computer.Machine

/-!
# Running test cases

`TestCase.run` compiles the source of a test and compares: first the error, if one is expected;
otherwise the assembly, and then, if a stack or memory cells are expected, what the computer ends
with. The first `Mismatch` decides.
-/

namespace HackVM

/-- How a test differs from what it expects. -/
inductive Mismatch
  | unknownErrorName (name : Text)
  | compiled (name : Text)
  | otherError (name : Text) (actual : Diagnostic)
  | errorLine (expected actual : Int)
  | unexpectedError (actual : Diagnostic)
  | lineCount (expected actual : Nat) (assembly : Text)
  | line (number : Nat) (expected actual : Text)
  | missingLine (line : Text)
  | labels (expected actual : Int)
  | notAssembled (e : AsmError)
  | setupAddress (address : Int)
  | fault (f : Fault)
  | stack (expected : List Int) (actual : List Int16)
  | address (address : Int)
  | cell (address : Int) (expected actual : Int16)
  deriving DecidableEq, Repr

/-- Numbers with spaces between them, in square brackets. -/
def bracketed (ns : List Int) : Text :=
  utf8 "[" ++ [32].intercalate (ns.map Text.ofInt) ++ utf8 "]"

/-- The message of a mismatch. -/
def Mismatch.message : Mismatch → Text
  | unknownErrorName name => utf8 "unknown error name: " ++ name
  | compiled name => utf8 "expected error " ++ name ++ utf8 ", translation succeeded"
  | otherError name actual => utf8 "expected error " ++ name ++ utf8 ", got " ++ actual.message
  | errorLine expected actual =>
    utf8 "expected error on line " ++ Text.ofInt expected ++ utf8 ", got line " ++
      Text.ofInt actual
  | unexpectedError actual => utf8 "unexpected error: " ++ actual.message
  | lineCount expected actual assembly =>
    utf8 "expected " ++ Text.ofNat expected ++ utf8 " assembly lines, got " ++ Text.ofNat actual ++
      utf8 ":\n" ++ assembly
  | line number expected actual =>
    utf8 "assembly line " ++ Text.ofNat number ++ utf8 ": expected " ++ expected.quoted ++
      utf8 ", got " ++ actual.quoted
  | missingLine l => utf8 "assembly does not contain line " ++ l.quoted
  | labels expected actual =>
    utf8 "expected " ++ Text.ofInt expected ++ utf8 " label pairs, got " ++ Text.ofInt actual
  | notAssembled e => utf8 "generated assembly does not assemble: " ++ e.message
  | setupAddress n => utf8 "setup RAM address " ++ Text.ofInt n ++ utf8 " out of range"
  | fault f => utf8 "execution failed: " ++ f.message
  | stack expected actual =>
    utf8 "expected stack " ++ bracketed expected ++ utf8 ", got " ++
      bracketed (actual.map Int16.toInt)
  | address n => utf8 "RAM address " ++ Text.ofInt n ++ utf8 " out of range"
  | cell n expected actual =>
    utf8 "RAM[" ++ Text.ofInt n ++ utf8 "]: expected " ++ Text.ofInt expected.toInt ++
      utf8 ", got " ++ Text.ofInt actual.toInt

/-! ## Expected errors -/

/-- The errors that tests can expect. -/
inductive ErrorClass
  | emptySource
  | malformedComment
  | undecodable
  deriving DecidableEq, Repr

namespace ErrorClass

/-- The class of a name. -/
def ofName? (name : Text) : Option ErrorClass :=
  if name = utf8 "empty_source" then some emptySource
  else if name = utf8 "malformed_comment" then some malformedComment
  else if name = utf8 "decode" then some undecodable
  else none

/-- The class of an error, if tests can expect it. -/
def ofError? : CompilationError → Option ErrorClass
  | .source .empty => some emptySource
  | .source (.comment _) => some malformedComment
  | .decode _ => some undecodable
  | .unreadable _ | .emit _ _ => none

end ErrorClass

/-- Compares the outcome of a compilation with an expected error. -/
def Expectation.checkFailure (e : Expectation) (t : Compilation) : Except Mismatch Unit :=
  match ErrorClass.ofName? e.error with
  | none => .error (.unknownErrorName e.error)
  | some c =>
    match t.assembly with
    | .ok _ => .error (.compiled e.error)
    | .error d =>
      if ErrorClass.ofError? d.error ≠ some c then .error (.otherError e.error d)
      else if 0 < e.errorLine ∧ d.error.place.1 ≠ e.errorLine then
        .error (.errorLine e.errorLine d.error.place.1)
      else .ok ()

/-! ## Expected assembly -/

/-- The lines of an assembly text; a line feed at its end starts no line. -/
def assemblyLines (assembly : Text) : List Text :=
  (Text.dropEnding [Text.lineFeed] assembly).splitOn Text.lineFeed

/-- Compares lines one by one, the first of them having the given number. -/
def compareLines : Nat → List Text → List Text → Except Mismatch Unit
  | n, e :: es, a :: as =>
    if a = e then compareLines (n + 1) es as else .error (.line n e a)
  | _, _, _ => .ok ()

/-- Compares the lines of an assembly text with those that are expected, if any are. -/
def Expectation.checkLines (e : Expectation) (assembly : Text) : Except Mismatch Unit :=
  match e.lines with
  | none => .ok ()
  | some expected =>
    let actual := assemblyLines assembly
    if actual.length ≠ expected.length then
      .error (.lineCount expected.length actual.length assembly)
    else compareLines 1 expected actual

/-- Looks for the lines that an assembly text must have. -/
def Expectation.checkContains (e : Expectation) (assembly : Text) : Except Mismatch Unit :=
  let actual := assemblyLines assembly
  match (e.contains.getD []).find? fun l => !actual.contains l with
  | some l => .error (.missingLine l)
  | none => .ok ()

/-- Compares the number of comparisons, if one is expected. -/
def Expectation.checkLabels (e : Expectation) (labels : Int64) : Except Mismatch Unit :=
  match e.labels with
  | none => .ok ()
  | some n => if labels.toInt = n then .ok () else .error (.labels n labels.toInt)

/-! ## Expected memory -/

/-- The step limit of a run for which none is chosen. -/
def defaultStepLimit : Int64 := 100000

/-- The pointers that are set before every run: the empty stack and the bases of the segments
`local`, `argument`, `this` and `that`. -/
def defaultCells : Cells := [(0, stackStart), (1, 300), (2, 400), (3, 3000), (4, 3010)]

/-- The computer with values in some cells; values are taken modulo `2 ^ 16`. -/
def Machine.fill (m : Machine) (cells : Cells) : Machine :=
  cells.foldl (fun m c => m.poke c.1 (Int16.ofInt c.2)) m

/-- Runs a program to its end, with the default pointers and then the given cells set. -/
def runAssembly (assembly : Text) (setup : Cells) (limit : Int64) : Except Mismatch Machine :=
  match assemble assembly with
  | .error e => .error (.notAssembled e)
  | .ok program =>
    match setup.find? fun c => (Machine.cell? c.1).isNone with
    | some c => .error (.setupAddress c.1)
    | none =>
      let start := ((Machine.load program).fill defaultCells).fill setup
      match start.run (if limit ≤ 0 then defaultStepLimit else limit) with
      | (_, some f) => .error (.fault f)
      | (m, none) => .ok m

/-- Compares the stack, if one is expected. Without a stack there are no values on it. -/
def Expectation.checkStack (e : Expectation) (m : Machine) : Except Mismatch Unit :=
  match e.stack with
  | none => .ok ()
  | some expected =>
    let actual := m.stack?.getD []
    if actual = expected.map Int16.ofInt then .ok () else .error (.stack expected actual)

/-- Compares a memory cell. -/
def Machine.checkCell (m : Machine) (address value : Int) : Except Mismatch Unit :=
  match m.peek? address with
  | none => .error (.address address)
  | some actual =>
    if actual = Int16.ofInt value then .ok () else .error (.cell address (Int16.ofInt value) actual)

/-- Compares memory cells one after the other. -/
def Machine.checkCells (m : Machine) : Cells → Except Mismatch Unit
  | [] => .ok ()
  | c :: cs => do
    m.checkCell c.1 c.2
    m.checkCells cs

/-! ## Verdicts -/

/-- Compares what became of a source that was compiled. -/
def TestCase.checkCompiled (c : TestCase) (assembly : Text) (labels limit : Int64) :
    Except Mismatch Unit := do
  c.expect.checkLines assembly
  c.expect.checkContains assembly
  c.expect.checkLabels labels
  if c.expect.stack.isSome || c.expect.ram.isSome then
    let m ← runAssembly assembly (c.setup.getD []) limit
    c.expect.checkStack m
    m.checkCells (c.expect.ram.getD [])

/-- Compares what a test comes to with what it expects. -/
def TestCase.check (c : TestCase) (limit : Int64) : Except Mismatch Unit :=
  let t := compileText (c.name ++ utf8 ".vm") c.source c.options
  if c.expect.error ≠ [] then c.expect.checkFailure t
  else
    match t.assembly with
    | .error d => .error (.unexpectedError d)
    | .ok assembly => c.checkCompiled assembly t.labels limit

/-- What becomes of a test. -/
inductive Verdict
  | passed
  | failed (m : Mismatch)
  | skipped (reason : Text)
  deriving DecidableEq, Repr

/-- Runs a test with a step limit; a limit that is not positive stands for the default. -/
def TestCase.run (c : TestCase) (limit : Int64) : Verdict :=
  match c.skip.reason? with
  | some reason => .skipped reason
  | none =>
    match c.check limit with
    | .ok () => .passed
    | .error m => .failed m

/-- How many tests ended in which way. -/
structure TestTally where
  total : Nat
  passed : Nat
  failed : Nat
  skipped : Nat
  deriving DecidableEq, Repr

namespace TestTally

/-- Counts verdicts. -/
def ofVerdicts (vs : List Verdict) : TestTally where
  total := vs.length
  passed := vs.countP fun | .passed => true | _ => false
  failed := vs.countP fun | .failed _ => true | _ => false
  skipped := vs.countP fun | .skipped _ => true | _ => false

/-- The summary of a tally. -/
def summary (t : TestTally) : Text :=
  Text.ofNat t.passed ++ utf8 " passed, " ++ Text.ofNat t.failed ++ utf8 " failed, " ++
    Text.ofNat t.skipped ++ utf8 " skipped (" ++ Text.ofNat t.total ++ utf8 " total)"

end TestTally

end HackVM
