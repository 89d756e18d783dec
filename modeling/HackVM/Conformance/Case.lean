import HackVM.Compilation

/-!
# Test cases

A `TestCase` is a source together with what compiling it, and running the result, must come to.
What an expectation leaves open is not looked at: an absent stack differs from an empty one.
-/

namespace HackVM

/-- Memory cells by address, with the values put or expected there. -/
abbrev Cells := List (Int × Int)

namespace Cells

/-- The cells with a value at an address, in the place of the value that was there. Ascending
addresses stay ascending. -/
def insert (address value : Int) : Cells → Cells
  | [] => [(address, value)]
  | c :: cs =>
    if address < c.1 then (address, value) :: c :: cs
    else if address = c.1 then (address, value) :: cs
    else c :: insert address value cs

/-- The cells of a list in ascending order of the addresses; the last value at an address counts. -/
def ofList (l : List (Int × Int)) : Cells := l.foldl (fun cs c => cs.insert c.1 c.2) []

end Cells

/-- What a test expects. -/
structure Expectation where
  /-- The name of the expected error; nothing if the source must be compiled. -/
  error : Text := []
  /-- The line of the expected error, if positive. -/
  errorLine : Int := 0
  /-- The values on the stack at the end, the top last, up to multiples of `2 ^ 16`. -/
  stack : Option (List Int) := none
  /-- Memory cells at the end, up to multiples of `2 ^ 16`. -/
  ram : Option Cells := none
  /-- The number of comparisons. -/
  labels : Option Int := none
  /-- Lines that occur in the assembly. -/
  contains : Option (List Text) := none
  /-- All lines of the assembly. -/
  lines : Option (List Text) := none
  deriving DecidableEq, Repr

/-- What a test says about skipping it. -/
inductive Skip
  | flag (on : Bool)
  | because (reason : Text)
  deriving DecidableEq, Repr

/-- Why a test is skipped, if it is: an empty reason is one too. -/
def Skip.reason? : Skip → Option Text
  | flag true => some (utf8 "skipped")
  | flag false => none
  | because reason => some reason

/-- A source with what is expected of it. -/
structure TestCase where
  name : Text := []
  description : Text := []
  skip : Skip := .flag false
  options : CompilationOptions := {}
  source : Text := []
  /-- Memory cells to set before the run. -/
  setup : Option Cells := none
  expect : Expectation := {}
  deriving DecidableEq, Repr

end HackVM
