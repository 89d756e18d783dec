import HackVM.Conformance.Case
import HackVM.Files.Lookup

/-!
# Test suites

A suite is a document with a name and a list of tests. What the text of a document stands for is
left to a `SuiteDecoder`. `FileTree.loadSuites` loads the suites of all files below a directory
whose extension is `.yaml`, in the order of the bytes of their paths; the first error ends it.
-/

namespace HackVM

/-- A named list of tests. -/
structure Suite where
  name : Text := []
  description : Text := []
  tests : List TestCase := []
  deriving DecidableEq, Repr

/-- The suite in a document, or why there is none. -/
abbrev SuiteDecoder := Text → Except Text Suite

/-! ## Loading suites -/

/-- Why suites could not be loaded. -/
inductive SuiteError
  | unavailable (path : Text) (e : SystemError)
  | malformed (path reason : Text)
  | unnamed (path : Text) (index : Nat)
  | overspecified (path name : Text)
  deriving DecidableEq, Repr

/-- The message of a suite error. -/
def SuiteError.message : SuiteError → Text
  | unavailable path e => utf8 "lstat " ++ path ++ utf8 ": " ++ e.text
  | malformed path reason => path ++ utf8 ": " ++ reason
  | unnamed path index => path ++ utf8 ": test " ++ Text.ofNat index ++ utf8 " has no name"
  | overspecified path name =>
    path ++ utf8 ": " ++ name ++ utf8 ": expect.error excludes stack and ram"

/-- Does the test expect an error and also something of a run? -/
def Expectation.isOverspecified (e : Expectation) : Bool :=
  e.error ≠ [] && (e.stack.getD [] ≠ [] || e.ram.getD [] ≠ [])

namespace Suite

/-- The first test of a suite file that is not as it must be; the first one has the given index. -/
def findError? (path : Text) : Nat → List TestCase → Option SuiteError
  | _, [] => none
  | i, c :: cs =>
    if c.name = [] then some (.unnamed path i)
    else if c.expect.isOverspecified then some (.overspecified path c.name)
    else findError? path (i + 1) cs

/-- The suite in a file. -/
def ofFile (decode : SuiteDecoder) (path content : Text) : Except SuiteError Suite :=
  match decode content with
  | .error reason => .error (.malformed path reason)
  | .ok s =>
    match findError? path 0 s.tests with
    | some e => .error e
    | none => .ok s

end Suite

/-- A test with the file, seen from the directory that was searched, and the suite it is from. -/
structure SuiteTest where
  file : Text
  suite : Text
  test : TestCase
  deriving DecidableEq, Repr

namespace FileTree

/-- The files at a place and below it, with the names that lead to them from there. -/
def filesBelow (t : FileTree) (place : Place) : List (Place × Text) :=
  t.entries.filterMap fun (p, n) =>
    match n with
    | .directory => none
    | .file content _ => if place.isPrefixOf p then some (p.drop place.length, content) else none

/-- The suite files below a directory, or at the path of a file: their paths and contents in the
order of the bytes of the paths. -/
def suiteFiles (t : FileTree) (dir : Text) : Except SystemError (List (Text × Text)) :=
  match t.locate dir, t.stat dir with
  | .ok place, .ok _ =>
    let files := (t.filesBelow place).map fun (names, content) =>
      (if names = [] then dir else Path.join dir ([Path.slash].intercalate names), content)
    .ok ((files.filter fun f => Path.extension f.1 = utf8 ".yaml").mergeSort fun f g =>
      Text.le f.1 g.1)
  | .error e, _ | _, .error e => .error e

/-- Loads the tests of suite files that were found in a directory. -/
def loadFiles (decode : SuiteDecoder) (dir : Text) :
    List (Text × Text) → Except SuiteError (List SuiteTest)
  | [] => .ok []
  | (path, content) :: files => do
    let s ← Suite.ofFile decode path content
    let rest ← loadFiles decode dir files
    return s.tests.map (⟨Path.relativeTo dir path, s.name, ·⟩) ++ rest

/-- Loads the tests of all suites below a directory. -/
def loadSuites (t : FileTree) (decode : SuiteDecoder) (dir : Text) :
    Except SuiteError (List SuiteTest) :=
  match t.suiteFiles dir with
  | .error e => .error (.unavailable dir e)
  | .ok files => loadFiles decode dir files

end FileTree

end HackVM
