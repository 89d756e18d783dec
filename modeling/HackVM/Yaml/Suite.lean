import HackVM.Conformance.Suite
import HackVM.Yaml.Document

/-!
# Suites in YAML

How a test suite is written as a YAML document. `Yaml.decodeSuite` is the decoder of such documents
for the part of YAML that suites are written in.
-/

namespace HackVM.Yaml

/-- The value as memory cells: a map from addresses to values. Entries under nothing are left
out. -/
def cells? (y : Yaml) : Option Cells := do
  let entries ← y.entries?
  let cells ← (entries.filter fun e => !e.1.isNull).mapM fun (k, v) => do
    return (← k.int?, ← v.int?)
  return Cells.ofList cells

/-- What the value says about skipping a test; what is neither a truth value nor a text says
nothing, but its maps must be sound. -/
def skip? (y : Yaml) : Option Skip :=
  match y with
  | .scalar s =>
    match s.meaning with
    | .truth b => some (.flag b)
    | .text => some (.because s.text)
    | _ => some (.flag false)
  | y => if y.isSound then some (.flag false) else none

/-- Reads an expectation. -/
def expectation? (y : Yaml) : Option Expectation := do
  let fs ← y.fields?
  return {
    error := ← (field fs "error").text?
    errorLine := ← (field fs "error_line").int?
    stack := ← (field fs "stack").optional? (list? int?)
    ram := ← (field fs "ram").optional? cells?
    labels := ← (field fs "labels").optional? int?
    contains := ← (field fs "contains").optional? (list? text?)
    lines := ← (field fs "lines").optional? (list? text?) }

/-- Reads the options of a compilation. -/
def options? (y : Yaml) : Option CompilationOptions := do
  let fs ← y.fields?
  return {
    strict := ← (field fs "strict").bool?
    staticNamespace := ← (field fs "static_namespace").text? }

/-- Reads the cells to set before a run; there may be none. -/
def setup? (y : Yaml) : Option (Option Cells) := do
  let fs ← y.fields?
  (field fs "ram").optional? cells?

/-- Reads a test. -/
def testCase? (y : Yaml) : Option TestCase := do
  let fs ← y.fields?
  return {
    name := ← (field fs "name").text?
    description := ← (field fs "description").text?
    skip := ← (field fs "skip").skip?
    options := ← (field fs "options").options?
    source := ← (field fs "source").text?
    setup := ← (field fs "setup").setup?
    expect := ← (field fs "expect").expectation? }

/-- Reads a suite. -/
def suite? (y : Yaml) : Option Suite := do
  let fs ← y.fields?
  return {
    name := ← (field fs "name").text?
    description := ← (field fs "description").text?
    tests := (← (field fs "tests").optional? (list? testCase?)).getD [] }

/-- The suite in a YAML document; an empty document is an empty suite. -/
def decodeSuite : SuiteDecoder := fun content =>
  match (parse? content).bind suite? with
  | none => .error (utf8 "malformed YAML")
  | some s => .ok s

end HackVM.Yaml
