import HackVM.Assembly.Emitter
import HackVM.Source.Decode
import HackVM.Source.Excerpt
import HackVM.Source.Lines

/-!
# Compiling a source

A source is read, its command lines are decoded and the assembly of each is emitted before the next
line is looked at. The first error stops the compilation; a `Compilation` says how far it got and
holds the assembly if it got to the end.
-/

namespace HackVM

/-- The choices of a compilation. -/
structure CompilationOptions where
  /-- Refuse offsets outside the `pointer` and `temp` segments. -/
  strict : Bool := false
  /-- Put before the numbers of static cells, unless empty. -/
  staticNamespace : Text := []
  deriving DecidableEq, Repr

/-- The stages of a compilation that can fail. -/
inductive Phase
  | read
  | preprocess
  | decode
  | emit
  deriving DecidableEq, Repr

/-- The name of a stage. -/
def Phase.name : Phase → Text
  | read => utf8 "read"
  | preprocess => utf8 "preprocess"
  | decode => utf8 "decode"
  | emit => utf8 "generate"

/-- What an error says about itself: the file, unless its name is empty, the stage and place, what
is wrong, and an excerpt of the source if there is one. -/
def diagnosticMessage (phase file text excerpt : Text) (line column : Int) : Text :=
  (if file = [] then [] else file ++ utf8 ": ") ++ phase ++ utf8 " error at line " ++
    Text.ofInt line ++ utf8 ", column " ++ Text.ofInt column ++ utf8 ": " ++ text ++
    (if excerpt = [] then [] else utf8 "\n" ++ excerpt)

/-- Why a source was not compiled. The texts of reading errors come from the file system. -/
inductive CompilationError
  | unreadable (text : Text)
  | source (e : SourceError)
  | decode (e : DecodeError)
  | emit (line : CommandLine) (e : EmitError)
  deriving DecidableEq, Repr

namespace CompilationError

/-- The stage that failed. -/
def phase : CompilationError → Phase
  | unreadable _ => .read
  | source _ => .preprocess
  | decode _ => .decode
  | emit _ _ => .emit

/-- What is wrong. -/
def text : CompilationError → Text
  | unreadable t => t
  | source e => e.text
  | decode e => e.problem.text
  | emit _ e => e.message

/-- The line and the column of the error; both are zero if it has no place. -/
def place : CompilationError → Int × Int
  | unreadable _ | source .empty => (0, 0)
  | source (.comment e) => (e.line, e.column)
  | decode e => (e.line, e.column)
  | emit l _ => (l.number, l.column)

end CompilationError

/-- An error of a compilation with the file and the excerpt that belong to it. -/
structure Diagnostic where
  error : CompilationError
  file : Text
  excerpt : Text := []
  deriving DecidableEq, Repr

/-- The message of a diagnostic. -/
def Diagnostic.message (d : Diagnostic) : Text :=
  diagnosticMessage d.error.phase.name d.file d.error.text d.excerpt d.error.place.1
    d.error.place.2

/-- The outcome of compiling one source. -/
structure Compilation where
  file : Text
  lines : List CommandLine := []
  /-- The instructions of the lines that were compiled. -/
  instructions : List Instruction := []
  /-- The number of comparisons among them. -/
  labels : Int64 := 0
  /-- Does the source end inside a block comment? -/
  unterminated : Bool := false
  /-- The assembly, if the whole source was compiled. -/
  assembly : Except Diagnostic Text
  deriving Repr

/-- How far decoding and emitting got. -/
structure Progress where
  instructions : List Instruction
  written : List AsmLine
  labels : Int64
  error : Option CompilationError
  deriving Repr

/-- Decodes and emits command lines one after the other. -/
def compileLines (strict : Bool) (e : Emitter) : List CommandLine → Progress
  | [] => ⟨[], [], e.labels, none⟩
  | l :: ls =>
    match l.decode strict with
    | .error err => ⟨[], [], e.labels, some (.decode err)⟩
    | .ok i =>
      match e.emit i with
      | ⟨_, written, some err⟩ => ⟨[i], written, e.labels, some (.emit l err)⟩
      | ⟨e', written, none⟩ =>
        let rest := compileLines strict e' ls
        ⟨i :: rest.instructions, written ++ rest.written, rest.labels, rest.error⟩

/-- Compiles the raw lines of a source. -/
def compile (file : Text) (raw : List Text) (opts : CompilationOptions) : Compilation :=
  let diagnostic (err : CompilationError) : Diagnostic :=
    ⟨err, file, excerpt (Text.unlines raw) err.place.1 err.place.2⟩
  let reading := CommandLine.read raw
  match reading.lines with
  | .error err =>
    { file, unterminated := reading.unterminated, assembly := .error (diagnostic (.source err)) }
  | .ok lines =>
    let p := compileLines opts.strict { staticNamespace := opts.staticNamespace } lines
    { file, lines, instructions := p.instructions, labels := p.labels,
      unterminated := reading.unterminated,
      assembly := match p.error with
        | some err => .error (diagnostic err)
        | none => .ok (AsmLine.render p.written) }

/-- Compiles the text of a source. -/
def compileText (file text : Text) (opts : CompilationOptions) : Compilation :=
  compile file (sourceLines text) opts

end HackVM
