import HackVM.Files.Commit
import HackVM.Files.Source
import HackVM.Options

/-!
# Batch runs

A run takes its settings from the arguments, resolves the inputs to source files, compiles them
one after the other and writes the assembly of each next to it. `Batch.run` is a function of the
file tree and of a `Host`, which has the library of encodings and says what the system refuses in
the course of the run. What the run prints and logs, how many files it compiled, and the tree
afterwards are all in its `Report`.
-/

namespace HackVM

/-- The extension of source files. -/
def sourceExtension : Text := utf8 ".vm"

/-- The extension of assembly files. -/
def assemblyExtension : Text := utf8 ".asm"

/-- The permissions of assembly files. -/
def assemblyMode : Nat := 0o644

/-- The lines of the help text. -/
def helpLines : List Text := [
  utf8 "vmtrans - VM to Hack assembly translator",
  utf8 "",
  utf8 "Usage:",
  utf8 "  vmtrans [options] <file.vm | directory>...",
  utf8 "",
  utf8 "Arguments:",
  utf8 "  file.vm       変換するVMソースファイル（大文字小文字を区別せずに検索）",
  utf8 "  directory     ディレクトリ直下の *.vm をすべて変換",
  utf8 "                出力は入力と同じ場所に <name>.asm として書き込む",
  utf8 "",
  utf8 "Options:",
  utf8 "  -o, --output <path>         出力ファイルパス（入力が1ファイルの場合のみ）",
  utf8 "  -l, --log-level <level>     ログレベル: debug, info, warn, error（デフォルト: info）",
  utf8 "  -e, --encoding <label>      ソースの文字コード（デフォルト: utf-8）",
  utf8 "  --static-namespace          static変数を <ファイル名>.<n> で出力",
  utf8 "  --strict                    pointer 0..1 / temp 0..7 の範囲外をエラーにする",
  utf8 "  -k, --keep-going=false      最初にエラーになったファイルで停止",
  utf8 "  -h, --help                  このヘルプを表示",
  utf8 "",
  utf8 "Environment Variables:",
  utf8 "  " ++ logLevelVariable ++ utf8 "=<level>     ログレベル",
  utf8 "  " ++ encodingVariable ++ utf8 "=<label>      ソースの文字コード",
  utf8 "",
  utf8 "Examples:",
  utf8 "  vmtrans SimpleAdd.vm                  SimpleAdd.asm を出力",
  utf8 "  vmtrans -o out/Prog.asm Prog.vm       出力先を指定",
  utf8 "  vmtrans --static-namespace ./project  ディレクトリ内の全ファイルを変換",
  utf8 "  vmtrans -l debug StackTest.vm         正規化した行をデバッグログに出力"]

/-- The help text. -/
def helpText : Text := helpLines.flatMap (· ++ [Text.lineFeed])

/-- Why a run failed. -/
inductive RunError
  | usage (e : UsageError)
  | noInputs
  | outputForManyFiles (n : Nat)
  | failedFiles (failed total : Nat)
  deriving DecidableEq, Repr

namespace RunError

/-- Is the way the program was called at fault? -/
def isUsage : RunError → Bool
  | usage _ | noInputs | outputForManyFiles _ => true
  | failedFiles _ _ => false

/-- The message of a run error. -/
def message : RunError → Text
  | usage e => utf8 "usage error: " ++ e.message
  | noInputs => utf8 "usage error: no input files"
  | outputForManyFiles n =>
    utf8 "usage error: --output requires a single source file, got " ++ Text.ofNat n
  | failedFiles failed total =>
    utf8 "translation failed: " ++ Text.ofNat failed ++ utf8 " of " ++ Text.ofNat total ++
      utf8 " files"

end RunError

/-- What a run did. -/
structure Report where
  /-- What was printed. -/
  output : Text := []
  /-- The level of the log, and its records, below that level too. -/
  logLevel : LogLevel := .info
  log : List LogRecord := []
  /-- The number of files compiled and written. -/
  succeeded : Nat := 0
  /-- The number of files and inputs that failed. -/
  failed : Nat := 0
  disk : Disk
  error : Option RunError := none

/-- The lines of the log. -/
def Report.logLines (r : Report) : List Text := LogRecord.renderAll r.logLevel r.log

/-- What a run meets outside of its file tree: the library of encodings, and what the system does
where the tree does not decide it. -/
structure Host where
  codecs : Codecs
  /-- What is refused while the input of a number is looked up, and why. -/
  lookup : Nat → LookupStep → Option SystemError := fun _ => noRefusal
  /-- What is refused while the source file of a number is read, and why. -/
  read : Nat → ReadStep → Option SystemError := fun _ => noRefusal
  /-- Under what circumstances the assembly of the source file of a number is written to a path. -/
  commit : Nat → Disk → Text → Circumstances := fun _ d path => { number := d.freeNumber path }

namespace Batch

/-- The source files that inputs stand for, the number of inputs that stand for none, and the
log. -/
structure Resolution where
  files : List Text := []
  failed : Nat := 0
  log : List LogRecord := []
  deriving DecidableEq, Repr

/-- One input that stands for no file. -/
def Resolution.failure (r : LogRecord) : Resolution := ⟨[], 1, [r]⟩

/-- An input that stands for files. -/
def Resolution.found (files : List Text) : Resolution :=
  ⟨files, 0, files.map fun f => ⟨.info, utf8 "File captured at", [(utf8 "path", .text f)]⟩⟩

/-- The source files that an input stands for: those in a directory, or one file. -/
def expandInput (refusal : LookupStep → Option SystemError) (t : FileTree) (input : Text) :
    Resolution :=
  match refusal .stat, t.stat input with
  | none, .ok .directory =>
    match t.filesWithExtension refusal input sourceExtension with
    | .error e => .failure ⟨.error, utf8 "Failed to scan directory",
        [(utf8 "dir", .text input), (utf8 "error", .text e.message)]⟩
    | .ok [] => .failure ⟨.error, utf8 "No source files found",
        [(utf8 "dir", .text input), (utf8 "ext", .text sourceExtension)]⟩
    | .ok files => .found files
  | _, _ =>
    match t.locateFile refusal input with
    | .error e => .failure ⟨.error, utf8 "Input not found",
        [(utf8 "input", .text input), (utf8 "error", .text e.message)]⟩
    | .ok path => .found [path]

/-- The source files that all inputs stand for, in order. -/
def expandInputs (host : Host) (t : FileTree) (inputs : List Text) : Resolution :=
  let rs := inputs.zipIdx.map fun (input, n) => expandInput (host.lookup n) t input
  ⟨rs.flatMap (·.files), rs.foldl (fun n r => n + r.failed) 0, rs.flatMap (·.log)⟩

/-- Where the assembly of a source goes. -/
def targetPath (o : Options) (source : Text) : Text :=
  if o.output = [] then Path.withExtension source assemblyExtension else o.output

/-- The choices for compiling a source. -/
def compilationOptions (o : Options) (source : Text) : CompilationOptions :=
  ⟨o.strict, if o.staticNamespace then Path.stem source else []⟩

/-- What the log says about the lines of a source. -/
def linesLog (name : Text) (tr : Compilation) : List LogRecord :=
  if tr.lines = [] then []
  else
    ⟨.info, utf8 "Successfully read",
      [(utf8 "file", .text name), (utf8 "lines", .int tr.lines.length)]⟩ ::
    ⟨.debug, utf8 "Captured contents",
      [(utf8 "file", .text tr.file), (utf8 "count", .int tr.lines.length)]⟩ ::
    tr.lines.map fun l => ⟨.debug, utf8 "Line",
      [(utf8 "file", .text tr.file), (utf8 "line", .int l.number), (utf8 "text", .text l.text)]⟩

/-- What the log says about a source that ends inside a comment. -/
def unterminatedLog (name : Text) (tr : Compilation) : List LogRecord :=
  if tr.unterminated then
    [⟨.warn, utf8 "Source ends inside a block comment", [(utf8 "file", .text name)]⟩]
  else []

/-- What the log says about an error of a compilation. -/
def diagnosticLog (name : Text) (d : Diagnostic) : List LogRecord :=
  ⟨.error, d.error.text, [(utf8 "file", .text name), (utf8 "phase", .text d.error.phase.name),
    (utf8 "line", .int d.error.place.1), (utf8 "column", .int d.error.place.2)]⟩ ::
  if d.excerpt = [] then []
  else [⟨.debug, utf8 "Error context\n" ++ d.excerpt, [(utf8 "file", .text name)]⟩]

/-- The outcome for one source file. -/
structure Attempt where
  disk : Disk
  succeeded : Bool
  log : List LogRecord

/-- Compiles the source file of a number and writes its assembly if that succeeds. -/
def compileOne (host : Host) (o : Options) (n : Nat) (d : Disk) (source : Text) : Attempt :=
  let name := Path.lastElement source
  let tr := d.tree.compileFile host.codecs (host.read n) o.encoding source
    (compilationOptions o source)
  let log := ⟨.info, utf8 "Working on", [(utf8 "file", .text name)]⟩ :: linesLog name tr ++
    unterminatedLog name tr
  match tr.assembly with
  | .error diagnostic => ⟨d, false, log ++ diagnosticLog name diagnostic⟩
  | .ok assembly =>
    let target := targetPath o source
    match d.commitUnder (host.commit n d target) target assembly assemblyMode with
    | (d', .error e) => ⟨d', false, log ++ [⟨.error, utf8 "Failed to write output",
        [(utf8 "file", .text name), (utf8 "output", .text target),
          (utf8 "error", .text e.message)]⟩]⟩
    | (d', .ok ()) => ⟨d', true, log ++ [⟨.info, utf8 "Successfully wrote to",
        [(utf8 "output", .text target), (utf8 "instructions", .int tr.instructions.length),
          (utf8 "labels", .int tr.labels.toInt)]⟩]⟩

/-- The outcome for a list of source files. -/
structure Tally where
  disk : Disk
  succeeded : Nat := 0
  failed : Nat := 0
  log : List LogRecord := []

/-- Compiles source files one after the other, up to the first that fails unless the run is to
keep going. The first of them has the number `n`. -/
def compileAll (host : Host) (o : Options) (n : Nat) (d : Disk) : List Text → Tally
  | [] => { disk := d }
  | source :: rest =>
    let attempt := compileOne host o n d source
    if attempt.succeeded then
      let later := compileAll host o (n + 1) attempt.disk rest
      { later with succeeded := later.succeeded + 1, log := attempt.log ++ later.log }
    else if o.keepGoing then
      let later := compileAll host o (n + 1) attempt.disk rest
      { later with failed := later.failed + 1, log := attempt.log ++ later.log }
    else
      { disk := attempt.disk, failed := 1
        log := attempt.log ++
          [⟨.warn, utf8 "Stopping after first failed file", [(utf8 "file", .text source)]⟩] }

/-- The last record of a log. -/
def summaryRecord (succeeded failed : Nat) : LogRecord where
  level := .info
  message := utf8 "Completed " ++ Text.ofNat succeeded ++ utf8 " operations with " ++
    Text.ofNat failed ++ utf8 " errors"
  attributes := [(utf8 "operations", .int succeeded), (utf8 "errors", .int failed)]

/-- Runs with settings that name at least one input. -/
def runWith (host : Host) (o : Options) (d : Disk) : Report :=
  let r := expandInputs host d.tree o.inputs
  if o.output ≠ [] ∧ 1 < r.files.length then
    { logLevel := o.logLevel, failed := r.failed, disk := d
      log := r.log ++ [⟨.error, utf8 "Output path given for more than one source file",
        [(utf8 "output", .text o.output), (utf8 "files", .int r.files.length)]⟩]
      error := some (.outputForManyFiles r.files.length) }
  else
    let tally := compileAll host o 0 d r.files
    let failed := r.failed + tally.failed
    { logLevel := o.logLevel, succeeded := tally.succeeded, failed, disk := tally.disk
      log := r.log ++ tally.log ++ [summaryRecord tally.succeeded failed]
      error := if failed = 0 then none else some (.failedFiles failed (tally.succeeded + failed)) }

/-- Runs with the arguments of a command line. -/
def run (host : Host) (env : Environment) (args : List Text) (d : Disk) : Report :=
  match Options.parse host.codecs env args with
  | .error e => { disk := d, error := some (.usage e) }
  | .ok o =>
    if o.help then { output := helpText, disk := d }
    else if o.inputs = [] then { output := helpText, disk := d, error := some .noInputs }
    else runWith host o d

/-- The exit code of a run: two if the call was at fault, one if something failed. -/
def exitCode (r : Report) : Nat :=
  match r.error with
  | none => 0
  | some e => if e.isUsage then 2 else 1

/-- What a run writes to the error stream: its log, and its error last. -/
def errorOutput (r : Report) : Text :=
  r.logLines.flatMap (· ++ [Text.lineFeed]) ++
    match r.error with
    | none => []
    | some e => utf8 "Error: " ++ e.message ++ [Text.lineFeed]

end Batch

end HackVM
