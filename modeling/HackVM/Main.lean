import HackVM.Batch
import HackVM.Encoding.Basic

/-!
# The command line

`main` copies the directories that a run can look at into a `Disk`, runs, and brings the assembly
files that the run wrote to the file system. All decisions are those of `Batch.run`.
-/

namespace HackVM

namespace Main

/-- The string of a text that came from one. -/
def stringOf (t : Text) : String := (String.fromUTF8? ⟨t.toArray⟩).getD ""

/-- The settings that come from environment variables. -/
def environment : IO Environment := do
  let value (name : Text) : IO Text := do
    return ((← IO.getEnv (stringOf name)).map utf8).getD []
  return ⟨← value logLevelVariable, ← value encodingVariable⟩

/-- Can a file of this name be read by a run with these inputs? -/
def isWanted (inputs : List Text) (name : Text) : Bool :=
  Text.sameFold (Path.extension name) sourceExtension ||
    inputs.any fun i => Text.sameFold (Path.lastElement i) name

/-- Copies a directory, without what is in its directories. Of files that a run does not read, only
the names are copied. -/
def copyDirectory (inputs : List Text) (t : FileTree) (dir : Text) : IO FileTree := do
  let place := (← IO.currentDir) / stringOf dir
  if !(← place.isDir) then return t
  let entries ← place.readDir
  entries.foldlM (fun t entry => do
    let name := utf8 entry.fileName
    let node ← if ← entry.path.isDir then pure .directory
      else if isWanted inputs name then
        pure (.file (← IO.FS.readBinFile entry.path).toList FileTree.ordinaryMode)
      else pure (.file [] FileTree.ordinaryMode)
    return t.plant (t.placeOf (Path.join dir name)) node)
    (t.plant (t.placeOf dir) .directory)

/-- Copies the directories that a run with these settings looks at. -/
def copyTree (o : Options) : IO FileTree := do
  let paths := if o.output = [] then o.inputs else o.output :: o.inputs
  let workingDirectory := Path.cleanElements (utf8 (← IO.currentDir).toString)
  (paths.map Path.parent ++ o.inputs).foldlM (copyDirectory o.inputs) { workingDirectory }

/-- The host of a run on a copy of the files: nothing is refused. -/
def host : Host := { codecs := Encoding.library }

/-- The paths that a run with these settings can write to. -/
def targets (o : Options) (t : FileTree) : List Text :=
  (Batch.expandInputs host t o.inputs).files.map (Batch.targetPath o)

/-- Brings files that have changed to the file system, each under a temporary name first. -/
def writeBack (paths : List Text) (before after : FileTree) : IO Unit :=
  paths.forM fun path => do
    match after.stat path with
    | .ok (.file content mode) =>
      if (before.stat path).toOption ≠ some (.file content mode) then
        let temp := stringOf (temporaryPath path (Disk.freeNumber { tree := before } path))
        IO.FS.writeBinFile temp ⟨content.toArray⟩
        IO.FS.rename temp (stringOf path)
    | _ => pure ()

end Main

end HackVM

open HackVM in
/-- Runs with the arguments of the command line and returns the exit code. -/
def main (args : List String) : IO UInt32 := do
  let env ← Main.environment
  let words := args.map utf8
  let (tree, targets) ← match Options.parse Main.host.codecs env words with
    | .error _ => pure ({}, [])
    | .ok o => do
      let tree ← Main.copyTree o
      pure (tree, Main.targets o tree)
  let report := Batch.run Main.host env words { tree }
  Main.writeBack targets tree report.disk.tree
  (← IO.getStdout).write ⟨report.output.toArray⟩
  (← IO.getStderr).write ⟨(Batch.errorOutput report).toArray⟩
  return (Batch.exitCode report).toUInt32
