import HackVM.Encoding.Library
import HackVM.Files.Lookup
import HackVM.Compilation

/-!
# Source files

A source file is looked up, read, decoded and split into lines; `FileTree.compileFile` compiles it.
The system can refuse each step of reading, and decoding can fail.
-/

namespace HackVM

/-- A source file that was read. -/
structure SourceFile where
  /-- The last element of the path. -/
  name : Text
  path : Text
  lines : List Text
  /-- The number of bytes of the file. -/
  size : Nat
  deriving DecidableEq, Repr

/-- The steps of reading a file that the system can refuse. -/
inductive ReadStep
  | stat
  | openFile
  | readFile
  deriving DecidableEq, Repr

namespace FileTree

/-- The content of the file at a path. -/
def readContent (t : FileTree) (refusal : ReadStep → Option SystemError) (path : Text) :
    Except FileError Text :=
  match refusal .stat, t.stat path with
  | some e, _ | none, .error e => .error (.unavailable path e)
  | none, .ok .directory => .error (.isDirectory path)
  | none, .ok (.file content _) =>
    match refusal .openFile, refusal .readFile with
    | some e, _ => .error (.unreadableFile (utf8 "open") path e)
    | none, some e => .error (.unreadableFile (utf8 "read") path e)
    | none, none => .ok content

/-- Reads and decodes the file at a path. -/
def readSource (t : FileTree) (refusal : ReadStep → Option SystemError) {lib : Codecs}
    (l : Loader lib) (path : Text) : Except FileError SourceFile :=
  match t.readContent refusal path with
  | .error e => .error e
  | .ok content =>
    match l.decode content with
    | .error reason => .error (.undecodable l.name reason)
    | .ok text => .ok ⟨Path.lastElement path, path, sourceLines text, content.length⟩

/-- A compilation that failed because the file could not be read. -/
def unreadable (path text : Text) : Compilation :=
  { file := path, assembly := .error ⟨.unreadable text, path, []⟩ }

/-- Compiles the file at a path, which is in the encoding of a label. -/
def compileFile (t : FileTree) (lib : Codecs) (refusal : ReadStep → Option SystemError)
    (label path : Text) (opts : CompilationOptions) : Compilation :=
  match Loader.ofLabel lib label with
  | .error e => unreadable path e.message
  | .ok l =>
    match t.readSource refusal l path with
    | .error err =>
      unreadable path (utf8 "failed to read " ++ path ++ utf8 ": " ++ err.message)
    | .ok source => compile source.name source.lines opts

end FileTree

end HackVM
