import HackVM.Files.Lookup

/-!
# Writing a file at once

A file is written to a temporary name in the directory of its path and then renamed, so that the
path never holds part of it: a commit either replaces the file or leaves the tree as it was. A
`Disk` also keeps the names of the temporary files that are in use.

What the tree does not decide is in the `Circumstances` of a commit: the number in the temporary
name and the steps that the system refuses for reasons of its own, for want of space or of rights.
`commitUnder` takes them as they are, and `commit` is the commit with a free number and no refusal.
-/

namespace HackVM

/-- A file tree and the paths of the temporary files in use, each once. -/
structure Disk where
  tree : FileTree := {}
  pending : List Text := []
  deriving DecidableEq, Repr

/-- The mode of a temporary file. -/
def temporaryMode : Nat := 0o600

/-- The last name of a temporary file for a path, with a text in the place of its number. -/
def temporaryName (path number : Text) : Text :=
  utf8 "." ++ Path.lastElement path ++ utf8 "." ++ number ++ utf8 ".tmp"

/-- The path of a temporary file for a path, with a text in the place of its number. -/
def temporaryPattern (path number : Text) : Text :=
  let dir := Path.parent path
  (if dir.getLast? = some Path.slash then dir else dir ++ [Path.slash]) ++ temporaryName path number

/-- The path of the temporary file of a given number for a path. -/
def temporaryPath (path : Text) (n : Nat) : Text := temporaryPattern path (Text.ofNat n)

/-- The steps of a commit that the system can refuse. -/
inductive CommitStep
  | create
  | write
  | close
  | chmod
  | rename
  deriving DecidableEq, Repr

/-- What the system does in the course of a commit. -/
structure Circumstances where
  /-- The number in the name of the temporary file. -/
  number : Nat
  /-- The steps that are refused, with the reason. -/
  refusal : CommitStep → Option SystemError := fun _ => none
  /-- How many bytes a write that is refused has written. -/
  written : Nat := 0

namespace FileTree

/-- Makes an empty temporary file for a path, in the directory of the path. Nothing else may have
its name. -/
def createTemporary (t : FileTree) (c : Circumstances) (path : Text) :
    Except FileError (Text × FileTree) :=
  let dir := Path.parent path
  let temp := temporaryPath path c.number
  if Path.slash ∈ Path.lastElement path then
    .error (.slashInPattern dir (temporaryName path (utf8 "*")))
  else
    match c.refusal .create, t.locate temp with
    | some e, _ | none, .error e => .error (.noTemporary dir temp e)
    | none, .ok p =>
      match t.get? p with
      | some _ => .error (.noFreeName dir (temporaryPattern path (utf8 "*")))
      | none => .ok (temp, t.insert p (.file [] temporaryMode))

/-- Changes the content and the permissions of the file at a path. -/
def edit (t : FileTree) (path : Text) (change : Text → Nat → Node) : FileTree :=
  match t.locate path with
  | .error _ => t
  | .ok p =>
    match t.get? p with
    | some (.file content mode) => t.insert p (change content mode)
    | _ => t

/-- Gives a file new content. -/
def write (t : FileTree) (path content : Text) : FileTree :=
  t.edit path fun _ mode => .file content mode

/-- Gives a file new permissions. -/
def chmod (t : FileTree) (path : Text) (mode : Nat) : FileTree :=
  t.edit path fun content _ => .file content (mode % 0o1000)

/-- Gives a file a new name. A directory is never replaced. -/
def rename (t : FileTree) (source target : Text) : Except SystemError FileTree :=
  match t.locate source, t.locate target with
  | .error e, _ => .error e
  | _, .error e => .error e
  | .ok p, .ok q =>
    match t.get? p, t.get? q with
    | none, _ => .error .notFound
    | _, some .directory => .error .alreadyExists
    | some n, _ => .ok ((t.erase p).insert q n)

/-- Removes a file. -/
def remove (t : FileTree) (path : Text) : FileTree :=
  match t.locate path with
  | .error _ => t
  | .ok p => t.erase p

/-- Gives a temporary file its content and permissions, up to the first step that is refused. -/
def fill (t : FileTree) (c : Circumstances) (temp content : Text) (mode : Nat) :
    FileTree × Option FileError :=
  match c.refusal .write with
  | some e => (t.write temp (content.take c.written), some (.refused (utf8 "write") temp e))
  | none =>
    let t := t.write temp content
    match c.refusal .close with
    | some e => (t, some (.refused (utf8 "close") temp e))
    | none =>
      match c.refusal .chmod with
      | some e => (t, some (.refused (utf8 "chmod") temp e))
      | none => (t.chmod temp mode, none)

/-- Gives a temporary file its content and permissions and then the name of its path. -/
def replace (t : FileTree) (c : Circumstances) (temp path content : Text) (mode : Nat) :
    FileTree × Option FileError :=
  match t.fill c temp content mode with
  | (t, some e) => (t, some e)
  | (t, none) =>
    match c.refusal .rename, t.rename temp path with
    | some e, _ | none, .error e => (t, some (.notRenamed temp path e))
    | none, .ok t => (t, none)

/-- The permissions of the file at a path. -/
def mode? (t : FileTree) (path : Text) : Option Nat :=
  match t.stat path with
  | .ok (.file _ mode) => some mode
  | _ => none

end FileTree

namespace Disk

/-- The disk with a temporary file noted as in use. -/
def reserve (d : Disk) (temp : Text) : Disk := { d with pending := d.pending.insert temp }

/-- The disk with a temporary file no longer noted. -/
def release (d : Disk) (temp : Text) : Disk := { d with pending := d.pending.filter (· ≠ temp) }

/-- Writes a file by way of a temporary one, which is removed again if a step is refused. -/
def commitUnder (c : Circumstances) (d : Disk) (path content : Text) (mode : Nat) :
    Disk × Except FileError Unit :=
  match d.tree.createTemporary c path with
  | .error e => (d, .error e)
  | .ok (temp, tree) =>
    let busy := d.reserve temp
    match tree.replace c temp path content mode with
    | (tree, some e) => (release { busy with tree := tree.remove temp } temp, .error e)
    | (tree, none) => (release { busy with tree } temp, .ok ())

/-- A number of numbers among which a free one is found. -/
def numbersToTry (d : Disk) : Nat := d.tree.nodes.length + d.pending.length + 1

/-- The first number whose temporary file is neither there nor noted. -/
def freeNumber (d : Disk) (path : Text) : Nat :=
  ((List.range d.numbersToTry).find? fun n =>
    (d.tree.stat (temporaryPath path n)).toOption.isNone &&
      !d.pending.contains (temporaryPath path n)).getD 0

/-- Writes a file by way of a temporary one on a system that refuses nothing of its own. -/
def commit (d : Disk) (path content : Text) (mode : Nat) : Disk × Except FileError Unit :=
  d.commitUnder { number := d.freeNumber path } path content mode

/-- Removes the temporary files that are still in use. -/
def removePending (d : Disk) : Disk := ⟨d.pending.foldl FileTree.remove d.tree, []⟩

end Disk

end HackVM
