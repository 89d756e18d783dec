import HackVM.Files.Path

/-!
# File trees

A `FileTree` is a list of places with a file or a directory at each, and a working directory. A
path that begins with a slash leads from the root, and any other from the working directory.
`locate` follows a path element by element, as long as every element but the last is a directory.
-/

namespace HackVM

/-- A place: the names that lead to it from the root. -/
abbrev Place := List Text

/-- The place that an element of a path leads to. Two dots lead up, and stay at the root; a dot or
nothing stays anywhere. -/
def Place.enter (p : Place) (e : Text) : Place :=
  if e = [] ∨ e = utf8 "." then p
  else if e = utf8 ".." then p.dropLast
  else p ++ [e]

/-- What is at a place. -/
inductive Node
  | file (content : Text) (mode : Nat)
  | directory
  deriving DecidableEq, Repr

/-- Is the node a directory? -/
def Node.isDirectory : Node → Bool
  | directory => true
  | file _ _ => false

/-- Files and directories, and the place of the working directory. -/
structure FileTree where
  entries : List (Place × Node) := []
  workingDirectory : Place := []
  deriving DecidableEq, Repr

/-- Why the file system refuses something. -/
inductive SystemError
  | notFound
  | notDirectory
  | alreadyExists
  | nameTooLong
  | invalidPath
  | permissionDenied
  | notPermitted
  | noSpace
  | inputOutput
  deriving DecidableEq, Repr

/-- The wording of a refusal. -/
def SystemError.text : SystemError → Text
  | notFound => utf8 "no such file or directory"
  | notDirectory => utf8 "not a directory"
  | alreadyExists => utf8 "file exists"
  | nameTooLong => utf8 "file name too long"
  | invalidPath => utf8 "invalid argument"
  | permissionDenied => utf8 "permission denied"
  | notPermitted => utf8 "operation not permitted"
  | noSpace => utf8 "no space left on device"
  | inputOutput => utf8 "input/output error"

/-- Nothing is refused. -/
def noRefusal {step : Type} : step → Option SystemError := fun _ => none

/-- The largest number of bytes of a name. -/
def longestName : Nat := 255

/-- The largest number of bytes of a path. -/
def longestPath : Nat := 4095

namespace FileTree

/-- Is the place the working directory or above it? -/
def isAbove (t : FileTree) (p : Place) : Bool := p.isPrefixOf t.workingDirectory

/-- What is at a place. The working directory is always there, and so are those above it. -/
def get? (t : FileTree) (p : Place) : Option Node :=
  if t.isAbove p then some .directory else t.entries.lookup p

/-- The tree with something put at a place, in the place of what was there. -/
def insert (t : FileTree) (p : Place) (n : Node) : FileTree :=
  { t with entries := (p, n) :: t.entries.filter fun e => e.1 ≠ p }

/-- The tree without what is at a place. -/
def erase (t : FileTree) (p : Place) : FileTree :=
  { t with entries := t.entries.filter fun e => e.1 ≠ p }

/-- All places with what is there: the working directory and those above it, and the entries. -/
def nodes (t : FileTree) : List (Place × Node) :=
  ((List.range (t.workingDirectory.length + 1)).map fun n =>
    (t.workingDirectory.take n, .directory)) ++ t.entries.filter fun e => !t.isAbove e.1

/-- The names in a directory with what they name, in the order of their bytes. -/
def children (t : FileTree) (p : Place) : List (Text × Node) :=
  (t.nodes.filterMap fun (q, n) =>
    match q.getLast? with
    | some name => if q.dropLast = p then some (name, n) else none
    | none => none).mergeSort fun a b => Text.le a.1 b.1

/-- Follows the elements of a path from a place. -/
def follow (t : FileTree) (start : Place) : List Text → Except SystemError Place
  | [] => .ok start
  | e :: rest =>
    match t.get? start with
    | none => .error .notFound
    | some (.file _ _) => .error .notDirectory
    | some .directory =>
      if longestName < e.length then .error .nameTooLong else t.follow (start.enter e) rest

/-- Where a path begins: at the root or in the working directory. -/
def origin (t : FileTree) (path : Text) : Place :=
  if path.head? = some Path.slash then [] else t.workingDirectory

/-- The place that a path leads to, whether something is there or not. No path has a zero byte. -/
def locate (t : FileTree) (path : Text) : Except SystemError Place :=
  if 0 ∈ path then .error .invalidPath
  else if path = [] then .error .notFound
  else if longestPath < path.length then .error .nameTooLong
  else t.follow (t.origin path) (Path.elements path)

/-- What is at the end of a path. -/
def stat (t : FileTree) (path : Text) : Except SystemError Node :=
  match t.locate path with
  | .error e => .error e
  | .ok p =>
    match t.get? p with
    | none => .error .notFound
    | some n => .ok n

/-- The names in the directory at the end of a path. -/
def list (t : FileTree) (path : Text) : Except SystemError (List (Text × Node)) :=
  match t.locate path with
  | .error e => .error e
  | .ok p =>
    match t.get? p with
    | none => .error .notFound
    | some (.file _ _) => .error .notDirectory
    | some .directory => .ok (t.children p)

/-- The tree with a node at a place and directories on the way to it. -/
def plant (t : FileTree) (p : Place) (n : Node) : FileTree :=
  let withParents := (List.range p.length).foldl (fun t i =>
    match t.get? (p.take i) with
    | some _ => t
    | none => t.insert (p.take i) .directory) t
  withParents.insert p n

/-- The mode of files that are there from the start. -/
def ordinaryMode : Nat := 0o644

/-- The place that a path names, whatever is on the way to it. -/
def placeOf (t : FileTree) (path : Text) : Place :=
  (Path.elements path).foldl Place.enter (t.origin path)

/-- The tree of some files and, where no content is given, directories, seen from a working
directory. -/
def ofFiles (workingDirectory : Place) (files : List (Text × Option Text)) : FileTree :=
  files.foldl (fun t (path, content) =>
    t.plant (t.placeOf path) (match content with
      | some c => .file c ordinaryMode
      | none => .directory)) { workingDirectory }

/-- The paths of everything below the working directory with the content of files, in the order of
the bytes of the paths. -/
def toList (t : FileTree) : List (Text × Node) :=
  (t.entries.filterMap fun (p, n) =>
    if t.workingDirectory.isPrefixOf p ∧ ¬ t.isAbove p then
      some ([Path.slash].intercalate (p.drop t.workingDirectory.length), n)
    else none).mergeSort fun a b => Text.le a.1 b.1

end FileTree

end HackVM
