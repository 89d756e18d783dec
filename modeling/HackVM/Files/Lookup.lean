import HackVM.Files.Tree
import HackVM.Text.Case
import HackVM.Text.Decimal

/-!
# Finding files

Files are found by name in a directory, letter case left aside, or by extension. The first match in
the order of the directory wins. The system can refuse each step of this for reasons that the tree
does not show.
-/

namespace HackVM

/-- Why a file could not be found, read or written. -/
inductive FileError
  | unreadableDirectory (verb dir : Text) (e : SystemError)
  | noMatch (name dir : Text)
  | isDirectory (path : Text)
  | unavailable (path : Text) (e : SystemError)
  | unreadableFile (verb path : Text) (e : SystemError)
  | undecodable (encoding reason : Text)
  | slashInPattern (dir pattern : Text)
  | noFreeName (dir pattern : Text)
  | noTemporary (dir temp : Text) (e : SystemError)
  /-- A temporary file was not written, closed or given its permissions. -/
  | refused (verb temp : Text) (e : SystemError)
  | notRenamed (temp path : Text) (e : SystemError)
  deriving DecidableEq, Repr

namespace FileError

/-- The message of a file error. -/
def message : FileError → Text
  | unreadableDirectory verb dir e =>
    utf8 "failed to read directory " ++ dir ++ utf8 ": " ++ verb ++ utf8 " " ++ dir ++ utf8 ": " ++
      e.text
  | noMatch name dir =>
    utf8 "file not found: " ++ name ++ utf8 " (searched in " ++ dir ++
      utf8 "): file does not exist"
  | isDirectory path => path ++ utf8 " is a directory"
  | unavailable path e =>
    utf8 "failed to stat file: stat " ++ path ++ utf8 ": " ++ e.text
  | unreadableFile verb path e =>
    utf8 "failed to read file: " ++ verb ++ utf8 " " ++ path ++ utf8 ": " ++ e.text
  | undecodable encoding reason =>
    utf8 "failed to convert encoding: failed to decode " ++ encoding ++ utf8 ": " ++ reason
  | slashInPattern dir pattern =>
    utf8 "failed to create temp file in " ++ dir ++ utf8 ": createtemp " ++ pattern ++
      utf8 ": pattern contains path separator"
  | noFreeName dir pattern =>
    utf8 "failed to create temp file in " ++ dir ++ utf8 ": createtemp " ++ pattern ++
      utf8 ": file already exists"
  | noTemporary dir temp e =>
    utf8 "failed to create temp file in " ++ dir ++ utf8 ": open " ++ temp ++ utf8 ": " ++ e.text
  | refused verb temp e =>
    utf8 "failed to " ++ verb ++ utf8 " " ++ temp ++ utf8 ": " ++ verb ++ utf8 " " ++ temp ++
      utf8 ": " ++ e.text
  | notRenamed temp path e =>
    utf8 "failed to rename " ++ temp ++ utf8 " to " ++ path ++ utf8 ": rename " ++ temp ++
      utf8 " " ++ path ++ utf8 ": " ++ e.text

/-- Does the error say that something is not there? -/
def isNotFound : FileError → Bool
  | noMatch _ _ => true
  | isDirectory _ | undecodable _ _ | slashInPattern _ _ | noFreeName _ _ => false
  | unreadableDirectory _ _ e | unavailable _ e | unreadableFile _ _ e | noTemporary _ _ e
  | refused _ _ e | notRenamed _ _ e => e = .notFound

end FileError

/-- The steps of looking something up that the system can refuse. -/
inductive LookupStep
  /-- Seeing what an input is. -/
  | stat
  /-- Seeing what is at the path of a file. -/
  | confirm
  | openDirectory
  | readDirectory
  deriving DecidableEq, Repr

namespace FileTree

/-- The names of the files in a directory, in the order of their bytes. -/
def fileNames (t : FileTree) (refusal : LookupStep → Option SystemError) (dir : Text) :
    Except FileError (List Text) :=
  match refusal .openDirectory, t.list dir with
  | some e, _ | none, .error e => .error (.unreadableDirectory (utf8 "open") dir e)
  | none, .ok entries =>
    match refusal .readDirectory with
    | some e => .error (.unreadableDirectory (utf8 "readdirent") dir e)
    | none => .ok ((entries.filter fun e => !e.2.isDirectory).map (·.1))

/-- The path of the first file of a directory whose name is the given one up to letter case. -/
def findFile (t : FileTree) (refusal : LookupStep → Option SystemError) (dir name : Text) :
    Except FileError Text :=
  match t.fileNames refusal dir with
  | .error e => .error e
  | .ok names =>
    match names.find? fun n => Text.sameFold n name with
    | some n => .ok (Path.join dir n)
    | none => .error (.noMatch name dir)

/-- The path itself if a file is there, and otherwise the file of its directory that has its name up
to letter case. -/
def locateFile (t : FileTree) (refusal : LookupStep → Option SystemError) (path : Text) :
    Except FileError Text :=
  match refusal .confirm, t.stat path with
  | none, .ok .directory => .error (.isDirectory path)
  | none, .ok (.file _ _) => .ok path
  | _, _ => t.findFile refusal (Path.parent path) (Path.lastElement path)

/-- The paths of the files of a directory that have an extension, up to letter case, in the order
of their bytes. -/
def filesWithExtension (t : FileTree) (refusal : LookupStep → Option SystemError)
    (dir ext : Text) : Except FileError (List Text) :=
  match t.fileNames refusal dir with
  | .error e => .error e
  | .ok names =>
    let matching := names.filter fun n => Text.sameFold (Path.extension n) ext
    .ok ((matching.map (Path.join dir)).mergeSort Text.le)

end FileTree

end HackVM
