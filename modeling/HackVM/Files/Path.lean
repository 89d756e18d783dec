import HackVM.Text.Basic

/-!
# Paths

Paths are texts with slashes between their elements. The functions here work on the text alone and
never look at files.
-/

namespace HackVM

namespace Path

/-- The byte between the elements of a path. -/
def slash : UInt8 := 47

/-- The elements of a path; they are empty where slashes meet or end it. -/
def elements (p : Text) : List Text := p.splitOn slash

/-- One more element at the end of a cleaned path, whose elements are given in reverse: a dot or
nothing is dropped, two dots take the element before away. They stay at the front of a relative
path. -/
def pushElement (rooted : Bool) (done : List Text) (e : Text) : List Text :=
  if e = [] ∨ e = utf8 "." then done
  else if e = utf8 ".." then
    match done with
    | [] => if rooted then [] else [e]
    | d :: rest => if d = utf8 ".." then e :: done else rest
  else e :: done

/-- The elements of the shortest path that means the same. -/
def cleanElements (p : Text) : List Text :=
  ((elements p).foldl (pushElement (p.head? = some slash)) []).reverse

/-- The shortest path that means the same. -/
def clean (p : Text) : Text :=
  let body := [slash].intercalate (cleanElements p)
  if p.head? = some slash then slash :: body
  else if body = [] then utf8 "." else body

/-- The path of the directory that a path lies in. -/
def parent (p : Text) : Text :=
  clean (p.reverse.dropWhile (· ≠ slash)).reverse

/-- The last element of a path, slashes after it left aside. -/
def lastElement (p : Text) : Text :=
  if p = [] then utf8 "."
  else
    let name := ((p.reverse.dropWhile (· = slash)).takeWhile (· ≠ slash)).reverse
    if name = [] then [slash] else name

/-- The part of the last element from its last dot on; nothing if there is no dot. -/
def extension (p : Text) : Text :=
  let name := (p.reverse.takeWhile (· ≠ slash)).reverse
  match Text.lastPosition? (utf8 ".") name with
  | none => []
  | some i => name.drop i

/-- The path of an element in a directory. -/
def join (dir name : Text) : Text :=
  if dir = [] then (if name = [] then [] else clean name) else clean (dir ++ [slash] ++ name)

/-- The path with another extension. -/
def withExtension (p ext : Text) : Text := Text.dropEnding (extension p) p ++ ext

/-- The last element without its extension. -/
def stem (p : Text) : Text :=
  let name := lastElement p
  Text.dropEnding (extension name) name

/-- The path of something below a directory, seen from the directory. -/
def relativeTo (dir p : Text) : Text :=
  let rest := (cleanElements p).drop (cleanElements dir).length
  if rest = [] then utf8 "." else [slash].intercalate rest

end Path

end HackVM
