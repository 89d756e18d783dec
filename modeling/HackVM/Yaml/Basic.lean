import HackVM.Yaml.Scalar

/-!
# YAML values

A YAML value is a scalar, a list or a map, whose keys are values, too. The functions here read a
value as something of a given kind. In a map, the key `<<` merges further maps into it: their
entries count where the map has none of its own. The entries of a map are listed so that later ones
override earlier ones.
-/

namespace HackVM

/-- A YAML value. -/
inductive Yaml
  | scalar (s : Scalar)
  | list (items : List Yaml)
  | map (entries : List (Yaml × Yaml))

namespace Yaml

/-- The value that stands for nothing. -/
def null : Yaml := .scalar (.bare [])

/-- Does the value stand for nothing? -/
def isNull : Yaml → Bool
  | .scalar s => s.isNull
  | _ => false

/-- The value as a text: any scalar, as it is written. -/
def text? : Yaml → Option Text
  | .scalar s => some (if s.isNull then [] else s.text)
  | _ => none

/-- The value as a number; nothing counts as zero. -/
def int? : Yaml → Option Int
  | .scalar s => if s.isNull then some 0 else s.int?
  | _ => none

/-- The value as a truth value; nothing counts as false. -/
def bool? : Yaml → Option Bool
  | .scalar s => if s.isNull then some false else s.bool?
  | _ => none

/-- The value as a list, its items read by `item`; items that stand for nothing are left out. -/
def list? {α : Type} (item : Yaml → Option α) : Yaml → Option (List α)
  | .list items => (items.filter fun y => !y.isNull).mapM item
  | _ => none

/-- Reads a value unless it stands for nothing. -/
def optional? {α : Type} (read : Yaml → Option α) (y : Yaml) : Option (Option α) :=
  if y.isNull then some none else (read y).map some

/-! ## Maps -/

/-- What two keys of one map must not have in common: a scalar has its text, and all lists are
alike, and so are all maps. -/
inductive KeyShape
  | scalar (text : Text)
  | list
  | map
  deriving DecidableEq, Repr

/-- The shape of a key. -/
def keyShape : Yaml → KeyShape
  | .scalar s => .scalar s.text
  | .list _ => .list
  | .map _ => .map

/-- Do the keys of the entries differ? -/
def keysDiffer (entries : List (Yaml × Yaml)) : Bool := (entries.map (·.1.keyShape)).Nodup

/-- Is the value the key that merges maps? -/
def isMergeKey : Yaml → Bool
  | .scalar s => s = .bare (utf8 "<<")
  | _ => false

mutual

/-- The entries of a map, those merged into it and then its own ones. -/
def allEntries? : Yaml → Option (List (Yaml × Yaml))
  | .map entries =>
    if keysDiffer entries then
      (merged? entries).map fun more => more ++ entries.filter (!·.1.isMergeKey)
    else none
  | _ => none

/-- The entries that are merged into a map with the given entries. -/
def merged? : List (Yaml × Yaml) → Option (List (Yaml × Yaml))
  | [] => some []
  | (key, value) :: entries =>
    if key.isMergeKey then
      match value with
      | .list maps => mergedAll? maps
      | value => value.allEntries?
    else merged? entries

/-- The entries of maps that are merged together, the first of which overrides the others. -/
def mergedAll? : List Yaml → Option (List (Yaml × Yaml))
  | [] => some []
  | y :: ys =>
    match y.allEntries?, mergedAll? ys with
    | some entries, some more => some (more ++ entries)
    | _, _ => none

end

/-- The entries of a map; nothing counts as the empty map. -/
def entries? (y : Yaml) : Option (List (Yaml × Yaml)) :=
  if y.isNull then some [] else y.allEntries?

/-- The fields of a map whose keys are scalars; those under nothing are left out. -/
def fields? (y : Yaml) : Option (List (Text × Yaml)) := do
  let entries ← y.entries?
  (entries.filter fun e => !e.1.isNull).mapM fun (key, value) =>
    match key with
    | .scalar s => some (s.text, value)
    | _ => none

/-- The value of the last field with a name, or `null`. -/
def field (fields : List (Text × Yaml)) (name : String) : Yaml :=
  (fields.reverse.lookup (utf8 name)).getD null

/-- Can the value be merged into a map: is it a map, or a list of maps? -/
def isMergeable : Yaml → Bool
  | .scalar _ => false
  | .list items => items.all (· matches .map _)
  | .map _ => true

mutual

/-- Is every map in the value such that its keys are scalars and differ, and that only maps are
merged into it? -/
def isSound : Yaml → Bool
  | .scalar _ => true
  | .list items => areSound items
  | .map entries => keysDiffer entries && entriesAreSound entries

/-- Are all of the values sound? -/
def areSound : List Yaml → Bool
  | [] => true
  | y :: ys => y.isSound && areSound ys

/-- Are the keys scalars and the values sound, and maps where they are merged? -/
def entriesAreSound : List (Yaml × Yaml) → Bool
  | [] => true
  | (key, value) :: entries =>
    key matches .scalar _ && value.isSound && (!key.isMergeKey || value.isMergeable) &&
      entriesAreSound entries

end

end Yaml

end HackVM
