import HackVM.Yaml.Basic
import HackVM.Yaml.Token

/-!
# Documents

The readers here take the tokens from a value on and return the value and the tokens after it. Their
first argument bounds the depth of the recursion; since of three calls in a row one at least passes
over a token, three times the number of tokens is enough. `Yaml.parse?` reads the first document of
a text; what comes after it counts for nothing, as long as it does not keep the end of the document
from being seen.
-/

namespace HackVM

namespace Yaml

/-- The tokens after the comma between two items or entries in brackets. None is needed before the
first or before the closing token. -/
def afterComma (close : Token) (first : Bool) : List Token → Option (List Token)
  | .comma :: ts => if first then some (.comma :: ts) else some ts
  | ts => if first || ts.head? = some close then some ts else none

mutual

/-- Reads a value. Block lists and maps have a place only outside brackets; `dashes` says that the
dashes of a list may stand right here, without a block of their own. -/
def value : Nat → (inFlow dashes : Bool) → List Token → Option (Yaml × List Token)
  | 0, _, _, _ => none
  | fuel + 1, inFlow, dashes, ts =>
    match ts with
    | .scalar s :: ts => some (.scalar s, ts)
    | .openList :: ts => (flowItems fuel true ts).map fun (ys, ts) => (.list ys, ts)
    | .openMap :: ts => (flowEntries fuel true ts).map fun (es, ts) => (.map es, ts)
    | .dash :: _ =>
      if dashes then (dashItems fuel ts).map fun (ys, ts) => (.list ys, ts) else none
    | .blockList :: ts =>
      if inFlow then none else (blockItems fuel ts).map fun (ys, ts) => (.list ys, ts)
    | .blockMap :: ts =>
      if inFlow then none else (blockEntries fuel ts).map fun (es, ts) => (.map es, ts)
    | _ => none

/-- Reads a value, which is `null` if one of the tokens `ends` comes instead. -/
def valueBefore : Nat → (ends : List Token) → (inFlow dashes : Bool) → List Token →
    Option (Yaml × List Token)
  | 0, _, _, _, _ => none
  | fuel + 1, ends, inFlow, dashes, ts =>
    if ts.head?.any ends.contains then some (null, ts) else value fuel inFlow dashes ts

/-- Reads the items of a block list up to its end. -/
def blockItems : Nat → List Token → Option (List Yaml × List Token)
  | 0, _ => none
  | fuel + 1, ts =>
    match ts with
    | .dash :: ts =>
      match valueBefore fuel [.dash, .blockEnd] false false ts with
      | some (y, ts) => (blockItems fuel ts).map fun (ys, ts) => (y :: ys, ts)
      | none => none
    | .blockEnd :: ts => some ([], ts)
    | _ => none

/-- Reads the items of a list whose dashes stand where the keys around it stand. -/
def dashItems : Nat → List Token → Option (List Yaml × List Token)
  | 0, _ => none
  | fuel + 1, ts =>
    match ts with
    | .dash :: ts =>
      match valueBefore fuel [.dash, .key, .colon, .blockEnd] false false ts with
      | some (y, ts) => (dashItems fuel ts).map fun (ys, ts) => (y :: ys, ts)
      | none => none
    | ts => some ([], ts)

/-- Reads the entries of a block map up to its end. -/
def blockEntries : Nat → List Token → Option (List (Yaml × Yaml) × List Token)
  | 0, _ => none
  | fuel + 1, ts =>
    match ts with
    | .key :: ts =>
      match valueBefore fuel [.key, .colon, .blockEnd] false true ts with
      | some (k, ts) =>
        match valueAfterColon fuel [.key, .colon, .blockEnd] false true ts with
        | some (y, ts) => (blockEntries fuel ts).map fun (es, ts) => ((k, y) :: es, ts)
        | none => none
      | none => none
    | .blockEnd :: ts => some ([], ts)
    | _ => none

/-- Reads a colon and the value after it, which is `null` if one of the tokens `ends` comes instead.
Without a colon it is `null`, too. -/
def valueAfterColon : Nat → (ends : List Token) → (inFlow dashes : Bool) → List Token →
    Option (Yaml × List Token)
  | 0, _, _, _, _ => none
  | fuel + 1, ends, inFlow, dashes, ts =>
    match ts with
    | .colon :: ts => valueBefore fuel ends inFlow dashes ts
    | ts => some (null, ts)

/-- Reads the items of a list in brackets up to the closing one; before each but the first there is
a comma. A key makes an item a map with one entry. -/
def flowItems : Nat → (first : Bool) → List Token → Option (List Yaml × List Token)
  | 0, _, _ => none
  | fuel + 1, first, ts =>
    match afterComma .closeList first ts with
    | none => none
    | some (.closeList :: ts) => some ([], ts)
    | some (.key :: ts) =>
      match pair fuel ts with
      | some (y, ts) => (flowItems fuel false ts).map fun (ys, ts) => (y :: ys, ts)
      | none => none
    | some ts =>
      match value fuel true false ts with
      | some (y, ts) => (flowItems fuel false ts).map fun (ys, ts) => (y :: ys, ts)
      | none => none

/-- Reads the one entry of a map in a list in brackets. The token that comes instead of a key is
passed over. -/
def pair : Nat → List Token → Option (Yaml × List Token)
  | 0, _ => none
  | fuel + 1, ts =>
    let key :=
      if ts.head?.any [Token.colon, .comma, .closeList].contains then some (null, ts.tail)
      else value fuel true false ts
    match key with
    | some (k, ts) =>
      (valueAfterColon fuel [.comma, .closeList] true false ts).map fun (y, ts) =>
        (.map [(k, y)], ts)
    | none => none

/-- Reads the entries of a map in braces up to the closing one; before each but the first there is a
comma. What is no key has no value either. -/
def flowEntries : Nat → (first : Bool) → List Token → Option (List (Yaml × Yaml) × List Token)
  | 0, _, _ => none
  | fuel + 1, first, ts =>
    match afterComma .closeMap first ts with
    | none => none
    | some (.closeMap :: ts) => some ([], ts)
    | some (.key :: ts) =>
      match valueBefore fuel [.colon, .comma, .closeMap] true false ts with
      | some (k, ts) =>
        match valueAfterColon fuel [.comma, .closeMap] true false ts with
        | some (y, ts) => (flowEntries fuel false ts).map fun (es, ts) => ((k, y) :: es, ts)
        | none => none
      | none => none
    | some ts =>
      match value fuel true false ts with
      | some (k, ts) => (flowEntries fuel false ts).map fun (es, ts) => ((k, null) :: es, ts)
      | none => none

end

/-- Reads the first document of a sequence of tokens; there may be none. -/
def ofTokens? (ts : List Token) : Option Yaml :=
  let fuel := 3 * ts.length + 3
  let document := match ts with
    | .finish :: _ => some (null, ts)
    | .documentStart :: ts =>
      valueBefore fuel [.documentStart, .documentEnd, .finish] false false ts
    | ts => value fuel false false ts
  -- a token after the document shows that it has ended
  (document.filter fun d => d.2 ≠ []).map (·.1)

/-- Reads the first document of a text. -/
def parse? (t : Text) : Option Yaml := (characters? t).bind fun cs => ofTokens? (tokens cs)

end Yaml

end HackVM
