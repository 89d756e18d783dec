import HackVM.Yaml.Moment
import HackVM.Yaml.Number

/-!
# Scalars

A scalar keeps its text and whether it was quoted, since only a bare scalar can stand for something
else than its text: for nothing, a truth value, a number or a point in time. `Scalar.meaning` says
for what.
-/

namespace HackVM

/-- A scalar: its text, and whether it was written with quotes or as a block. -/
structure Scalar where
  text : Text
  quoted : Bool
  deriving DecidableEq, Repr

/-- What a scalar stands for. -/
inductive Meaning
  | nothing
  | truth (b : Bool)
  | integer (n : Int)
  /-- A number that is not written as an integer, with the integer it is taken for where one is
  wanted. -/
  | decimal (whole : Option Int)
  | moment
  | text
  deriving DecidableEq, Repr

namespace Scalar

/-- A scalar without quotes. -/
def bare (t : Text) : Scalar := ⟨t, false⟩

/-- The words with a meaning of their own. -/
def words : List (String × Meaning) :=
  [("", .nothing), ("~", .nothing), ("null", .nothing), ("Null", .nothing), ("NULL", .nothing),
    ("true", .truth true), ("True", .truth true), ("TRUE", .truth true),
    ("false", .truth false), ("False", .truth false), ("FALSE", .truth false),
    (".nan", .decimal none), (".NaN", .decimal none), (".NAN", .decimal none),
    (".inf", .decimal none), (".Inf", .decimal none), (".INF", .decimal none),
    ("+.inf", .decimal none), ("+.Inf", .decimal none), ("+.INF", .decimal none),
    ("-.inf", .decimal (some Int64.minValue.toInt)),
    ("-.Inf", .decimal (some Int64.minValue.toInt)),
    ("-.INF", .decimal (some Int64.minValue.toInt))]

/-- Does every underscore of the text stand between two digits? `afterDigit` says whether a digit
stands right before the text. -/
def underscoresSeparate (afterDigit : Bool) : Text → Bool
  | [] => true
  | b :: t =>
    (b ≠ 95 || (afterDigit && t.head?.any Text.isDigit)) &&
      underscoresSeparate (Text.isDigit b) t

/-- The text without its underscores. -/
def dropUnderscores (t : Text) : Text := t.filter (· ≠ 95)

/-- The meaning of a decimal, unless it is too large. -/
def decimalMeaning? (t : Text) : Option Meaning :=
  ((Yaml.Decimal.ofText? t).bind (·.whole?)).map fun n => .decimal (Yaml.clamp? n)

/-- What a text stands for as a number. Underscores count for nothing, but in a number that begins
with its point they must separate digits. -/
def numberMeaning? (t : Text) : Option Meaning :=
  match t.head? with
  | none => none
  | some b =>
    let plain := dropUnderscores t
    if b = 46 then if underscoresSeparate false t then decimalMeaning? plain else none
    else if Text.isDigit b || b = 43 || b = 45 then
      ((Yaml.integer? plain).map .integer).or (decimalMeaning? plain)
    else none

/-- What the scalar stands for. -/
def meaning (s : Scalar) : Meaning :=
  if s.quoted then .text
  else
    match words.find? fun w => utf8 w.1 = s.text with
    | some w => w.2
    | none => if Yaml.isMoment s.text then .moment else (numberMeaning? s.text).getD .text

/-- Does the scalar stand for nothing? -/
def isNull (s : Scalar) : Bool := s.meaning = .nothing

/-- The scalar as an integer of 64 bits. -/
def int? (s : Scalar) : Option Int :=
  match s.meaning with
  | .integer n => if Yaml.fitsSigned n then some n else none
  | .decimal whole => whole
  | _ => none

/-- The words that count as yes where a truth value is wanted. -/
def yesWords : List String := ["y", "Y", "yes", "Yes", "YES", "on", "On", "ON"]

/-- The words that count as no where a truth value is wanted. -/
def noWords : List String := ["n", "N", "no", "No", "NO", "off", "Off", "OFF"]

/-- The scalar as a truth value. -/
def bool? (s : Scalar) : Option Bool :=
  match s.meaning with
  | .truth b => some b
  | .text =>
    if yesWords.any fun w => utf8 w = s.text then some true
    else if noWords.any fun w => utf8 w = s.text then some false
    else none
  | _ => none

end Scalar

end HackVM
