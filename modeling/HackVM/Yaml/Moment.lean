import HackVM.Text.Decimal

/-!
# Points in time

A bare scalar such as `2024-01-15` or `2024-01-15T10:30:00Z` stands for a day or a moment. Years
have four digits; months, days, hours, minutes and seconds have one or two. After a `T` the time
must have a zone, after spaces it must not.
-/

namespace HackVM

namespace Yaml

/-- The number of one or two digits at the beginning of a text, and the rest. -/
def shortNumber? : Text → Option (Nat × Text)
  | a :: b :: t =>
    if Text.isDigit a && Text.isDigit b then some (Text.value [a, b], t)
    else if Text.isDigit a then some (Text.value [a], b :: t)
    else none
  | [a] => if Text.isDigit a then some (Text.value [a], []) else none
  | [] => none

/-- The number of days of a month. -/
def daysInMonth (year month : Nat) : Nat :=
  if month = 2 then
    if year % 4 = 0 && (year % 100 ≠ 0 || year % 400 = 0) then 29 else 28
  else if [4, 6, 9, 11].contains month then 30
  else 31

/-- The rest of a text after the month and the day of a year. -/
def afterDay? (year : Nat) (t : Text) : Option Text :=
  match shortNumber? t with
  | some (month, 45 :: t) =>
    match shortNumber? t with
    | some (day, rest) =>
      if 1 ≤ month && month ≤ 12 && 1 ≤ day && day ≤ daysInMonth year month then some rest else none
    | none => none
  | _ => none

/-- The rest of a text after the fraction of a second, if there is one. -/
def afterFraction : Text → Text
  | mark :: d :: t =>
    if (mark = 46 || mark = 44) && Text.isDigit d then t.dropWhile Text.isDigit else mark :: d :: t
  | t => t

/-- The rest of a text after a time of day. -/
def afterClock? (t : Text) : Option Text :=
  match shortNumber? t with
  | some (hour, 58 :: t) =>
    match shortNumber? t with
    | some (minute, 58 :: t) =>
      match shortNumber? t with
      | some (second, rest) =>
        if hour < 24 && minute < 60 && second < 60 then some (afterFraction rest) else none
      | none => none
    | _ => none
  | _ => none

/-- Is the text a time zone: `Z`, or a sign, hours and minutes? -/
def isZone : Text → Bool
  | [90] => true
  | [sign, h₁, h₂, 58, m₁, m₂] =>
    (sign = 43 || sign = 45) && [h₁, h₂, m₁, m₂].all Text.isDigit &&
      Text.value [h₁, h₂] ≤ 24 && Text.value [m₁, m₂] ≤ 60
  | _ => false

/-- Does the text stand for a day or a moment? -/
def isMoment (t : Text) : Bool :=
  let year : Text := t.takeWhile Text.isDigit
  match t.drop year.length with
  | 45 :: rest =>
    year.length = 4 &&
      match afterDay? year.value rest with
      | some [] => true
      | some (84 :: t) | some (116 :: t) => (afterClock? t).any isZone
      | some (32 :: t) => afterClock? (t.dropWhile (· = 32)) = some []
      | _ => false
  | _ => false

end Yaml

end HackVM
