import HackVM.Text.Decimal

/-!
# Numbers in YAML

A bare scalar can be written as an integer in base ten, two, eight or sixteen, or as a decimal with
a point or an exponent. Integers are exact. A decimal is rounded to 53 binary digits, and where an
integer is wanted its whole part counts.
-/

namespace HackVM

namespace Yaml

/-! ## Integers -/

/-- The value of a hexadecimal digit. -/
def digitValue? (b : UInt8) : Option Nat :=
  if 48 ≤ b ∧ b ≤ 57 then some (b.toNat - 48)
  else if 97 ≤ b ∧ b ≤ 102 then some (b.toNat - 87)
  else if 65 ≤ b ∧ b ≤ 70 then some (b.toNat - 55)
  else none

/-- The value of digits in a base, if there are any and they belong to it. -/
def valueIn? (base : Nat) (t : Text) : Option Nat :=
  if t = [] then none
  else t.foldlM (fun n b =>
    match digitValue? b with
    | some d => if d < base then some (base * n + d) else none
    | none => none) 0

/-- The value of an integer without sign. After a zero, a letter tells the base; without a letter
it is eight. -/
def magnitude? : Text → Option Nat
  | 48 :: 120 :: t | 48 :: 88 :: t => valueIn? 16 t
  | 48 :: 111 :: t | 48 :: 79 :: t => valueIn? 8 t
  | 48 :: 98 :: t | 48 :: 66 :: t => valueIn? 2 t
  | 48 :: d :: t => valueIn? 8 (d :: t)
  | t => valueIn? 10 t

/-- The value of a text that may begin with a sign, the rest of it read by `read`. -/
def signed? (read : Text → Option Nat) : Text → Option Int
  | 45 :: t => (read t).map fun n => -(n : Int)
  | 43 :: t => (read t).map Int.ofNat
  | t => (read t).map Int.ofNat

/-- Does the number fit into 64 bits with a sign? -/
def fitsSigned (n : Int) : Bool := Int64.minValue.toInt ≤ n && n ≤ Int64.maxValue.toInt

/-- The integer that a text without underscores writes out. It fits into 64 bits, with a sign or
without one. A sign may also stand after the letter of base two or eight. -/
def integer? (t : Text) : Option Int :=
  match signed? magnitude? t with
  | some n =>
    if fitsSigned n || (t.head?.any Text.isDigit && n < UInt64.size) then some n else none
  | none =>
    let n := match t with
      | 48 :: 98 :: t => signed? (valueIn? 2) t
      | 48 :: 111 :: t => signed? (valueIn? 8) t
      | _ => none
    n.filter fitsSigned

/-! ## Decimals -/

/-- The number `digits * 10 ^ exponent`, with a sign. -/
structure Decimal where
  negative : Bool
  digits : Nat
  exponent : Int
  deriving DecidableEq, Repr

namespace Decimal

/-- Splits the digits at the beginning off a text. -/
def splitDigits (t : Text) : Text × Text := (t.takeWhile Text.isDigit, t.dropWhile Text.isDigit)

/-- The exponent that a text writes out after its letter; without a letter it is zero. -/
def exponent? (t : Text) : Option Int :=
  let value (t : Text) : Option Nat :=
    if t ≠ [] && t.all Text.isDigit then some t.value else none
  match t with
  | [] => some 0
  | 101 :: t | 69 :: t => signed? value t
  | _ => none

/-- The decimal that a text without underscores writes out: digits with a point before, among or
after them, or without one, and perhaps an exponent. A point needs a digit before or after it. -/
def ofText? (t : Text) : Option Decimal :=
  let unsigned := match t with
    | 45 :: t | 43 :: t => t
    | t => t
  let (whole, rest) := splitDigits unsigned
  let (fraction, rest) := match rest with
    | 46 :: t => splitDigits t
    | t => ([], t)
  if whole = [] && fraction = [] then none
  else (exponent? rest).map fun e =>
    ⟨t.head? = some 45, (whole ++ fraction).value, e - fraction.length⟩

/-- The number of binary digits of a number. -/
def bitLength (n : Nat) : Nat := if n = 0 then 0 else n.log2 + 1

/-- A quotient rounded to the nearest number, a half to the even one. -/
def roundQuotient (n d : Nat) : Nat :=
  let q := n / d
  let twice := 2 * (n % d)
  if d < twice || (twice = d && q % 2 = 1) then q + 1 else q

/-- The number of binary digits that are kept of a decimal. -/
def precision : Nat := 53

/-- The whole part of a quotient that has been rounded to 53 binary digits. -/
def roundedWhole (n d : Nat) : Nat :=
  let length := bitLength (n / d)
  if length ≤ precision then
    let shift := precision - length
    roundQuotient (n <<< shift) d >>> shift
  else
    let shift := length - precision
    roundQuotient n (d <<< shift) <<< shift

/-- No number from here on has a place among the rounded ones. -/
def bound : Nat := 1 <<< 1024

/-- The number of decimal digits before the point, up to which a decimal can be below `bound`. -/
def mostPlaces : Int := 309

/-- The whole part, without its sign, of the decimal after rounding, unless it is too large. -/
def magnitude? (x : Decimal) : Option Nat :=
  let places : Int := (Text.ofNat x.digits).length + x.exponent
  if x.digits = 0 || places < 0 then some 0
  else if mostPlaces < places then none
  else
    let whole :=
      if 0 ≤ x.exponent then roundedWhole (x.digits * Nat.pow 10 x.exponent.toNat) 1
      else roundedWhole x.digits (Nat.pow 10 (-x.exponent).toNat)
    if whole < bound then some whole else none

/-- The whole part of the decimal after rounding, unless it is too large. -/
def whole? (x : Decimal) : Option Int :=
  x.magnitude?.map fun n => if x.negative then -(n : Int) else n

end Decimal

/-- A whole part taken for an integer of 64 bits: numbers above `2 ^ 63` are none, and what else
does not fit becomes the least integer. -/
def clamp? (n : Int) : Option Int :=
  if Int64.maxValue.toInt + 1 < n then none
  else if fitsSigned n then some n
  else some Int64.minValue.toInt

end Yaml

end HackVM
