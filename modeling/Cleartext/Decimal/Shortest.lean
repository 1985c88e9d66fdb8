import Cleartext.Decimal.Binary
import Cleartext.Text.Hexadecimal

/-!
# The shortest decimal that reads back

A decimal reads back as a binary number when it lies between the midpoints to
the two neighbouring binary numbers; a midpoint itself counts when the
significand is even.  `shortest` tries one digit, two digits and so on: on
each grid only the two neighbours of the number can lie in the interval, and
of two that do the nearer one is taken, an exact tie going to the even one.
-/

namespace Cleartext

/-- The number `coefficient · 10 ^ exponent`. -/
structure Decimal where
  coefficient : Nat
  exponent : Int
deriving DecidableEq, Repr

namespace Decimal

/-- A positive number with its two rounding boundaries, all over one
denominator. -/
structure Interval where
  value : Nat
  low : Nat
  high : Nat
  denominator : Nat
  closed : Bool

/-- The interval of the reals that round to `significand · 2 ^ exponent`. -/
def Interval.around (significand : Nat) (exponent : Int) (narrowBelow : Bool) : Interval :=
  let up := (exponent - 2).toNat
  let down := (2 - exponent).toNat
  let scale := Nat.pow 2 up
  { value := 4 * significand * scale
    low := (4 * significand - if narrowBelow then 1 else 2) * scale
    high := (4 * significand + 2) * scale
    denominator := Nat.pow 2 down
    closed := significand % 2 = 0 }

/-- The interval with every number multiplied by `10 ^ power`. -/
def Interval.scaled (i : Interval) (power : Int) : Interval :=
  let up := Nat.pow 10 power.toNat
  let down := Nat.pow 10 (-power).toNat
  { i with value := i.value * up, low := i.low * up, high := i.high * up
           denominator := i.denominator * down }

/-- Whether a whole number lies in the interval. -/
def Interval.contains (i : Interval) (n : Nat) : Bool :=
  let x := n * i.denominator
  if i.closed then i.low ≤ x && x ≤ i.high else i.low < x && x < i.high

/-- The whole number in the interval that is nearest to the value, if one of
the value's two neighbours is in it. -/
def Interval.nearest? (i : Interval) : Option Nat :=
  let below := i.value / i.denominator
  match i.contains below, i.contains (below + 1) with
  | false, false => none
  | true, false => some below
  | false, true => some (below + 1)
  | true, true =>
    let twice := 2 * (i.value % i.denominator)
    if twice < i.denominator then some below
    else if twice > i.denominator then some (below + 1)
    else if below % 2 = 0 then some below else some (below + 1)

/-- The number of digits before the point of a value that is at least one. -/
def Interval.wholeDigits (i : Interval) : Nat :=
  (Text.inBase 10 (i.value / i.denominator)).length

/-- How many places the point of a value below one moves right until the
value is at least one. -/
def Interval.leadingZeros (i : Interval) : Nat → Nat → Nat
  | 0, n => n
  | fuel + 1, n =>
    if i.value * Nat.pow 10 n < i.denominator then leadingZeros i fuel (n + 1) else n

/-- The place of the decimal point: the value lies between `10 ^ (p - 1)`
and `10 ^ p`. -/
def Interval.point (i : Interval) : Int :=
  if i.denominator ≤ i.value then i.wholeDigits else 1 - (i.leadingZeros 400 1 : Int)

/-- Tries grids of `digits`, `digits + 1`, … digits. -/
def Interval.search (i : Interval) (point : Int) : Nat → Nat → Decimal
  | 0, _ => ⟨0, 0⟩
  | fuel + 1, digits =>
    match (i.scaled (digits - point)).nearest? with
    | some n => ⟨n, point - digits⟩
    | none => search i point fuel (digits + 1)

/-- Moves the zeros at the end of the coefficient into the exponent. -/
def trimAux : Nat → Nat → Int → Decimal
  | 0, c, e => ⟨c, e⟩
  | fuel + 1, c, e => if c ≠ 0 ∧ c % 10 = 0 then trimAux fuel (c / 10) (e + 1) else ⟨c, e⟩

/-- The decimal with the fewest digits that reads back as
`significand · 2 ^ exponent`; seventeen digits are always enough. -/
def shortest (significand : Nat) (exponent : Int) (narrowBelow : Bool) : Decimal :=
  if significand = 0 then ⟨0, 0⟩
  else
    let i := Interval.around significand exponent narrowBelow
    let d := i.search i.point 20 1
    trimAux 20 d.coefficient d.exponent

/-- The digits of the coefficient. -/
def digits (d : Decimal) : String := Text.inBase 10 d.coefficient

/-- The exponent in scientific notation. -/
def order (d : Decimal) : Int := d.digits.length - 1 + d.exponent

/-- Positional notation with no more digits than needed. -/
def positional (d : Decimal) : String :=
  let digits := d.digits.toList
  if 0 ≤ d.exponent then
    String.ofList (digits ++ List.replicate d.exponent.toNat '0')
  else
    let places := (-d.exponent).toNat
    let padded := List.replicate (places + 1 - digits.length) '0' ++ digits
    let whole := padded.length - places
    String.ofList (padded.take whole) ++ "." ++ String.ofList (padded.drop whole)

/-- The mantissa of scientific notation: one digit, then a point and the
other digits if there are any. -/
def mantissa (d : Decimal) : String :=
  match d.digits.toList with
  | [] => ""
  | [c] => c.toString
  | c :: rest => c.toString ++ "." ++ String.ofList rest

/-- Scientific notation whose exponent has a sign and at least two digits. -/
def scientific (d : Decimal) : String :=
  let e := d.order
  d.mantissa ++ "e" ++ (if e < 0 then "-" else "+") ++ Text.padLeft 2 '0' (Text.inBase 10 e.natAbs)

/-- The general text of a number: positional for orders from -4 up to 5,
scientific otherwise. -/
def general : Binary → String
  | .nan => "NaN"
  | .infinite negative => if negative then "-Inf" else "+Inf"
  | .finite negative significand exponent narrowBelow =>
    let d := shortest significand exponent narrowBelow
    let order := d.order
    (if negative then "-" else "") ++
      if order < -4 || 6 ≤ order then d.scientific else d.positional

end Decimal

end Cleartext
