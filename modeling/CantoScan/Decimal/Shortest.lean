import CantoScan.Decimal.Double

/-! The decimal text of a double: the fewest digits that read back as the same value, and of those
the nearest. -/

namespace CantoScan.Decimal

/-- The number `digits * 10 ^ exponent`. -/
structure Scientific where
  digits : Nat
  exponent : Int
  deriving DecidableEq

namespace Magnitude

/-- The values that round to a number, as numerators over a common denominator: the lower end, the
number itself and the upper end. -/
structure Interval where
  lower : Nat
  value : Nat
  upper : Nat
  denominator : Nat
  closed : Bool

def interval (number : Magnitude) : Interval :=
  let factor := Nat.pow 2 (number.exponent - 2).toNat
  let below := if number.mantissa = mantissaLimit / 2 ∧ -1074 < number.exponent then 1 else 2
  { lower := (4 * number.mantissa - below) * factor
    value := 4 * number.mantissa * factor
    upper := (4 * number.mantissa + 2) * factor
    denominator := Nat.pow 2 (2 - number.exponent).toNat
    closed := number.mantissa % 2 = 0 }

end Magnitude

namespace Magnitude.Interval

def inUnits (range : Interval) (exponent : Int) : Interval :=
  let factor := Nat.pow 10 (-exponent).toNat
  { range with
    lower := range.lower * factor
    value := range.value * factor
    upper := range.upper * factor
    denominator := range.denominator * Nat.pow 10 exponent.toNat }

def contains (range : Interval) (n : Nat) : Bool :=
  let point := n * range.denominator
  if range.closed then range.lower ≤ point && point ≤ range.upper
  else range.lower < point && point < range.upper

/-- The power of ten just above the value. -/
def ceilingExponent (range : Interval) : Int :=
  if range.denominator ≤ range.value then (toString (range.value / range.denominator)).length
  else
    let places := (toString (range.denominator / range.value)).length
    if range.denominator ≤ range.value * Nat.pow 10 (places - 1) then 2 - places else 1 - places

/-- The point on the grid of whole units that is in the interval and nearest to the value. -/
def nearest? (range : Interval) : Option Nat :=
  let floor := range.value / range.denominator
  match range.contains floor, range.contains (floor + 1) with
  | true, true => some (roundQuotient range.value range.denominator)
  | true, false => some floor
  | false, true => some (floor + 1)
  | false, false => none

end Magnitude.Interval

namespace Scientific

def normalize (fuel : Nat) (number : Scientific) : Scientific :=
  match fuel with
  | 0 => number
  | fuel + 1 =>
    if number.digits ≠ 0 ∧ number.digits % 10 = 0 then
      normalize fuel ⟨number.digits / 10, number.exponent + 1⟩
    else number

/-- Whole numbers and simple fractions are written in full, with at least one place behind the point;
very large and very small numbers with an exponent, which always has a sign. -/
def text (number : Scientific) : String :=
  let digits := toString number.digits
  let point := digits.length + number.exponent
  let zeros (n : Nat) := "".pushn '0' n
  if 0 ≤ number.exponent ∧ point ≤ 16 then digits ++ zeros number.exponent.toNat ++ ".0"
  else if 0 < point ∧ point ≤ 16 then
    (digits.take point.toNat).toString ++ "." ++ (digits.drop point.toNat).toString
  else if -5 < point ∧ point ≤ 0 then "0." ++ zeros (-point).toNat ++ digits
  else
    let fraction := if digits.length = 1 then "" else "." ++ (digits.drop 1).toString
    let sign := if 0 < point then "+" else ""
    s!"{(digits.take 1).toString}{fraction}e{sign}{point - 1}"

end Scientific

/-- Tries one digit, then two, and so on; seventeen are always enough. -/
def Magnitude.shortest (number : Magnitude) : Scientific :=
  let range := number.interval
  let ceiling := range.ceilingExponent
  let attempt (count : Nat) : Option Scientific :=
    let exponent := ceiling - count
    (range.inUnits exponent).nearest?.map fun digits => ⟨digits, exponent⟩
  (((List.range' 1 17).findSome? attempt).getD ⟨0, 0⟩).normalize 17

def Double.text (number : Double) : String :=
  let sign := if number.negative then "-" else ""
  if number.magnitude.mantissa = 0 then sign ++ "0.0" else sign ++ number.magnitude.shortest.text

end CantoScan.Decimal
